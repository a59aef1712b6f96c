import Mathlib.Algebra.Group.Nat.Defs
import Mathlib.Data.Fin.Basic
import Mathlib.Data.List.Basic
import Mathlib.Tactic.Common

namespace TinyRtc.Base64

/-- The symbols of an encoding in groups of six bits, and how they are read back. -/
structure Alphabet (α : Type*) where
  symbol : Fin 64 → α
  value : α → Option (Fin 64)
  pad : α
  value_symbol : ∀ i, value (symbol i) = some i
  value_pad : value pad = none

/-- The alphabet of RFC 4648, section 4: letters, digits, plus and slash, padded with the equals
sign. -/
def standard : Alphabet UInt8 where
  symbol i :=
    if i < 26 then UInt8.ofNat (0x41 + i)
    else if i < 52 then UInt8.ofNat (0x61 + (i - 26))
    else if i < 62 then UInt8.ofNat (0x30 + (i - 52))
    else if i = 62 then 0x2B else 0x2F
  value c :=
    if 0x41 ≤ c ∧ c ≤ 0x5A then some (Fin.ofNat 64 (c.toNat - 0x41))
    else if 0x61 ≤ c ∧ c ≤ 0x7A then some (Fin.ofNat 64 (c.toNat - 0x61 + 26))
    else if 0x30 ≤ c ∧ c ≤ 0x39 then some (Fin.ofNat 64 (c.toNat - 0x30 + 52))
    else if c = 0x2B then some 62
    else if c = 0x2F then some 63
    else none
  pad := 0x3D
  value_symbol := by decide +kernel
  value_pad := by decide

/-- Three bytes as a group of 24 bits. -/
def group (a b c : UInt8) : Nat :=
  a.toNat * 2 ^ 16 + b.toNat * 2 ^ 8 + c.toNat

/-- The six bits of a group above its lowest `shift` ones. -/
def sextet (group shift : Nat) : Fin 64 :=
  Fin.ofNat 64 (group / 2 ^ shift)

/-- Four times six bits as a group of 24. -/
def ungroup (w x y z : Fin 64) : Nat :=
  w.val * 2 ^ 18 + x.val * 2 ^ 12 + y.val * 2 ^ 6 + z.val

/-- The byte of a group above its lowest `shift` bits. -/
def octet (group shift : Nat) : UInt8 :=
  UInt8.ofNat (group / 2 ^ shift)

theorem ungroup_sextets (a b c : UInt8) :
    ungroup (sextet (group a b c) 18) (sextet (group a b c) 12) (sextet (group a b c) 6)
      (sextet (group a b c) 0) = group a b c := by
  have ha := a.toNat_lt
  have hb := b.toNat_lt
  have hc := c.toNat_lt
  simp only [ungroup, sextet, Fin.ofNat, group]
  omega

theorem octets_group (a b c : UInt8) :
    octet (group a b c) 16 = a ∧ octet (group a b c) 8 = b ∧ octet (group a b c) 0 = c := by
  have ha := a.toNat_lt
  have hb := b.toNat_lt
  have hc := c.toNat_lt
  simp only [octet, ← UInt8.toNat_inj, UInt8.toNat_ofNat', group]
  omega

/-- A single byte has no bits in the last two symbols. -/
theorem sextets_one (a : UInt8) : sextet (group a 0 0) 6 = 0 ∧ sextet (group a 0 0) 0 = 0 := by
  simp only [sextet, ← Fin.val_inj, Fin.ofNat, group]
  change (a.toNat * 2 ^ 16 + 0 * 2 ^ 8 + 0) / 2 ^ 6 % 64 = 0 ∧
    (a.toNat * 2 ^ 16 + 0 * 2 ^ 8 + 0) / 2 ^ 0 % 64 = 0
  omega

theorem sextets_two (a b : UInt8) : sextet (group a b 0) 0 = 0 := by
  simp only [sextet, ← Fin.val_inj, Fin.ofNat, group]
  change (a.toNat * 2 ^ 16 + b.toNat * 2 ^ 8 + 0) / 2 ^ 0 % 64 = 0
  omega

section

variable {α : Type*} (alphabet : Alphabet α)

/-- RFC 4648, section 4: the bytes in groups of three, a last group that is short filled up with
zero bits, and pads in the place of the symbols that have none of its bits. -/
def encode : List UInt8 → List α
  | [] => []
  | [a] =>
      [alphabet.symbol (sextet (group a 0 0) 18), alphabet.symbol (sextet (group a 0 0) 12),
        alphabet.pad, alphabet.pad]
  | [a, b] =>
      [alphabet.symbol (sextet (group a b 0) 18), alphabet.symbol (sextet (group a b 0) 12),
        alphabet.symbol (sextet (group a b 0) 6), alphabet.pad]
  | a :: b :: c :: rest =>
      alphabet.symbol (sextet (group a b c) 18) :: alphabet.symbol (sextet (group a b c) 12) ::
        alphabet.symbol (sextet (group a b c) 6) :: alphabet.symbol (sextet (group a b c) 0) ::
          encode rest

/-- The bytes of four symbols, of which the last two may be pads. -/
def decodeQuad (w x y z : α) : Option (List UInt8) :=
  match alphabet.value w, alphabet.value x, alphabet.value y, alphabet.value z with
  | some w, some x, some y, some z =>
      some [octet (ungroup w x y z) 16, octet (ungroup w x y z) 8, octet (ungroup w x y z) 0]
  | some w, some x, some y, none => some [octet (ungroup w x y 0) 16, octet (ungroup w x y 0) 8]
  | some w, some x, none, none => some [octet (ungroup w x 0 0) 16]
  | _, _, _, _ => none

/-- The inverse; only the last four symbols may hold pads. -/
def decode : List α → Option (List UInt8)
  | [] => some []
  | w :: x :: y :: z :: rest =>
      (decodeQuad alphabet w x y z).bind fun bytes =>
        if bytes.length = 3 ∨ rest.isEmpty then (decode rest).map (bytes ++ ·) else none
  | _ => none

theorem encode_length (bytes : List UInt8) :
    (encode alphabet bytes).length = (bytes.length + 2) / 3 * 4 := by
  fun_induction encode alphabet bytes with
  | case1 => simp
  | case2 => simp
  | case3 => simp
  | case4 a b c rest ih =>
      simp only [List.length_cons, ih]
      omega

theorem decode_encode (bytes : List UInt8) :
    decode alphabet (encode alphabet bytes) = some bytes := by
  fun_induction encode alphabet bytes with
  | case1 => rfl
  | case2 a =>
      have hungroup := ungroup_sextets a 0 0
      obtain ⟨hthird, hfourth⟩ := sextets_one a
      rw [hthird, hfourth] at hungroup
      simp [decode, decodeQuad, alphabet.value_symbol, alphabet.value_pad, hungroup,
        octets_group a 0 0]
  | case3 a b =>
      have hungroup := ungroup_sextets a b 0
      rw [sextets_two a b] at hungroup
      simp [decode, decodeQuad, alphabet.value_symbol, alphabet.value_pad, hungroup,
        octets_group a b 0]
  | case4 a b c rest ih =>
      simp [decode, decodeQuad, alphabet.value_symbol, ungroup_sextets, octets_group a b c, ih]

theorem encode_injective : Function.Injective (encode alphabet) := by
  intro bytes bytes' h
  have hdecoded := congrArg (decode alphabet) h
  rw [decode_encode, decode_encode] at hdecoded
  exact Option.some.inj hdecoded

end

end TinyRtc.Base64
