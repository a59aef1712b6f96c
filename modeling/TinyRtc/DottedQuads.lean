import TinyRtc.Inet

namespace TinyRtc.DottedQuads

open TinyRtc.BigEndian
open TinyRtc.CString
open TinyRtc.Decimal
open TinyRtc.Inet

theorem inetPtonLoop_first (octets : List Nat) {d : Nat} (hd : d < 10) (rest : List UInt8) :
    inetPtonLoop octets none (digit d :: rest) = inetPtonLoop octets (some d) rest := by
  obtain ⟨hdigit, hvalue⟩ := digit_spec d hd
  rw [inetPtonLoop.eq_def]
  dsimp only
  rw [if_pos hdigit, hvalue]

theorem inetPtonLoop_digit (octets : List Nat) {value d : Nat} (hd : d < 10) (hvalue : value ≠ 0)
    (hle : value * 10 + d ≤ 255) (rest : List UInt8) :
    inetPtonLoop octets (some value) (digit d :: rest) =
      inetPtonLoop octets (some (value * 10 + d)) rest := by
  obtain ⟨hdigit, hdigitValue⟩ := digit_spec d hd
  rw [inetPtonLoop.eq_def]
  dsimp only
  rw [if_pos hdigit, hdigitValue, if_neg (by omega)]

theorem decimal_byte {n : Nat} (hn : n < 256) :
    decimal n =
      if n < 10 then [digit n]
      else if n < 100 then [digit (n / 10), digit (n % 10)]
      else [digit (n / 100), digit (n / 10 % 10), digit (n % 10)] := by
  split
  · next hsmall =>
    rw [decimal, digitsAux, if_pos hsmall, Nat.mod_eq_of_lt hsmall]
    rfl
  · split
    · next hlarge hsmall =>
      obtain ⟨fuel, rfl⟩ : ∃ fuel, n = fuel + 1 := ⟨n - 1, by omega⟩
      rw [decimal, digitsAux, if_neg hlarge, digitsAux, if_pos (by omega),
        Nat.mod_eq_of_lt (by omega : (fuel + 1) / 10 < 10)]
      rfl
    · next hlarge hlarger =>
      obtain ⟨fuel, rfl⟩ : ∃ fuel, n = fuel + 2 := ⟨n - 2, by omega⟩
      rw [decimal, digitsAux, if_neg hlarge, digitsAux, if_neg (by omega), digitsAux,
        if_pos (by omega), Nat.div_div_eq_div_mul,
        Nat.mod_eq_of_lt (by omega : (fuel + 2) / (10 * 10) < 10)]
      rfl

theorem inetPtonLoop_octet (octets : List Nat) (byte : UInt8) (rest : List UInt8) :
    inetPtonLoop octets none (decimal byte.toNat ++ rest) =
      inetPtonLoop octets (some byte.toNat) rest := by
  have hbyte : byte.toNat < 256 := byte.toNat_lt
  rw [decimal_byte hbyte]
  split
  · next hsmall => exact inetPtonLoop_first octets hsmall rest
  · split
    · next hlarge hsmall =>
      rw [List.cons_append, List.cons_append, List.nil_append,
        inetPtonLoop_first octets (by omega), inetPtonLoop_digit octets (by omega) (by omega)
          (by omega)]
      congr 2
      omega
    · rw [List.cons_append, List.cons_append, List.cons_append, List.nil_append,
        inetPtonLoop_first octets (by omega), inetPtonLoop_digit octets (by omega) (by omega)
          (by omega), inetPtonLoop_digit octets (by omega) (by omega) (by omega)]
      congr 2
      omega

theorem inetPtonLoop_dot (octets : List Nat) (value : Nat) (rest : List UInt8) :
    inetPtonLoop octets (some value) (0x2E :: rest) = inetPtonLoop (value :: octets) none rest :=
  rfl

/-- `inet_pton` reads what `inet_ntop` writes. -/
theorem inetPton_inetNtop (addr : UInt32) : inetPton (inetNtop addr) = some addr := by
  have hdot : ascii "." = [0x2E] := by decide
  have hlast : ∀ (octets : List Nat) (byte : UInt8),
      inetPtonLoop octets none (decimal byte.toNat) = some (byte.toNat :: octets) := by
    intro octets byte
    rw [← List.append_nil (decimal _), inetPtonLoop_octet, inetPtonLoop]
  have hbytes : inetPtonLoop [] none (inetNtop addr) =
      some ((write32 addr).map UInt8.toNat).reverse := by
    simp only [inetNtop, write32, hdot, List.map_cons, List.map_nil, List.intercalate,
      List.intersperse, List.flatten_cons, List.flatten_nil, List.append_nil, List.cons_append,
      List.nil_append, inetPtonLoop_octet, inetPtonLoop_dot, hlast]
    rfl
  rw [inetPton, hbytes]
  simp only [write32, List.map_cons, List.map_nil, List.reverse_cons, List.reverse_nil,
    List.nil_append, List.cons_append, Nat.toUInt8_eq, UInt8.ofNat_toNat]
  exact congrArg some (read32_write32 addr)

end TinyRtc.DottedQuads
