import Mathlib.Data.FinEnum
import TinyRtc.Base64
import TinyRtc.CString

namespace TinyRtc.Base64Encoder

open TinyRtc.Base64
open TinyRtc.CString

/-- `base64_chars`. -/
def base64Chars : List UInt8 :=
  ascii "ABCDEFGHIJKLMNOPQRSTUVWXYZabcdefghijklmnopqrstuvwxyz0123456789+/"

def base64Char (i : UInt8) : UInt8 :=
  base64Chars.getD i.toNat 0

/-- The local variables of `base64_encode` that change, and the output buffer. -/
structure EncodeState where
  buf : Nat → UInt8
  n : Nat
  j : Nat
  output : List UInt8

/-- `output[j++] = c`. `none` when this is behind the end of the buffer. -/
def EncodeState.put (s : EncodeState) (c : UInt8) : Option EncodeState :=
  if s.j < s.output.length then some { s with j := s.j + 1, output := s.output.set s.j c }
  else none

def EncodeState.putAll (s : EncodeState) (cs : List UInt8) : Option EncodeState :=
  cs.foldlM EncodeState.put s

section

variable (buf : Nat → UInt8)

def firstChar : UInt8 :=
  base64Char ((buf 0 >>> 2) &&& 0x3F)

def secondChar : UInt8 :=
  base64Char (((buf 0 &&& 0x03) <<< 4) ||| ((buf 1 >>> 4) &&& 0x0F))

def thirdChar : UInt8 :=
  base64Char (((buf 1 &&& 0x0F) <<< 2) ||| ((buf 2 >>> 6) &&& 0x03))

def fourthChar : UInt8 :=
  base64Char (buf 2 &&& 0x3F)

end

/-- The loop of `base64_encode` on the bytes that remain. -/
def encodeLoop : List UInt8 → EncodeState → Option EncodeState
  | [], s => some s
  | byte :: rest, s =>
      let s := { s with buf := Function.update s.buf s.n byte, n := s.n + 1 }
      if s.n = 3 then
        (s.putAll [firstChar s.buf, secondChar s.buf, thirdChar s.buf, fourthChar s.buf]).bind
          fun s => encodeLoop rest { s with n := 0 }
      else encodeLoop rest s

/-- The bytes that are left over. -/
def encodeRest (s : EncodeState) : Option EncodeState :=
  if s.n > 0 then
    let s := { s with buf := fun k => if s.n ≤ k ∧ k < 3 then 0 else s.buf k }
    (s.putAll [firstChar s.buf, secondChar s.buf]).bind fun s =>
      if s.n = 1 then s.putAll (ascii "==")
      else if s.n = 2 then s.putAll [thirdChar s.buf, 0x3D]
      else some s
  else some s

/-- An array of bytes: C has none that is longer than `PTRDIFF_MAX`. -/
structure InputArray where
  bytes : List UInt8
  length_lt : bytes.length < 2 ^ 63

/-- `output_size`, a `size_t`. -/
def outputSize (inputLen : Nat) : Nat :=
  (inputLen + 2) % 2 ^ 64 / 3 * 4 % 2 ^ 64

/-- `output` holds the bytes of the buffer, `output_len` many, and `stale` those of `buf`, which is
not initialised. The result and the buffer; `none` when something is written behind it. -/
def base64Encode (stale : Nat → UInt8) (input : InputArray) (output : List UInt8) :
    Option (Nat × List UInt8) :=
  if output.length < (outputSize input.bytes.length + 1) % 2 ^ 64 then some (0, output)
  else
    (encodeLoop input.bytes ⟨stale, 0, 0, output⟩).bind fun s =>
      (encodeRest s).bind fun s =>
        (s.put 0).map fun s => (outputSize input.bytes.length, s.output)

theorem base64Char_eq : ∀ i : Fin 64, base64Char (UInt8.ofNat i) = standard.symbol i := by
  decide +kernel

/-- A table index that is a group of six bits. -/
theorem base64Char_of_toNat {i : UInt8} {k : Fin 64} (h : i.toNat = k.val) :
    base64Char i = standard.symbol k := by
  rw [← base64Char_eq, ← h, UInt8.ofNat_toNat]

theorem masked_bits : ∀ b : UInt8,
    ((b >>> 2) &&& 0x3F).toNat = b.toNat / 4 ∧
      ((b &&& 0x03) <<< 4).toNat = 2 ^ 4 * (b.toNat % 4) ∧
      ((b >>> 4) &&& 0x0F).toNat = b.toNat / 16 ∧
      ((b &&& 0x0F) <<< 2).toNat = 2 ^ 2 * (b.toNat % 16) ∧
      ((b >>> 6) &&& 0x03).toNat = b.toNat / 64 ∧ (b &&& 0x3F).toNat = b.toNat % 64 := by
  decide +kernel

theorem chars_eq (a b c : UInt8) (buf : Nat → UInt8) (h0 : buf 0 = a) (h1 : buf 1 = b)
    (h2 : buf 2 = c) :
    firstChar buf = standard.symbol (sextet (group a b c) 18) ∧
      secondChar buf = standard.symbol (sextet (group a b c) 12) ∧
      thirdChar buf = standard.symbol (sextet (group a b c) 6) ∧
      fourthChar buf = standard.symbol (sextet (group a b c) 0) := by
  have ha := a.toNat_lt
  have hb := b.toNat_lt
  have hc := c.toNat_lt
  rw [firstChar, secondChar, thirdChar, fourthChar, h0, h1, h2]
  obtain ⟨hfirst, hhigh, -⟩ := masked_bits a
  obtain ⟨-, -, hupper, hlower, -⟩ := masked_bits b
  obtain ⟨-, -, -, -, htop, hlast⟩ := masked_bits c
  refine ⟨base64Char_of_toNat ?_, base64Char_of_toNat ?_, base64Char_of_toNat ?_,
    base64Char_of_toNat ?_⟩
  · rw [hfirst]
    simp only [sextet, Fin.ofNat, group]
    omega
  · rw [UInt8.toNat_or, hhigh, hupper, ← Nat.two_pow_add_eq_or_of_lt (by omega)]
    simp only [sextet, Fin.ofNat, group]
    omega
  · rw [UInt8.toNat_or, hlower, htop, ← Nat.two_pow_add_eq_or_of_lt (by omega)]
    simp only [sextet, Fin.ofNat, group]
    omega
  · rw [hlast]
    simp only [sextet, Fin.ofNat, group]
    omega

/-- The text has been written at the front of what was a buffer of the given bytes. -/
structure Written (output text : List UInt8) (s : EncodeState) : Prop where
  j_eq : s.j = text.length
  output_eq : s.output = text ++ output.drop text.length

theorem putAll_written {output text cs : List UInt8} {s : EncodeState} (h : Written output text s)
    (hfits : text.length + cs.length ≤ output.length) :
    ∃ s', s.putAll cs = some s' ∧ Written output (text ++ cs) s' ∧ s'.buf = s.buf ∧ s'.n = s.n := by
  induction cs generalizing text s with
  | nil => exact ⟨s, rfl, by rwa [List.append_nil], rfl, rfl⟩
  | cons c cs ih =>
      rw [List.length_cons] at hfits
      have hlength : s.output.length = output.length := by
        rw [h.output_eq, List.length_append, List.length_drop]
        omega
      have hput : s.put c = some { s with j := s.j + 1, output := s.output.set s.j c } := by
        rw [EncodeState.put, if_pos (by rw [hlength, h.j_eq]; omega)]
      have hwritten : Written output (text ++ [c])
          { s with j := s.j + 1, output := s.output.set s.j c } := by
        refine ⟨by simp [h.j_eq], ?_⟩
        have hnext : output.drop text.length = output[text.length] :: output.drop (text.length + 1) :=
          List.drop_eq_getElem_cons (by omega)
        change s.output.set s.j c = _
        rw [h.output_eq, h.j_eq, hnext, List.set_append_right _ _ le_rfl, Nat.sub_self,
          List.set_cons_zero, List.length_append, List.length_singleton, List.append_assoc]
        rfl
      obtain ⟨s', hrest, hwritten', hbuf, hn⟩ := ih hwritten
        (by rw [List.length_append, List.length_singleton]; omega)
      refine ⟨s', ?_, by rwa [List.append_assoc] at hwritten', hbuf, hn⟩
      rw [EncodeState.putAll, List.foldlM_cons, hput]
      exact hrest

/-- What follows the loop writes in two parts, and looks at the buffer again in between. -/
theorem putAll_twice {output text first second : List UInt8} {s : EncodeState}
    (h : Written output text s)
    (hfits : text.length + (first ++ second).length ≤ output.length) :
    ∃ s₁ s₂, s.putAll first = some s₁ ∧ s₁.putAll second = some s₂ ∧
      Written output (text ++ (first ++ second)) s₂ ∧ s₁.buf = s.buf ∧ s₁.n = s.n := by
  rw [List.length_append] at hfits
  obtain ⟨s₁, hput₁, hwritten₁, hbuf₁, hn₁⟩ := @putAll_written _ _ first _ h (by omega)
  obtain ⟨s₂, hput₂, hwritten₂, -⟩ := @putAll_written _ _ second _ hwritten₁
    (by rw [List.length_append]; omega)
  exact ⟨s₁, s₂, hput₁, hput₂, by rwa [List.append_assoc] at hwritten₂, hbuf₁, hn₁⟩

/-- A turn of the loop that leaves the buffer incomplete. -/
theorem encodeLoop_pending {byte : UInt8} {rest : List UInt8} {s : EncodeState} (h : s.n + 1 ≠ 3) :
    encodeLoop (byte :: rest) s =
      encodeLoop rest { s with buf := Function.update s.buf s.n byte, n := s.n + 1 } := by
  rw [encodeLoop]
  exact if_neg h

/-- The loop and what follows it write the encoding of the bytes, whatever is left over. -/
theorem encodeLoop_spec {output text bytes : List UInt8} {s : EncodeState}
    (h : Written output text s) (hn : s.n = 0)
    (hfits : text.length + (encode standard bytes).length ≤ output.length) :
    ∃ s', (encodeLoop bytes s).bind encodeRest = some s' ∧
      Written output (text ++ encode standard bytes) s' := by
  induction bytes using encode.induct generalizing text s with
  | case1 =>
      refine ⟨s, ?_, by rwa [encode, List.append_nil]⟩
      rw [encodeLoop, Option.bind_some, encodeRest, if_neg (by omega)]
  | case2 a =>
      obtain ⟨hfirst, hsecond, -, -⟩ := chars_eq a 0 0
        (fun k => if 1 ≤ k ∧ k < 3 then 0 else Function.update s.buf 0 a k) rfl rfl rfl
      rw [encodeLoop_pending (by omega), hn, encodeLoop, Option.bind_some, encodeRest]
      dsimp only
      rw [if_pos Nat.one_pos, zero_add, hfirst, hsecond]
      obtain ⟨s₁, s₂, hput₁, hput₂, hwritten, -, hn₁⟩ := @putAll_twice output text
        [standard.symbol (sextet (group a 0 0) 18), standard.symbol (sextet (group a 0 0) 12)]
        (ascii "==")
        ⟨fun k => if 1 ≤ k ∧ k < 3 then 0 else Function.update s.buf 0 a k, 1, s.j, s.output⟩
        ⟨h.j_eq, h.output_eq⟩ hfits
      refine ⟨s₂, ?_, hwritten⟩
      rw [hput₁, Option.bind_some, hn₁, if_pos rfl, hput₂]
  | case3 a b =>
      obtain ⟨hfirst, hsecond, hthird, -⟩ := chars_eq a b 0
        (fun k => if 2 ≤ k ∧ k < 3 then 0 else
          Function.update (Function.update s.buf 0 a) 1 b k) rfl rfl rfl
      rw [encodeLoop_pending (by omega), encodeLoop_pending (by simp [hn]), hn, encodeLoop,
        Option.bind_some, encodeRest]
      dsimp only
      rw [if_pos Nat.two_pos, zero_add, hfirst, hsecond]
      obtain ⟨s₁, s₂, hput₁, hput₂, hwritten, hbuf₁, hn₁⟩ := @putAll_twice output text
        [standard.symbol (sextet (group a b 0) 18), standard.symbol (sextet (group a b 0) 12)]
        [standard.symbol (sextet (group a b 0) 6), 0x3D]
        ⟨fun k => if 2 ≤ k ∧ k < 3 then 0 else Function.update (Function.update s.buf 0 a) 1 b k, 2,
          s.j, s.output⟩
        ⟨h.j_eq, h.output_eq⟩ hfits
      refine ⟨s₂, ?_, hwritten⟩
      rw [hput₁, Option.bind_some, hn₁, if_neg (Nat.succ_ne_self 1), if_pos rfl, hbuf₁, hthird, hput₂]
  | case4 a b c rest ih =>
      obtain ⟨hfirst, hsecond, hthird, hfourth⟩ := chars_eq a b c
        (Function.update (Function.update (Function.update s.buf 0 a) 1 b) 2 c) rfl rfl rfl
      rw [encodeLoop_pending (by omega), encodeLoop_pending (by simp [hn]), hn, encodeLoop]
      dsimp only
      rw [if_pos rfl, zero_add, hfirst, hsecond, hthird, hfourth]
      obtain ⟨s₁, hput₁, hwritten₁, -⟩ := @putAll_written output text
        [standard.symbol (sextet (group a b c) 18), standard.symbol (sextet (group a b c) 12),
          standard.symbol (sextet (group a b c) 6), standard.symbol (sextet (group a b c) 0)]
        ⟨Function.update (Function.update (Function.update s.buf 0 a) 1 b) 2 c, 3, s.j, s.output⟩
        ⟨h.j_eq, h.output_eq⟩ (Nat.le_trans (by simp [encode]) hfits)
      obtain ⟨s₂, hrest, hwritten₂⟩ := @ih _ { s₁ with n := 0 }
        ⟨hwritten₁.j_eq, hwritten₁.output_eq⟩ rfl (by
          rw [List.length_append, Nat.add_assoc]
          exact Nat.le_trans (by simp [encode]; omega) hfits)
      refine ⟨s₂, ?_, by rwa [List.append_assoc] at hwritten₂⟩
      rw [hput₁, Option.bind_some, hrest]

/-- The size of an array that C can have does not wrap around. -/
theorem outputSize_eq (input : InputArray) :
    outputSize input.bytes.length = (encode standard input.bytes).length ∧
      (outputSize input.bytes.length + 1) % 2 ^ 64 = (encode standard input.bytes).length + 1 := by
  have hlength := input.length_lt
  rw [encode_length, outputSize]
  omega

/-- Nothing is written into a buffer that is too small; any other one begins with the encoding and
a NUL afterwards, and is otherwise as it was. -/
theorem base64Encode_eq (stale : Nat → UInt8) (input : InputArray) (output : List UInt8) :
    base64Encode stale input output =
      some
        (if output.length < (encode standard input.bytes).length + 1 then (0, output)
        else
          ((encode standard input.bytes).length,
            encode standard input.bytes ++
              0 :: output.drop ((encode standard input.bytes).length + 1))) := by
  obtain ⟨hsize, hneeded⟩ := outputSize_eq input
  rw [base64Encode, hneeded]
  split
  · rfl
  · next hlarge =>
    obtain ⟨s, hloop, hwritten⟩ := @encodeLoop_spec output [] input.bytes ⟨stale, 0, 0, output⟩
      ⟨rfl, rfl⟩ rfl (by rw [List.length_nil]; omega)
    rw [List.nil_append] at hwritten
    obtain ⟨s', hput, hwritten', -⟩ := @putAll_written output _ [0] s hwritten
      (by rw [List.length_singleton]; omega)
    have hput : s.put 0 = some s' := by simpa [EncodeState.putAll] using hput
    rw [← Option.bind_assoc, hloop, Option.bind_some, hput, Option.map_some, hsize,
      hwritten'.output_eq, List.append_assoc, List.length_append, List.length_singleton]
    rfl

/-- The encoder keeps to RFC 4648 and to its buffer, so that its input can be told from what it
writes. -/
theorem base64Encode_standard (stale : Nat → UInt8) (input : InputArray) (output : List UInt8) :
    base64Encode stale input output =
        some
          (if output.length < (input.bytes.length + 2) / 3 * 4 + 1 then (0, output)
          else
            ((input.bytes.length + 2) / 3 * 4,
              encode standard input.bytes ++
                0 :: output.drop ((input.bytes.length + 2) / 3 * 4 + 1))) ∧
      (encode standard input.bytes).length = (input.bytes.length + 2) / 3 * 4 ∧
      decode standard (encode standard input.bytes) = some input.bytes ∧
      Function.Injective (encode standard) := by
  refine ⟨?_, encode_length standard _, decode_encode standard _, encode_injective standard⟩
  rw [base64Encode_eq, encode_length]

/-- The test vector of RFC 4648 for two bytes over a buffer of six. -/
example : base64Encode (fun _ => 7) ⟨ascii "fo", by decide⟩ (List.replicate 6 0xFF) =
    some (4, ascii "Zm8=" ++ [0x00, 0xFF]) := by
  decide +kernel

end TinyRtc.Base64Encoder
