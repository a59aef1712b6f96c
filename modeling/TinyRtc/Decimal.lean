import Mathlib.Data.FinEnum
import Mathlib.Data.Nat.Digits.Defs

namespace TinyRtc.Decimal

def digit (d : Nat) : UInt8 :=
  (48 + d).toUInt8

def isDigit (c : UInt8) : Bool :=
  48 ≤ c && c ≤ 57

def digitValue (c : UInt8) : Nat :=
  c.toNat - 48

/-- `isspace` in the C locale. -/
def isSpace (c : UInt8) : Bool :=
  c == 0x20 || (0x09 ≤ c && c ≤ 0x0D)

/-- The digits of a number, least significant first. The fuel bounds their
count. -/
def digitsAux : (fuel n : Nat) → List UInt8
  | 0, _ => []
  | fuel + 1, n => digit (n % 10) :: (if n < 10 then [] else digitsAux fuel (n / 10))

/-- The decimal digits of a number as `printf` writes them. -/
def decimal (n : Nat) : List UInt8 :=
  (digitsAux (n + 1) n).reverse

/-- `%d`. -/
def decimalInt (n : Int) : List UInt8 :=
  if n < 0 then 0x2D :: decimal n.natAbs else decimal n.natAbs

def digitsValue (digits : List UInt8) : Nat :=
  digits.foldl (fun value c => value * 10 + digitValue c) 0

/-- What `strtol` and its relatives see: whether there is a minus sign, the value
of the digits, and the bytes after them. `none` when there is no digit. -/
def scanNumber (s : List UInt8) : Option (Bool × Nat × List UInt8) :=
  let s := s.dropWhile isSpace
  let (negative, s) :=
    match s with
    | 0x2D :: rest => (true, rest)
    | 0x2B :: rest => (false, rest)
    | s => (false, s)
  let digits := s.takeWhile isDigit
  if digits = [] then none else some (negative, digitsValue digits, s.dropWhile isDigit)

/-- `strtol` with a 64-bit `long`, which saturates. -/
def strtol (s : List UInt8) : Option (Int × List UInt8) :=
  (scanNumber s).map fun (negative, value, rest) =>
    (if negative then max (-(value : Int)) (-2 ^ 63) else min (value : Int) (2 ^ 63 - 1), rest)

/-- `strtoul` and `strtoull` with 64-bit results: too large a value saturates, and
a minus sign negates in the unsigned type. -/
def strtoull (s : List UInt8) : Option UInt64 :=
  (scanNumber s).map fun (negative, value, _) =>
    if 2 ^ 64 ≤ value then UInt64.ofNat (2 ^ 64 - 1)
    else if negative then -UInt64.ofNat value else UInt64.ofNat value

/-- `atoi`, with the conversion of a `long` to `int`. -/
def atoi (s : List UInt8) : Int32 :=
  Int32.ofInt ((strtol s).elim 0 Prod.fst)

theorem digit_spec : ∀ d < 10, isDigit (digit d) = true ∧ digitValue (digit d) = d := by
  decide

theorem digitsAux_isDigit (fuel n : Nat) : ∀ c ∈ digitsAux fuel n, isDigit c = true := by
  induction fuel generalizing n with
  | zero => simp [digitsAux]
  | succ fuel ih =>
      intro c hc
      rw [digitsAux, List.mem_cons] at hc
      rcases hc with rfl | hc
      · exact (digit_spec _ (Nat.mod_lt _ (by omega))).1
      · split at hc
        · simp at hc
        · exact ih _ c hc

theorem digitsAux_value {fuel n : Nat} (hfuel : n < fuel) :
    (digitsAux fuel n).foldr (fun c value => value * 10 + digitValue c) 0 = n := by
  induction fuel generalizing n with
  | zero => omega
  | succ fuel ih =>
      rw [digitsAux, List.foldr_cons, (digit_spec _ (Nat.mod_lt _ (by omega))).2]
      split
      · rename_i hsmall
        simp only [List.foldr_nil]
        omega
      · rw [ih (by omega)]
        omega

theorem digitsValue_decimal (n : Nat) : digitsValue (decimal n) = n := by
  rw [digitsValue, decimal, List.foldl_reverse]
  exact digitsAux_value (Nat.lt_succ_self n)

theorem decimal_isDigit (n : Nat) : ∀ c ∈ decimal n, isDigit c = true := by
  intro c hc
  exact digitsAux_isDigit _ _ c (List.mem_reverse.mp hc)

theorem decimal_ne_nil (n : Nat) : decimal n ≠ [] := by
  simp [decimal, digitsAux]

theorem digitsAux_length_le {fuel n k : Nat} (hk : 0 < k) (h : n < 10 ^ k) :
    (digitsAux fuel n).length ≤ k := by
  induction fuel generalizing n k with
  | zero => simp [digitsAux]
  | succ fuel ih =>
      rw [digitsAux, List.length_cons]
      split
      · rw [List.length_nil]
        omega
      · obtain ⟨k, rfl⟩ : ∃ j, k = j + 1 := ⟨k - 1, by omega⟩
        rw [Nat.pow_succ] at h
        have hk' : 0 < k := by
          rcases Nat.eq_zero_or_pos k with rfl | hpos
          · simp only [Nat.pow_zero] at h
            omega
          · exact hpos
        have := ih (n := n / 10) hk' (by omega)
        omega

theorem decimal_length_le {n k : Nat} (hk : 0 < k) (h : n < 10 ^ k) : (decimal n).length ≤ k := by
  rw [decimal, List.length_reverse]
  exact digitsAux_length_le hk h

def EndsNumber (rest : List UInt8) : Prop :=
  ∀ c ∈ rest.head?, isDigit c = false

theorem digit_not_space_sign : ∀ c : UInt8, isDigit c = true →
    isSpace c = false ∧ c ≠ 0x2D ∧ c ≠ 0x2B ∧ c ≠ 0x20 ∧ c ≠ 0x00 := by
  decide +kernel

theorem takeWhile_digits {digits rest : List UInt8} (hdigits : ∀ c ∈ digits, isDigit c = true)
    (hrest : EndsNumber rest) :
    (digits ++ rest).takeWhile isDigit = digits ∧ (digits ++ rest).dropWhile isDigit = rest := by
  rw [List.takeWhile_append_of_pos hdigits, List.dropWhile_append_of_pos hdigits]
  cases rest with
  | nil => simp
  | cons c rest =>
      have hc : isDigit c = false := hrest c rfl
      simp [hc]

theorem scanNumber_digits {digits : List UInt8} (hdigits : ∀ c ∈ digits, isDigit c = true)
    (hne : digits ≠ []) {rest : List UInt8} (hrest : EndsNumber rest) :
    scanNumber (digits ++ rest) = some (false, digitsValue digits, rest) := by
  obtain ⟨htake, hdrop⟩ := takeWhile_digits hdigits hrest
  obtain ⟨c, tail, rfl⟩ := List.exists_cons_of_ne_nil hne
  obtain ⟨hspace, hminus, hplus, -⟩ := digit_not_space_sign c (hdigits c List.mem_cons_self)
  have hskip : (c :: tail ++ rest).dropWhile isSpace = c :: tail ++ rest := by
    simp [hspace]
  simp only [scanNumber, hskip]
  split
  · rename_i heq
    exact absurd (List.cons.inj heq).1 hminus
  · rename_i heq
    exact absurd (List.cons.inj heq).1 hplus
  · rw [htake, hdrop]
    simp

theorem scanNumber_decimal (n : Nat) {rest : List UInt8} (hrest : EndsNumber rest) :
    scanNumber (decimal n ++ rest) = some (false, n, rest) := by
  rw [scanNumber_digits (decimal_isDigit n) (decimal_ne_nil n) hrest, digitsValue_decimal]

theorem scanNumber_decimalInt (n : Int) {rest : List UInt8} (hrest : EndsNumber rest) :
    scanNumber (decimalInt n ++ rest) = some (decide (n < 0), n.natAbs, rest) := by
  by_cases hneg : n < 0
  · have hscan := scanNumber_decimal n.natAbs hrest
    obtain ⟨htake, hdrop⟩ := takeWhile_digits (decimal_isDigit n.natAbs) hrest
    rw [decimalInt, if_pos hneg]
    have hskip : (0x2D :: decimal n.natAbs ++ rest).dropWhile isSpace =
        0x2D :: (decimal n.natAbs ++ rest) := by
      simp [isSpace]
    simp only [scanNumber, hskip, htake, hdrop, digitsValue_decimal]
    simp [decimal_ne_nil, hneg]
  · rw [decimalInt, if_neg hneg, scanNumber_decimal _ hrest]
    simp [hneg]

theorem strtol_decimalInt (n : Int32) (rest : List UInt8) (hrest : EndsNumber rest) :
    strtol (decimalInt n.toInt ++ rest) = some (n.toInt, rest) := by
  have hlow := n.le_toInt
  have hhigh := n.toInt_lt
  rw [strtol, scanNumber_decimalInt _ hrest]
  simp only [Option.map_some, Option.some.injEq, Prod.mk.injEq, and_true]
  by_cases hneg : n.toInt < 0
  · simp only [hneg, decide_true, if_true]
    omega
  · simp only [hneg, decide_false, Bool.false_eq_true, if_false]
    omega

theorem atoi_decimalInt (n : Int32) (rest : List UInt8) (hrest : EndsNumber rest) :
    atoi (decimalInt n.toInt ++ rest) = n := by
  rw [atoi, strtol_decimalInt n rest hrest]
  simp

theorem strtoull_decimal (n : UInt64) (rest : List UInt8) (hrest : EndsNumber rest) :
    strtoull (decimal n.toNat ++ rest) = some n := by
  have hlt := n.toNat_lt
  rw [strtoull, scanNumber_decimal _ hrest]
  simp only [Option.map_some, Bool.false_eq_true, if_false]
  rw [if_neg (by omega)]
  simp

theorem endsNumber_nil : EndsNumber [] :=
  fun _ h => by cases h

theorem strtoull_decimal_u32 (n : UInt32) : strtoull (decimal n.toNat) = some n.toUInt64 := by
  have hread := strtoull_decimal n.toUInt64 [] endsNumber_nil
  rwa [List.append_nil, UInt32.toNat_toUInt64] at hread

theorem toInt_ofInt_u16 (n : UInt16) : (Int32.ofInt (n.toNat : Int)).toInt = (n.toNat : Int) := by
  have hlt := n.toNat_lt
  exact Int32.toInt_ofInt_of_le (by omega) (by omega)

theorem decimalInt_u16 (n : UInt16) :
    decimalInt (Int32.ofInt (n.toNat : Int)).toInt = decimal n.toNat := by
  rw [toInt_ofInt_u16, decimalInt, if_neg (by omega), Int.natAbs_natCast]

theorem toUInt16_ofInt (n : UInt16) : (Int32.ofInt (n.toNat : Int)).toUInt32.toUInt16 = n := by
  apply UInt16.toNat_inj.mp
  have hlt := n.toNat_lt
  have h32 : (Int32.ofInt (n.toNat : Int)).toUInt32.toNat = n.toNat := by
    change (BitVec.ofInt 32 (n.toNat : Int)).toNat = n.toNat
    rw [BitVec.toNat_ofInt]
    omega
  rw [UInt32.toNat_toUInt16, h32]
  omega

end TinyRtc.Decimal
