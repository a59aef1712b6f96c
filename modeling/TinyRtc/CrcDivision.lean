import Mathlib.Algebra.CharP.Lemmas
import Mathlib.Algebra.Field.ZMod
import Mathlib.Algebra.Polynomial.Div
import Mathlib.Algebra.Polynomial.FieldDivision
import Mathlib.Data.ZMod.Basic
import Mathlib.RingTheory.Coprime.Lemmas
import Mathlib.Tactic.LinearCombination
import Mathlib.Tactic.Ring

namespace TinyRtc.CrcDivision

open Polynomial

variable {w : Nat}

def bitCoeff (b : Bool) : ZMod 2 := if b then 1 else 0

theorem bitCoeff_injective : Function.Injective bitCoeff := by decide

theorem bitCoeff_xor (a b : Bool) : bitCoeff (a ^^ b) = bitCoeff a + bitCoeff b := by
  cases a <;> cases b <;> decide

/-- A reflected register as a polynomial: its lowest bit is the coefficient of the
highest power. -/
noncomputable def toPoly (r : BitVec w) : (ZMod 2)[X] :=
  ∑ k ∈ Finset.range w, monomial k (bitCoeff (r.getMsbD k))

/-- The register of a polynomial of degree less than `w`. -/
noncomputable def ofPoly (w : Nat) (p : (ZMod 2)[X]) : BitVec w :=
  Function.invFun toPoly p

theorem coeff_toPoly (r : BitVec w) (k : Nat) :
    (toPoly r).coeff k = bitCoeff (r.getMsbD k) := by
  simp only [toPoly, finsetSum_coeff, coeff_monomial, Finset.sum_ite_eq', Finset.mem_range]
  by_cases hk : k < w
  · rw [if_pos hk]
  · rw [if_neg hk, BitVec.getMsbD_of_ge r k (by omega)]
    rfl

theorem degree_toPoly_lt (r : BitVec w) : (toPoly r).degree < w := by
  rw [degree_lt_iff_coeff_zero]
  intro k hk
  rw [coeff_toPoly, BitVec.getMsbD_of_ge r k hk]
  rfl

theorem toPoly_injective : Function.Injective (toPoly : BitVec w → (ZMod 2)[X]) := by
  intro r s h
  apply BitVec.eq_of_getMsbD_eq
  intro k _
  apply bitCoeff_injective
  rw [← coeff_toPoly, h, coeff_toPoly]

theorem ofPoly_toPoly (r : BitVec w) : ofPoly w (toPoly r) = r :=
  Function.leftInverse_invFun toPoly_injective r

theorem toPoly_xor (r s : BitVec w) : toPoly (r ^^^ s) = toPoly r + toPoly s := by
  ext k
  rw [coeff_add, coeff_toPoly, coeff_toPoly, coeff_toPoly, BitVec.getMsbD_xor, bitCoeff_xor]

theorem toPoly_zero : toPoly (0#w) = 0 := by
  ext k
  rw [coeff_toPoly, BitVec.getMsbD_zero, coeff_zero]
  rfl

/-- The low bit leaves the register as the coefficient of `X ^ w`. -/
theorem X_mul_toPoly (r : BitVec w) (hw : 0 < w) :
    X * toPoly r = toPoly (r >>> 1) + monomial w (bitCoeff (r.getLsbD 0)) := by
  ext k
  rw [coeff_add, coeff_toPoly, coeff_monomial, BitVec.getMsbD_ushiftRight]
  cases k with
  | zero =>
      rw [coeff_X_mul_zero, if_neg (by omega)]
      simp [bitCoeff]
  | succ k =>
      rw [coeff_X_mul, coeff_toPoly]
      rcases Nat.lt_trichotomy (k + 1) w with hlt | heq | hgt
      · simp [bitCoeff, hlt, hlt.ne']
      · subst heq
        simp [bitCoeff, BitVec.getMsbD_eq_getLsbD]
      · rw [BitVec.getMsbD_of_ge r k (by omega)]
        simp [bitCoeff, hgt.ne, Nat.not_lt.mpr hgt.le]

theorem toPoly_setWidth {v : Nat} (b : BitVec v) (hv : v ≤ w) :
    toPoly (b.setWidth w) = X ^ (w - v) * toPoly b := by
  ext k
  rw [coeff_X_pow_mul', coeff_toPoly, BitVec.getMsbD_setWidth, coeff_toPoly]
  by_cases hk : w - v ≤ k
  · rw [if_pos hk, decide_eq_true hk, Bool.true_and, show k + v - w = k - (w - v) by omega]
  · rw [if_neg hk, decide_eq_false hk, Bool.false_and]
    rfl

/-- The divisor of a register of width `w` whose feedback is `poly`. -/
noncomputable def generator (poly : BitVec w) : (ZMod 2)[X] :=
  X ^ w + toPoly poly

def crcStep (poly r : BitVec w) : BitVec w :=
  (r >>> 1) ^^^ (if r.getLsbD 0 then poly else 0#w)

def crcByte (poly r : BitVec w) (byte : BitVec 8) : BitVec w :=
  (crcStep poly)^[8] (r ^^^ byte.setWidth w)

def crcRun (poly : BitVec w) : BitVec w → List (BitVec 8) → BitVec w :=
  List.foldl (crcByte poly)

/-- The bits of a byte string in the order in which they are sent, the low bit of every
byte first. -/
noncomputable def messagePoly : List (BitVec 8) → (ZMod 2)[X]
  | [] => 0
  | byte :: rest => X ^ (8 * rest.length) * toPoly byte + messagePoly rest

/-- The remainder of the message, `w` zero bits behind it, with `init` added to its first
`w` bits. -/
noncomputable def crcDivision (poly init : BitVec w) (data : List (BitVec 8)) : BitVec w :=
  ofPoly w ((X ^ (8 * data.length) * toPoly init + X ^ w * messagePoly data) %ₘ generator poly)

theorem generator_monic (poly : BitVec w) : (generator poly).Monic :=
  monic_X_pow_add (degree_toPoly_lt poly)

theorem degree_generator (poly : BitVec w) : (generator poly).degree = w := by
  rw [generator, degree_add_eq_left_of_degree_lt, degree_X_pow]
  rw [degree_X_pow]
  exact degree_toPoly_lt poly

theorem two_eq_zero : (2 : (ZMod 2)[X]) = 0 :=
  CharTwo.two_eq_zero

theorem toPoly_crcStep (poly r : BitVec w) (hw : 0 < w) :
    generator poly ∣ toPoly (crcStep poly r) - X * toPoly r := by
  rw [crcStep, toPoly_xor, X_mul_toPoly r hw]
  cases r.getLsbD 0 with
  | true =>
      refine ⟨1, ?_⟩
      rw [if_pos rfl, bitCoeff, if_pos rfl, monomial_one_right_eq_X_pow, generator]
      linear_combination -X ^ w * two_eq_zero
  | false =>
      refine ⟨0, ?_⟩
      rw [if_neg Bool.false_ne_true, bitCoeff, if_neg Bool.false_ne_true, toPoly_zero,
        monomial_zero_right]
      ring

theorem toPoly_crcStep_iterate (poly r : BitVec w) (hw : 0 < w) (n : Nat) :
    generator poly ∣ toPoly ((crcStep poly)^[n] r) - X ^ n * toPoly r := by
  induction n with
  | zero => simp
  | succ n ih =>
      rw [Function.iterate_succ_apply']
      obtain ⟨q, hq⟩ := ih
      obtain ⟨q', hq'⟩ := toPoly_crcStep poly ((crcStep poly)^[n] r) hw
      refine ⟨q' + X * q, ?_⟩
      linear_combination hq' + X * hq

theorem toPoly_crcByte (poly r : BitVec w) (byte : BitVec 8) (hw : 8 ≤ w) :
    generator poly ∣
      toPoly (crcByte poly r byte) - (X ^ 8 * toPoly r + X ^ w * toPoly byte) := by
  have hstep := toPoly_crcStep_iterate poly (r ^^^ byte.setWidth w) (by omega) 8
  have hpow : (X : (ZMod 2)[X]) ^ 8 * X ^ (w - 8) = X ^ w := by
    rw [← pow_add, Nat.add_sub_cancel' hw]
  rw [toPoly_xor, toPoly_setWidth byte hw, mul_add, ← mul_assoc, hpow] at hstep
  exact hstep

theorem toPoly_crcRun (poly : BitVec w) (hw : 8 ≤ w) (data : List (BitVec 8))
    (r : BitVec w) :
    generator poly ∣ toPoly (crcRun poly r data) -
      (X ^ (8 * data.length) * toPoly r + X ^ w * messagePoly data) := by
  induction data generalizing r with
  | nil => simp [crcRun, messagePoly]
  | cons byte rest ih =>
      obtain ⟨q, hq⟩ := ih (crcByte poly r byte)
      obtain ⟨q', hq'⟩ := toPoly_crcByte poly r byte hw
      refine ⟨q + X ^ (8 * rest.length) * q', ?_⟩
      have hpow : (X : (ZMod 2)[X]) ^ (8 * (rest.length + 1)) =
          X ^ (8 * rest.length) * X ^ 8 := by
        rw [← pow_add]
        congr 1
      rw [List.length_cons, hpow, messagePoly]
      change toPoly (crcRun poly (crcByte poly r byte) rest) - _ = _
      linear_combination hq + X ^ (8 * rest.length) * hq'

/-- The shift register computes the remainder of the division. -/
theorem crcRun_eq_division (poly init : BitVec w) (hw : 8 ≤ w) (data : List (BitVec 8)) :
    crcRun poly init data = crcDivision poly init data := by
  have hremainder :
      (X ^ (8 * data.length) * toPoly init + X ^ w * messagePoly data) %ₘ generator poly =
        toPoly (crcRun poly init data) := by
    rw [← modByMonic_eq_of_dvd_sub (generator_monic poly) (toPoly_crcRun poly hw data init)]
    apply (modByMonic_eq_self_iff (generator_monic poly)).mpr
    rw [degree_generator]
    exact degree_toPoly_lt _
  rw [crcDivision, hremainder, ofPoly_toPoly]

theorem generator_eval_one (poly : BitVec w) :
    (generator poly).eval 1 = 1 + ∑ k ∈ Finset.range w, bitCoeff (poly.getMsbD k) := by
  simp only [generator, toPoly, eval_add, eval_pow, eval_X, one_pow, eval_finsetSum,
    eval_monomial, mul_one]

theorem isCoprime_generator {poly : BitVec w} (hpoly : (generator poly).eval 1 ≠ 0) (n : Nat) :
    IsCoprime (generator poly) ((X - C 1) ^ n) := by
  apply IsCoprime.pow_right
  apply IsCoprime.symm
  apply (irreducible_X_sub_C (1 : ZMod 2)).coprime_iff_not_dvd.mpr
  rw [dvd_iff_isRoot]
  exact hpoly

/-- Behind a string of `2 ^ k` bits one register at most is where it was before. -/
theorem eq_of_crcRun_eq_self {poly : BitVec w} (hw : 8 ≤ w) (hpoly : (generator poly).eval 1 ≠ 0)
    {data : List (BitVec 8)} {k : Nat} (hdata : 8 * data.length = 2 ^ k) {r s : BitVec w}
    (hr : crcRun poly r data = r) (hs : crcRun poly s data = s) : r = s := by
  apply toPoly_injective
  obtain ⟨q, hq⟩ := toPoly_crcRun poly hw data r
  obtain ⟨q', hq'⟩ := toPoly_crcRun poly hw data s
  rw [hr, hdata] at hq
  rw [hs, hdata] at hq'
  have hpow : (X - C 1 : (ZMod 2)[X]) ^ 2 ^ k = X ^ 2 ^ k - 1 := by
    rw [sub_pow_char_pow, ← C_pow, one_pow, C_1]
  have hdvd : generator poly ∣ (X - C 1) ^ 2 ^ k * (toPoly r - toPoly s) := by
    refine ⟨q' - q, ?_⟩
    rw [hpow]
    linear_combination hq' - hq
  have hdvd' := (isCoprime_generator hpoly _).dvd_of_dvd_mul_left hdvd
  apply sub_eq_zero.mp
  apply eq_zero_of_dvd_of_degree_lt hdvd'
  have hxor : toPoly r - toPoly s = toPoly (r ^^^ s) := by
    rw [toPoly_xor]
    linear_combination -toPoly s * two_eq_zero
  rw [degree_generator, hxor]
  exact degree_toPoly_lt _

end TinyRtc.CrcDivision
