import Mathlib.Algebra.Order.Field.Power
import Mathlib.Data.Int.Log
import Mathlib.Data.Nat.Cast.Order.Field
import Mathlib.Data.Rat.Floor
import Mathlib.Tactic.Linarith
import Mathlib.Tactic.Ring

/-! Rounding of positive rational numbers to the nearest binary number of `p`
significant bits, ties to even, without bounds on the exponent. -/

namespace TinyRtc.BinaryRounding

def roundEven (x : ℚ) : ℤ :=
  if x - ⌊x⌋ < 1 / 2 then ⌊x⌋
  else if 1 / 2 < x - ⌊x⌋ then ⌊x⌋ + 1
  else if ⌊x⌋ % 2 = 0 then ⌊x⌋
  else ⌊x⌋ + 1

/-- The exponent of the last of `p` bits. -/
def lastExponent (p : ℕ) (x : ℚ) : ℤ :=
  Int.log 2 x + 1 - p

def nearest (p : ℕ) (x : ℚ) : ℚ :=
  if 0 < x then roundEven (x / 2 ^ lastExponent p x) * 2 ^ lastExponent p x else 0

def Representable (p : ℕ) (x : ℚ) : Prop :=
  ∃ (m : ℕ) (e : ℤ), m < 2 ^ p ∧ x = m * 2 ^ e

variable {p : ℕ} {x y : ℚ}

theorem roundEven_abs_sub_le_half (x : ℚ) : |(roundEven x : ℚ) - x| ≤ 1 / 2 := by
  have hfloor := Int.floor_le x
  have hlt := Int.lt_floor_add_one x
  rw [abs_le]
  unfold roundEven
  split_ifs <;> push_cast <;> constructor <;> linarith

theorem roundEven_abs_sub_le (x : ℚ) (k : ℤ) : |(roundEven x : ℚ) - x| ≤ |(k : ℚ) - x| := by
  rcases le_or_gt k ⌊x⌋ with hk | hk
  · have hkx : (k : ℚ) ≤ ⌊x⌋ := by exact_mod_cast hk
    have hfloor := Int.floor_le x
    have hlt := Int.lt_floor_add_one x
    rw [abs_of_nonpos (by linarith : (k : ℚ) - x ≤ 0), abs_le]
    unfold roundEven
    split_ifs <;> push_cast <;> constructor <;> linarith
  · have hkx : (⌊x⌋ : ℚ) + 1 ≤ k := by exact_mod_cast hk
    have hfloor := Int.floor_le x
    have hlt := Int.lt_floor_add_one x
    rw [abs_of_nonneg (by linarith : (0 : ℚ) ≤ k - x), abs_le]
    unfold roundEven
    split_ifs <;> push_cast <;> constructor <;> linarith

theorem Representable.nonneg (h : Representable p x) : 0 ≤ x := by
  obtain ⟨m, e, -, rfl⟩ := h
  positivity

theorem Representable.natCast {n : ℕ} (h : n < 2 ^ p) : Representable p n :=
  ⟨n, 0, h, by simp⟩

/-- A representable number that is not in a lower binade than `x` is a multiple of
the last bit of `x`. -/
theorem Representable.exists_mul (h : Representable p y) (hle : (2 : ℚ) ^ Int.log 2 x ≤ y) :
    ∃ k : ℤ, y = k * 2 ^ lastExponent p x := by
  obtain ⟨m, e, hm, rfl⟩ := h
  have hexp : lastExponent p x ≤ e := by
    have hlt : (m : ℚ) * 2 ^ e < 2 ^ ((p : ℤ) + e) := by
      rw [zpow_add₀ (by norm_num), zpow_natCast]
      have hmq : (m : ℚ) < 2 ^ p := by exact_mod_cast hm
      gcongr
    have hpow := hle.trans_lt hlt
    rw [zpow_lt_zpow_iff_right₀ (by norm_num)] at hpow
    unfold lastExponent
    omega
  obtain ⟨d, hd⟩ := Int.le.dest hexp
  refine ⟨m * 2 ^ d, ?_⟩
  rw [← hd, zpow_add₀ (by norm_num), zpow_natCast]
  push_cast
  ring

theorem nearest_of_pos (hx : 0 < x) :
    nearest p x = roundEven (x / 2 ^ lastExponent p x) * 2 ^ lastExponent p x :=
  if_pos hx

theorem nearest_zero : nearest p 0 = 0 :=
  if_neg (lt_irrefl 0)

theorem abs_mul_sub {unit : ℚ} (h : 0 < unit) (a x : ℚ) :
    |a * unit - x| = |a - x / unit| * unit := by
  rw [← abs_of_pos h, ← abs_mul, abs_of_pos h, sub_mul, div_mul_cancel₀ _ h.ne']

theorem nearest_abs_sub_le_mul (hx : 0 < x) (k : ℤ) :
    |nearest p x - x| ≤ |(k : ℚ) * 2 ^ lastExponent p x - x| := by
  have hunit : (0 : ℚ) < 2 ^ lastExponent p x := by positivity
  rw [nearest_of_pos hx, abs_mul_sub hunit, abs_mul_sub hunit]
  exact mul_le_mul_of_nonneg_right (roundEven_abs_sub_le _ k) hunit.le

/-- No representable number is nearer. -/
theorem nearest_abs_sub_le (hp : 0 < p) (hx : 0 < x) (hy : Representable p y) :
    |nearest p x - x| ≤ |y - x| := by
  have hlog : (2 : ℚ) ^ Int.log 2 x ≤ x := by
    exact_mod_cast Int.zpow_log_le_self (b := 2) (by norm_num) hx
  rcases le_or_gt ((2 : ℚ) ^ Int.log 2 x) y with hle | hlt
  · obtain ⟨k, rfl⟩ := hy.exists_mul hle
    exact nearest_abs_sub_le_mul hx k
  · -- the first number of the binade of `x` lies between `y` and `x`
    have hfirst : Representable p ((2 : ℚ) ^ Int.log 2 x) :=
      ⟨1, Int.log 2 x, Nat.one_lt_two_pow hp.ne', by simp⟩
    obtain ⟨k, hk⟩ := hfirst.exists_mul le_rfl
    calc |nearest p x - x| ≤ |(k : ℚ) * 2 ^ lastExponent p x - x| := nearest_abs_sub_le_mul hx k
      _ = x - 2 ^ Int.log 2 x := by rw [← hk, abs_of_nonpos (by linarith)]; ring
      _ ≤ x - y := by linarith
      _ = |y - x| := by rw [abs_of_nonpos (by linarith)]; ring

theorem nearest_eq_self (hp : 0 < p) (h : Representable p x) : nearest p x = x := by
  rcases h.nonneg.eq_or_lt with rfl | hx
  · exact nearest_zero
  · have hdist := nearest_abs_sub_le hp hx h
    rw [sub_self, abs_zero] at hdist
    exact sub_eq_zero.mp (abs_nonpos_iff.mp hdist)

theorem nearest_natCast (hp : 0 < p) {n : ℕ} (h : n < 2 ^ p) : nearest p n = n :=
  nearest_eq_self hp (.natCast h)

theorem nearest_le (hp : 0 < p) (hy : Representable p y) (hle : x ≤ y) : nearest p x ≤ y := by
  by_cases hx : 0 < x
  · have hdist := nearest_abs_sub_le hp hx hy
    rw [abs_of_nonneg (by linarith : 0 ≤ y - x)] at hdist
    linarith [le_abs_self (nearest p x - x)]
  · rw [nearest, if_neg hx]
    exact hy.nonneg

theorem le_nearest (hp : 0 < p) (hy : Representable p y) (hle : y ≤ x) : y ≤ nearest p x := by
  by_cases hx : 0 < x
  · have hdist := nearest_abs_sub_le hp hx hy
    rw [abs_of_nonpos (by linarith : y - x ≤ 0)] at hdist
    linarith [neg_abs_le (nearest p x - x)]
  · rw [nearest, if_neg hx]
    exact hle.trans (not_lt.mp hx)

theorem nearest_abs_sub_le_div (hx : 0 < x) : |nearest p x - x| ≤ x / 2 ^ p := by
  have hlog : (2 : ℚ) ^ Int.log 2 x ≤ x := by
    exact_mod_cast Int.zpow_log_le_self (b := 2) (by norm_num) hx
  have hunit : (0 : ℚ) < 2 ^ lastExponent p x := by positivity
  calc |nearest p x - x| ≤ 1 / 2 * 2 ^ lastExponent p x := by
        rw [nearest_of_pos hx, abs_mul_sub hunit]
        exact mul_le_mul_of_nonneg_right (roundEven_abs_sub_le_half _) hunit.le
    _ = 2 ^ Int.log 2 x / 2 ^ p := by
        rw [lastExponent, zpow_sub₀ (by norm_num), zpow_add₀ (by norm_num), zpow_natCast]
        ring
    _ ≤ x / 2 ^ p := by gcongr

/-- A rounded quotient of two integers has the whole part of the exact one when
the dividend fits in `p` bits. -/
theorem floor_nearest_div (hp : 0 < p) {a b : ℕ} (hb : 0 < b) (ha : a < 2 ^ p) :
    ⌊nearest p (a / b)⌋₊ = a / b := by
  rcases a.eq_zero_or_pos with rfl | hapos
  · simp [nearest_zero]
  · have hbq : (0 : ℚ) < b := by exact_mod_cast hb
    have hx : (0 : ℚ) < a / b := by positivity
    have hquot : ((a / b : ℕ) : ℚ) ≤ a / b := Nat.cast_div_le
    have hrep : Representable p ((a / b : ℕ) : ℚ) :=
      .natCast ((Nat.div_le_self a b).trans_lt ha)
    have hlow := le_nearest hp hrep hquot
    rw [Nat.floor_eq_iff (hrep.nonneg.trans hlow)]
    refine ⟨hlow, ?_⟩
    -- the exact quotient stays `1 / b` below the next whole number
    have hnext : (a : ℚ) / b ≤ ((a / b : ℕ) : ℚ) + 1 - 1 / b := by
      have hnat : a + 1 ≤ b * (a / b + 1) := Nat.lt_mul_div_succ a hb
      have hcast : (a : ℚ) + 1 ≤ b * (((a / b : ℕ) : ℚ) + 1) := by exact_mod_cast hnat
      rw [le_sub_iff_add_le, ← add_div, div_le_iff₀ hbq]
      linarith
    have hsmall : (a : ℚ) / b / 2 ^ p < 1 / b := by
      have haq : (a : ℚ) < 2 ^ p := by exact_mod_cast ha
      rw [div_div, div_lt_div_iff₀ (by positivity) hbq]
      nlinarith
    have herror := nearest_abs_sub_le_div (p := p) hx
    linarith [le_abs_self (nearest p ((a : ℚ) / b) - a / b)]

end TinyRtc.BinaryRounding
