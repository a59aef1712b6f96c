import Mathlib.Data.Int.Cast.Basic
import Mathlib.Tactic.Common
import Mathlib.Tactic.NormNum.Basic

namespace TinyRtc.SizeConversions

/-- A negative number as an unsigned one is counted from 2^64. -/
theorem toNat_toUInt64 (x : Int64) : (x.toUInt64.toNat : Int) = x.toInt % 2 ^ 64 := by
  have hlt : (x.toUInt64.toNat : Int) < 2 ^ 64 := by exact_mod_cast x.toUInt64.toNat_lt
  have hbits : x.toInt = Int.bmod x.toUInt64.toNat (2 ^ 64) := BitVec.toInt_eq_toNat_bmod _
  have hmod := @Int.bmod_emod x.toUInt64.toNat (2 ^ 64)
  rw [← hbits] at hmod
  rw [Int.emod_eq_of_lt (Int.natCast_nonneg _) (by exact_mod_cast hlt)] at hmod
  exact_mod_cast hmod.symm

/-- An `int` as a `size_t`. -/
def asSize (n : Int32) : Nat :=
  n.toInt64.toUInt64.toNat

theorem asSize_eq (n : Int32) : (asSize n : Int) = n.toInt % 2 ^ 64 := by
  rw [asSize, toNat_toUInt64, Int32.toInt_toInt64]

theorem asSize_of_nonneg {n : Int32} (h : 0 ≤ n.toInt) : (asSize n : Int) = n.toInt := by
  have hlt := n.toInt_lt
  rw [asSize_eq]
  omega

theorem asSize_of_neg {n : Int32} (h : n.toInt < 0) : 2 ^ 63 ≤ asSize n := by
  have hge := n.le_toInt
  have hsize := asSize_eq n
  omega

end TinyRtc.SizeConversions
