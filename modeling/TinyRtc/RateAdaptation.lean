import Mathlib.Data.FinEnum
import TinyRtc.CongestionControl

namespace TinyRtc.RateAdaptation

open TinyRtc.BinaryRounding
open TinyRtc.CongestionControl

/-- The increase without the rounding of doubles. -/
def flooredIncrease (latestRttMs : ℚ) : UInt32 :=
  if 0 < latestRttMs then UInt32.ofNat ⌊100000 * 100 / latestRttMs⌋₊ else 100000

/-- Additive increase, multiplicative decrease: a report of at most 5 lost packets in
256 does not lower the target, and one of 6 or more does not raise it. -/
def Adapts (beyond increaseOf : ℚ → UInt32) (cc : Cc) : CcCall → Prop
  | .reportFeedback rttMs fractionLost =>
      let target := (reportFeedbackWith beyond increaseOf cc rttMs fractionLost).targetBitrateBps
      (fractionLost ≤ 5 → cc.targetBitrateBps ≤ target) ∧
        (6 ≤ fractionLost → target ≤ cc.targetBitrateBps)
  | _ => True

/-- The sum of target and increase is a 32-bit number, or there is nothing to lose. -/
def IncreaseFits (increaseOf : ℚ → UInt32) (cc : Cc) : CcCall → Prop
  | .reportFeedback rttMs fractionLost =>
      fractionLost ≤ 5 →
        cc.targetBitrateBps.toNat + (increaseOf rttMs.toNat).toNat < 2 ^ 32 ∨
          cc.targetBitrateBps = cc.config.minBitrateBps
  | _ => True

/-- The threshold of two percent lies between 5 and 6 of 256. -/
theorem over_threshold_iff : ∀ fractionLost : UInt8,
    double (fractionLost.toNat / 256) > double (2 / 100) ↔ 6 ≤ fractionLost := by
  decide +kernel

section

variable {beyond increaseOf : ℚ → UInt32} {cc : Cc}

/-- A target that is in range is not clamped. -/
theorem clampTarget_of_inRange (h : TargetInRange cc) :
    (clampTarget cc).targetBitrateBps = cc.targetBitrateBps := by
  rw [clampTarget]
  dsimp only
  rw [if_neg (UInt32.not_lt.mpr h.1), if_neg (UInt32.not_lt.mpr h.2)]

theorem reportCongestion_le (h : TargetInRange cc) :
    (tinyrtcCcReportCongestion beyond cc).targetBitrateBps ≤ cc.targetBitrateBps := by
  have hhalved := @toNat_halved beyond cc.targetBitrateBps
  rw [tinyrtcCcReportCongestion, updateTarget_target]
  split_ifs
  · exact h.1
  · rw [UInt32.le_iff_toNat_le]
    omega

/-- The increase is made before the maximum is applied, so a sum that wraps around
passes for a small target. -/
theorem le_increased_iff (increase : UInt32) (h : TargetInRange cc) :
    cc.targetBitrateBps ≤ (clampTarget (increaseTarget beyond cc increase)).targetBitrateBps ↔
      cc.targetBitrateBps.toNat + increase.toNat < 2 ^ 32 ∨
        cc.targetBitrateBps = cc.config.minBitrateBps := by
  obtain ⟨hmin, hmax⟩ := h
  have htarget := cc.targetBitrateBps.toNat_lt
  have hincrease := increase.toNat_lt
  have hsum := UInt32.toNat_add cc.targetBitrateBps increase
  simp only [clampTarget, increaseTarget, updateTarget_target, updateTarget_config]
  simp only [UInt32.le_iff_toNat_le] at hmin hmax
  rw [UInt32.le_iff_toNat_le, ← UInt32.toNat_inj]
  by_cases hfits : cc.targetBitrateBps.toNat + increase.toNat < 2 ^ 32
  · rw [Nat.mod_eq_of_lt hfits] at hsum
    refine iff_of_true ?_ (.inl hfits)
    split_ifs <;> simp only [UInt32.lt_iff_toNat_lt, gt_iff_lt] at * <;> omega
  · have hwrapped : (cc.targetBitrateBps + increase).toNat < cc.targetBitrateBps.toNat := by
      omega
    rw [or_iff_right hfits]
    split_ifs <;> simp only [UInt32.lt_iff_toNat_lt, gt_iff_lt] at * <;> omega

theorem adapts_iff (h : TargetInRange cc) (call : CcCall) :
    Adapts beyond increaseOf cc call ↔ IncreaseFits increaseOf cc call := by
  cases call with
  | reportFeedback rttMs fractionLost =>
      let reported : Cc := { cc with
        latestRttMs := rttMs.toNat
        latestFractionLost := double (fractionLost.toNat / 256) }
      have hreported : TargetInRange reported := h
      simp only [Adapts, IncreaseFits, reportFeedbackWith, over_threshold_iff]
      by_cases hcongested : 6 ≤ fractionLost
      · have hnot : ¬ fractionLost ≤ 5 := fun hle =>
          absurd (UInt8.le_trans hcongested hle) (by decide)
        rw [if_pos hcongested]
        refine iff_of_true ⟨fun hle => absurd hle hnot, fun _ => ?_⟩ fun hle => absurd hle hnot
        rw [clampTarget_of_inRange (reportCongestion_inRange hreported)]
        exact reportCongestion_le hreported
      · have hle : fractionLost ≤ 5 := by
          rw [UInt8.le_iff_toNat_le] at hcongested ⊢
          exact Nat.le_of_lt_succ (Nat.not_le.mp hcongested)
        rw [if_neg hcongested]
        refine (and_iff_left fun hge => absurd hge hcongested).trans ?_
        exact imp_congr_right fun _ =>
          @le_increased_iff beyond reported (increaseOf rttMs.toNat) hreported
  | _ => exact Iff.rfl

end

/-- The state that a new one gets to by some calls. -/
def stateAfter (beyond increaseOf : ℚ → UInt32) (config : CcConfig) (calls : List CcCall) : Cc :=
  calls.foldl (ccCallWith increaseOf beyond) (tinyrtcCcCreate config)

/-- The reports of a sequence of calls change the target the right way wherever it is in
range, exactly when no increase wraps around there. -/
theorem adapts_run_iff (beyond increaseOf : ℚ → UInt32) (config : CcConfig)
    (calls : List CcCall) :
    (∀ before call after, calls = before ++ call :: after →
        TargetInRange (stateAfter beyond increaseOf config before) →
        Adapts beyond increaseOf (stateAfter beyond increaseOf config before) call) ↔
      ∀ before call after, calls = before ++ call :: after →
        TargetInRange (stateAfter beyond increaseOf config before) →
        IncreaseFits increaseOf (stateAfter beyond increaseOf config before) call := by
  constructor
  · intro h before call after hcalls hrange
    exact (adapts_iff hrange call).mp (h before call after hcalls hrange)
  · intro h before call after hcalls hrange
    exact (adapts_iff hrange call).mpr (h before call after hcalls hrange)

/-- The maximum is the largest 32-bit number, and the target 4,967,296 below 2^32. -/
def nearTheTop : CcConfig :=
  ⟨500000, 4294967295, 4290000000, false⟩

theorem not_adapts_nearTheTop {increaseOf : ℚ → UInt32}
    (hincrease : (increaseOf ((1 : UInt32).toNat : ℚ)).toNat = 10000000) :
    ¬ Adapts (fun _ => 0) increaseOf (tinyrtcCcCreate nearTheTop) (.reportFeedback 1 0) := by
  have hrange : TargetInRange (tinyrtcCcCreate nearTheTop) := ⟨by decide, by decide⟩
  intro hadapts
  rcases (adapts_iff hrange _).mp hadapts (by decide) with hfits | hmin
  · rw [hincrease] at hfits
    exact absurd hfits (by decide)
  · exact absurd hmin (by decide)

/-- After a round trip of 1 ms without loss the target is at 5,032,704, with the rounding of
doubles and without it. -/
theorem adapts_fails :
    TargetInRange (stateAfter (fun _ => 0) flooredIncrease nearTheTop []) ∧
      ¬ Adapts (fun _ => 0) flooredIncrease (stateAfter (fun _ => 0) flooredIncrease nearTheTop [])
        (.reportFeedback 1 0) ∧
      ¬ Adapts (fun _ => 0) (scaledIncrease fun _ => 0)
        (stateAfter (fun _ => 0) (scaledIncrease fun _ => 0) nearTheTop [])
        (.reportFeedback 1 0) := by
  refine ⟨⟨by decide, by decide⟩, not_adapts_nearTheTop ?_, not_adapts_nearTheTop ?_⟩
  · decide +kernel
  · decide +kernel

end TinyRtc.RateAdaptation
