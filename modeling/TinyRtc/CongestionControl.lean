import TinyRtc.BinaryRounding

namespace TinyRtc.CongestionControl

open TinyRtc.BinaryRounding

/-- The result of an operation on doubles. The numbers here stay far from the ends
of the range of their exponents. -/
def double (x : ℚ) : ℚ :=
  nearest 53 x

/-- The conversion of a double to `uint32_t`. C leaves the result open where the
whole part does not fit, and so does `beyond`. -/
def toUInt32 (beyond : ℚ → UInt32) (x : ℚ) : UInt32 :=
  if ⌊x⌋₊ < 4294967296 then UInt32.ofNat ⌊x⌋₊ else beyond x

/-- `tinyrtc_cc_config_t`. -/
structure CcConfig where
  minBitrateBps : UInt32
  maxBitrateBps : UInt32
  initialBitrateBps : UInt32
  enablePacing : Bool
  deriving DecidableEq

def tinyrtcCcGetDefaultConfig : CcConfig :=
  ⟨500000, 20000000, 2000000, true⟩

/-- `struct tinyrtc_cc`. -/
structure Cc where
  config : CcConfig
  estimatedBandwidthBps : UInt32
  targetBitrateBps : UInt32
  totalBytesSent : UInt64
  totalPacketsSent : UInt32
  lastUpdateTimeMs : UInt64
  bytesThisInterval : UInt32
  pacingNextSendTimeMs : UInt64
  latestRttMs : ℚ
  latestFractionLost : ℚ
  deriving DecidableEq

def tinyrtcCcCreate (config : CcConfig) : Cc :=
  ⟨config, config.initialBitrateBps, config.initialBitrateBps, 0, 0, 0, 0, 0, 0, 0⟩

def tinyrtcCcGetTargetBitrate (cc : Cc) : UInt32 :=
  cc.targetBitrateBps

/-- The arguments that the source marks as unused are left out, here and below. -/
def tinyrtcCcReportPacketSent (cc : Cc) (sendTimeMs sizeBytes : UInt64) : Cc :=
  { cc with
    totalBytesSent := cc.totalBytesSent + sizeBytes
    totalPacketsSent := cc.totalPacketsSent + 1
    bytesThisInterval := cc.bytesThisInterval + sizeBytes.toUInt32
    lastUpdateTimeMs := sendTimeMs }

/-- `TINYRTC_CC_ESTIMATE_ALPHA`. -/
def estimateAlpha : ℚ :=
  double (85 / 100)

section

variable (beyond : ℚ → UInt32)

/-- The moving average, and the new target beside it. -/
def updateTarget (cc : Cc) (newTarget : UInt32) : Cc :=
  { cc with
    estimatedBandwidthBps := toUInt32 beyond
      (double (double (estimateAlpha * cc.estimatedBandwidthBps.toNat) +
        double (double (1 - estimateAlpha) * newTarget.toNat)))
    targetBitrateBps := newTarget }

def tinyrtcCcReportCongestion (cc : Cc) : Cc :=
  let newTarget := toUInt32 beyond (double (cc.targetBitrateBps.toNat * (1 / 2)))
  updateTarget beyond cc
    (if newTarget < cc.config.minBitrateBps then cc.config.minBitrateBps else newTarget)

/-- 100 kbps a round trip of 100 ms. -/
def scaledIncrease (latestRttMs : ℚ) : UInt32 :=
  if 0 < latestRttMs then toUInt32 beyond (double (100000 * double (100 / latestRttMs)))
  else 100000

def increaseTarget (cc : Cc) (increase : UInt32) : Cc :=
  let newTarget := cc.targetBitrateBps + increase
  updateTarget beyond cc
    (if newTarget > cc.config.maxBitrateBps then cc.config.maxBitrateBps else newTarget)

/-- The end of `tinyrtc_cc_report_feedback`. -/
def clampTarget (cc : Cc) : Cc :=
  let raised :=
    if cc.targetBitrateBps < cc.config.minBitrateBps then cc.config.minBitrateBps
    else cc.targetBitrateBps
  { cc with
    targetBitrateBps :=
      if raised > cc.config.maxBitrateBps then cc.config.maxBitrateBps else raised }

/-- `tinyrtc_cc_report_feedback` with the increase as a parameter. -/
def reportFeedbackWith (increaseOf : ℚ → UInt32) (cc : Cc) (rttMs : UInt32)
    (fractionLost : UInt8) : Cc :=
  let cc := { cc with
    latestRttMs := rttMs.toNat
    latestFractionLost := double (fractionLost.toNat / 256) }
  if cc.latestFractionLost > double (2 / 100) then
    clampTarget (tinyrtcCcReportCongestion beyond cc)
  else
    clampTarget (increaseTarget beyond cc (increaseOf cc.latestRttMs))

def tinyrtcCcReportFeedback (cc : Cc) (rttMs : UInt32) (fractionLost : UInt8) : Cc :=
  reportFeedbackWith beyond (scaledIncrease beyond) cc rttMs fractionLost

/-- The bit rate as a divisor, at least 1. -/
def pacingBitrate (cc : Cc) : ℚ :=
  if (cc.targetBitrateBps.toNat : ℚ) < 1 then 1 else cc.targetBitrateBps.toNat

/-- The milliseconds that a packet takes at the target bit rate. -/
def waitMs (cc : Cc) (packetSizeBytes : UInt64) : UInt32 :=
  let bits := double (double packetSizeBytes.toNat * 8)
  toUInt32 beyond (double (double (bits * 1000) / pacingBitrate cc))

def tinyrtcCcCanSend (cc : Cc) (packetSizeBytes nowMs : UInt64) : Bool × Cc :=
  if !cc.config.enablePacing then (true, cc)
  else if cc.pacingNextSendTimeMs = 0 then
    (true, { cc with pacingNextSendTimeMs := nowMs, bytesThisInterval := 0 })
  else if nowMs < cc.pacingNextSendTimeMs then (false, cc)
  else
    (true, { cc with
      pacingNextSendTimeMs := nowMs + (waitMs beyond cc packetSizeBytes).toUInt64
      bytesThisInterval := cc.bytesThisInterval + packetSizeBytes.toUInt32 })

end

/-- The calls that change the state. -/
inductive CcCall where
  | reportFeedback (rttMs : UInt32) (fractionLost : UInt8)
  | reportCongestion
  | reportPacketSent (sendTimeMs sizeBytes : UInt64)
  | canSend (packetSizeBytes nowMs : UInt64)

def ccCallWith (increaseOf : ℚ → UInt32) (beyond : ℚ → UInt32) (cc : Cc) : CcCall → Cc
  | .reportFeedback rttMs fractionLost =>
      reportFeedbackWith beyond increaseOf cc rttMs fractionLost
  | .reportCongestion => tinyrtcCcReportCongestion beyond cc
  | .reportPacketSent sendTimeMs sizeBytes => tinyrtcCcReportPacketSent cc sendTimeMs sizeBytes
  | .canSend packetSizeBytes nowMs => (tinyrtcCcCanSend beyond cc packetSizeBytes nowMs).2

/-- The calls with the increase that the code computes. -/
def ccCall (beyond : ℚ → UInt32) : Cc → CcCall → Cc :=
  ccCallWith (scaledIncrease beyond) beyond

/-- The bounds of the configuration hold of the target. -/
def TargetInRange (cc : Cc) : Prop :=
  cc.config.minBitrateBps ≤ cc.targetBitrateBps ∧ cc.targetBitrateBps ≤ cc.config.maxBitrateBps

section

variable {beyond : ℚ → UInt32}

theorem toUInt32_toNat {x : ℚ} (h : ⌊x⌋₊ < 4294967296) : (toUInt32 beyond x).toNat = ⌊x⌋₊ := by
  rw [toUInt32, if_pos h]
  exact UInt32.toNat_ofNat_of_lt h

theorem toUInt32_of_le {x y : ℚ} (hle : x ≤ y) (hlt : y < 4294967296) (beyond' : ℚ → UInt32) :
    toUInt32 beyond x = toUInt32 beyond' x := by
  have hfloor : ⌊x⌋₊ < 4294967296 := by
    rw [Nat.floor_lt' (by norm_num)]
    exact_mod_cast hle.trans_lt hlt
  rw [toUInt32, toUInt32, if_pos hfloor, if_pos hfloor]

/-- Half of a 32-bit number is exact. -/
theorem toNat_halved (target : UInt32) :
    (toUInt32 beyond (double (target.toNat * (1 / 2)))).toNat = target.toNat / 2 := by
  have hlt := target.toNat_lt
  have hfloor : ⌊double (target.toNat * (1 / 2))⌋₊ = target.toNat / 2 := by
    rw [mul_one_div]
    exact floor_nearest_div (by norm_num) (by norm_num) (by omega)
  rw [toUInt32_toNat (by omega), hfloor]

theorem double_natCast {n : ℕ} (h : n < 2 ^ 53) : double n = n :=
  nearest_natCast (by norm_num) h

theorem double_le_natCast {x : ℚ} {n : ℕ} (hn : n < 2 ^ 53) (hle : x ≤ n) : double x ≤ n :=
  nearest_le (by norm_num) (.natCast hn) hle

theorem double_le_mul {x : ℚ} (hx : 0 ≤ x) : double x ≤ x + x / 2 ^ 53 := by
  rcases hx.eq_or_lt with rfl | hpos
  · norm_num [double, nearest_zero]
  · have herror := nearest_abs_sub_le_div (p := 53) hpos
    rw [abs_le] at herror
    change nearest 53 x ≤ x + x / 2 ^ 53
    linarith [herror.2]

theorem estimateAlpha_bounds :
    0 ≤ estimateAlpha ∧ 0 ≤ double (1 - estimateAlpha) ∧
      estimateAlpha + double (1 - estimateAlpha) = 1 := by
  decide +kernel

/-- The conversion of the moving average is defined. -/
theorem updateTarget_defined (beyond' : ℚ → UInt32) (cc : Cc) (newTarget : UInt32) :
    updateTarget beyond cc newTarget = updateTarget beyond' cc newTarget := by
  obtain ⟨halpha, hbeta, hone⟩ := estimateAlpha_bounds
  have hestimate : (cc.estimatedBandwidthBps.toNat : ℚ) ≤ 4294967295 := by
    exact_mod_cast Nat.le_of_lt_succ cc.estimatedBandwidthBps.toNat_lt
  have hnew : (newTarget.toNat : ℚ) ≤ 4294967295 := by
    exact_mod_cast Nat.le_of_lt_succ newTarget.toNat_lt
  have hold : double (estimateAlpha * cc.estimatedBandwidthBps.toNat) ≤
      estimateAlpha * (4294967295 + 4294967295 / 2 ^ 53) := by
    refine (double_le_mul (by positivity)).trans ?_
    nlinarith
  have hadded : double (double (1 - estimateAlpha) * newTarget.toNat) ≤
      double (1 - estimateAlpha) * (4294967295 + 4294967295 / 2 ^ 53) := by
    refine (double_le_mul (by positivity)).trans ?_
    nlinarith
  -- what is added stays half a unit below the first number that does not fit
  have hbound : Representable 53 (8589934591 / 2) := ⟨8589934591, -1, by norm_num, by norm_num⟩
  have hsum : double (estimateAlpha * cc.estimatedBandwidthBps.toNat) +
      double (double (1 - estimateAlpha) * newTarget.toNat) ≤ 8589934591 / 2 := by
    calc _ ≤ (estimateAlpha + double (1 - estimateAlpha)) *
          (4294967295 + 4294967295 / 2 ^ 53) := by linarith
      _ ≤ 8589934591 / 2 := by rw [hone]; norm_num
  have hrounded : double (double (estimateAlpha * cc.estimatedBandwidthBps.toNat) +
      double (double (1 - estimateAlpha) * newTarget.toNat)) ≤ 8589934591 / 2 :=
    nearest_le (by norm_num) hbound hsum
  rw [updateTarget, updateTarget, toUInt32_of_le hrounded (by norm_num) beyond']

theorem scaledIncrease_defined (beyond' : ℚ → UInt32) (rttMs : ℕ) :
    scaledIncrease beyond rttMs = scaledIncrease beyond' rttMs := by
  unfold scaledIncrease
  split_ifs with hpos
  · have hrtt : (1 : ℚ) ≤ rttMs := by exact_mod_cast Nat.cast_pos.mp hpos
    have hquotient : double (100 / rttMs) ≤ (100 : ℕ) :=
      double_le_natCast (by norm_num) (div_le_self (by norm_num) hrtt)
    have hproduct : double (100000 * double (100 / rttMs)) ≤ (10000000 : ℕ) :=
      double_le_natCast (by norm_num) (by push_cast at hquotient ⊢; linarith)
    exact toUInt32_of_le hproduct (by norm_num) beyond'
  · rfl

@[simp] theorem updateTarget_config (cc : Cc) (newTarget : UInt32) :
    (updateTarget beyond cc newTarget).config = cc.config := rfl

@[simp] theorem updateTarget_target (cc : Cc) (newTarget : UInt32) :
    (updateTarget beyond cc newTarget).targetBitrateBps = newTarget := rfl

@[simp] theorem clampTarget_config (cc : Cc) : (clampTarget cc).config = cc.config := rfl

@[simp] theorem increaseTarget_config (cc : Cc) (increase : UInt32) :
    (increaseTarget beyond cc increase).config = cc.config := rfl

@[simp] theorem reportCongestion_config (cc : Cc) :
    (tinyrtcCcReportCongestion beyond cc).config = cc.config := rfl

/-- Only the target itself is read. -/
theorem clampTarget_inRange {cc : Cc}
    (h : cc.config.minBitrateBps ≤ cc.config.maxBitrateBps) : TargetInRange (clampTarget cc) := by
  simp only [TargetInRange, clampTarget]
  split_ifs with hraised hlowered hlowered
  · exact ⟨h, UInt32.le_refl _⟩
  · exact ⟨UInt32.le_refl _, h⟩
  · exact ⟨h, UInt32.le_refl _⟩
  · exact ⟨UInt32.not_lt.mp hraised, UInt32.not_lt.mp hlowered⟩

theorem reportCongestion_defined (beyond' : ℚ → UInt32) (cc : Cc) :
    tinyrtcCcReportCongestion beyond cc = tinyrtcCcReportCongestion beyond' cc := by
  have hhalved : toUInt32 beyond (double (cc.targetBitrateBps.toNat * (1 / 2))) =
      toUInt32 beyond' (double (cc.targetBitrateBps.toNat * (1 / 2))) :=
    UInt32.toNat_inj.mp ((toNat_halved _).trans (toNat_halved _).symm)
  rw [tinyrtcCcReportCongestion, tinyrtcCcReportCongestion, hhalved, updateTarget_defined beyond']

/-- The reports convert no double that is out of range. -/
theorem reportFeedback_defined (beyond' : ℚ → UInt32) (cc : Cc) (rttMs : UInt32)
    (fractionLost : UInt8) :
    tinyrtcCcReportFeedback beyond cc rttMs fractionLost =
      tinyrtcCcReportFeedback beyond' cc rttMs fractionLost := by
  unfold tinyrtcCcReportFeedback reportFeedbackWith
  dsimp only
  rw [reportCongestion_defined beyond', scaledIncrease_defined beyond', increaseTarget,
    increaseTarget, updateTarget_defined beyond']

/-- There is no clamp to the maximum here: the half of a target in range is below it. -/
theorem reportCongestion_inRange {cc : Cc} (h : TargetInRange cc) :
    TargetInRange (tinyrtcCcReportCongestion beyond cc) := by
  have hhalved := @toNat_halved beyond cc.targetBitrateBps
  obtain ⟨hmin, hmax⟩ := h
  simp only [TargetInRange, tinyrtcCcReportCongestion, updateTarget_config, updateTarget_target]
  split_ifs with hlow
  · exact ⟨UInt32.le_refl _, UInt32.le_trans hmin hmax⟩
  · refine ⟨UInt32.not_lt.mp hlow, ?_⟩
    rw [UInt32.le_iff_toNat_le] at hmax ⊢
    omega

theorem reportFeedbackWith_config (increaseOf : ℚ → UInt32) (cc : Cc) (rttMs : UInt32)
    (fractionLost : UInt8) :
    (reportFeedbackWith beyond increaseOf cc rttMs fractionLost).config = cc.config := by
  unfold reportFeedbackWith
  dsimp only
  split_ifs <;> rfl

theorem reportFeedbackWith_inRange (increaseOf : ℚ → UInt32) {cc : Cc}
    (h : cc.config.minBitrateBps ≤ cc.config.maxBitrateBps) (rttMs : UInt32)
    (fractionLost : UInt8) :
    TargetInRange (reportFeedbackWith beyond increaseOf cc rttMs fractionLost) := by
  unfold reportFeedbackWith
  dsimp only
  split_ifs
  · exact clampTarget_inRange h
  · exact clampTarget_inRange h

theorem canSend_target (cc : Cc) (packetSizeBytes nowMs : UInt64) :
    (tinyrtcCcCanSend beyond cc packetSizeBytes nowMs).2.config = cc.config ∧
      (tinyrtcCcCanSend beyond cc packetSizeBytes nowMs).2.targetBitrateBps =
        cc.targetBitrateBps := by
  unfold tinyrtcCcCanSend
  split_ifs <;> exact ⟨rfl, rfl⟩

theorem ccCallWith_config (increaseOf : ℚ → UInt32) (cc : Cc) (call : CcCall) :
    (ccCallWith increaseOf beyond cc call).config = cc.config := by
  cases call with
  | reportFeedback rttMs fractionLost => exact reportFeedbackWith_config ..
  | reportCongestion => rfl
  | reportPacketSent sendTimeMs sizeBytes => rfl
  | canSend packetSizeBytes nowMs => exact (canSend_target ..).1

theorem ccCallWith_inRange (increaseOf : ℚ → UInt32) {cc : Cc} (h : TargetInRange cc)
    (call : CcCall) : TargetInRange (ccCallWith increaseOf beyond cc call) := by
  cases call with
  | reportFeedback rttMs fractionLost =>
      exact reportFeedbackWith_inRange increaseOf (UInt32.le_trans h.1 h.2) rttMs fractionLost
  | reportCongestion => exact reportCongestion_inRange h
  | reportPacketSent sendTimeMs sizeBytes => exact h
  | canSend packetSizeBytes nowMs =>
      obtain ⟨hconfig, htarget⟩ := @canSend_target beyond cc packetSizeBytes nowMs
      simp only [TargetInRange, ccCallWith, hconfig, htarget]
      exact h

theorem calls_inRange (increaseOf : ℚ → UInt32) {cc : Cc} (h : TargetInRange cc)
    (calls : List CcCall) :
    TargetInRange (calls.foldl (ccCallWith increaseOf beyond) cc) := by
  induction calls generalizing cc with
  | nil => exact h
  | cons call calls ih => exact ih (ccCallWith_inRange increaseOf h call)

end

/-- From a new state on, whatever the increases are. The code's own ones are
`scaledIncrease beyond`. -/
theorem target_bitrate_in_range (beyond increaseOf : ℚ → UInt32) (config : CcConfig)
    (hmin : config.minBitrateBps ≤ config.initialBitrateBps)
    (hmax : config.initialBitrateBps ≤ config.maxBitrateBps) (calls : List CcCall) :
    let cc := calls.foldl (ccCallWith increaseOf beyond) (tinyrtcCcCreate config)
    config.minBitrateBps ≤ tinyrtcCcGetTargetBitrate cc ∧
      tinyrtcCcGetTargetBitrate cc ≤ config.maxBitrateBps := by
  have hconfig : ∀ cc : Cc,
      (calls.foldl (ccCallWith increaseOf beyond) cc).config = cc.config := by
    induction calls with
    | nil => exact fun _ => rfl
    | cons call calls ih => exact fun cc => (ih _).trans (ccCallWith_config increaseOf cc call)
  have hrange := @calls_inRange beyond increaseOf (tinyrtcCcCreate config) ⟨hmin, hmax⟩ calls
  rw [TargetInRange, hconfig] at hrange
  exact hrange

theorem target_bitrate_in_range_default :
    (500000 : UInt32) ≤ 2000000 ∧ (2000000 : UInt32) ≤ 20000000 ∧
      let cc := [CcCall.reportFeedback 1 0, .reportFeedback 1 255, .reportCongestion].foldl
        (ccCall (fun _ => 0)) (tinyrtcCcCreate tinyrtcCcGetDefaultConfig)
      500000 ≤ tinyrtcCcGetTargetBitrate cc ∧ tinyrtcCcGetTargetBitrate cc ≤ 20000000 :=
  ⟨by decide, by decide, target_bitrate_in_range (fun _ => 0) (scaledIncrease fun _ => 0)
    tinyrtcCcGetDefaultConfig (by decide) (by decide) _⟩

end TinyRtc.CongestionControl
