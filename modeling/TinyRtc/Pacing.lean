import TinyRtc.CongestionControl

namespace TinyRtc.Pacing

open TinyRtc.CongestionControl
open TinyRtc.BinaryRounding

/-- A question to `tinyrtc_cc_can_send`. -/
structure Query where
  packetSizeBytes : UInt64
  nowMs : UInt64
  deriving DecidableEq

/-- The queries that are answered with true, in order. -/
def grants (beyond : ℚ → UInt32) : Cc → List Query → List Query
  | _, [] => []
  | cc, query :: queries =>
      let (granted, cc') := tinyrtcCcCanSend beyond cc query.packetSizeBytes query.nowMs
      if granted then query :: grants beyond cc' queries else grants beyond cc' queries

/-- Time does not run backwards, and starts after 0. -/
def Timely (queries : List Query) : Prop :=
  (∀ query ∈ queries, 0 < query.nowMs.toNat) ∧
    queries.Pairwise fun earlier later => earlier.nowMs.toNat ≤ later.nowMs.toNat

instance : DecidablePred Timely := fun _ => inferInstanceAs (Decidable (_ ∧ _))

def totalBytes (queries : List Query) : ℕ :=
  (queries.map fun query => query.packetSizeBytes.toNat).sum

/-- What lies between the first and the last packet fits into the time between them. -/
def RespectsRate (rate : UInt32) (granted : List Query) : Prop :=
  ∀ first middle last, granted = first :: (middle ++ [last]) →
    8000 * (totalBytes middle : ℤ) ≤
      rate.toNat * ((last.nowMs.toNat : ℤ) - first.nowMs.toNat)

/-- The packet takes a whole number of milliseconds at the bit rate, and no number on
the way to the next time is rounded or out of range. -/
structure TakesWholeMs (rate : UInt32) (query : Query) : Prop where
  dvd : rate.toNat ∣ 8000 * query.packetSizeBytes.toNat
  bits_lt : 8000 * query.packetSizeBytes.toNat < 2 ^ 53
  wait_lt : 8000 * query.packetSizeBytes.toNat / rate.toNat < 2 ^ 32
  time_lt : query.nowMs.toNat + 8000 * query.packetSizeBytes.toNat / rate.toNat < 2 ^ 64

section

variable {beyond : ℚ → UInt32} {cc : Cc}

theorem pacingBitrate_eq (hrate : 1 ≤ cc.targetBitrateBps.toNat) :
    pacingBitrate cc = cc.targetBitrateBps.toNat := by
  have hle : (1 : ℚ) ≤ cc.targetBitrateBps.toNat := by exact_mod_cast hrate
  exact if_neg (not_lt.mpr hle)

/-- The exact quotient, rounded down. -/
theorem toNat_waitMs (hrate : 1 ≤ cc.targetBitrateBps.toNat) {size : UInt64}
    (hbits : 8000 * size.toNat < 2 ^ 53)
    (hwait : 8000 * size.toNat / cc.targetBitrateBps.toNat < 2 ^ 32) :
    (waitMs beyond cc size).toNat = 8000 * size.toNat / cc.targetBitrateBps.toNat := by
  have hsize : double size.toNat = size.toNat := double_natCast (by omega)
  have hoctets : double ((size.toNat : ℚ) * 8) = ((size.toNat * 8 : ℕ) : ℚ) := by
    rw [← double_natCast (n := size.toNat * 8) (by omega)]
    push_cast
    rfl
  have hmilli : double (((size.toNat * 8 : ℕ) : ℚ) * 1000) = ((8000 * size.toNat : ℕ) : ℚ) := by
    rw [← double_natCast hbits]
    congr 1
    push_cast
    ring
  have hfloor : ⌊double (((8000 * size.toNat : ℕ) : ℚ) / cc.targetBitrateBps.toNat)⌋₊ =
      8000 * size.toNat / cc.targetBitrateBps.toNat :=
    floor_nearest_div (by norm_num) hrate hbits
  rw [waitMs, hsize, hoctets, hmilli, pacingBitrate_eq hrate,
    toUInt32_toNat (by rw [hfloor]; exact hwait), hfloor]

theorem canSend_idle (hpacing : cc.config.enablePacing = true)
    (hidle : cc.pacingNextSendTimeMs = 0) (size now : UInt64) :
    tinyrtcCcCanSend beyond cc size now =
      (true, { cc with pacingNextSendTimeMs := now, bytesThisInterval := 0 }) := by
  rw [tinyrtcCcCanSend, hpacing, if_pos hidle]
  rfl

theorem canSend_early (hpacing : cc.config.enablePacing = true)
    (hbusy : cc.pacingNextSendTimeMs ≠ 0) {now : UInt64} (hearly : now < cc.pacingNextSendTimeMs)
    (size : UInt64) : tinyrtcCcCanSend beyond cc size now = (false, cc) := by
  rw [tinyrtcCcCanSend, hpacing, if_neg hbusy, if_pos hearly]
  rfl

theorem canSend_due (hpacing : cc.config.enablePacing = true)
    (hbusy : cc.pacingNextSendTimeMs ≠ 0) {now : UInt64} (hdue : ¬now < cc.pacingNextSendTimeMs)
    (size : UInt64) :
    tinyrtcCcCanSend beyond cc size now =
      (true, { cc with
        pacingNextSendTimeMs := now + (waitMs beyond cc size).toUInt64
        bytesThisInterval := cc.bytesThisInterval + size.toUInt32 }) := by
  rw [tinyrtcCcCanSend, hpacing, if_neg hbusy, if_neg hdue]
  rfl

theorem grants_cons_early (hpacing : cc.config.enablePacing = true)
    (hbusy : cc.pacingNextSendTimeMs ≠ 0) {query : Query}
    (hearly : query.nowMs < cc.pacingNextSendTimeMs) (queries : List Query) :
    grants beyond cc (query :: queries) = grants beyond cc queries := by
  rw [grants, canSend_early hpacing hbusy hearly]
  rfl

/-- The state after a packet that had to wait for its time. -/
def charged (beyond : ℚ → UInt32) (cc : Cc) (query : Query) : Cc :=
  { cc with
    pacingNextSendTimeMs := query.nowMs + (waitMs beyond cc query.packetSizeBytes).toUInt64
    bytesThisInterval := cc.bytesThisInterval + query.packetSizeBytes.toUInt32 }

theorem grants_cons_due (hpacing : cc.config.enablePacing = true)
    (hbusy : cc.pacingNextSendTimeMs ≠ 0) {query : Query}
    (hdue : ¬query.nowMs < cc.pacingNextSendTimeMs) (queries : List Query) :
    grants beyond cc (query :: queries) =
      query :: grants beyond (charged beyond cc query) queries := by
  rw [grants, canSend_due hpacing hbusy hdue]
  rfl

theorem grants_cons_idle (hpacing : cc.config.enablePacing = true)
    (hidle : cc.pacingNextSendTimeMs = 0) (query : Query) (queries : List Query) :
    grants beyond cc (query :: queries) =
      query :: grants beyond
        { cc with pacingNextSendTimeMs := query.nowMs, bytesThisInterval := 0 } queries := by
  rw [grants, canSend_idle hpacing hidle]
  rfl

theorem toNat_charged {query : Query}
    (hclock : query.nowMs.toNat + (waitMs beyond cc query.packetSizeBytes).toNat < 2 ^ 64) :
    (charged beyond cc query).pacingNextSendTimeMs.toNat =
      query.nowMs.toNat + (waitMs beyond cc query.packetSizeBytes).toNat := by
  rw [charged, UInt64.toNat_add, UInt32.toNat_toUInt64, Nat.mod_eq_of_lt hclock]

/-- A packet that takes whole milliseconds moves the next time by what it costs. -/
theorem rate_mul_charged (hrate : 1 ≤ cc.targetBitrateBps.toNat) {query : Query}
    (h : TakesWholeMs cc.targetBitrateBps query) :
    cc.targetBitrateBps.toNat * (charged beyond cc query).pacingNextSendTimeMs.toNat =
      cc.targetBitrateBps.toNat * query.nowMs.toNat + 8000 * query.packetSizeBytes.toNat := by
  have hwait := @toNat_waitMs beyond _ hrate _ h.bits_lt h.wait_lt
  rw [toNat_charged (by rw [hwait]; exact h.time_lt), hwait, Nat.mul_add, Nat.mul_div_cancel' h.dvd]

/-- After a packet has left: the next time stands for what has been charged so far. -/
theorem rate_mul_next_add_le (hpacing : cc.config.enablePacing = true)
    (hrate : 1 ≤ cc.targetBitrateBps.toNat) (hbusy : cc.pacingNextSendTimeMs ≠ 0)
    {queries : List Query} (hpositive : ∀ query ∈ queries, 0 < query.nowMs.toNat)
    {middle : List Query} {last : Query} (hgrants : grants beyond cc queries = middle ++ [last])
    (hwhole : ∀ query ∈ middle, TakesWholeMs cc.targetBitrateBps query) :
    cc.targetBitrateBps.toNat * cc.pacingNextSendTimeMs.toNat + 8000 * totalBytes middle ≤
      cc.targetBitrateBps.toNat * last.nowMs.toNat := by
  induction queries generalizing cc middle with
  | nil => exact absurd hgrants.symm (List.append_ne_nil_of_right_ne_nil _ (List.cons_ne_nil _ _))
  | cons query queries ih =>
      rw [List.forall_mem_cons] at hpositive
      by_cases hearly : query.nowMs < cc.pacingNextSendTimeMs
      · rw [grants_cons_early hpacing hbusy hearly] at hgrants
        exact ih hpacing hrate hbusy hpositive.2 hgrants hwhole
      · have hdue : cc.pacingNextSendTimeMs.toNat ≤ query.nowMs.toNat :=
          UInt64.le_iff_toNat_le.mp (UInt64.not_lt.mp hearly)
        have hmul := Nat.mul_le_mul_left cc.targetBitrateBps.toNat hdue
        rw [grants_cons_due hpacing hbusy hearly] at hgrants
        cases middle with
        | nil =>
            rw [List.nil_append, List.cons.injEq] at hgrants
            rw [← hgrants.1]
            simpa [totalBytes] using hmul
        | cons charge middle =>
            rw [List.cons_append, List.cons.injEq] at hgrants
            obtain ⟨hcharge, hgrants⟩ := hgrants
            subst hcharge
            rw [List.forall_mem_cons] at hwhole
            have hcharged := @rate_mul_charged beyond _ hrate _ hwhole.1
            have hbusy' : (charged beyond cc query).pacingNextSendTimeMs ≠ 0 := by
              intro hzero
              rw [hzero, UInt64.toNat_zero, Nat.mul_zero] at hcharged
              have := Nat.mul_pos hrate hpositive.1
              omega
            have hrest := @ih (charged beyond cc query) hpacing hrate hbusy' hpositive.2
              _ hgrants hwhole.2
            change cc.targetBitrateBps.toNat * _ + _ ≤ cc.targetBitrateBps.toNat * _ at hrest
            rw [hcharged] at hrest
            simp only [totalBytes, List.map_cons, List.sum_cons] at hrest ⊢
            omega

/-- The first packet leaves a next time that is not before its own. -/
theorem exists_after_first (hpacing : cc.config.enablePacing = true) {queries : List Query}
    (hpositive : ∀ query ∈ queries, 0 < query.nowMs.toNat) {first : Query} {rest : List Query}
    (hgrants : grants beyond cc queries = first :: rest)
    (hfirst : cc.pacingNextSendTimeMs = 0 ∨ first.nowMs.toNat + 2 ^ 32 ≤ 2 ^ 64) :
    ∃ cc' queries', grants beyond cc' queries' = rest ∧ cc'.config = cc.config ∧
      cc'.targetBitrateBps = cc.targetBitrateBps ∧ cc'.pacingNextSendTimeMs ≠ 0 ∧
      first.nowMs.toNat ≤ cc'.pacingNextSendTimeMs.toNat ∧
      ∀ query ∈ queries', 0 < query.nowMs.toNat := by
  have hnonzero : ∀ time : UInt64, 0 < time.toNat → time ≠ 0 := by
    intro time hpos hzero
    rw [hzero] at hpos
    exact absurd hpos (by decide)
  induction queries with
  | nil => cases hgrants
  | cons query queries ih =>
      rw [List.forall_mem_cons] at hpositive
      by_cases hidle : cc.pacingNextSendTimeMs = 0
      · rw [grants_cons_idle hpacing hidle, List.cons.injEq] at hgrants
        obtain ⟨rfl, hrest⟩ := hgrants
        exact ⟨_, queries, hrest, rfl, rfl, hnonzero _ hpositive.1, le_rfl, hpositive.2⟩
      · by_cases hearly : query.nowMs < cc.pacingNextSendTimeMs
        · rw [grants_cons_early hpacing hidle hearly] at hgrants
          exact ih hpositive.2 hgrants
        · rw [grants_cons_due hpacing hidle hearly, List.cons.injEq] at hgrants
          obtain ⟨hquery, hrest⟩ := hgrants
          subst hquery
          have hwait := (waitMs beyond cc query.packetSizeBytes).toNat_lt
          have hclock := hfirst.resolve_left hidle
          have hnext := @toNat_charged beyond cc query (by omega)
          exact ⟨_, queries, hrest, rfl, rfl, hnonzero _ (by omega), by omega, hpositive.2⟩

/-- Packets that take whole milliseconds leave at the target bit rate. -/
theorem paced_at_target_bitrate (beyond : ℚ → UInt32) (cc : Cc)
    (hpacing : cc.config.enablePacing = true) (hrate : 1 ≤ cc.targetBitrateBps.toNat)
    (queries : List Query) (htimely : Timely queries)
    (hfirst : ∀ first ∈ (grants beyond cc queries).head?,
      cc.pacingNextSendTimeMs = 0 ∨ first.nowMs.toNat + 2 ^ 32 ≤ 2 ^ 64)
    (hwhole : ∀ query ∈ (grants beyond cc queries).tail.dropLast,
      TakesWholeMs cc.targetBitrateBps query) :
    RespectsRate cc.targetBitrateBps (grants beyond cc queries) := by
  intro first middle last hgrants
  rw [hgrants, List.tail_cons, List.dropLast_concat] at hwhole
  rw [hgrants, List.head?_cons] at hfirst
  obtain ⟨cc', queries', hrest, hconfig, htarget, hbusy, hnext, hpositive⟩ :=
    exists_after_first hpacing htimely.1 hgrants (hfirst first rfl)
  have hcharged := rate_mul_next_add_le (hconfig ▸ hpacing) (htarget ▸ hrate) hbusy hpositive hrest
    (htarget ▸ hwhole)
  rw [htarget] at hcharged
  have hmul := Nat.mul_le_mul_left cc.targetBitrateBps.toNat hnext
  have htotal : cc.targetBitrateBps.toNat * first.nowMs.toNat + 8000 * totalBytes middle ≤
      cc.targetBitrateBps.toNat * last.nowMs.toNat := by omega
  have hcast : (cc.targetBitrateBps.toNat : ℤ) * first.nowMs.toNat + 8000 * totalBytes middle ≤
      cc.targetBitrateBps.toNat * last.nowMs.toNat := by exact_mod_cast htotal
  rw [mul_sub]
  linarith

/-- A packet that takes a fraction of a millisecond more leaves too early behind it:
three such packets as fast as they are let out. -/
theorem not_respectsRate_of_not_dvd (hpacing : cc.config.enablePacing = true)
    (hidle : cc.pacingNextSendTimeMs = 0) (hrate : 1 ≤ cc.targetBitrateBps.toNat) {size : UInt64}
    (hbits : 8000 * size.toNat < 2 ^ 53)
    (hwait : 8000 * size.toNat / cc.targetBitrateBps.toNat < 2 ^ 32)
    (hdvd : ¬cc.targetBitrateBps.toNat ∣ 8000 * size.toNat) :
    ∃ queries, Timely queries ∧ (∀ query ∈ queries, query.packetSizeBytes = size) ∧
      ¬RespectsRate cc.targetBitrateBps (grants beyond cc queries) := by
  have hwaitMs := @toNat_waitMs beyond _ hrate _ hbits hwait
  have hone : (1 : UInt64) ≠ 0 := by decide
  let started : Cc := { cc with pacingNextSendTimeMs := 1, bytesThisInterval := 0 }
  let next := (charged beyond started ⟨size, 1⟩).pacingNextSendTimeMs
  have hnext : next.toNat = 1 + 8000 * size.toNat / cc.targetBitrateBps.toNat := by
    have hcharged := @toNat_charged beyond started ⟨size, 1⟩
    change _ + (waitMs beyond cc size).toNat < 2 ^ 64 →
      next.toNat = 1 + (waitMs beyond cc size).toNat at hcharged
    rw [hwaitMs] at hcharged
    refine hcharged ?_
    change 1 + 8000 * size.toNat / cc.targetBitrateBps.toNat < 2 ^ 64
    omega
  have hnextpos : next ≠ 0 := by
    intro hzero
    rw [hzero, UInt64.toNat_zero] at hnext
    omega
  have hgrants : grants beyond cc [⟨size, 1⟩, ⟨size, 1⟩, ⟨size, next⟩] =
      [⟨size, 1⟩, ⟨size, 1⟩, ⟨size, next⟩] := by
    rw [grants_cons_idle hpacing hidle,
      @grants_cons_due _ started hpacing hone _ (UInt64.lt_irrefl _),
      @grants_cons_due _ (charged beyond started ⟨size, 1⟩) hpacing hnextpos
        _ (UInt64.lt_irrefl _)]
    rfl
  refine ⟨[⟨size, 1⟩, ⟨size, 1⟩, ⟨size, next⟩], ⟨?_, ?_⟩, ?_, ?_⟩
  · simp [hnext]
  · simp [hnext]
  · simp
  · intro hrespects
    have hlaw := hrespects ⟨size, 1⟩ [⟨size, 1⟩] ⟨size, next⟩ hgrants
    simp only [totalBytes, List.map_cons, List.map_nil, List.sum_cons, List.sum_nil, hnext] at hlaw
    push_cast at hlaw
    have hle : 8000 * size.toNat ≤
        cc.targetBitrateBps.toNat * (8000 * size.toNat / cc.targetBitrateBps.toNat) := by
      zify
      simpa using hlaw
    have hge := Nat.mul_div_le (8000 * size.toNat) cc.targetBitrateBps.toNat
    exact hdvd ⟨_, Nat.le_antisymm hle hge⟩

end

/-- The default configuration and packets of average size: 4.8 milliseconds each, of
which 4 are waited for. -/
theorem paced_above_target_bitrate :
    ¬ ∀ (cc : Cc) (queries : List Query), cc.config.enablePacing = true →
      1 ≤ cc.targetBitrateBps.toNat → Timely queries →
      RespectsRate cc.targetBitrateBps (grants (fun _ => 0) cc queries) := by
  intro h
  have hlaw := h (tinyrtcCcCreate tinyrtcCcGetDefaultConfig)
    [⟨1200, 1⟩, ⟨1200, 1⟩, ⟨1200, 5⟩] rfl (by decide) (by decide)
    ⟨1200, 1⟩ [⟨1200, 1⟩] ⟨1200, 5⟩ (by decide +kernel)
  exact absurd hlaw (by decide)

/-- 1250 bytes take 5 milliseconds. -/
theorem paced_at_target_bitrate_default :
    RespectsRate 2000000 (grants (fun _ => 0) (tinyrtcCcCreate tinyrtcCcGetDefaultConfig)
      [⟨1250, 1⟩, ⟨1250, 1⟩, ⟨1250, 5⟩, ⟨1250, 6⟩]) :=
  paced_at_target_bitrate (fun _ => 0) (tinyrtcCcCreate tinyrtcCcGetDefaultConfig) rfl (by decide)
    [⟨1250, 1⟩, ⟨1250, 1⟩, ⟨1250, 5⟩, ⟨1250, 6⟩] (by decide) (fun _ _ => .inl rfl)
    (by
      have hmiddle : (grants (fun _ => 0) (tinyrtcCcCreate tinyrtcCcGetDefaultConfig)
          [⟨1250, 1⟩, ⟨1250, 1⟩, ⟨1250, 5⟩, ⟨1250, 6⟩]).tail.dropLast = [⟨1250, 1⟩] := by
        decide +kernel
      rw [hmiddle]
      intro query hquery
      rw [List.mem_singleton.mp hquery]
      exact ⟨by decide, by decide, by decide, by decide⟩)

end TinyRtc.Pacing
