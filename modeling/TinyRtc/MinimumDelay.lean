import TinyRtc.JitterAtomicity

namespace TinyRtc.MinimumDelay

open TinyRtc.Common
open TinyRtc.Jitter
open TinyRtc.JitterAtomicity
open TinyRtc.JitterRuns
open TinyRtc.LabelledRuns
open TinyRtc.SerialNumbers

/-- The time a call is made at. For an added packet this is its arrival time. -/
def timeOf : JitterCall → UInt64
  | .add _ _ timestamp => timestamp
  | .get _ currentTimeMs => currentTimeMs

/-- A call that is not made before the last one, and whose playout time fits in 64 bits. -/
def TimedStep (s : JitterBuffer × UInt64) (label : JitterCall × JitterResult)
    (s' : JitterBuffer × UInt64) : Prop :=
  JitterStep s.1 label s'.1 ∧ s.2 ≤ timeOf label.1 ∧ s'.2 = timeOf label.1 ∧
    (timeOf label.1).toNat + s.1.config.minDelayMs.toNat < UInt64.size

/-- The playout clock has the packet wait for its minimum delay, or the delay is over. -/
def WaitsFor (jb : JitterBuffer) (now arrivalTime : UInt64) : Prop :=
  arrivalTime.toNat + jb.config.minDelayMs.toNat ≤ max jb.nextPlayoutTime.toNat now.toNat

instance (jb : JitterBuffer) (now arrivalTime : UInt64) : Decidable (WaitsFor jb now arrivalTime) :=
  inferInstanceAs (Decidable (_ ≤ _))

/-- The packet that a call puts first has the playout clock wait for it: the second one of
a full buffer, and one that precedes the first one held. -/
def KeepsWaiting (jb : JitterBuffer) : JitterCall → Prop
  | .add mallocOk packet timestamp =>
      (jb.entries.length = jb.config.bufferSize.toNat →
        ∀ second ∈ (jb.entries.drop 1).head?, WaitsFor jb timestamp second.arrivalTime) ∧
      (mallocOk = true → ∀ sequence ∈ sequenceOf packet,
        ∀ first ∈ (dropOldest jb).entries.head?, Precedes sequence first.sequence →
          WaitsFor jb timestamp timestamp)
  | .get _ _ => True

/-- A timed call that keeps the first packet waiting. -/
def WaitingStep (s : JitterBuffer × UInt64) (label : JitterCall × JitterResult)
    (s' : JitterBuffer × UInt64) : Prop :=
  TimedStep s label s' ∧ KeepsWaiting s.1 label.1

/-- What holds of a buffer at the time of the last call. -/
structure Waiting (config : JitterConfig) (s : JitterBuffer × UInt64) : Prop where
  config_eq : s.1.config = config
  arrived : ∀ entry ∈ s.1.entries, entry.arrivalTime ≤ s.2
  first : ∀ entry ∈ s.1.entries.head?, WaitsFor s.1 s.2 entry.arrivalTime

theorem toNat_add_delay {time : UInt64} {delay : UInt32}
    (h : time.toNat + delay.toNat < UInt64.size) :
    (time + delay.toUInt64).toNat = time.toNat + delay.toNat := by
  rw [UInt64.toNat_add, UInt32.toNat_toUInt64]
  exact Nat.mod_eq_of_lt h

theorem head?_insertEntry (entry first : JitterEntry) (rest : List JitterEntry) :
    (insertEntry entry (first :: rest)).head? =
      some (if Precedes entry.sequence first.sequence then entry else first) := by
  rw [insertEntry_eq, List.orderedInsert_cons]
  by_cases hbefore : Precedes entry.sequence first.sequence
  · rw [if_pos hbefore, if_pos hbefore]
    rfl
  · rw [if_neg hbefore, if_neg hbefore]
    rfl

theorem addPacket_inserted {mallocOk : Bool} {jb jb' : JitterBuffer} {packet : List UInt8}
    {timestamp : UInt64}
    (h : tinyrtcJitterBufferAddPacket mallocOk jb packet timestamp = some (.ok, jb')) :
    mallocOk = true ∧ ∃ sequence, sequenceOf packet = some sequence ∧
      jb'.entries = insertEntry ⟨packet, sequence, timestamp⟩ (dropOldest jb).entries ∧
      jb'.nextPlayoutTime =
        if (dropOldest jb).entries = [] then timestamp + jb.config.minDelayMs.toUInt64
        else jb.nextPlayoutTime := by
  obtain ⟨-, ⟨-, hmalloc, hinserted⟩ | ⟨hrefused, -⟩⟩ := addPacket_cases h
  · exact ⟨hmalloc, hinserted⟩
  · exact absurd rfl hrefused

/-- A packet that is added to held ones leaves the playout clock alone, and is first if it
precedes the first one. -/
theorem addPacket_inserted_cons {mallocOk : Bool} {jb jb' : JitterBuffer} {packet : List UInt8}
    {timestamp : UInt64}
    (h : tinyrtcJitterBufferAddPacket mallocOk jb packet timestamp = some (.ok, jb'))
    {first : JitterEntry} (hfirst : first ∈ (dropOldest jb).entries.head?) :
    jb'.nextPlayoutTime = jb.nextPlayoutTime ∧ ∃ sequence, sequenceOf packet = some sequence ∧
      jb'.entries.head? = some (if Precedes sequence first.sequence then
        ⟨packet, sequence, timestamp⟩ else first) := by
  obtain ⟨-, sequence, hsequence, hentries, hnext⟩ := addPacket_inserted h
  obtain ⟨rest, hheld⟩ := List.head?_eq_some_iff.mp hfirst
  rw [if_neg (by rw [hheld]; exact List.cons_ne_nil _ _)] at hnext
  refine ⟨hnext, sequence, hsequence, ?_⟩
  rw [hentries, hheld, head?_insertEntry]

theorem getPacket_taken {jb jb' : JitterBuffer} {maxLen : Nat} {currentTimeMs : UInt64}
    {packet : List UInt8}
    (h : tinyrtcJitterBufferGetPacket jb maxLen currentTimeMs = (.ok packet, jb')) :
    jb.nextPlayoutTime ≤ currentTimeMs ∧ jb'.config = jb.config ∧
      ∃ entry, jb.entries = entry :: jb'.entries ∧ packet = entry.packet ∧
        jb'.nextPlayoutTime =
          if currentTimeMs + jb.config.minDelayMs.toUInt64 - currentTimeMs >
              jb.config.maxDelayMs.toUInt64 then
            currentTimeMs + jb.config.maxDelayMs.toUInt64
          else currentTimeMs + jb.config.minDelayMs.toUInt64 := by
  rw [tinyrtcJitterBufferGetPacket] at h
  split at h
  · cases h
  · next entry rest hentries =>
    split at h
    · cases h
    · next hdue =>
      split at h
      · cases h
      · cases h
        exact ⟨UInt64.not_lt.mp hdue, rfl, entry, hentries, rfl, rfl⟩

/-- With a minimum below the maximum, the next packet waits for the minimum. -/
theorem nextPlayoutTime_of_taken {jb jb' : JitterBuffer} {maxLen : Nat} {currentTimeMs : UInt64}
    {packet : List UInt8} (hdelay : jb.config.minDelayMs ≤ jb.config.maxDelayMs)
    (hfits : currentTimeMs.toNat + jb.config.minDelayMs.toNat < UInt64.size)
    (h : tinyrtcJitterBufferGetPacket jb maxLen currentTimeMs = (.ok packet, jb')) :
    jb'.nextPlayoutTime.toNat = currentTimeMs.toNat + jb.config.minDelayMs.toNat := by
  obtain ⟨-, -, entry, -, -, hnext⟩ := getPacket_taken h
  have hle : jb.config.minDelayMs.toUInt64 ≤ jb.config.maxDelayMs.toUInt64 := by
    rw [UInt64.le_iff_toNat_le, UInt32.toNat_toUInt64, UInt32.toNat_toUInt64]
    exact UInt32.le_iff_toNat_le.mp hdelay
  have hdiff : currentTimeMs + jb.config.minDelayMs.toUInt64 - currentTimeMs =
      jb.config.minDelayMs.toUInt64 := by
    rw [UInt64.add_comm, UInt64.add_sub_cancel]
  rw [hnext, hdiff, if_neg (UInt64.not_lt.mpr hle), toNat_add_delay hfits]

section

variable {config : JitterConfig} {s s' : JitterBuffer × UInt64}

theorem WaitsFor.mono {jb : JitterBuffer} {now now' arrivalTime : UInt64} (hnow : now ≤ now')
    (h : WaitsFor jb now arrivalTime) : WaitsFor jb now' arrivalTime := by
  have hle := UInt64.le_iff_toNat_le.mp hnow
  rw [WaitsFor] at h ⊢
  omega

theorem WaitsFor.earlier {jb : JitterBuffer} {now arrivalTime arrivalTime' : UInt64}
    (harrival : arrivalTime' ≤ arrivalTime) (h : WaitsFor jb now arrivalTime) :
    WaitsFor jb now arrivalTime' :=
  (Nat.add_le_add_right (UInt64.le_iff_toNat_le.mp harrival) _).trans h

theorem waitsFor_congr {jb jb' : JitterBuffer} (hconfig : jb'.config = jb.config)
    (hnext : jb'.nextPlayoutTime = jb.nextPlayoutTime) (now arrivalTime : UInt64) :
    WaitsFor jb' now arrivalTime ↔ WaitsFor jb now arrivalTime := by
  rw [WaitsFor, WaitsFor, hconfig, hnext]

/-- What is first after the oldest packet of a full buffer is dropped. -/
theorem waitsFor_dropOldest {mallocOk : Bool} {packet : List UInt8} {timestamp : UInt64}
    (hs : Waiting config s) (hsize : s.1.config.bufferSize ≠ 0) (hnow : s.2 ≤ timestamp)
    (hkeeps : KeepsWaiting s.1 (.add mallocOk packet timestamp)) {entry : JitterEntry}
    (hentry : entry ∈ (dropOldest s.1).entries.head?) :
    WaitsFor s.1 timestamp entry.arrivalTime := by
  rcases dropOldest_cases s.1 hsize with ⟨hsame, -⟩ | ⟨oldest, rest, hentries, hrest, -, hfull⟩
  · rw [hsame] at hentry
    exact (hs.first entry hentry).mono hnow
  · rw [hrest] at hentry
    apply hkeeps.1 hfull entry
    rw [hentries]
    exact hentry

/-- The packet that is first after an added one. -/
theorem waitsFor_inserted {mallocOk : Bool} {packet : List UInt8} {timestamp : UInt64}
    {jb' : JitterBuffer} (hs : Waiting config s) (hnow : s.2 ≤ timestamp)
    (hfits : timestamp.toNat + s.1.config.minDelayMs.toNat < UInt64.size)
    (hkeeps : KeepsWaiting s.1 (.add mallocOk packet timestamp))
    (hadd : tinyrtcJitterBufferAddPacket mallocOk s.1 packet timestamp = some (.ok, jb'))
    {entry : JitterEntry} (hentry : entry ∈ jb'.entries.head?) :
    WaitsFor jb' timestamp entry.arrivalTime := by
  obtain ⟨hsize, -⟩ := addPacket_cases hadd
  have hconfig := addPacket_config hadd
  obtain ⟨hmalloc, _, -, hentries, hnext⟩ := addPacket_inserted hadd
  cases hheld : (dropOldest s.1).entries with
  | nil =>
      rw [if_pos hheld] at hnext
      rw [hentries, hheld] at hentry
      cases hentry
      rw [WaitsFor, hconfig, hnext, toNat_add_delay hfits]
      exact le_max_left _ _
  | cons first rest =>
      have hfirst : first ∈ (dropOldest s.1).entries.head? := by
        rw [hheld]
        rfl
      obtain ⟨hclock, sequence, hsequence, hhead⟩ := addPacket_inserted_cons hadd hfirst
      rw [waitsFor_congr hconfig hclock]
      rw [hhead, Option.mem_some_iff] at hentry
      by_cases hbefore : Precedes sequence first.sequence
      · rw [if_pos hbefore] at hentry
        rw [← hentry]
        exact hkeeps.2 hmalloc sequence hsequence first hfirst hbefore
      · rw [if_neg hbefore] at hentry
        rw [← hentry]
        exact waitsFor_dropOldest hs hsize hnow hkeeps hfirst

theorem waiting_step (hdelay : config.minDelayMs ≤ config.maxDelayMs)
    {label : JitterCall × JitterResult} (h : WaitingStep s label s') (hs : Waiting config s) :
    Waiting config s' := by
  obtain ⟨⟨hstep, hnow, htime, hfits⟩, hkeeps⟩ := h
  have hconfig := (callEffect_of_step hstep).2.1
  have harrived : ∀ entry ∈ s'.1.entries, entry.arrivalTime ≤ s'.2 := by
    intro entry hentry
    rw [htime]
    rcases mem_entries_step hstep hentry with hheld | ⟨-, mallocOk, rfl⟩
    · exact UInt64.le_trans (hs.arrived entry hheld) hnow
    · exact UInt64.le_refl _
  refine ⟨hconfig.trans hs.config_eq, harrived, ?_⟩
  intro entry hentry
  rw [htime]
  obtain ⟨call, result⟩ := label
  cases call with
  | add mallocOk packet timestamp =>
      obtain ⟨⟨err, jb'⟩, hadd, heq⟩ := Option.map_eq_some_iff.mp hstep
      rw [Prod.mk.injEq] at heq
      obtain ⟨-, rfl⟩ := heq
      obtain ⟨hsize, -⟩ := addPacket_cases hadd
      by_cases hok : err = .ok
      · rw [hok] at hadd
        exact waitsFor_inserted hs hnow hfits hkeeps hadd hentry
      · have hdropped := (addPacket_refused_iff hadd).2 hok
        rw [hdropped] at hentry
        rw [waitsFor_congr hconfig (by rw [hdropped, dropOldest_nextPlayoutTime])]
        exact waitsFor_dropOldest hs hsize hnow hkeeps hentry
  | get maxLen currentTimeMs =>
      obtain ⟨got, rfl, hgot⟩ := getStep_eq hstep
      cases got with
      | error err =>
          have hkept := (untouched_of_get hstep rfl)
          rw [hkept.entries] at hentry
          rw [waitsFor_congr hconfig hkept.nextPlayoutTime]
          exact (hs.first entry hentry).mono hnow
      | ok packet =>
          have hclock := nextPlayoutTime_of_taken (by rw [hs.config_eq]; exact hdelay) hfits hgot
          have hle := UInt64.le_iff_toNat_le.mp (harrived entry (List.mem_of_mem_head? hentry))
          rw [htime] at hle
          rw [WaitsFor, hclock, hconfig]
          exact (Nat.add_le_add_right hle _).trans (le_max_left _ _)

theorem waiting_of_run (hdelay : config.minDelayMs ≤ config.maxDelayMs)
    {labels : List (JitterCall × JitterResult)}
    (hrun : Run WaitingStep (tinyrtcJitterBufferCreate config, 0) labels s) : Waiting config s := by
  refine hrun.invariant (fun s label s' hs hstep => waiting_step hdelay hstep hs) ?_
  exact ⟨rfl, fun _ h => absurd h List.not_mem_nil, fun _ h => by cases h⟩

/-- Whatever is held was added, at its arrival time. -/
theorem added_of_run {labels : List (JitterCall × JitterResult)}
    (hrun : Run TimedStep s labels s') {entry : JitterEntry} (hentry : entry ∈ s'.1.entries) :
    entry ∈ s.1.entries ∨
      ∃ mallocOk, (.add mallocOk entry.packet entry.arrivalTime, .added .ok) ∈ labels := by
  induction hrun with
  | nil s => exact .inl hentry
  | @cons s next s' label labels hstep _ ih =>
      rcases ih hentry with hheld | ⟨mallocOk, hmem⟩
      · rcases mem_entries_step hstep.1 hheld with hheld | ⟨-, mallocOk, rfl⟩
        · exact .inl hheld
        · exact .inr ⟨mallocOk, List.mem_cons_self⟩
      · exact .inr ⟨mallocOk, List.mem_cons_of_mem label hmem⟩

/-- A packet that comes out was added, at least the minimum delay ago. -/
def PlaysAfterDelay (labels : List (JitterCall × JitterResult)) (jb jb' : JitterBuffer)
    (packet : List UInt8) (currentTimeMs : UInt64) : Prop :=
  ∃ entry, jb.entries = entry :: jb'.entries ∧ entry.packet = packet ∧
    (∃ mallocOk, (.add mallocOk packet entry.arrivalTime, .added .ok) ∈ labels) ∧
      entry.arrivalTime.toNat + jb.config.minDelayMs.toNat ≤ currentTimeMs.toNat

/-- In every run whose calls keep the first packet waiting, every packet is played out
after the minimum delay. -/
theorem playsAfterDelay_of_run (hdelay : config.minDelayMs ≤ config.maxDelayMs)
    {labels : List (JitterCall × JitterResult)}
    (hrun : Run WaitingStep (tinyrtcJitterBufferCreate config, 0) labels s)
    {maxLen : Nat} {currentTimeMs : UInt64} {packet : List UInt8}
    (hget : TimedStep s (.get maxLen currentTimeMs, .got (.ok packet)) s') :
    PlaysAfterDelay labels s.1 s'.1 packet currentTimeMs := by
  have hs := waiting_of_run hdelay hrun
  obtain ⟨hstep, hnow, -, -⟩ := hget
  obtain ⟨got, hresult, hgot⟩ := getStep_eq hstep
  cases hresult
  obtain ⟨hdue, -, entry, hentries, rfl, -⟩ := getPacket_taken hgot
  have hfirst : entry ∈ s.1.entries.head? := by
    rw [hentries]
    rfl
  have hwaits := hs.first entry hfirst
  rw [WaitsFor] at hwaits
  have hbefore := max_le (UInt64.le_iff_toNat_le.mp hdue) (UInt64.le_iff_toNat_le.mp hnow)
  refine ⟨entry, hentries, rfl, ?_, hwaits.trans hbefore⟩
  rcases added_of_run (hrun.mono fun _ _ _ h => h.1) (List.mem_of_mem_head? hfirst) with
    hheld | hadded
  · exact absurd hheld List.not_mem_nil
  · exact hadded

theorem getPacket_due {jb : JitterBuffer} {entry : JitterEntry}
    (hentry : entry ∈ jb.entries.head?) {currentTimeMs : UInt64}
    (hdue : jb.nextPlayoutTime ≤ currentTimeMs) :
    ∃ jb', JitterStep jb (.get entry.packet.length currentTimeMs, .got (.ok entry.packet)) jb' := by
  rw [Option.mem_def, List.head?_eq_some_iff] at hentry
  obtain ⟨rest, hentries⟩ := hentry
  have hgot : (tinyrtcJitterBufferGetPacket jb entry.packet.length currentTimeMs).1 =
      .ok entry.packet := by
    rw [tinyrtcJitterBufferGetPacket]
    split
    · next hempty =>
      rw [hentries] at hempty
      cases hempty
    · next first rest' hfirst =>
      rw [hentries] at hfirst
      cases hfirst
      rw [if_neg (UInt64.not_lt.mpr hdue), if_neg (Nat.lt_irrefl _)]
  exact ⟨_, congrArg some (Prod.ext (congrArg JitterResult.got hgot) rfl)⟩

/-- An added packet leaves a first one that does not wait, when it does not keep the
first packet waiting. -/
theorem exists_not_waitsFor (hs : Waiting config s) {mallocOk : Bool} {packet : List UInt8}
    {timestamp : UInt64} {result : JitterResult}
    (h : TimedStep s (.add mallocOk packet timestamp, result) s')
    (hnot : ¬ KeepsWaiting s.1 (.add mallocOk packet timestamp)) :
    ∃ first ∈ s'.1.entries.head?, ¬ WaitsFor s'.1 s'.2 first.arrivalTime := by
  obtain ⟨hstep, hnow, htime, hfits⟩ := h
  have hconfig := (callEffect_of_step hstep).2.1
  obtain ⟨⟨err, jb'⟩, hadd, heq⟩ := Option.map_eq_some_iff.mp hstep
  rw [Prod.mk.injEq] at heq
  obtain ⟨-, rfl⟩ := heq
  obtain ⟨hsize, -⟩ := addPacket_cases hadd
  obtain ⟨hrefused, hdropped⟩ := addPacket_refused_iff hadd
  rw [htime]
  rw [KeepsWaiting] at hnot
  push Not at hnot
  by_cases hsecond : ∃ first ∈ (dropOldest s.1).entries.head?,
      ¬ WaitsFor s.1 timestamp first.arrivalTime
  · obtain ⟨first, hfirst, hearly⟩ := hsecond
    by_cases hok : err = .ok
    · rw [hok] at hadd
      obtain ⟨hclock, sequence, -, hhead⟩ := addPacket_inserted_cons hadd hfirst
      refine ⟨_, hhead, ?_⟩
      rw [waitsFor_congr hconfig hclock]
      split
      · exact fun hwaits => hearly (hwaits.earlier (UInt64.le_trans
          (hs.arrived first ((dropOldest_sublist s.1).subset (List.mem_of_mem_head? hfirst))) hnow))
      · exact hearly
    · refine ⟨first, by rw [hdropped hok]; exact hfirst, ?_⟩
      rw [waitsFor_congr hconfig (by rw [hdropped hok, dropOldest_nextPlayoutTime])]
      exact hearly
  · push Not at hsecond
    have hfull : s.1.entries.length = s.1.config.bufferSize.toNat →
        ∀ second ∈ (s.1.entries.drop 1).head?, WaitsFor s.1 timestamp second.arrivalTime := by
      intro hfull second hmem
      apply hsecond second
      simp only [dropOldest, if_pos hfull.ge]
      exact hmem
    obtain ⟨hmalloc, sequence, hsequence, first, hfirst, hbefore, hearly⟩ := hnot hfull
    have hok : err = .ok := by
      by_contra herr
      rcases hrefused.mp herr with hfalse | hparse
      · rw [hmalloc] at hfalse
        cases hfalse
      · rw [sequenceOf, hparse] at hsequence
        cases hsequence
    rw [hok] at hadd
    obtain ⟨hclock, sequence', hsequence', hhead⟩ := addPacket_inserted_cons hadd hfirst
    cases hsequence.symm.trans hsequence'
    rw [if_pos hbefore] at hhead
    exact ⟨_, hhead, by rw [waitsFor_congr hconfig hclock]; exact hearly⟩

/-- After a call that does not keep the first packet waiting, a packet can be played out
before its minimum delay. -/
theorem playsEarly_of_not_keepsWaiting (hs : Waiting config s) {call : JitterCall}
    {result : JitterResult} (h : TimedStep s (call, result) s')
    (hnot : ¬ KeepsWaiting s.1 call) :
    ∃ first ∈ s'.1.entries.head?, ∃ currentTimeMs jb', s'.2 ≤ currentTimeMs ∧
      JitterStep s'.1
        (.get first.packet.length currentTimeMs, .got (.ok first.packet)) jb' ∧
      currentTimeMs.toNat < first.arrivalTime.toNat + config.minDelayMs.toNat := by
  cases call with
  | get maxLen currentTimeMs => exact absurd trivial hnot
  | add mallocOk packet timestamp =>
      obtain ⟨first, hfirst, hearly⟩ := exists_not_waitsFor hs h hnot
      rw [WaitsFor, (callEffect_of_step h.1).2.1, hs.config_eq, Nat.not_le] at hearly
      rcases UInt64.le_total s'.1.nextPlayoutTime s'.2 with hle | hle
      · obtain ⟨jb', hstep⟩ := getPacket_due hfirst hle
        exact ⟨first, hfirst, s'.2, jb', UInt64.le_refl _, hstep,
          (le_max_right _ _).trans_lt hearly⟩
      · obtain ⟨jb', hstep⟩ := getPacket_due hfirst (UInt64.le_refl _)
        exact ⟨first, hfirst, s'.1.nextPlayoutTime, jb', hle, hstep,
          (le_max_left _ _).trans_lt hearly⟩

end

/-- A run whose times do not decrease, and fit, is a run of timed calls. -/
theorem timedRun_of_isChain {jb jb' : JitterBuffer} {labels : List (JitterCall × JitterResult)}
    (hrun : Run JitterStep jb labels jb') {now : UInt64}
    (htimes : (now :: labels.map fun label => timeOf label.1).IsChain (· ≤ ·))
    (hfits : ∀ label ∈ labels,
      (timeOf label.1).toNat + jb.config.minDelayMs.toNat < UInt64.size) :
    Run TimedStep (jb, now) labels
      (jb', (labels.map fun label => timeOf label.1).getLastD now) := by
  induction hrun generalizing now with
  | nil jb => exact .nil _
  | @cons jb next jb' label labels hstep _ ih =>
      rw [List.map_cons, List.isChain_cons_cons] at htimes
      rw [List.map_cons, List.getLastD_cons]
      refine .cons ⟨hstep, htimes.1, rfl, hfits label List.mem_cons_self⟩ (ih htimes.2 ?_)
      intro later hlater
      rw [(callEffect_of_step hstep).2.1]
      exact hfits later (List.mem_cons_of_mem label hlater)

deriving instance DecidableEq for JitterCall, JitterResult

theorem config_of_run {jb jb' : JitterBuffer} {labels : List (JitterCall × JitterResult)}
    (hrun : Run JitterStep jb labels jb') : jb'.config = jb.config := by
  induction hrun with
  | nil jb => rfl
  | cons hstep _ ih => exact ih.trans (callEffect_of_step hstep).2.1

/-- A run that is found by computing its calls, and a packet that comes out of it. -/
theorem exists_timedRun (config : JitterConfig) (labels : List (JitterCall × JitterResult))
    (maxLen : Nat) (currentTimeMs : UInt64) (packet : List UInt8)
    (h : ((jitterCalls (tinyrtcJitterBufferCreate config) (labels.map Prod.fst)).any fun reached =>
      decide (reached.1 = labels) && (jitterCall reached.2 (.get maxLen currentTimeMs)).any
        fun got => decide (got.1 = .got (.ok packet))) = true)
    (htimes : (0 :: labels.map fun label => timeOf label.1).IsChain (· ≤ ·))
    (hlast : (labels.map fun label => timeOf label.1).getLastD 0 ≤ currentTimeMs)
    (hfits : ∀ label ∈ (JitterCall.get maxLen currentTimeMs, JitterResult.got (.ok packet)) ::
      labels, (timeOf label.1).toNat + config.minDelayMs.toNat < UInt64.size) :
    ∃ s s', Run TimedStep (tinyrtcJitterBufferCreate config, 0) labels s ∧
      s.1.config = config ∧ TimedStep s (.get maxLen currentTimeMs, .got (.ok packet)) s' := by
  rw [Option.any_eq_true] at h
  obtain ⟨⟨labels', jb⟩, hcalls, hp⟩ := h
  rw [Bool.and_eq_true, decide_eq_true_iff, Option.any_eq_true] at hp
  obtain ⟨rfl, ⟨result, jb'⟩, hcall, hresult⟩ := hp
  rw [decide_eq_true_iff] at hresult
  cases hresult
  have hrun := timedRun_of_isChain (run_jitterCalls hcalls) htimes
    fun label hlabel => hfits label (List.mem_cons_of_mem _ hlabel)
  have hconfig : jb.config = config := config_of_run (run_jitterCalls hcalls)
  refine ⟨_, (jb', currentTimeMs), hrun, hconfig, hcall, hlast, rfl, ?_⟩
  rw [hconfig]
  exact hfits _ List.mem_cons_self

theorem keepsWaiting_default (call : JitterCall) :
    KeepsWaiting (tinyrtcJitterBufferCreate tinyrtcJitterGetDefaultConfig) call := by
  cases call with
  | add mallocOk packet timestamp =>
      refine ⟨fun _ _ hsecond => ?_, fun _ _ _ _ hfirst => ?_⟩
      · cases hsecond
      · cases hfirst
  | get maxLen currentTimeMs => trivial

/-- Two packets that arrive in one millisecond, the later one first. They wait for thirty and for
sixty milliseconds. -/
def sampleDelays : List (JitterCall × JitterResult) :=
  [(.add true (numberedPacket 2) 0, .added .ok), (.add true (numberedPacket 1) 0, .added .ok),
    (.get 1500 30, .got (.ok (numberedPacket 1)))]

theorem playsAfterDelay_sampleDelays :
    ∃ s s', Run WaitingStep (tinyrtcJitterBufferCreate tinyrtcJitterGetDefaultConfig, 0)
        sampleDelays s ∧
      TimedStep s (.get 1500 60, .got (.ok (numberedPacket 2))) s' ∧
      PlaysAfterDelay sampleDelays s.1 s'.1 (numberedPacket 2) 60 := by
  obtain ⟨s, s', hrun, -, hget⟩ := exists_timedRun tinyrtcJitterGetDefaultConfig
    sampleDelays 1500 60 (numberedPacket 2) (by decide +kernel) (by decide) (by decide) (by decide)
  have hdelay : tinyrtcJitterGetDefaultConfig.minDelayMs ≤
      tinyrtcJitterGetDefaultConfig.maxDelayMs := by
    decide
  have hkeeps : ((jitterCall (tinyrtcJitterBufferCreate tinyrtcJitterGetDefaultConfig)
      (.add true (numberedPacket 2) 0)).all fun reached =>
        decide (reached.2.entries.length ≠ reached.2.config.bufferSize.toNat ∧
          WaitsFor reached.2 0 0)) = true := by
    decide +kernel
  have hwaiting : Run WaitingStep (tinyrtcJitterBufferCreate tinyrtcJitterGetDefaultConfig, 0)
      sampleDelays s := by
    cases hrun with
    | cons hfirst hrest =>
        rw [hfirst.1, Option.all_some, decide_eq_true_eq] at hkeeps
        obtain ⟨hroom, hwaits⟩ := hkeeps
        cases hrest with
        | cons hsecond hrest =>
            cases hrest with
            | cons hthird hrest =>
                cases hrest
                exact .cons ⟨hfirst, keepsWaiting_default _⟩
                  (.cons ⟨hsecond, fun hfull => absurd hfull hroom, fun _ _ _ _ _ _ => hwaits⟩
                    (.singleton ⟨hthird, trivial⟩))
  exact ⟨s, s', hwaiting, hget, playsAfterDelay_of_run hdelay hwaiting hget⟩

/-- The second packet arrives when the first one is already due, and goes before it. -/
theorem playsEarly_reordered :
    ∃ s s', Run TimedStep (tinyrtcJitterBufferCreate tinyrtcJitterGetDefaultConfig, 0)
        [(.add true (numberedPacket 2) 0, .added .ok),
          (.add true (numberedPacket 1) 100, .added .ok)] s ∧
      TimedStep s (.get 1500 100, .got (.ok (numberedPacket 1))) s' ∧
      ¬ PlaysAfterDelay [(.add true (numberedPacket 2) 0, .added .ok),
        (.add true (numberedPacket 1) 100, .added .ok)] s.1 s'.1 (numberedPacket 1) 100 := by
  obtain ⟨s, s', hrun, hconfig, hget⟩ := exists_timedRun tinyrtcJitterGetDefaultConfig
    [(.add true (numberedPacket 2) 0, .added .ok), (.add true (numberedPacket 1) 100, .added .ok)]
    1500 100 (numberedPacket 1) (by decide +kernel) (by decide) (by decide) (by decide)
  refine ⟨s, s', hrun, hget, ?_⟩
  rintro ⟨entry, -, -, ⟨mallocOk, hadded⟩, hdelay⟩
  have harrival : entry.arrivalTime = 100 := by
    rcases List.mem_cons.mp hadded with hfirst | hsecond
    · have hpacket : [numberedPacket 1] = [numberedPacket 2] := congrArg acceptedBy hfirst
      exact absurd hpacket (by decide)
    · have hcall := congrArg (fun label => timeOf label.1) (List.mem_singleton.mp hsecond)
      exact hcall
  rw [hconfig, harrival] at hdelay
  exact absurd hdelay (by decide)

end TinyRtc.MinimumDelay
