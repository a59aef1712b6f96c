import TinyRtc.JitterRuns

namespace TinyRtc.JitterAtomicity

open TinyRtc.Common
open TinyRtc.Jitter
open TinyRtc.JitterRuns
open TinyRtc.LabelledRuns
open TinyRtc.Rtp

def isOk : JitterResult → Bool
  | .added result => result == .ok
  | .got result => result.isOk

/-- The held packets, their order and number, and the playout clock. -/
structure Untouched (jb jb' : JitterBuffer) : Prop where
  entries : jb'.entries = jb.entries
  nextPlayoutTime : jb'.nextPlayoutTime = jb.nextPlayoutTime

/-- A full buffer is given a packet that it cannot copy, or that has no header. -/
def RefusedWhenFull (jb : JitterBuffer) : JitterCall → Prop
  | .add mallocOk packet _ => jb.entries.length = jb.config.bufferSize.toNat ∧
      (mallocOk = false ∨ tinyrtcRtpParseHeader packet = none)
  | .get _ _ => False

theorem untouched_of_get {jb jb' : JitterBuffer} {maxLen : Nat} {currentTimeMs : UInt64}
    {result : JitterResult} (h : JitterStep jb (.get maxLen currentTimeMs, result) jb')
    (herr : isOk result = false) : Untouched jb jb' := by
  obtain ⟨got, rfl, hgot⟩ := getStep_eq h
  rcases getPacket_cases jb maxLen currentTimeMs with ⟨err, hkept⟩ | ⟨entry, rest, -, htaken, -⟩
  · rw [hgot] at hkept
    cases hkept
    exact ⟨rfl, rfl⟩
  · rw [hgot] at htaken
    dsimp only at htaken
    rw [htaken] at herr
    cases herr

/-- What is refused leaves behind the buffer without its dropped packet. -/
theorem addPacket_refused_iff {mallocOk : Bool} {jb jb' : JitterBuffer} {packet : List UInt8}
    {timestamp : UInt64} {result : TinyrtcError}
    (h : tinyrtcJitterBufferAddPacket mallocOk jb packet timestamp = some (result, jb')) :
    (result ≠ .ok ↔ mallocOk = false ∨ tinyrtcRtpParseHeader packet = none) ∧
      (result ≠ .ok → jb' = dropOldest jb) := by
  obtain ⟨-, ⟨rfl, rfl, sequence, hsequence, -⟩ | ⟨herr, hcause, rfl⟩⟩ := addPacket_cases h
  · refine ⟨⟨fun hne => absurd rfl hne, ?_⟩, fun hne => absurd rfl hne⟩
    rintro (hmalloc | hparse)
    · cases hmalloc
    · rw [sequenceOf, hparse] at hsequence
      cases hsequence
  · exact ⟨⟨fun _ => hcause, fun _ => herr⟩, fun _ => rfl⟩

theorem dropOldest_untouched_iff {jb : JitterBuffer} (hsize : jb.config.bufferSize ≠ 0) :
    Untouched jb (dropOldest jb) ↔ jb.entries.length ≠ jb.config.bufferSize.toNat := by
  rcases dropOldest_cases jb hsize with ⟨hsame, hroom⟩ | ⟨entry, rest, hentries, hrest, -, hfull⟩
  · rw [hsame]
    exact ⟨fun _ => hroom.ne, fun _ => ⟨rfl, rfl⟩⟩
  · constructor
    · intro huntouched
      have hlength := congrArg List.length huntouched.entries
      rw [hrest, hentries, List.length_cons] at hlength
      omega
    · intro hroom
      exact absurd hfull hroom

/-- A call that fails leaves the buffer as it was, unless it refuses a packet when the
buffer is full. -/
theorem untouched_of_failure_iff {jb jb' : JitterBuffer} {call : JitterCall}
    {result : JitterResult} (h : JitterStep jb (call, result) jb') :
    (isOk result = false → Untouched jb jb') ↔ ¬ RefusedWhenFull jb call := by
  cases call with
  | get maxLen currentTimeMs =>
      exact ⟨fun _ hrefused => hrefused, fun _ herr => untouched_of_get h herr⟩
  | add mallocOk packet timestamp =>
      obtain ⟨⟨err, jb''⟩, hadd, heq⟩ := Option.map_eq_some_iff.mp h
      cases heq
      obtain ⟨hsize, -⟩ := addPacket_cases hadd
      obtain ⟨hrefused, hdropped⟩ := addPacket_refused_iff hadd
      have hfailed : isOk (.added err) = false ↔ err ≠ .ok := beq_eq_false_iff_ne
      rw [RefusedWhenFull, ← hrefused, hfailed]
      constructor
      · rintro huntouched ⟨hfull, herr⟩
        have hsame := huntouched herr
        rw [hdropped herr] at hsame
        exact (dropOldest_untouched_iff hsize).mp hsame hfull
      · intro hnot herr
        rw [hdropped herr]
        exact (dropOldest_untouched_iff hsize).mpr fun hfull => hnot ⟨hfull, herr⟩

/-- Some call after the calls of a run, when it is found by computing them. -/
theorem exists_step (config : JitterConfig) (calls : List JitterCall) (call : JitterCall)
    (p : JitterBuffer → JitterResult × JitterBuffer → Bool)
    (h : ((jitterCalls (tinyrtcJitterBufferCreate config) calls).any fun reached =>
      (jitterCall reached.2 call).any (p reached.2)) = true) :
    ∃ labels jb result jb', Run JitterStep (tinyrtcJitterBufferCreate config) labels jb ∧
      JitterStep jb (call, result) jb' ∧ p jb (result, jb') = true := by
  rw [Option.any_eq_true] at h
  obtain ⟨⟨labels, jb⟩, hcalls, hcall⟩ := h
  rw [Option.any_eq_true] at hcall
  obtain ⟨⟨result, jb'⟩, hstep, hp⟩ := hcall
  exact ⟨labels, jb, result, jb', run_jitterCalls hcalls, hstep, hp⟩

/-- With room for another one, nothing is dropped for the packet without a header. -/
theorem untouched_of_failure_withRoom :
    ∃ labels jb result jb', Run JitterStep (tinyrtcJitterBufferCreate ⟨30, 200, 2⟩) labels jb ∧
      JitterStep jb (.add true (List.replicate 12 0) 5, result) jb' ∧
      held jb = [numberedPacket 7] ∧ isOk result = false ∧ Untouched jb jb' := by
  obtain ⟨labels, jb, result, jb', hrun, hstep, hp⟩ := exists_step ⟨30, 200, 2⟩
    [.add true (numberedPacket 7) 0] (.add true (List.replicate 12 0) 5)
    (fun jb failed => !isOk failed.1 && held jb == [numberedPacket 7] &&
      decide (jb.entries.length ≠ jb.config.bufferSize.toNat)) (by decide +kernel)
  simp only [Bool.and_eq_true, Bool.not_eq_true', beq_iff_eq, decide_eq_true_iff] at hp
  obtain ⟨⟨herr, hheld⟩, hroom⟩ := hp
  exact ⟨labels, jb, result, jb', hrun, hstep, hheld, herr,
    (untouched_of_failure_iff hstep).mpr (fun hrefused => hroom hrefused.1) herr⟩

/-- The one slot is emptied for a packet that has no RTP header. -/
theorem drops_before_refusing :
    ∃ labels jb result jb', Run JitterStep (tinyrtcJitterBufferCreate ⟨30, 200, 1⟩) labels jb ∧
      JitterStep jb (.add true (List.replicate 12 0) 5, result) jb' ∧
      isOk result = false ∧ held jb = [numberedPacket 7] ∧ held jb' = [] := by
  obtain ⟨labels, jb, result, jb', hrun, hstep, hp⟩ := exists_step ⟨30, 200, 1⟩
    [.add true (numberedPacket 7) 0] (.add true (List.replicate 12 0) 5)
    (fun jb failed => !isOk failed.1 && held jb == [numberedPacket 7] && held failed.2 == [])
    (by decide +kernel)
  simp only [Bool.and_eq_true, Bool.not_eq_true', beq_iff_eq] at hp
  exact ⟨labels, jb, result, jb', hrun, hstep, hp.1.1, hp.1.2, hp.2⟩

end TinyRtc.JitterAtomicity
