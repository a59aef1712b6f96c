import TinyRtc.JitterRuns

namespace TinyRtc.PlayoutOrder

open TinyRtc.Jitter
open TinyRtc.JitterRuns
open TinyRtc.LabelledRuns
open TinyRtc.SerialNumbers

/-- The numbers of the packets that a run adds. -/
def addedSequences (labels : List (JitterCall × JitterResult)) : List UInt16 :=
  (labels.flatMap acceptedBy).filterMap sequenceOf

/-- The numbers of the packets that a run plays out. -/
def returnedSequences (labels : List (JitterCall × JitterResult)) : List UInt16 :=
  (labels.flatMap returnedBy).filterMap sequenceOf

/-- Numbers are played out in strictly increasing order. -/
def PlaysInOrder (base : UInt16) (labels : List (JitterCall × JitterResult)) : Prop :=
  (returnedSequences labels).Pairwise fun s s' => offset base s < offset base s'

instance (base : UInt16) : DecidablePred (PlaysInOrder base) := fun labels =>
  inferInstanceAs (Decidable (List.Pairwise _ (returnedSequences labels)))

def heldSequences (jb : JitterBuffer) : List UInt16 :=
  jb.entries.map JitterEntry.sequence

theorem addedSequences_cons (label : JitterCall × JitterResult)
    (labels : List (JitterCall × JitterResult)) :
    addedSequences (label :: labels) =
      (acceptedBy label).filterMap sequenceOf ++ addedSequences labels := by
  rw [addedSequences, List.flatMap_cons, List.filterMap_append]
  rfl

theorem count_held_step {jb jb' : JitterBuffer} {label : JitterCall × JitterResult}
    (h : JitterStep jb label jb') (s : UInt16) :
    (heldSequences jb').count s ≤
      (heldSequences jb).count s + ((acceptedBy label).filterMap sequenceOf).count s := by
  obtain ⟨heffect, -, -⟩ := callEffect_of_step h
  have hdropped := ((dropOldest_sublist jb).map JitterEntry.sequence).count_le s
  cases heffect with
  | inserted mallocOk packet timestamp sequence hsequence hentries =>
      have hinserted := ((insertEntry_perm ⟨packet, sequence, timestamp⟩
        (dropOldest jb).entries).map JitterEntry.sequence).count_eq s
      rw [← hentries, List.map_cons, List.count_cons] at hinserted
      simp only [heldSequences, acceptedBy, List.filterMap_cons, hsequence, List.filterMap_nil,
        List.count_cons, List.count_nil] at *
      omega
  | refused mallocOk packet timestamp result herr hentries =>
      rw [heldSequences, heldSequences, hentries]
      omega
  | kept maxLen currentTimeMs err hentries =>
      rw [heldSequences, heldSequences, hentries]
      omega
  | taken maxLen currentTimeMs entry hentries =>
      rw [heldSequences, heldSequences, hentries, List.map_cons, List.count_cons]
      omega

theorem count_held_of_run {jb jb' : JitterBuffer} {labels : List (JitterCall × JitterResult)}
    (hrun : Run JitterStep jb labels jb') (s : UInt16) :
    (heldSequences jb').count s ≤
      (heldSequences jb).count s + (addedSequences labels).count s := by
  induction hrun with
  | nil jb => exact Nat.le_add_right _ _
  | @cons jb next last label labels hstep _ ih =>
      have hfirst := count_held_step hstep s
      rw [addedSequences_cons, List.count_append]
      omega

theorem entries_of_got {jb jb' : JitterBuffer} {call : JitterCall} {packet : List UInt8}
    (h : JitterStep jb (call, .got (.ok packet)) jb') :
    ∃ entry, jb.entries = entry :: jb'.entries ∧ packet = entry.packet := by
  obtain ⟨heffect, -, -⟩ := callEffect_of_step h
  cases heffect with
  | taken maxLen currentTimeMs entry hentries => exact ⟨entry, hentries, rfl⟩

/-- Of two packets that are played out, the later one has the larger number, unless
its number was added between the two calls, or is that of the earlier one and was
added twice before. -/
theorem playout_order {config : JitterConfig} {base : UInt16}
    {first second : List (JitterCall × JitterResult)} {get get' : JitterCall}
    {packet packet' : List UInt8} {jb : JitterBuffer}
    (hrun : Run JitterStep (tinyrtcJitterBufferCreate config)
      (first ++ (get, .got (.ok packet)) :: (second ++ [(get', .got (.ok packet'))])) jb)
    (hadds : ∀ label ∈ first ++ (get, .got (.ok packet)) ::
      (second ++ [(get', .got (.ok packet'))]), AddsInWindow base label.1) :
    ∃ s s', sequenceOf packet = some s ∧ sequenceOf packet' = some s' ∧
      (offset base s < offset base s' ∨ s' ∈ addedSequences second ∨
        s' = s ∧ 2 ≤ (addedSequences first).count s) := by
  obtain ⟨jb₀, hfirst, hrest⟩ := hrun.of_append
  cases hrest with
  | @cons _ jb₁ _ _ _ hget hrest =>
  obtain ⟨jb₂, hsecond, hlast⟩ := hrest.of_append
  cases hlast with
  | @cons _ jb₃ _ _ _ hget' _ =>
  have hbefore : Run JitterStep (tinyrtcJitterBufferCreate config)
      (first ++ (get, .got (.ok packet)) :: second) jb₂ := hfirst.append (.cons hget hsecond)
  obtain ⟨horder, hlabelled, hholds⟩ := inOrder_of_run hfirst fun label hlabel =>
    hadds label (List.mem_append_left _ hlabel)
  obtain ⟨-, hlabelled', -⟩ := inOrder_of_run hbefore fun label hlabel => hadds label (by
    simp only [List.mem_append, List.mem_cons] at hlabel ⊢
    tauto)
  obtain ⟨entry, hentries, rfl⟩ := entries_of_got hget
  obtain ⟨entry', hentries', rfl⟩ := entries_of_got hget'
  refine ⟨entry.sequence, entry'.sequence, hlabelled entry (by simp [hentries]),
    hlabelled' entry' (by simp [hentries']), ?_⟩
  by_cases hadded : entry'.sequence ∈ addedSequences second
  · exact .inr (.inl hadded)
  · -- The later packet was held when the earlier one was played out.
    have hcount := count_held_of_run hsecond entry'.sequence
    rw [List.count_eq_zero_of_not_mem hadded, Nat.add_zero] at hcount
    have hpos : 0 < (heldSequences jb₂).count entry'.sequence := by
      rw [heldSequences, hentries', List.map_cons, List.count_cons_self]
      exact Nat.succ_pos _
    obtain ⟨held, hmem, hsame⟩ := List.mem_map.mp (List.count_pos_iff.mp (hpos.trans_le hcount))
    rw [InOrder, hentries] at horder
    have hnot := (List.pairwise_cons.mp horder).1 held hmem
    rw [hsame, precedes_iff (hsame ▸ hholds held (by simp [hentries, hmem]))
      (hholds entry (by simp [hentries])), Nat.not_lt] at hnot
    rcases hnot.lt_or_eq with hlt | heq
    · exact .inl hlt
    · have hnumber := offset_injective heq
      refine .inr (.inr ⟨hnumber.symm, ?_⟩)
      have htwice := count_held_of_run hfirst entry.sequence
      have hcount₁ := hpos.trans_le hcount
      have hnone : heldSequences (tinyrtcJitterBufferCreate config) = [] := rfl
      rw [hnone, List.count_nil, Nat.zero_add] at htwice
      rw [heldSequences, hentries, List.map_cons, List.count_cons_self] at htwice
      rw [← hnumber, heldSequences] at hcount₁
      omega

/-- Two packets that arrive in the wrong order are played out in the right one. -/
theorem playout_order_sampleRun :
    ∃ s s', sequenceOf (numberedPacket 5) = some s ∧ sequenceOf (numberedPacket 7) = some s' ∧
      (offset 0 s < offset 0 s' ∨ s' ∈ addedSequences [] ∨ s' = s ∧ 2 ≤ (addedSequences
        [(.add true (numberedPacket 7) 0, .added .ok),
          (.add true (numberedPacket 5) 1, .added .ok)]).count s) := by
  have hcalls : (jitterCalls (tinyrtcJitterBufferCreate tinyrtcJitterGetDefaultConfig)
      [.add true (numberedPacket 7) 0, .add true (numberedPacket 5) 1, .get 1500 30,
        .get 1500 60]).map Prod.fst =
      some ([(.add true (numberedPacket 7) 0, .added .ok),
          (.add true (numberedPacket 5) 1, .added .ok)] ++
        (.get 1500 30, .got (.ok (numberedPacket 5))) ::
          ([] ++ [(.get 1500 60, .got (.ok (numberedPacket 7)))])) := rfl
  obtain ⟨⟨labels, jb⟩, hcalls, rfl⟩ := Option.map_eq_some_iff.mp hcalls
  exact playout_order (run_jitterCalls hcalls) (by decide +kernel)

/-- A packet that comes late is played out late. -/
theorem playsInOrder_fails :
    ∃ labels jb, Run JitterStep (tinyrtcJitterBufferCreate tinyrtcJitterGetDefaultConfig) labels jb ∧
      (∀ label ∈ labels, AddsInWindow 0 label.1) ∧ ¬ PlaysInOrder 0 labels := by
  obtain ⟨labels, jb, hrun, hp⟩ := exists_run
    (tinyrtcJitterBufferCreate tinyrtcJitterGetDefaultConfig)
    [.add true (numberedPacket 5) 0, .get 1500 30, .add true (numberedPacket 3) 31, .get 1500 61]
    (fun labels => decide (∀ label ∈ labels, AddsInWindow 0 label.1) &&
      !decide (PlaysInOrder 0 labels))
    (by decide +kernel)
  simp only [Bool.and_eq_true, decide_eq_true_iff, Bool.not_eq_true', decide_eq_false_iff_not] at hp
  exact ⟨labels, jb, hrun, hp⟩

end TinyRtc.PlayoutOrder
