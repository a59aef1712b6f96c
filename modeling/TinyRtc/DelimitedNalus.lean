import TinyRtc.FrameNalus

namespace TinyRtc.DelimitedNalus

open TinyRtc.AnnexB
open TinyRtc.FrameNalus
open TinyRtc.Packetization

/-- The bytes begin with a start code. -/
def BeginsCode (data : List UInt8) : Prop :=
  ∃ code : StartCode, code.bytes <+: data

/-- The NAL units of a frame: what stands behind a start code, up to the next place at which
a start code begins or the end. A frame that does not begin with a start code is one NAL unit. -/
inductive DelimitedNalu (frame : List UInt8) : Nalu → Prop
  | whole : frame ≠ [] → ¬ BeginsCode frame → DelimitedNalu frame ⟨0, frame, true⟩
  | behindCode {before bytes after : List UInt8} : BeginsCode frame →
      frame = before ++ (bytes ++ after) → [0x00, 0x00, 0x01] <:+ before → bytes ≠ [] →
      (∀ i < bytes.length, ¬ BeginsCode ((bytes ++ after).drop i)) →
      (after ≠ [] → BeginsCode after) →
      DelimitedNalu frame ⟨before.length, bytes, after.isEmpty⟩

theorem beginsCode_iff (data : List UInt8) : BeginsCode data ↔ h264StartCodeLen data ≠ 0 := by
  constructor
  · rintro ⟨code, rest, rfl⟩
    rw [startCodeLen_startCode]
    cases code <;> decide
  · intro hcode
    unfold h264StartCodeLen at hcode
    split_ifs at hcode with hlong hshort
    · exact ⟨.long, data.drop 4, by rw [StartCode.bytes, ← hlong, List.take_append_drop]⟩
    · exact ⟨.short, data.drop 3, by rw [StartCode.bytes, ← hshort, List.take_append_drop]⟩
    · exact absurd rfl hcode

theorem not_beginsCode_iff (data : List UInt8) : ¬ BeginsCode data ↔ h264StartCodeLen data = 0 := by
  rw [beginsCode_iff, not_not]

theorem startCodeLen_le_four (data : List UInt8) : h264StartCodeLen data ≤ 4 := by
  unfold h264StartCodeLen
  split_ifs <;> decide

/-- The scan stops where the first start code begins. -/
theorem findStartCode_eq {bytes after : List UInt8}
    (hinside : ∀ i < bytes.length, ¬ BeginsCode ((bytes ++ after).drop i))
    (hafter : after ≠ [] → BeginsCode after) :
    h264FindStartCode (bytes ++ after) = bytes.length := by
  have hle := findStartCode_le (bytes ++ after)
  rw [List.length_append] at hle
  rcases Nat.lt_trichotomy (h264FindStartCode (bytes ++ after)) bytes.length with
    hlt | heq | hgt
  · have hcode := @startCodeLen_at_find (bytes ++ after)
      (by rw [List.length_append]; omega)
    exact absurd ((beginsCode_iff _).mpr hcode) (hinside _ hlt)
  · exact heq
  · have hzero := startCodeLen_of_lt_find hgt
    rw [List.drop_left] at hzero
    have hne : after ≠ [] := by
      rintro rfl
      rw [List.length_nil] at hle
      omega
    exact absurd (hafter hne) ((not_beginsCode_iff after).mpr hzero)

/-- The loop does not run past the end of a start code that is still ahead. -/
theorem turn_le {pre behind : List UInt8} :
    h264FindStartCode (pre ++ ([0x00, 0x00, 0x01] ++ behind)) +
        h264StartCodeLen ((pre ++ ([0x00, 0x00, 0x01] ++ behind)).drop
          (h264FindStartCode (pre ++ ([0x00, 0x00, 0x01] ++ behind)))) ≤ pre.length + 3 := by
  have hcode : h264StartCodeLen ([0x00, 0x00, 0x01] ++ behind) = 3 :=
    startCodeLen_startCode .short behind
  have hfour := startCodeLen_le_four ((pre ++ ([0x00, 0x00, 0x01] ++ behind)).drop
    (h264FindStartCode (pre ++ ([0x00, 0x00, 0x01] ++ behind))))
  rcases Nat.lt_trichotomy (h264FindStartCode (pre ++ ([0x00, 0x00, 0x01] ++ behind)))
      pre.length with hlt | heq | hgt
  · omega
  · rw [heq, List.drop_left, hcode]
  · have hzero := startCodeLen_of_lt_find hgt
    rw [List.drop_left, hcode] at hzero
    cases hzero

/-- A turn takes the bytes up to the end of a start code, and none behind one that is still
ahead. -/
theorem exists_turn (pre behind : List UInt8) (hne : 0 < behind.length) :
    ∃ done ahead, pre ++ [0x00, 0x00, 0x01] = done ++ ahead ∧
      done.length = h264FindStartCode (pre ++ [0x00, 0x00, 0x01] ++ behind) +
        h264StartCodeLen ((pre ++ [0x00, 0x00, 0x01] ++ behind).drop
          (h264FindStartCode (pre ++ [0x00, 0x00, 0x01] ++ behind))) ∧
      [0x00, 0x00, 0x01] <:+ done := by
  have hturn := @turn_le pre behind
  rw [← List.append_assoc] at hturn
  have hlength : (pre ++ [0x00, 0x00, 0x01]).length = pre.length + 3 := by simp
  have hcode := @startCodeLen_at_find (pre ++ [0x00, 0x00, 0x01] ++ behind) (by
    rw [List.length_append, hlength]
    omega)
  generalize h264FindStartCode (pre ++ [0x00, 0x00, 0x01] ++ behind) = n at hturn hcode ⊢
  have htake := short_suffix_take hcode
  generalize h264StartCodeLen ((pre ++ [0x00, 0x00, 0x01] ++ behind).drop n) = k
    at hturn htake ⊢
  refine ⟨(pre ++ [0x00, 0x00, 0x01]).take (n + k), (pre ++ [0x00, 0x00, 0x01]).drop (n + k),
    (List.take_append_drop (n + k) _).symm, by rw [List.length_take]; omega, ?_⟩
  have hprefix : (pre ++ [0x00, 0x00, 0x01] ++ behind).take (n + k) =
      (pre ++ [0x00, 0x00, 0x01]).take (n + k) := List.take_append_of_le_length (by omega)
  rw [← hprefix, List.take_add]
  exact htake.trans (List.suffix_append _ _)

/-- The loop finds every NAL unit that is still ahead. -/
theorem mem_cutNalus {fuel : Nat} {consumed mid bytes after : List UInt8}
    (hfuel : (mid ++ (bytes ++ after)).length ≤ fuel) (hconsumed : [0x00, 0x00, 0x01] <:+ consumed)
    (hbefore : [0x00, 0x00, 0x01] <:+ consumed ++ mid) (hne : bytes ≠ [])
    (hinside : ∀ i < bytes.length, ¬ BeginsCode ((bytes ++ after).drop i))
    (hafter : after ≠ [] → BeginsCode after) :
    ⟨(consumed ++ mid).length, bytes, after.isEmpty⟩ ∈
      cutNalus fuel consumed.length (mid ++ (bytes ++ after)) := by
  have hpos := List.length_pos_iff.mpr hne
  induction fuel generalizing consumed mid with
  | zero =>
      simp only [List.length_append] at hfuel
      omega
  | succ fuel ih =>
      have hnil : (mid ++ (bytes ++ after)).length ≠ 0 := by
        simp only [List.length_append]
        omega
      rw [cutNalus, if_neg hnil]
      dsimp only
      by_cases hmid : mid = []
      · -- The NAL unit is the next one.
        subst hmid
        have hfind := findStartCode_eq hinside hafter
        rw [List.nil_append, List.append_nil, hfind, if_neg (Nat.ne_of_gt hpos)]
        cases after with
        | nil =>
            rw [if_pos (by rw [List.append_nil]), List.append_nil]
            exact List.mem_singleton_self _
        | cons x after =>
            rw [if_neg (by simp), List.take_left]
            exact List.mem_cons_self
      · -- The turn leaves it ahead.
        obtain ⟨pre, rfl⟩ := short_suffix_of_append hconsumed hmid hbefore
        obtain ⟨done, ahead, hsplit, hdone, hshort⟩ :=
          exists_turn pre (bytes ++ after) (by rw [List.length_append]; omega)
        have hlt : h264FindStartCode (pre ++ [0x00, 0x00, 0x01] ++ (bytes ++ after)) <
            (pre ++ [0x00, 0x00, 0x01] ++ (bytes ++ after)).length := by
          have htotal := congrArg List.length hsplit
          simp only [List.length_append] at htotal ⊢
          omega
        have hrest : (pre ++ [0x00, 0x00, 0x01] ++ (bytes ++ after)).drop done.length =
            ahead ++ (bytes ++ after) := by
          rw [hsplit, List.append_assoc, List.drop_left]
        have hnext := @ih (consumed ++ done) ahead (by
            have htotal := drop_turn_length_le hnil hfuel
            rwa [← hdone, hrest] at htotal)
          (hshort.trans (List.suffix_append _ _)) (by
            rw [List.append_assoc, ← hsplit]
            exact hbefore)
        rw [List.append_assoc, ← hsplit, @List.length_append _ consumed done] at hnext
        rw [← hdone, hrest, Nat.add_assoc, ← hdone]
        split_ifs with hzero hend
        · exact hnext
        · exact absurd hend (Nat.ne_of_lt hlt)
        · exact List.mem_cons_of_mem _ hnext

section

variable {before rest : List UInt8}

theorem DelimitedNalu.last (hcode : BeginsCode (before ++ rest))
    (hbefore : [0x00, 0x00, 0x01] <:+ before) (hne : rest.length ≠ 0)
    (hend : h264FindStartCode rest = rest.length) :
    DelimitedNalu (before ++ rest) ⟨before.length, rest, true⟩ := by
  have hinside : ∀ i < rest.length, ¬ BeginsCode ((rest ++ []).drop i) := by
    intro i hi
    rw [List.append_nil, not_beginsCode_iff]
    rw [← hend] at hi
    exact startCodeLen_of_lt_find hi
  exact .behindCode hcode (by rw [List.append_nil]) hbefore
    (List.ne_nil_of_length_pos (Nat.pos_of_ne_zero hne)) hinside fun hnil => absurd rfl hnil

theorem DelimitedNalu.front (hcode : BeginsCode (before ++ rest))
    (hbefore : [0x00, 0x00, 0x01] <:+ before) (hzero : h264FindStartCode rest ≠ 0)
    (hend : h264FindStartCode rest ≠ rest.length) :
    DelimitedNalu (before ++ rest)
      ⟨before.length, rest.take (h264FindStartCode rest), false⟩ := by
  have hfind := findStartCode_le rest
  have hlength : (rest.take (h264FindStartCode rest)).length = h264FindStartCode rest := by
    rw [List.length_take]
    omega
  have hne : rest.take (h264FindStartCode rest) ≠ [] := by
    rw [← List.length_pos_iff]
    omega
  have hafter : (rest.drop (h264FindStartCode rest)).isEmpty = false := by
    rw [List.isEmpty_eq_false_iff, ← List.length_pos_iff, List.length_drop]
    omega
  rw [← hafter]
  refine .behindCode hcode ?_ hbefore hne ?_ fun _ => ?_
  · rw [List.take_append_drop]
  · intro i hi
    rw [List.take_append_drop, not_beginsCode_iff]
    rw [hlength] at hi
    exact startCodeLen_of_lt_find hi
  · rw [beginsCode_iff]
    exact startCodeLen_at_find (by omega)

end

/-- The loop finds nothing else. -/
theorem delimitedNalu_of_mem_cutNalus {fuel : Nat} {before rest : List UInt8}
    (hcode : BeginsCode (before ++ rest)) (hbefore : [0x00, 0x00, 0x01] <:+ before) :
    ∀ nalu ∈ cutNalus fuel before.length rest, DelimitedNalu (before ++ rest) nalu := by
  induction fuel generalizing before rest with
  | zero => exact fun _ hmem => absurd hmem List.not_mem_nil
  | succ fuel ih =>
      rw [cutNalus]
      by_cases hnil : rest.length = 0
      · rw [if_pos hnil]
        exact fun _ hmem => absurd hmem List.not_mem_nil
      · rw [if_neg hnil]
        dsimp only
        by_cases hend : h264FindStartCode rest = rest.length
        · rw [if_neg (by omega), if_pos hend]
          intro nalu hmem
          rw [List.mem_singleton.mp hmem]
          exact .last hcode hbefore hnil hend
        · have hfind := findStartCode_le rest
          have hnextCode := @startCodeLen_at_find rest (by omega)
          have hle := startCodeLen_le (rest.drop (h264FindStartCode rest))
          rw [List.length_drop] at hle
          -- The rest of the loop sees the same frame.
          have hnext := @ih (before ++ rest.take (h264FindStartCode rest +
              h264StartCodeLen (rest.drop (h264FindStartCode rest))))
            (rest.drop (h264FindStartCode rest +
              h264StartCodeLen (rest.drop (h264FindStartCode rest))))
            (by rwa [List.append_assoc, List.take_append_drop])
            (by
              rw [List.take_add, ← List.append_assoc]
              exact (short_suffix_take hnextCode).trans (List.suffix_append _ _))
          rw [List.append_assoc, List.take_append_drop, List.length_append, List.length_take,
            Nat.min_eq_left (by omega), ← Nat.add_assoc] at hnext
          by_cases hzero : h264FindStartCode rest = 0
          · rw [if_pos hzero]
            exact hnext
          · rw [if_neg hzero, if_neg hend]
            exact List.forall_mem_cons.mpr ⟨.front hcode hbefore hzero hend, hnext⟩

/-- What stands behind a start code stands behind the one the frame begins with. -/
theorem startCodeLen_le_of_suffix {before rest : List UInt8}
    (h : [0x00, 0x00, 0x01] <:+ before) :
    h264StartCodeLen (before ++ rest) ≤ before.length := by
  have hthree := h.length_le
  rw [List.length_cons, List.length_cons, List.length_singleton] at hthree
  unfold h264StartCodeLen
  split_ifs with hlong hshort
  · by_contra hless
    have hlength : before.length = 3 := by omega
    have hbefore : [0x00, 0x00, 0x01] = before := h.eq_of_length hlength.symm
    rw [← hbefore] at hlong
    cases hlong
  · exact hthree
  · exact Nat.zero_le _

/-- The NAL units the packetizer's loop cuts a frame into are those its start codes delimit. -/
theorem mem_frameNalus_iff (frame : List UInt8) (nalu : Nalu) :
    nalu ∈ frameNalus frame ↔ DelimitedNalu frame nalu := by
  by_cases hcode : h264StartCodeLen frame ≠ 0
  · have hbegins := (beginsCode_iff frame).mpr hcode
    have hshort := short_suffix_take hcode
    have hlength : (frame.take (h264StartCodeLen frame)).length = h264StartCodeLen frame := by
      rw [List.length_take, Nat.min_eq_left (startCodeLen_le frame)]
    rw [frameNalus, if_pos hcode]
    constructor
    · intro hmem
      have hdelimited := @delimitedNalu_of_mem_cutNalus frame.length
        (frame.take (h264StartCodeLen frame)) (frame.drop (h264StartCodeLen frame))
        (by rwa [List.take_append_drop]) hshort nalu (by rwa [hlength])
      rwa [List.take_append_drop] at hdelimited
    · rintro (⟨-, hnot⟩ | ⟨-, hframe, hbefore, hne, hinside, hafter⟩)
      · exact absurd hbegins hnot
      · rename_i before bytes after
        have hle := @startCodeLen_le_of_suffix before (bytes ++ after) hbefore
        rw [← hframe] at hle
        -- The start code at the front and what is between it and the NAL unit.
        obtain ⟨mid, hmid⟩ : frame.take (h264StartCodeLen frame) <+: before :=
          List.prefix_of_prefix_length_le (List.take_prefix _ _) ⟨bytes ++ after, hframe.symm⟩
            (by rwa [hlength])
        have hrest : frame.drop (h264StartCodeLen frame) = mid ++ (bytes ++ after) := by
          apply @List.append_cancel_left _ (frame.take (h264StartCodeLen frame))
          rw [List.take_append_drop, ← List.append_assoc, hmid]
          exact hframe
        have hmem := @mem_cutNalus frame.length (frame.take (h264StartCodeLen frame)) mid bytes
          after (by rw [← hrest, List.length_drop]; omega) hshort (by rwa [hmid]) hne hinside hafter
        rwa [hmid, hlength, ← hrest] at hmem
  · have hbegins : ¬ BeginsCode frame := fun hbegins => hcode ((beginsCode_iff frame).mp hbegins)
    rw [frameNalus, if_neg hcode]
    constructor
    · split_ifs with hnil
      · exact fun hmem => absurd hmem List.not_mem_nil
      · intro hmem
        rw [List.mem_singleton.mp hmem]
        exact .whole hnil hbegins
    · rintro (⟨hnil, -⟩ | ⟨hnot, -⟩)
      · rw [if_neg hnil]
        exact List.mem_singleton_self _
      · exact absurd hnot hbegins

theorem frameNalus_bytes_ne_nil (frame : List UInt8) :
    ∀ nalu ∈ frameNalus frame, nalu.bytes ≠ [] := by
  intro nalu hmem
  cases (mem_frameNalus_iff frame nalu).mp hmem with
  | whole hne => exact hne
  | behindCode _ _ _ hne => exact hne

theorem cutNalus_le_offset (fuel offset : Nat) (rest : List UInt8) :
    ∀ nalu ∈ cutNalus fuel offset rest, offset ≤ nalu.offset := by
  induction fuel generalizing offset rest with
  | zero => exact fun _ hmem => absurd hmem List.not_mem_nil
  | succ fuel ih =>
      rw [cutNalus]
      dsimp only
      have hnext := ih (offset + h264FindStartCode rest +
        h264StartCodeLen (rest.drop (h264FindStartCode rest)))
        (rest.drop (h264FindStartCode rest +
          h264StartCodeLen (rest.drop (h264FindStartCode rest))))
      split_ifs
      · exact fun _ hmem => absurd hmem List.not_mem_nil
      · exact fun nalu hmem => Nat.le_trans (by omega) (hnext nalu hmem)
      · intro nalu hmem
        rw [List.mem_singleton.mp hmem]
      · intro nalu hmem
        rcases List.mem_cons.mp hmem with rfl | hmem
        · exact Nat.le_refl _
        · exact Nat.le_trans (by omega) (hnext nalu hmem)

theorem cutNalus_pairwise (fuel offset : Nat) (rest : List UInt8) :
    (cutNalus fuel offset rest).Pairwise fun first second => first.offset < second.offset := by
  induction fuel generalizing offset rest with
  | zero => exact List.Pairwise.nil
  | succ fuel ih =>
      rw [cutNalus]
      dsimp only
      split_ifs with hnil hzero hend
      · exact List.Pairwise.nil
      · exact ih _ _
      · exact List.pairwise_singleton _ _
      · refine List.pairwise_cons.mpr ⟨fun nalu hmem => ?_, ih _ _⟩
        have hle := cutNalus_le_offset _ _ _ nalu hmem
        dsimp only
        omega

theorem frameNalus_pairwise (frame : List UInt8) :
    (frameNalus frame).Pairwise fun first second => first.offset < second.offset := by
  rw [frameNalus]
  split_ifs
  · exact cutNalus_pairwise _ _ _
  · exact List.Pairwise.nil
  · exact List.pairwise_singleton _ _

end TinyRtc.DelimitedNalus
