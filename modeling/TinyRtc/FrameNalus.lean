import TinyRtc.FuaFragments
import TinyRtc.FueledLoops
import TinyRtc.MarkedRuns

namespace TinyRtc.FrameNalus

open TinyRtc.FueledLoops
open TinyRtc.Packetization

/-- The bytes between two start codes of a frame. `reachesEnd` says that the frame
ends behind them instead. -/
structure Nalu where
  offset : Nat
  bytes : List UInt8
  reachesEnd : Bool
  deriving DecidableEq, Repr

def cutNalus : (fuel offset : Nat) → (rest : List UInt8) → List Nalu
  | 0, _, _ => []
  | fuel + 1, offset, rest =>
      if rest.length = 0 then []
      else
        let naluLen := h264FindStartCode rest
        let nextStartCode := h264StartCodeLen (rest.drop naluLen)
        let next := cutNalus fuel (offset + naluLen + nextStartCode)
          (rest.drop (naluLen + nextStartCode))
        if naluLen = 0 then next
        else if naluLen = rest.length then [⟨offset, rest, true⟩]
        else ⟨offset, rest.take naluLen, false⟩ :: next

/-- The NAL units of any frame, in order. A frame without a start code at its front is
one NAL unit as a whole. -/
def frameNalus (frame : List UInt8) : List Nalu :=
  let initialStartCode := h264StartCodeLen frame
  if initialStartCode ≠ 0 then
    cutNalus frame.length initialStartCode (frame.drop initialStartCode)
  else if frame = [] then []
  else [⟨0, frame, true⟩]

theorem startCodeLen_le (data : List UInt8) : h264StartCodeLen data ≤ data.length := by
  unfold h264StartCodeLen
  split_ifs with hlong hshort
  · have hlen := congrArg List.length hlong
    simp only [List.length_take, List.length_cons, List.length_nil] at hlen
    omega
  · have hlen := congrArg List.length hshort
    simp only [List.length_take, List.length_cons, List.length_nil] at hlen
    omega
  · exact Nat.zero_le _

/-- Both start codes end with the short one. -/
theorem short_suffix_take {data : List UInt8} (h : h264StartCodeLen data ≠ 0) :
    [0x00, 0x00, 0x01] <:+ data.take (h264StartCodeLen data) := by
  unfold h264StartCodeLen at h ⊢
  split_ifs at h ⊢ with hlong hshort
  · rw [hlong]
    exact ⟨[0x00], rfl⟩
  · rw [hshort]
  · exact absurd rfl h

theorem findStartCode_le (data : List UInt8) : h264FindStartCode data ≤ data.length := by
  induction data with
  | nil => exact Nat.le_refl 0
  | cons byte rest ih =>
      rw [h264FindStartCode, List.length_cons]
      split_ifs <;> omega

theorem startCodeLen_of_lt_find {data : List UInt8} {i : Nat} (h : i < h264FindStartCode data) :
    h264StartCodeLen (data.drop i) = 0 := by
  induction data generalizing i with
  | nil => exact absurd h (Nat.not_lt_zero i)
  | cons byte rest ih =>
      rw [h264FindStartCode] at h
      split_ifs at h with hcode
      · exact absurd h (Nat.not_lt_zero i)
      · cases i with
        | zero => exact not_not.mp hcode
        | succ i => exact ih (Nat.lt_of_succ_lt_succ h)

theorem startCodeLen_at_find {data : List UInt8} (h : h264FindStartCode data < data.length) :
    h264StartCodeLen (data.drop (h264FindStartCode data)) ≠ 0 := by
  induction data with
  | nil => exact absurd h (Nat.not_lt_zero 0)
  | cons byte rest ih =>
      rw [h264FindStartCode] at h ⊢
      split_ifs at h ⊢ with hcode
      · exact hcode
      · rw [List.length_cons] at h
        exact ih (by omega)

/-- A turn of the NAL unit loop takes at least one byte off. -/
theorem turn_pos {rest : List UInt8} (h : rest.length ≠ 0) :
    0 < h264FindStartCode rest + h264StartCodeLen (rest.drop (h264FindStartCode rest)) := by
  rcases Nat.eq_zero_or_pos (h264FindStartCode rest) with hfind | hfind
  · have hcode := @startCodeLen_at_find rest (by omega)
    omega
  · omega

theorem drop_turn_length_le {rest : List UInt8} {fuel : Nat} (h : rest.length ≠ 0)
    (hfuel : rest.length ≤ fuel + 1) :
    (rest.drop (h264FindStartCode rest +
      h264StartCodeLen (rest.drop (h264FindStartCode rest)))).length ≤ fuel := by
  have hturn := turn_pos h
  rw [List.length_drop]
  omega

theorem h264Loop_usesUp (malloc : Nat → Bool) (maxPayload : Nat) :
    UsesUp (fun s : Nat × List UInt8 => s.2.length)
      fun fuel s => h264Loop malloc maxPayload fuel s.1 s.2 where
  ended fuel s hnil := by
    cases fuel with
    | zero => rfl
    | succ fuel => rw [h264Loop, h264Loop, if_pos hnil]
  turn fuel fuel' s hne hagree := by
    have hturn := turn_pos hne
    rw [h264Loop, h264Loop]
    dsimp only
    rw [hagree (_, _) (by dsimp only; rw [List.length_drop]; omega)]

/-- What the loop emits for one NAL unit. -/
def packetizeNalu (malloc : Nat → Bool) (maxPayload : Nat) (nalu : Nalu) : Packetized :=
  h264PacketizeNalu (malloc nalu.offset) nalu.bytes maxPayload nalu.reachesEnd

/-- The packetizer emits a NAL unit: it fits into a packet, or the buffer for its
fragments can be allocated. -/
def Sent (malloc : Nat → Bool) (maxPayload : Nat) (nalu : Nalu) : Prop :=
  nalu.bytes.length ≤ maxPayload ∨ malloc nalu.offset = true

instance (malloc : Nat → Bool) (maxPayload : Nat) : DecidablePred (Sent malloc maxPayload) :=
  fun _ => inferInstanceAs (Decidable (_ ∨ _))

theorem packetizeNalu_unsent {malloc : Nat → Bool} {maxPayload : Nat} {nalu : Nalu}
    (h : ¬Sent malloc maxPayload nalu) :
    packetizeNalu malloc maxPayload nalu = .none := by
  obtain ⟨offset, bytes, reachesEnd⟩ := nalu
  obtain ⟨hlong, hnot⟩ := not_or.mp h
  have hmalloc : malloc offset = false := Bool.eq_false_iff.mpr hnot
  cases bytes with
  | nil => exact absurd (Nat.zero_le _) hlong
  | cons header data =>
      rw [packetizeNalu, h264PacketizeNalu, if_neg hlong, hmalloc]
      split_ifs with hsmall hok
      · rfl
      · rfl
      · exact absurd rfl hok

theorem h264Loop_eq_nalus (malloc : Nat → Bool) (maxPayload fuel offset : Nat)
    (rest : List UInt8) :
    (h264Loop malloc maxPayload fuel offset rest).callbacks =
        (cutNalus fuel offset rest).flatMap
          (fun nalu => (packetizeNalu malloc maxPayload nalu).callbacks) ∧
      (h264Loop malloc maxPayload fuel offset rest).packets =
        ((cutNalus fuel offset rest).map
          fun nalu => (packetizeNalu malloc maxPayload nalu).packets).sum := by
  induction fuel generalizing offset rest with
  | zero => exact ⟨rfl, rfl⟩
  | succ fuel ih =>
      rw [h264Loop, cutNalus]
      by_cases hnil : rest.length = 0
      · rw [if_pos hnil, if_pos hnil]
        exact ⟨rfl, rfl⟩
      · rw [if_neg hnil, if_neg hnil]
        dsimp only
        by_cases hcode : h264FindStartCode rest = 0
        · rw [if_pos hcode, if_pos hcode]
          exact ih _ _
        · rw [if_neg hcode, if_neg hcode]
          by_cases hend : h264FindStartCode rest = rest.length
          · rw [if_pos hend, if_pos hend, hend, List.take_length]
            simp [packetizeNalu]
          · rw [if_neg hend, if_neg hend]
            obtain ⟨hcallbacks, hpackets⟩ := ih
              (offset + h264FindStartCode rest +
                h264StartCodeLen (rest.drop (h264FindStartCode rest)))
              (rest.drop (h264FindStartCode rest +
                h264StartCodeLen (rest.drop (h264FindStartCode rest))))
            rw [Packetized.callbacks_append, hcallbacks, List.flatMap_cons, List.map_cons,
              List.sum_cons, ← hpackets]
            exact ⟨rfl, rfl⟩

/-- The packets of an H264 frame are those of its NAL units. -/
theorem packetize_eq_nalus (malloc : Nat → Bool) {mtu : UInt32} (hmtu : 20 ≤ mtu)
    (frame : List UInt8) :
    (tinyrtcPacketizeFrame malloc .h264 mtu frame).callbacks =
        (frameNalus frame).flatMap
          (fun nalu => (packetizeNalu malloc (mtu.toNat - 12) nalu).callbacks) ∧
      (tinyrtcPacketizeFrame malloc .h264 mtu frame).packets =
        ((frameNalus frame).map
          fun nalu => (packetizeNalu malloc (mtu.toNat - 12) nalu).packets).sum := by
  rw [tinyrtcPacketizeFrame, if_neg (UInt32.not_lt.mpr hmtu), frameNalus]
  dsimp only
  by_cases hcode : h264StartCodeLen frame ≠ 0
  · rw [if_pos hcode, if_pos hcode]
    exact h264Loop_eq_nalus malloc _ _ _ _
  · rw [if_neg hcode, if_neg hcode]
    by_cases hnil : frame = []
    · rw [hnil]
      exact ⟨rfl, rfl⟩
    · rw [if_neg hnil]
      simp [packetizeNalu]

theorem cutNalus_dropLast (fuel offset : Nat) (rest : List UInt8) :
    ∀ nalu ∈ (cutNalus fuel offset rest).dropLast, nalu.reachesEnd = false := by
  induction fuel generalizing offset rest with
  | zero => exact fun _ hmem => absurd hmem List.not_mem_nil
  | succ fuel ih =>
      rw [cutNalus]
      dsimp only
      split_ifs
      · exact fun _ hmem => absurd hmem List.not_mem_nil
      · exact ih _ _
      · exact fun _ hmem => absurd hmem List.not_mem_nil
      · generalize hnext : cutNalus fuel _ _ = next
        have hrest := ih (offset + h264FindStartCode rest +
          h264StartCodeLen (rest.drop (h264FindStartCode rest)))
          (rest.drop (h264FindStartCode rest +
            h264StartCodeLen (rest.drop (h264FindStartCode rest))))
        rw [hnext] at hrest
        cases next with
        | nil => exact fun _ hmem => absurd hmem List.not_mem_nil
        | cons second next =>
            intro nalu hmem
            rw [List.dropLast_cons_of_ne_nil (List.cons_ne_nil _ _)] at hmem
            rcases List.mem_cons.mp hmem with rfl | hmem
            · rfl
            · exact hrest nalu hmem

/-- Start codes do not overlap. -/
theorem short_suffix_of_append {before rest : List UInt8} (hbefore : [0x00, 0x00, 0x01] <:+ before)
    (hne : rest ≠ []) (h : [0x00, 0x00, 0x01] <:+ before ++ rest) : [0x00, 0x00, 0x01] <:+ rest := by
  by_cases hlong : 3 ≤ rest.length
  · exact List.suffix_of_suffix_length_le h (List.suffix_append before rest) hlong
  · obtain ⟨pre, rfl⟩ := hbefore
    obtain ⟨pre', hpre'⟩ := h
    match rest, hne, hlong with
    | [], hne, _ => exact absurd rfl hne
    | [b], _, _ =>
        have hwhole : pre' ++ [0x00, 0x00, 0x01] = (pre ++ [0x00]) ++ [0x00, 0x01, b] := by
          simpa using hpre'
        exact absurd (List.append_inj_right' hwhole rfl) (by simp)
    | [b, b'], _, _ =>
        have hwhole : pre' ++ [0x00, 0x00, 0x01] = (pre ++ [0x00, 0x00]) ++ [0x01, b, b'] := by
          simpa using hpre'
        exact absurd (List.append_inj_right' hwhole rfl) (by simp)
    | _ :: _ :: _ :: _, _, hlong => exact absurd (by simp) hlong

/-- Bytes without a start code in them, behind one, do not end with the short one. -/
theorem not_short_suffix {before rest : List UInt8} (hbefore : [0x00, 0x00, 0x01] <:+ before)
    (hne : rest ≠ []) (hfind : h264FindStartCode rest = rest.length) :
    ¬ [0x00, 0x00, 0x01] <:+ before ++ rest := by
  intro hsuffix
  obtain ⟨pre, hpre⟩ := short_suffix_of_append hbefore hne hsuffix
  have hlen := congrArg List.length hpre
  simp only [List.length_append, List.length_cons, List.length_nil] at hlen
  have hzero := @startCodeLen_of_lt_find rest pre.length (by omega)
  rw [← hpre, List.drop_left] at hzero
  exact absurd hzero (by decide)

/-- A frame that begins with a start code ends with one if and only if its last NAL unit
stops in front of a start code. -/
theorem short_suffix_iff {fuel : Nat} {before rest : List UInt8} (hfuel : rest.length ≤ fuel)
    (hbefore : [0x00, 0x00, 0x01] <:+ before) (offset : Nat) :
    [0x00, 0x00, 0x01] <:+ before ++ rest ↔
      ∀ last ∈ (cutNalus fuel offset rest).getLast?, last.reachesEnd = false := by
  induction fuel generalizing before rest offset with
  | zero =>
      rw [List.eq_nil_of_length_eq_zero (Nat.le_zero.mp hfuel), List.append_nil]
      simp [cutNalus, hbefore]
  | succ fuel ih =>
      rw [cutNalus]
      by_cases hnil : rest.length = 0
      · rw [if_pos hnil, List.eq_nil_of_length_eq_zero hnil, List.append_nil]
        simp [hbefore]
      · rw [if_neg hnil]
        dsimp only
        by_cases hend : h264FindStartCode rest = rest.length
        · have hnot := not_short_suffix hbefore (List.ne_nil_of_length_pos
            (Nat.pos_of_ne_zero hnil)) hend
          rw [if_neg (by omega), if_pos hend]
          simp [hnot]
        · have hfind := findStartCode_le rest
          have hcode := short_suffix_take (@startCodeLen_at_find rest (by omega))
          have hnext := @ih (before ++ rest.take (h264FindStartCode rest +
              h264StartCodeLen (rest.drop (h264FindStartCode rest)))) _
            (drop_turn_length_le hnil hfuel)
            (by
              rw [List.take_add, ← List.append_assoc]
              exact hcode.trans (List.suffix_append _ _))
            (offset + h264FindStartCode rest +
              h264StartCodeLen (rest.drop (h264FindStartCode rest)))
          rw [List.append_assoc, List.take_append_drop] at hnext
          by_cases hzero : h264FindStartCode rest = 0
          · rw [if_pos hzero]
            exact hnext
          · rw [if_neg hzero, if_neg hend, hnext]
            generalize cutNalus fuel _ _ = next
            cases next with
            | nil => simp
            | cons second next => rw [List.getLast?_cons_cons]

theorem frameNalus_dropLast (frame : List UInt8) :
    ∀ nalu ∈ (frameNalus frame).dropLast, nalu.reachesEnd = false := by
  rw [frameNalus]
  split_ifs
  · exact cutNalus_dropLast _ _ _
  · simp
  · simp

/-- Whether the last NAL unit reaches the end can be read off the end of the frame. -/
theorem frame_reachesEnd_iff {frame : List UInt8} {last : Nalu}
    (hlast : last ∈ (frameNalus frame).getLast?) :
    last.reachesEnd = true ↔
      h264StartCodeLen frame = 0 ∨ ¬ [0x00, 0x00, 0x01] <:+ frame := by
  by_cases hcode : h264StartCodeLen frame ≠ 0
  · rw [frameNalus, if_pos hcode] at hlast
    have hsuffix := @short_suffix_iff frame.length _
      (frame.drop (h264StartCodeLen frame)) (by rw [List.length_drop]; omega)
      (short_suffix_take hcode) (h264StartCodeLen frame)
    rw [List.take_append_drop] at hsuffix
    rw [hsuffix, or_iff_right hcode, Option.mem_def.mp hlast]
    simp
  · rw [frameNalus, if_neg hcode] at hlast
    split_ifs at hlast with hnil
    · simp at hlast
    · rw [List.getLast?_singleton, Option.mem_some_iff] at hlast
      rw [← hlast]
      simp [not_not.mp hcode]

end TinyRtc.FrameNalus
