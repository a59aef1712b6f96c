import TinyRtc.DelimitedNalus
import TinyRtc.GenericChunks

namespace TinyRtc.MarkerPlacement

open TinyRtc.DelimitedNalus
open TinyRtc.FrameNalus
open TinyRtc.FuaFragments
open TinyRtc.GenericChunks
open TinyRtc.MarkedRuns
open TinyRtc.MediaCodec
open TinyRtc.Packetization

/-- The marker is on the last invocation and on no other. -/
def MarksLastOnly (callbacks : List PacketCallback) : Prop :=
  callbacks = [] ∨ MarkedAtEnd (callbacks.map PacketCallback.marker)

theorem fuaCallbacks_markers (naluHeader : UInt8) (isLastNalu isStart : Bool)
    {chunks : List (List UInt8)} (hne : chunks ≠ []) :
    (fuaCallbacks naluHeader isLastNalu isStart chunks).map PacketCallback.marker =
      List.replicate (chunks.length - 1) false ++ [isLastNalu] := by
  match chunks with
  | [] => exact absurd rfl hne
  | [last] => simp [fuaCallbacks, fuaCallback]
  | chunk :: next :: rest =>
      rw [fuaCallbacks, List.map_cons, fuaCallbacks_markers naluHeader isLastNalu false
        (List.cons_ne_nil next rest), fuaCallback, Bool.and_false]
      rfl

section

variable {malloc : Nat → Bool} {maxPayload : Nat}

theorem packetizeNalu_markers (hmax : 2 < maxPayload) {nalu : Nalu} (hne : nalu.bytes ≠ [])
    (h : Sent malloc maxPayload nalu) :
    ∃ n, (packetizeNalu malloc maxPayload nalu).callbacks.map PacketCallback.marker =
      List.replicate n false ++ [nalu.reachesEnd] := by
  obtain ⟨offset, bytes, reachesEnd⟩ := nalu
  obtain ⟨header, data, hbytes⟩ := List.exists_cons_of_ne_nil hne
  dsimp only at hbytes
  subst hbytes
  by_cases hfits : (header :: data).length ≤ maxPayload
  · refine ⟨0, ?_⟩
    rw [packetizeNalu, h264PacketizeNalu, if_pos hfits]
    rfl
  · have hmalloc : malloc offset = true := h.resolve_left hfits
    obtain ⟨chunk, next, rest, -, -, hcallbacks⟩ :=
      h264PacketizeNalu_fragmented header data hmax (Nat.lt_of_not_le hfits) reachesEnd
    refine ⟨(chunk :: next :: rest).length - 1, ?_⟩
    rw [packetizeNalu, hmalloc, hcallbacks, fuaCallbacks_markers _ _ _ (List.cons_ne_nil _ _)]

/-- NAL units that do not reach the end of the frame leave no marker. -/
theorem unmarked_nalus (hmax : 2 < maxPayload) (nalus : List Nalu)
    (hne : ∀ nalu ∈ nalus, nalu.bytes ≠ []) (hopen : ∀ nalu ∈ nalus, nalu.reachesEnd = false) :
    ∃ n, (nalus.flatMap fun nalu => (packetizeNalu malloc maxPayload nalu).callbacks).map
        PacketCallback.marker = List.replicate n false ∧
      (n = 0 ↔ ∀ nalu ∈ nalus, ¬Sent malloc maxPayload nalu) := by
  induction nalus with
  | nil => exact ⟨0, rfl, by simp⟩
  | cons nalu nalus ih =>
      rw [List.forall_mem_cons] at hne hopen
      obtain ⟨n, hmarkers, hn⟩ := ih hne.2 hopen.2
      rw [List.flatMap_cons, List.map_append, hmarkers]
      by_cases hsent : Sent malloc maxPayload nalu
      · obtain ⟨m, hnalu⟩ := packetizeNalu_markers hmax hne.1 hsent
        refine ⟨m + 1 + n, ?_, by simp [hsent]⟩
        rw [hnalu, hopen.1, ← List.replicate_one, ← List.replicate_add, ← List.replicate_add]
      · refine ⟨n, ?_, by rw [hn, List.forall_mem_cons, and_iff_right hsent]⟩
        rw [packetizeNalu_unsent hsent]
        rfl

theorem not_markedAtEnd_unmarked (n : Nat) : ¬MarkedAtEnd (List.replicate n false) := by
  intro h
  have hmem : true ∈ List.replicate n false := by
    rw [h]
    simp
  exact absurd (List.eq_of_mem_replicate hmem) (by decide)

theorem marksLastOnly_iff_markers {callbacks : List PacketCallback} {markers : List Bool}
    (h : callbacks.map PacketCallback.marker = markers) :
    MarksLastOnly callbacks ↔ markers = [] ∨ MarkedAtEnd markers := by
  rw [MarksLastOnly, h, ← h, List.map_eq_nil_iff]

/-- The NAL units of a frame, of which at most the last reaches its end. -/
theorem nalus_marksLastOnly_iff (hmax : 2 < maxPayload) {nalus : List Nalu}
    (hne : ∀ nalu ∈ nalus, nalu.bytes ≠ [])
    (hopen : ∀ nalu ∈ nalus.dropLast, nalu.reachesEnd = false) :
    MarksLastOnly (nalus.flatMap fun nalu => (packetizeNalu malloc maxPayload nalu).callbacks) ↔
      (∀ nalu ∈ nalus, ¬Sent malloc maxPayload nalu) ∨
        ∃ last ∈ nalus.getLast?, last.reachesEnd = true ∧ Sent malloc maxPayload last := by
  rcases List.eq_nil_or_concat nalus with rfl | ⟨nalus, last, rfl⟩
  · simp [MarksLastOnly]
  · rw [List.concat_eq_append, List.dropLast_concat] at *
    have hne' : ∀ nalu ∈ nalus, nalu.bytes ≠ [] :=
      fun nalu hmem => hne nalu (List.mem_append_left _ hmem)
    obtain ⟨n, hmarkers, hn⟩ := @unmarked_nalus malloc _ hmax nalus hne' hopen
    have hflags : (List.flatMap (fun nalu => (packetizeNalu malloc maxPayload nalu).callbacks)
        (nalus ++ [last])).map PacketCallback.marker = List.replicate n false ++
          (packetizeNalu malloc maxPayload last).callbacks.map PacketCallback.marker := by
      rw [List.flatMap_append, List.map_append, hmarkers, List.flatMap_singleton]
    rw [marksLastOnly_iff_markers hflags]
    by_cases hsent : Sent malloc maxPayload last
    · obtain ⟨m, hlast⟩ := packetizeNalu_markers hmax (hne last (by simp)) hsent
      rw [hlast, ← List.append_assoc, ← List.replicate_add, markedAtEnd_replicate_iff]
      simp [hsent]
    · rw [packetizeNalu_unsent hsent]
      have hnot := not_markedAtEnd_unmarked n
      simp [hsent, hnot, hn, or_imp, forall_and]

end

/-- The H264 case: what decides is the last NAL unit. -/
theorem h264_marksLastOnly_iff (malloc : Nat → Bool) {mtu : UInt32} (hmtu : 20 ≤ mtu)
    (frame : List UInt8) :
    MarksLastOnly (tinyrtcPacketizeFrame malloc .h264 mtu frame).callbacks ↔
      (∀ nalu ∈ frameNalus frame, ¬Sent malloc (mtu.toNat - 12) nalu) ∨
        ∃ last ∈ (frameNalus frame).getLast?,
          last.reachesEnd = true ∧ Sent malloc (mtu.toNat - 12) last := by
  have hmtu' : 20 ≤ mtu.toNat := UInt32.le_iff_toNat_le.mp hmtu
  rw [(packetize_eq_nalus malloc hmtu frame).1]
  exact nalus_marksLastOnly_iff (by omega) (frameNalus_bytes_ne_nil frame)
    (frameNalus_dropLast frame)

/-- The marker goes wrong exactly with an H264 frame that ends with a start code, and with
one whose last NAL unit cannot be fragmented. -/
theorem marksLastOnly_iff (malloc : Nat → Bool) (codecId : CodecId) {mtu : UInt32}
    (hmtu : 20 ≤ mtu) (frame : List UInt8) :
    MarksLastOnly (tinyrtcPacketizeFrame malloc codecId mtu frame).callbacks ↔
      (codecId = .h264 →
        (∀ nalu ∈ frameNalus frame, ¬Sent malloc (mtu.toNat - 12) nalu) ∨
        ((h264StartCodeLen frame = 0 ∨ ¬ [0x00, 0x00, 0x01] <:+ frame) ∧
          ∀ last ∈ (frameNalus frame).getLast?, Sent malloc (mtu.toNat - 12) last)) := by
  by_cases hcodec : codecId = .h264
  · rw [hcodec, h264_marksLastOnly_iff malloc hmtu, imp_iff_right rfl]
    cases hlast : (frameNalus frame).getLast? with
    | none =>
        rw [List.getLast?_eq_none_iff.mp hlast]
        simp
    | some last =>
        have hend := frame_reachesEnd_iff hlast
        simp [hend]
  · obtain ⟨chunks, -, -, hpacketized⟩ := packetize_generic malloc hcodec hmtu frame
    rw [hpacketized]
    refine iff_of_true ?_ fun h => absurd h hcodec
    cases chunks with
    | nil => exact .inl rfl
    | cons chunk chunks =>
        right
        rw [chunkCallbacks_markers (List.cons_ne_nil chunk chunks), markedAtEnd_replicate_iff]

/-- A frame with a start code behind its only NAL unit. -/
theorem not_marksLastOnly_trailing_startCode :
    ¬ ∀ (codecId : CodecId) (mtu : UInt32) (frame : List UInt8), 20 ≤ mtu →
      MarksLastOnly (tinyrtcPacketizeFrame (fun _ => true) codecId mtu frame).callbacks := by
  intro h
  have hmarks := h .h264 1490 [0x00, 0x00, 0x01, 0x65, 0x88, 0x00, 0x00, 0x01] (by decide)
  rw [@marksLastOnly_iff_markers _ [false] (by decide)] at hmarks
  exact absurd hmarks (by unfold MarkedAtEnd; decide)

theorem marksLastOnly_two_nalus :
    MarksLastOnly (tinyrtcPacketizeFrame (fun _ => true) .h264 20
      [0x00, 0x00, 0x01, 0x67, 0x42, 0x00, 0x00, 0x01, 0x65, 0x88, 0x84, 0x00, 0x10, 0xff, 0xfe,
        0xf6, 0xf0]).callbacks :=
  (marksLastOnly_iff (fun _ => true) .h264 (by decide) _).mpr fun _ =>
    .inr ⟨.inr (by decide), fun _ _ => .inr rfl⟩

end TinyRtc.MarkerPlacement
