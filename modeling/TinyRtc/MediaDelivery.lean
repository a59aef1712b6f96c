import TinyRtc.FrameAssembly
import TinyRtc.MediaSend
import TinyRtc.SecureMedia

namespace TinyRtc.MediaDelivery

open TinyRtc.AnnexB
open TinyRtc.Connection
open TinyRtc.FrameAssembly
open TinyRtc.FuaFragments
open TinyRtc.H264RoundTrip
open TinyRtc.IncomingRtp
open TinyRtc.MarkedRuns
open TinyRtc.MediaCodec
open TinyRtc.MediaSend
open TinyRtc.Negotiation
open TinyRtc.Packetization
open TinyRtc.Rtp
open TinyRtc.Sdp
open TinyRtc.SecureMedia
open TinyRtc.Srtp

/-- What the depacketizer takes for the ends of frames among the packets of an access
unit. -/
def frameEnds (maxPayload maxLen : Nat) (nals : List NalUnit) : List Bool :=
  ((naluCallbacks maxPayload nals).map (depacketized maxLen)).map Prod.fst

theorem frameEnds_ne_nil {nals : List NalUnit} (hne : nals ≠ []) {maxPayload : Nat}
    (hmax : 2 < maxPayload) {maxLen : Nat} (hmaxLen : maxPayload + 4 ≤ maxLen) :
    frameEnds maxPayload maxLen nals ≠ [] := by
  match nals with
  | [] => exact absurd rfl hne
  | [nal] =>
      obtain ⟨n, hflags⟩ := depacketized_nalu_flags nal hmax true hmaxLen
      rw [frameEnds, naluCallbacks, hflags]
      simp
  | nal :: next :: rest =>
      obtain ⟨n, hflags⟩ := depacketized_nalu_flags nal hmax false hmaxLen
      rw [frameEnds, naluCallbacks, List.map_append, List.map_append, hflags]
      simp

/-- The last packet of an access unit alone ends a frame exactly when no other NAL
unit than the last is fragmented. -/
theorem frameEnds_iff {nals : List NalUnit} (hne : nals ≠ []) {maxPayload : Nat}
    (hmax : 2 < maxPayload) {maxLen : Nat} (hmaxLen : maxPayload + 4 ≤ maxLen) :
    MarkedAtEnd (frameEnds maxPayload maxLen nals) ↔
      ∀ nal ∈ nals.dropLast, nal.bytes.length ≤ maxPayload := by
  match nals with
  | [] => exact absurd rfl hne
  | [nal] =>
      obtain ⟨n, hflags⟩ := depacketized_nalu_flags nal hmax true hmaxLen
      rw [frameEnds, naluCallbacks, hflags, markedAtEnd_replicate_iff]
      simp
  | nal :: next :: rest =>
      obtain ⟨n, hflags⟩ := depacketized_nalu_flags nal hmax false hmaxLen
      have hrest := frameEnds_ne_nil (List.cons_ne_nil next rest) hmax hmaxLen
      have ih := frameEnds_iff (List.cons_ne_nil next rest) hmax hmaxLen
      rw [frameEnds] at hrest ih
      rw [frameEnds, naluCallbacks, List.map_append, List.map_append, hflags,
        markedAtEnd_append_iff hrest, ih, List.dropLast_cons_of_ne_nil (List.cons_ne_nil _ _),
        List.forall_mem_cons, Bool.false_or, decide_eq_false_iff_not, Nat.not_lt]

theorem naluCallbacks_piece_ne_nil (nals : List NalUnit) {maxPayload : Nat}
    (hmax : 2 < maxPayload) {maxLen : Nat} (hmaxLen : maxPayload + 4 ≤ maxLen) :
    ∀ callback ∈ naluCallbacks maxPayload nals, (depacketized maxLen callback).2 ≠ [] := by
  match nals with
  | [] => simp [naluCallbacks]
  | [nal] => exact depacketized_nalu_ne_nil nal hmax true hmaxLen
  | nal :: next :: rest =>
      intro callback hcallback
      rcases List.mem_append.mp hcallback with hcallback | hcallback
      · exact depacketized_nalu_ne_nil nal hmax false hmaxLen callback hcallback
      · exact naluCallbacks_piece_ne_nil (next :: rest) hmax hmaxLen callback hcallback

/-- The packets that carry an access unit. -/
def accessUnitPackets (malloc : Nat → Bool) (sequence : UInt16) (timestamp : UInt32)
    (units : List (StartCode × NalUnit)) : List SentPacket :=
  framePackets sequence timestamp
    (tinyrtcPacketizeFrame malloc .h264 sendMtu (accessUnit units)).callbacks

/-- The frame callback is called once, on the last packet, with the whole access
unit. -/
def DeliversAccessUnit (crypto : Crypto) (env : Nat → IncomingEnv) (malloc : Nat → Bool)
    (pc : PeerConnection) (track : Nat) (base : RtpHeader) (sequence : UInt16)
    (timestamp : UInt32) (units : List (StartCode × NalUnit)) : Prop :=
  let packets := accessUnitPackets malloc sequence timestamp units
  (incomingPackets crypto env 0 pc (packets.map (SentPacket.bytes base))).map Prod.snd =
    some (List.replicate (packets.length - 1) [] ++
      [[.videoFrame track (annexB (units.map Prod.snd)) timestamp]])

section

variable (crypto : Crypto) {env : Nat → IncomingEnv} {malloc : Nat → Bool} {pc : PeerConnection}
  {track : Nat} {base : RtpHeader} (sequence : UInt16) (timestamp : UInt32)
  {units : List (StartCode × NalUnit)}

/-- The frame comes out once and whole if the depacketizer sees its end once, in the
last packet. What is left of a frame with another timestamp makes no difference. -/
theorem delivers_iff_markedAtEnd
    (henv : ∀ n, (env n).mallocOk = true ∧ (env n).reallocOk = true)
    (hmalloc : ∀ offset, malloc offset = true) (hb : Buildable base) {run : List SentPacket}
    (hpc : ReceivesVideo base.payloadType track pc run)
    (hother : ∀ packet ∈ run.getLast?, packet.timestamp ≠ timestamp) :
    DeliversAccessUnit crypto env malloc pc track base sequence timestamp units ↔
      MarkedAtEnd (frameEnds 1478 frameBufferSize (units.map Prod.snd)) := by
  have hcallbacks : (tinyrtcPacketizeFrame malloc .h264 sendMtu (accessUnit units)).callbacks =
      naluCallbacks 1478 (units.map Prod.snd) := packetize_accessUnit hmalloc (by decide) units
  rw [DeliversAccessUnit, accessUnitPackets, hcallbacks]
  have hmem : ∀ packet ∈ framePackets sequence timestamp (naluCallbacks 1478 (units.map Prod.snd)),
      packet.piece ≠ [] ∧ packet.endsFrame = packet.endsFrame := by
    intro packet hpacket
    refine ⟨?_, rfl⟩
    have hcallback : packet.callback ∈ naluCallbacks 1478 (units.map Prod.snd) := by
      rw [← map_callback_framePackets sequence timestamp (naluCallbacks _ _)]
      exact List.mem_map_of_mem hpacket
    exact naluCallbacks_piece_ne_nil _ (by decide) (by decide) _ hcallback
  have hends : (framePackets sequence timestamp
      (naluCallbacks 1478 (units.map Prod.snd))).map SentPacket.endsFrame =
        frameEnds 1478 frameBufferSize (units.map Prod.snd) := by
    rw [frameEnds, ← map_callback_framePackets sequence timestamp (naluCallbacks _ _),
      List.map_map, List.map_map, map_callback_framePackets]
    rfl
  rw [incomingPackets_collects crypto henv hb hmem 0 hpc, Option.some.injEq]
  constructor
  · intro hevents
    have hflags := congrArg (List.map fun events : List PcEvent => !events.isEmpty) hevents
    have hsome : (fun events : List PcEvent => !events.isEmpty) ∘
        (fun out => (out.map (frameEvent track)).toList) = Option.isSome := by
      funext out
      cases out <;> rfl
    rw [List.map_map, hsome, collectAll_isSome, List.map_append, List.map_replicate] at hflags
    rw [MarkedAtEnd, ← hends, List.length_map]
    exact hflags
  · intro hmarked
    have hlabel : ∀ packet ∈ framePackets sequence timestamp
        (naluCallbacks 1478 (units.map Prod.snd)), packet.timestamp = timestamp :=
      fun packet hpacket => timestamp_of_mem_framePackets hpacket
    rw [← hends] at hmarked
    have hne : framePackets sequence timestamp (naluCallbacks 1478 (units.map Prod.snd)) ≠ [] :=
      List.map_eq_nil_iff.not.mp hmarked.ne_nil
    have hfinished := (isFinishedRun_iff hlabel).mpr hmarked
    rw [collectAll_of_ne hother hfinished, List.map_append, List.map_replicate,
      List.map_singleton, Option.map_some, frameEvent_eq track hne hlabel,
      map_callback_framePackets, depacketized_naluCallbacks _ (by decide) (by decide)]
    rfl

/-- An access unit comes out once and whole exactly when every NAL unit but the last
fits a packet. -/
theorem deliversAccessUnit_iff
    (henv : ∀ n, (env n).mallocOk = true ∧ (env n).reallocOk = true)
    (hmalloc : ∀ offset, malloc offset = true) (hb : Buildable base)
    (hpc : ReceivesVideo base.payloadType track pc []) (hunits : units ≠ []) :
    DeliversAccessUnit crypto env malloc pc track base sequence timestamp units ↔
      ∀ nal ∈ (units.map Prod.snd).dropLast, nal.bytes.length ≤ 1478 := by
  rw [delivers_iff_markedAtEnd crypto sequence timestamp henv hmalloc hb hpc (by simp)]
  exact frameEnds_iff (by simpa using hunits) (by decide) (by decide)

end

/-- A connection with one remote H264 track. -/
def sampleReceiver : PeerConnection :=
  { tinyrtcPeerConnectionCreate sampleConfig with
    remoteTracks :=
      ⟨[remoteTrackOfMedia { SdpMedia.zero with kind := .video, payloadType := 100 }], by decide⟩ }

def sampleHeader : RtpHeader :=
  ⟨2, false, false, 0, false, 100, 0, 0, 0, []⟩

theorem sampleHeader_buildable : Buildable sampleHeader :=
  ⟨rfl, rfl, rfl, by decide, by decide⟩

theorem sampleReceiver_receivesVideo : ReceivesVideo 100 0 sampleReceiver [] :=
  ⟨rfl, rfl, rfl, _, _, rfl, rfl, rfl, rfl, by decide, ⟨rfl, rfl, by simp, by simp⟩⟩

theorem deliversAccessUnit_sampleReceiver :
    DeliversAccessUnit toyCrypto (fun _ => ⟨1, true, true⟩) (fun _ => true) sampleReceiver 0
      sampleHeader 0xFFFF 9000 [(.long, parameterSet), (.short, slice)] :=
  (deliversAccessUnit_iff toyCrypto 0xFFFF 9000 (fun _ => ⟨rfl, rfl⟩) (fun _ => rfl)
    sampleHeader_buildable sampleReceiver_receivesVideo (List.cons_ne_nil _ _)).mpr (by decide)

/-- A slice of any length. -/
def sliceOfLength (n : Nat) : NalUnit where
  header := 0x65
  data := List.replicate n 0xFF
  type_pos := slice.type_pos
  type_lt := slice.type_lt
  no_start_code := by
    intro h
    have hzero := h.subset List.mem_cons_self
    simp at hzero
  last_ne_zero := by
    cases n with
    | zero => decide
    | succ n => simp [List.getLast_cons, List.replicate_succ']

/-- The end of a fragmented slice is taken for the end of the frame. -/
theorem deliversAccessUnit_fails :
    ¬ DeliversAccessUnit toyCrypto (fun _ => ⟨1, true, true⟩) (fun _ => true) sampleReceiver 0
      sampleHeader 0 9000 [(.long, sliceOfLength 1478), (.long, sliceOfLength 0)] := by
  rw [delivers_iff_markedAtEnd toyCrypto 0 9000 (fun _ => ⟨rfl, rfl⟩) (fun _ => rfl)
    sampleHeader_buildable sampleReceiver_receivesVideo (by simp), List.map_cons,
    frameEnds_iff (List.cons_ne_nil _ _) (by decide) (by decide)]
  intro h
  have hlong := h (sliceOfLength 1478) List.mem_cons_self
  rw [NalUnit.bytes, List.length_cons, sliceOfLength, List.length_replicate] at hlong
  omega

end TinyRtc.MediaDelivery
