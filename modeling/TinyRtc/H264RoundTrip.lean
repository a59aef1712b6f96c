import TinyRtc.FuaFragments

namespace TinyRtc.H264RoundTrip

open TinyRtc.Rtp
open TinyRtc.Packetization
open TinyRtc.AnnexB
open TinyRtc.FuaFragments

theorem buildable_with_marker {header : RtpHeader} (hb : Buildable header) (marker : Bool) :
    Buildable { header with marker := marker } :=
  ⟨hb.version_eq, hb.no_extension, hb.csrcCount_eq, hb.csrcCount_lt, hb.payloadType_lt⟩

theorem headerLen_le {header : RtpHeader} (hb : Buildable header) :
    12 + 4 * header.csrc.length ≤ rtpBufferSize := by
  have hlt := UInt8.lt_iff_toNat_lt.mp hb.csrcCount_lt
  have hcount := hb.csrcCount_eq
  change header.csrcCount.toNat < 16 at hlt
  rw [rtpBufferSize]
  omega

/-- The RTP headers are transparent to the depacketizer. -/
theorem depacketize_rtpPackets (header : Nat → RtpHeader) (hb : ∀ i, Buildable (header i))
    (callbacks : List PacketCallback) (maxLen : Nat) :
    (rtpPackets header callbacks).map (fun packet =>
      tinyrtcDepacketizeFrame .h264 packet maxLen) = callbacks.map (depacketized maxLen) := by
  induction callbacks generalizing header with
  | nil => rfl
  | cons callback rest ih =>
      have hfirst := buildable_with_marker (hb 0) callback.marker
      have hbuild := depacketize_build hfirst (headerLen_le hfirst) callback.payload maxLen
      have hrest := ih (fun i => header (i + 1)) fun i => hb (i + 1)
      rw [rtpPackets, List.mapIdx_cons, List.map_cons, hbuild, List.map_cons]
      exact congrArg _ hrest

theorem depacketized_naluCallbacks (nals : List NalUnit) {maxPayload : Nat}
    (hmax : 2 < maxPayload) {maxLen : Nat} (hmaxLen : maxPayload + 4 ≤ maxLen) :
    ((naluCallbacks maxPayload nals).map (depacketized maxLen)).flatMap Prod.snd =
      annexB nals := by
  match nals with
  | [] => rfl
  | [nal] =>
      rw [naluCallbacks, depacketized_nalu nal hmax true hmaxLen]
      simp [annexB]
  | nal :: next :: rest =>
      have hrest := depacketized_naluCallbacks (next :: rest) hmax hmaxLen
      rw [naluCallbacks, List.map_append, List.flatMap_append,
        depacketized_nalu nal hmax false hmaxLen, hrest]
      simp [annexB]

/-- Packetizing and depacketizing an access unit gives back its NAL units, each
behind a long start code. -/
theorem depacketize_accessUnit {malloc : Nat → Bool} (hmalloc : ∀ offset, malloc offset = true)
    {mtu : UInt32} (hmtu : 20 ≤ mtu) (units : List (StartCode × NalUnit))
    {header : Nat → RtpHeader} (hheader : ∀ i, Buildable (header i)) {maxLen : Nat}
    (hmaxLen : mtu.toNat ≤ maxLen + 8) :
    (rtpPackets header
      (tinyrtcPacketizeFrame malloc .h264 mtu (accessUnit units)).callbacks).flatMap
        (fun packet => (tinyrtcDepacketizeFrame .h264 packet maxLen).2) =
      annexB (units.map Prod.snd) := by
  have hmtu' : 20 ≤ mtu.toNat := UInt32.le_iff_toNat_le.mp hmtu
  have hsplit : ∀ packets : List (List UInt8),
      packets.flatMap (fun packet => (tinyrtcDepacketizeFrame .h264 packet maxLen).2) =
        (packets.map fun packet => tinyrtcDepacketizeFrame .h264 packet maxLen).flatMap
          Prod.snd := by
    intro packets
    rw [List.flatMap_map]
  rw [hsplit, depacketize_rtpPackets header hheader, packetize_accessUnit hmalloc hmtu,
    depacketized_naluCallbacks _ (by omega) (by omega)]

/-- Parameter sets as an encoder emits them: they fit any packet. -/
def parameterSet : NalUnit where
  header := 0x67
  data := [0x42, 0x00, 0x00, 0x03]
  type_pos := by decide
  type_lt := by decide
  no_start_code := by decide
  last_ne_zero := by decide

/-- A slice of ten bytes, too long for the smallest packets. -/
def slice : NalUnit where
  header := 0x65
  data := [0x88, 0x00, 0x00, 0x02, 0x00, 0x00, 0x00, 0x02, 0x07]
  type_pos := by decide
  type_lt := by decide
  no_start_code := by decide
  last_ne_zero := by decide

theorem depacketize_accessUnit_smallest_mtu :
    (rtpPackets (fun i => ⟨2, false, false, 0, false, 96, i.toUInt16, 9000, 0, []⟩)
      (tinyrtcPacketizeFrame (fun _ => true) .h264 20
        (accessUnit [(.long, parameterSet), (.short, slice)])).callbacks).flatMap
          (fun packet => (tinyrtcDepacketizeFrame .h264 packet 12).2) =
      annexB [parameterSet, slice] :=
  depacketize_accessUnit (fun _ => rfl) (by decide) [(.long, parameterSet), (.short, slice)]
    (fun _ => ⟨rfl, rfl, rfl, by simp, by simp⟩) (by decide)

end TinyRtc.H264RoundTrip
