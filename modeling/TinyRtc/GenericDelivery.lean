import TinyRtc.FrameAssembly
import TinyRtc.GenericChunks
import TinyRtc.MediaSend
import TinyRtc.SecureMedia

namespace TinyRtc.GenericDelivery

open TinyRtc.Chunking
open TinyRtc.Connection
open TinyRtc.FrameAssembly
open TinyRtc.GenericChunks
open TinyRtc.H264RoundTrip
open TinyRtc.IncomingRtp
open TinyRtc.Jitter
open TinyRtc.MediaCodec
open TinyRtc.MediaSend
open TinyRtc.Negotiation
open TinyRtc.Packetization
open TinyRtc.Rtp
open TinyRtc.Sdp
open TinyRtc.SecureMedia
open TinyRtc.Srtp

/-- The frame callback of a kind of track. -/
def kindFrameEvent (kind : TrackKind) (track : Nat) (frame : List UInt8) (timestamp : UInt32) :
    PcEvent :=
  match kind with
  | .audio => .audioFrame track frame timestamp
  | .video => .videoFrame track frame timestamp

/-- The frame callback of a kind of track is set. -/
def ObservesKind (observer : PcObserver) : TrackKind → Prop
  | .audio => observer.onAudioFrame = true
  | .video => observer.onVideoFrame = true

/-- Track `i` receives this payload type, in a codec without a payload format of its own. -/
structure ReceivesGeneric (payloadType : UInt8) (codecId : CodecId) (kind : TrackKind) (i : Nat)
    (pc : PeerConnection) : Prop where
  plain : pc.srtpRx = none
  observed : ObservesKind pc.config.observer kind
  matched : matchTrack pc payloadType = some i
  track : ∃ track jb, pc.remoteTracks.items[i]? = some track ∧ track.kind = kind ∧
    track.codecId = codecId ∧ track.jitterBuffer = some jb ∧ jb.config.bufferSize ≠ 0

theorem frameEvents_of_observes {observer : PcObserver} {kind : TrackKind}
    (h : ObservesKind observer kind) (track : Nat) (frame : List UInt8) (timestamp : UInt32) :
    frameEvents observer kind track frame timestamp =
      [kindFrameEvent kind track frame timestamp] := by
  cases kind with
  | audio => exact if_pos h
  | video => exact if_pos h

theorem depacketize_generic {base : RtpHeader} (hb : Buildable base) (packet : SentPacket)
    {codecId : CodecId} (hcodec : codecId ≠ .h264) {maxLen : Nat}
    (hmax : packet.callback.payload.length ≤ maxLen) :
    tinyrtcDepacketizeFrame codecId (packet.bytes base) maxLen =
      (packet.marker, packet.callback.payload) := by
  have hheader : Buildable (packet.header base) :=
    ⟨hb.version_eq, hb.no_extension, hb.csrcCount_eq, hb.csrcCount_lt, hb.payloadType_lt⟩
  have hfits := headerLen_le hheader
  rw [tinyrtcDepacketizeFrame, SentPacket.bytes, parse_build hheader hfits]
  simp only [getPayload_build hheader hfits, List.drop_left]
  cases codecId with
  | h264 => exact absurd rfl hcodec
  | _ => exact if_neg (Nat.not_lt.mpr hmax)

section

variable {crypto : Crypto} {base : RtpHeader} {codecId : CodecId} {kind : TrackKind} {i : Nat}
  {pc : PeerConnection}

/-- A packet with the marker is handed over as a frame of its own; any other is dropped. -/
theorem pcProcessIncomingRtp_generic {env : IncomingEnv} (hmalloc : env.mallocOk = true)
    (hb : Buildable base) (hcodec : codecId ≠ .h264)
    (hpc : ReceivesGeneric base.payloadType codecId kind i pc) {packet : SentPacket}
    (hlen : packet.callback.payload.length ≤ frameBufferSize) :
    ∃ pc', pcProcessIncomingRtp crypto env pc (packet.bytes base) =
        some (.ok, pc', if packet.marker then
          [kindFrameEvent kind i packet.callback.payload packet.timestamp] else []) ∧
      ReceivesGeneric base.payloadType codecId kind i pc' := by
  obtain ⟨track, jb, htrack, hkind, htrackCodec, hjb, hsize⟩ := hpc.track
  obtain ⟨hparse, -⟩ := SentPacket.receives hb packet
  obtain ⟨jb', hadd, hconfig⟩ := addPacket_ok hsize hparse env.now
  have hdepacketize := depacketize_generic hb packet hcodec hlen
  have hmatched : matchTrack pc (packet.header base).payloadType = some i := hpc.matched
  have htimestamp : (packet.header base).timestamp = packet.timestamp := rfl
  rw [pcProcessIncomingRtp, hpc.plain]
  simp only [processPlainRtp, hparse, hmatched, htrack, hjb, hmalloc, hadd, Option.map_some,
    ne_eq, not_true_eq_false, if_false, processTrackPacket, htrackCodec, hdepacketize, hcodec,
    and_false, Bool.not_true, Bool.false_eq_true]
  have hafter : ∀ framesReceived, ReceivesGeneric base.payloadType codecId kind i
      (setRemoteTrack pc i { track with
        codecId := codecId
        jitterBuffer := some jb'
        packetsReceived := track.packetsReceived + 1
        framesReceived := framesReceived }) := by
    intro framesReceived
    refine ⟨hpc.plain, hpc.observed, ?_, _, jb',
      List.getElem?_set_self (List.getElem?_eq_some_iff.mp htrack).1, hkind, rfl, rfl, ?_⟩
    · refine Eq.trans (matchTrack_setRemoteTrack htrack ?_ _) hpc.matched
      rfl
    · rw [hconfig]
      exact hsize
  cases packet.marker with
  | true =>
      refine ⟨_, congrArg some (Prod.ext rfl (Prod.ext rfl ?_)),
        hafter (track.framesReceived + 1)⟩
      simp only [if_true, if_false, Bool.not_true, Bool.false_eq_true, hkind]
      exact frameEvents_of_observes hpc.observed i _ _
  | false => exact ⟨_, rfl, hafter track.framesReceived⟩

theorem incomingPackets_generic {env : Nat → IncomingEnv}
    (henv : ∀ n, (env n).mallocOk = true) (hb : Buildable base) (hcodec : codecId ≠ .h264)
    {packets : List SentPacket}
    (hlen : ∀ packet ∈ packets, packet.callback.payload.length ≤ frameBufferSize) (n : Nat)
    (hpc : ReceivesGeneric base.payloadType codecId kind i pc) :
    (incomingPackets crypto env n pc (packets.map (SentPacket.bytes base))).map Prod.snd =
      some (packets.map fun packet => if packet.marker then
        [kindFrameEvent kind i packet.callback.payload packet.timestamp] else []) := by
  induction packets generalizing n pc with
  | nil => rfl
  | cons packet packets ih =>
      rw [List.forall_mem_cons] at hlen
      obtain ⟨pc', hprocess, hnext⟩ := @pcProcessIncomingRtp_generic crypto _ _ _ _ _ _ (henv n)
        hb hcodec hpc _ hlen.1
      obtain ⟨⟨last, events⟩, hincoming, hevents⟩ :=
        Option.map_eq_some_iff.mp (ih hlen.2 (n + 1) hnext)
      rw [List.map_cons, incomingPackets, hprocess, Option.bind_some]
      simp only [hincoming, Option.map_some, List.map_cons]
      exact congrArg (fun events => some (_ :: events)) hevents

/-- The callbacks that the packets of a frame raise at the receiver, in order. -/
def deliveredFrames (crypto : Crypto) (env : Nat → IncomingEnv) (malloc : Nat → Bool)
    (codecId : CodecId) (pc : PeerConnection) (base : RtpHeader) (sequence : UInt16)
    (timestamp : UInt32) (frame : List UInt8) : Option (List PcEvent) :=
  let packets := framePackets sequence timestamp
    (tinyrtcPacketizeFrame malloc codecId sendMtu frame).callbacks
  (incomingPackets crypto env 0 pc (packets.map (SentPacket.bytes base))).map fun result =>
    result.2.flatten

/-- Only the last chunk of a frame arrives. -/
theorem deliveredFrames_eq {env : Nat → IncomingEnv} (henv : ∀ n, (env n).mallocOk = true)
    (malloc : Nat → Bool) (hb : Buildable base) (hcodec : codecId ≠ .h264)
    (hpc : ReceivesGeneric base.payloadType codecId kind i pc) (sequence : UInt16)
    (timestamp : UInt32) {frame : List UInt8} (hframe : frame ≠ []) :
    ∃ chunks last, IsChunking 1478 (chunks ++ [last]) ∧ (chunks ++ [last]).flatten = frame ∧
      deliveredFrames crypto env malloc codecId pc base sequence timestamp frame =
        some [kindFrameEvent kind i last timestamp] := by
  obtain ⟨chunks, hchunks, hflatten, hpacketized⟩ :=
    @packetize_generic malloc _ hcodec sendMtu (by decide) frame
  change IsChunking 1478 chunks at hchunks
  rcases List.eq_nil_or_concat chunks with rfl | ⟨chunks, last, rfl⟩
  · exact absurd hflatten.symm hframe
  · rw [List.concat_eq_append] at *
    refine ⟨chunks, last, hchunks, hflatten, ?_⟩
    have hcallbacks := map_callback_framePackets sequence timestamp
      (chunkCallbacks (chunks ++ [last]))
    have hlen : ∀ packet ∈ framePackets sequence timestamp (chunkCallbacks (chunks ++ [last])),
        packet.callback.payload.length ≤ frameBufferSize := by
      intro packet hmem
      have hcallback := List.mem_map_of_mem (f := SentPacket.callback) hmem
      rw [hcallbacks] at hcallback
      have hpayload := List.mem_map_of_mem (f := PacketCallback.payload) hcallback
      rw [chunkCallbacks_payloads] at hpayload
      exact (hchunks.length_le_of_mem hpayload).trans (by decide)
    have hincoming := @incomingPackets_generic crypto _ _ _ _ _ _ henv hb hcodec _ hlen 0 hpc
    obtain ⟨⟨pc', events⟩, hresult, hevents⟩ := Option.map_eq_some_iff.mp hincoming
    rw [deliveredFrames, hpacketized]
    dsimp only at hevents ⊢
    rw [hresult, Option.map_some, hevents]
    -- the events depend on the callbacks alone, since all packets have one timestamp
    have hmap : (framePackets sequence timestamp (chunkCallbacks (chunks ++ [last]))).map
        (fun packet => if packet.marker then
          [kindFrameEvent kind i packet.callback.payload packet.timestamp] else []) =
        (chunkCallbacks (chunks ++ [last])).map fun callback => if callback.marker then
          [kindFrameEvent kind i callback.payload timestamp] else [] := by
      conv_rhs => rw [← hcallbacks, List.map_map]
      refine List.map_congr_left fun packet hmem => ?_
      rw [timestamp_of_mem_framePackets hmem]
      rfl
    rw [hmap, chunkCallbacks_concat]
    simp [Function.comp_def]

/-- The frame comes out exactly when it is its own last chunk. -/
theorem last_chunk_eq_iff {chunks : List (List UInt8)} {last frame : List UInt8}
    (hchunks : IsChunking 1478 (chunks ++ [last])) (hflatten : (chunks ++ [last]).flatten = frame) :
    last = frame ↔ frame.length ≤ 1478 := by
  constructor
  · rintro rfl
    exact (isChunking_append_singleton_iff.mp hchunks).2.2
  · intro hshort
    cases chunks with
    | nil => rw [← hflatten, List.nil_append, List.flatten_singleton]
    | cons chunk chunks =>
        obtain ⟨next, rest, hsplit⟩ : ∃ next rest, chunks ++ [last] = next :: rest :=
          List.exists_cons_of_ne_nil (by simp)
        rw [List.cons_append, hsplit] at hchunks hflatten
        have hlong := hchunks.length_lt_flatten (by decide)
        rw [hflatten] at hlong
        omega

/-- A frame arrives whole exactly when it fits into one packet. -/
theorem delivers_generic_iff {env : Nat → IncomingEnv} (henv : ∀ n, (env n).mallocOk = true)
    (malloc : Nat → Bool) (hb : Buildable base) (hcodec : codecId ≠ .h264)
    (hpc : ReceivesGeneric base.payloadType codecId kind i pc) (sequence : UInt16)
    (timestamp : UInt32) {frame : List UInt8} (hframe : frame ≠ []) :
    deliveredFrames crypto env malloc codecId pc base sequence timestamp frame =
        some [kindFrameEvent kind i frame timestamp] ↔ frame.length ≤ 1478 := by
  obtain ⟨chunks, last, hchunks, hflatten, hdelivered⟩ := @deliveredFrames_eq crypto _ _ _ _ _ _
    henv malloc hb hcodec hpc sequence timestamp _ hframe
  rw [hdelivered, ← last_chunk_eq_iff hchunks hflatten, Option.some.injEq, List.cons.injEq,
    and_iff_left rfl]
  cases kind <;> simp [kindFrameEvent]

end

/-- A connection with one remote PCMU track. -/
def sampleAudioReceiver : PeerConnection :=
  { tinyrtcPeerConnectionCreate sampleConfig with
    remoteTracks :=
      ⟨[remoteTrackOfMedia { SdpMedia.zero with
        kind := .audio
        codecId := .pcmu
        payloadType := 0 }], by decide⟩ }

def sampleAudioHeader : RtpHeader :=
  ⟨2, false, false, 0, false, 0, 0, 0, 0, []⟩

theorem sampleAudioHeader_buildable : Buildable sampleAudioHeader :=
  ⟨rfl, rfl, rfl, by decide, by decide⟩

theorem sampleAudioReceiver_receives :
    ReceivesGeneric 0 .pcmu .audio 0 sampleAudioReceiver :=
  ⟨rfl, rfl, rfl, _, _, rfl, rfl, rfl, rfl, by decide⟩

/-- One byte more than a packet holds: only that byte arrives. -/
theorem delivers_generic_fails :
    deliveredFrames toyCrypto (fun _ => ⟨1, true, true⟩) (fun _ => true) .pcmu sampleAudioReceiver
        sampleAudioHeader 0 160 (List.replicate 1479 0xD5) ≠
      some [.audioFrame 0 (List.replicate 1479 0xD5) 160] := by
  obtain ⟨chunks, last, hchunks, hflatten, hdelivered⟩ :=
    @deliveredFrames_eq toyCrypto _ _ _ _ _ (fun _ => ⟨1, true, true⟩) (fun _ => rfl)
      (fun _ => true) sampleAudioHeader_buildable (by decide) sampleAudioReceiver_receives 0 160
      (List.replicate 1479 0xD5)
      (List.ne_nil_of_length_pos (by rw [List.length_replicate]; omega))
  intro hwhole
  rw [hdelivered, Option.some.injEq, List.cons.injEq] at hwhole
  have hlast : last = List.replicate 1479 0xD5 := by
    cases hwhole.1
    rfl
  have hshort := (last_chunk_eq_iff hchunks hflatten).mp hlast
  rw [List.length_replicate] at hshort
  omega

theorem delivers_generic_sampleAudioReceiver :
    deliveredFrames toyCrypto (fun _ => ⟨1, true, true⟩) (fun _ => true) .pcmu sampleAudioReceiver
        sampleAudioHeader 0xFFFF 160 (List.replicate 160 0xD5) =
      some [.audioFrame 0 (List.replicate 160 0xD5) 160] :=
  (@delivers_generic_iff toyCrypto _ _ .audio _ _ _ (fun _ => rfl) (fun _ => true)
    sampleAudioHeader_buildable (by decide) sampleAudioReceiver_receives 0xFFFF 160 _
    (List.ne_nil_of_length_pos (by rw [List.length_replicate]; omega))).mpr
    (by rw [List.length_replicate]; omega)

end TinyRtc.GenericDelivery
