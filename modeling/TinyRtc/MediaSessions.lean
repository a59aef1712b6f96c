import TinyRtc.GenericDelivery
import TinyRtc.MediaDelivery
import TinyRtc.SecureSession

namespace TinyRtc.MediaSessions

open TinyRtc.AnnexB
open TinyRtc.BigEndian
open TinyRtc.Common
open TinyRtc.Connection
open TinyRtc.FrameAssembly
open TinyRtc.GenericDelivery
open TinyRtc.H264RoundTrip
open TinyRtc.IncomingRtp
open TinyRtc.LabelledRuns
open TinyRtc.MediaDelivery
open TinyRtc.MediaSend
open TinyRtc.Packetization
open TinyRtc.PacketizerBounds
open TinyRtc.ProcessEvents
open TinyRtc.Rtp
open TinyRtc.Sdp
open TinyRtc.SecureSession
open TinyRtc.SendResults
open TinyRtc.SendSteps
open TinyRtc.SessionKeys
open TinyRtc.Srtp
open TinyRtc.SrtpRoundTrip

/-- The payload type in the packets of a track, of which seven bits leave. -/
def sentPayloadType (track : Track) : UInt8 :=
  track.payloadType.toUInt32.toUInt8 &&& 0x7F

/-- What the headers of a track's packets share. -/
def baseHeader (track : Track) : RtpHeader :=
  { sentHeader track 0 0 false with payloadType := sentPayloadType track }

theorem baseHeader_buildable (track : Track) : Buildable (baseHeader track) :=
  ⟨rfl, rfl, rfl, (by decide : (0 : UInt8) < 16),
    (payloadType_bits track.payloadType.toUInt32.toUInt8).1⟩

theorem plainPacket_eq (track : Track) (timestamp : UInt32) (sequence : UInt16)
    (callback : PacketCallback) :
    plainPacket track timestamp sequence callback =
      SentPacket.bytes (baseHeader track) ⟨sequence, timestamp, callback⟩ := by
  obtain ⟨-, hmask⟩ := payloadType_bits track.payloadType.toUInt32.toUInt8
  rw [plainPacket, SentPacket.bytes, tinyrtcRtpBuildHeader, tinyrtcRtpBuildHeader]
  simp only [SentPacket.header, baseHeader, sentPayloadType, sentHeader, hmask]
  rfl

theorem framePackets_cons (sequence : UInt16) (timestamp : UInt32) (callback : PacketCallback)
    (callbacks : List PacketCallback) :
    FrameAssembly.framePackets sequence timestamp (callback :: callbacks) =
      ⟨sequence, timestamp, callback⟩ ::
        FrameAssembly.framePackets (sequence + 1) timestamp callbacks := by
  rw [FrameAssembly.framePackets, List.mapIdx_cons, FrameAssembly.framePackets]
  have hfirst : sequence + (0 : Nat).toUInt16 = sequence := UInt16.add_zero sequence
  rw [hfirst]
  refine congrArg (fun rest => _ :: rest)
    (congrArg (fun f => callbacks.mapIdx f) (funext fun i => funext fun later => ?_))
  have hnext : (i + 1).toUInt16 = i.toUInt16 + 1 := UInt16.ofNat_add i 1
  rw [hnext, UInt16.add_comm i.toUInt16, UInt16.add_assoc]

/-- The packets among the events of a call. -/
def sentPackets (events : List PcEvent) : List (List UInt8) :=
  events.filterMap fun event =>
    match event with
    | .rtp _ packet _ => some packet
    | _ => none

section

variable {crypto : Crypto} {keys : Bytes 16 × Bytes 14} {pc : PeerConnection}

/-- What has been handed over for a frame carries the packets of the frame, one by one. -/
theorem Handed.carries {track : Track} {timestamp : UInt32} {sequence : UInt16}
    {srtp : Option SrtpContext} {callbacks : List PacketCallback} {events : List PcEvent}
    (h : Handed crypto pc track timestamp sequence srtp callbacks events)
    (hkeys : srtp.map keysOf = some keys) :
    List.Forall₂ (Carries crypto keys)
      ((FrameAssembly.framePackets sequence timestamp callbacks).map
        (SentPacket.bytes (baseHeader track)))
      (sentPackets events) := by
  induction h with
  | nil => exact .nil
  | cons hdest hpacket hrest ih =>
      rw [framePackets_cons, List.map_cons, ← plainPacket_eq]
      obtain ⟨context, rfl, hcontext⟩ := Option.map_eq_some_iff.mp hkeys
      obtain ⟨next, hencrypts, rfl⟩ := hpacket
      have hnext : (some next).map keysOf = some keys := by
        rw [Option.map_some, Encrypts.keysOf_eq hencrypts, hcontext]
      exact .cons ⟨context, next, hcontext, hencrypts⟩ (ih hnext)

/-- The callbacks for protected packets are those for the packets that they carry. -/
theorem incomingPackets_carried {sending : Bytes 16 × Bytes 14} {plains packets : List (List UInt8)}
    (h : List.Forall₂ (Carries crypto keys) plains packets) (env : Nat → IncomingEnv) (n : Nat)
    (hpc : Secured sending keys pc) :
    (incomingPackets crypto env n pc packets).map Prod.snd =
      (incomingPackets crypto env n { pc with srtpRx := none } plains).map Prod.snd := by
  induction h generalizing n pc with
  | nil => rfl
  | @cons plain packet plains packets hcarries _ ih =>
      obtain ⟨srtpRx, hkeys, hprocess⟩ := pcProcessIncomingRtp_carried hcarries hpc
      have hplain : pcProcessIncomingRtp crypto (env n) { pc with srtpRx := none } plain =
          processPlainRtp (env n) { pc with srtpRx := none } plain := rfl
      rw [incomingPackets, incomingPackets, hprocess, hplain,
        processPlainRtp_srtpRx (env n) pc none plain]
      cases hresult : processPlainRtp (env n) pc plain with
      | none => rfl
      | some result =>
          obtain ⟨err, pc', events⟩ := result
          obtain ⟨⟨remoteTracks, rfl⟩, -⟩ := CallEffects.processPlainRtp_cases hresult
          have hnext : Secured sending keys
              { pc with remoteTracks := remoteTracks, srtpRx := some srtpRx } :=
            ⟨hpc.initialized, hpc.sends, congrArg some hkeys⟩
          have hrest := congrArg (Option.map (events :: ·)) (ih (n + 1) hnext)
          rw [Option.map_map, Option.map_map] at hrest
          rw [Option.map_some, Option.map_some, Option.bind_some, Option.bind_some, Option.map_map,
            Option.map_map]
          exact hrest

end

/-- Two connections at any time after both have set up SRTP with one secret, whatever has been
called on them since. -/
inductive Linked (crypto : Crypto) (hostOrder : UInt32 → List UInt8) :
    PeerConnection → PeerConnection → Prop
  | setUp {secret : Bytes 48} {a b a' b' : PeerConnection}
      {historyA historyB : List (PcCall × List PcEvent)} (ha : HasSecret a secret)
      (hb : HasSecret b secret) (hroles : b.config.isInitiator = !a.config.isInitiator)
      (hrunA : Run (PcStep crypto hostOrder)
        (pcInitializeSrtpAfterDtls crypto hostOrder setupEnv a).2 historyA a')
      (hrunB : Run (PcStep crypto hostOrder)
        (pcInitializeSrtpAfterDtls crypto hostOrder setupEnv b).2 historyB b') :
      Linked crypto hostOrder a' b'

theorem Linked.secured {crypto : Crypto} {hostOrder : UInt32 → List UInt8} {a b : PeerConnection}
    (h : Linked crypto hostOrder a b) :
    ∃ first second, Secured first second a ∧ Secured second first b := by
  obtain ⟨ha, hb, hroles, hrunA, hrunB⟩ := h
  obtain ⟨first, second, hfirst, hsecond⟩ :=
    pcInitializeSrtpAfterDtls_secured crypto hostOrder ha hb hroles
  exact ⟨first, second, secured_run hfirst hrunA, secured_run hsecond hrunB⟩

/-- The frame is not refused, and every packet of it reaches the network. -/
structure SendsWhole (env : SendEnv) (pc : PeerConnection) (place : Nat) (track : Track)
    (frame : List UInt8) : Prop where
  track_eq : pc.localTracks.items[place]? = some track
  isLocal : track.isLocal = true
  ready : pcIsSecureMediaReady pc = true
  malloc : ∀ offset, env.malloc offset = true
  taken : ∀ i, env.sent i = true
  remote : (remoteAddr pc).isSome = true

section

variable {crypto : Crypto} {hostOrder : UInt32 → List UInt8} {a b : PeerConnection}
  {env : SendEnv} {place : Nat} {track : Track} {frame : List UInt8}

/-- The frame's packets leave in order, each protected with the keys of the sender. -/
theorem SendsWhole.carries {keys receiving : Bytes 16 × Bytes 14}
    (h : SendsWhole env a place track frame) (ha : Secured keys receiving a)
    (timestamp : UInt32) :
    ∃ a' events, trackSendFrame crypto env a place frame timestamp = some (.ok, a', events) ∧
      List.Forall₂ (Carries crypto keys)
        ((FrameAssembly.framePackets track.nextSequence timestamp
          (tinyrtcPacketizeFrame (fun _ => true) track.codecId sendMtu frame).callbacks).map
            (SentPacket.bytes (baseHeader track)))
        (sentPackets events) := by
  have hmalloc : env.malloc = fun _ => true := funext h.malloc
  obtain ⟨a', events, hsend, htruthful⟩ :=
    truthful_sent env frame crypto timestamp h.track_eq h.isLocal h.ready
  have htaken : EveryPacketTaken env a place frame := by
    rw [everyPacketTaken_iff h.track_eq h.isLocal h.ready, hmalloc]
    exact ⟨rfl, fun i _ => ⟨h.taken i, h.remote⟩⟩
  exact ⟨a', events, hsend,
    Handed.carries (htruthful.mpr htaken track h.track_eq (.inl rfl)) ha.sends⟩

theorem SendsWhole.accessUnit_iff {first second : Bytes 16 × Bytes 14}
    {units : List (StartCode × NalUnit)} {incoming : Nat → IncomingEnv} {i : Nat}
    {left : List SentPacket}
    (hsends : SendsWhole env a place track (accessUnit units)) (ha : Secured first second a)
    (hb : Secured second first b) (hcodec : track.codecId = .h264)
    (hincoming : ∀ n, (incoming n).mallocOk = true ∧ (incoming n).reallocOk = true)
    (hreceives : ReceivesVideo (sentPayloadType track) i { b with srtpRx := none } left)
    (hunits : units ≠ []) {timestamp : UInt32}
    (hother : ∀ packet ∈ left.getLast?, packet.timestamp ≠ timestamp) :
    ∃ a' events,
      trackSendFrame crypto env a place (accessUnit units) timestamp = some (.ok, a', events) ∧
      ((incomingPackets crypto incoming 0 b (sentPackets events)).map Prod.snd =
          some (List.replicate ((sentPackets events).length - 1) [] ++
            [[.videoFrame i (annexB (units.map Prod.snd)) timestamp]]) ↔
        ∀ nal ∈ (units.map Prod.snd).dropLast, nal.bytes.length ≤ 1478) := by
  obtain ⟨a', events, hsend, hcarries⟩ :=
    @SendsWhole.carries crypto _ _ _ _ _ _ _ hsends ha timestamp
  refine ⟨a', events, hsend, ?_⟩
  rw [hcodec] at hcarries
  have hlength := hcarries.length_eq
  rw [List.length_map] at hlength
  rw [incomingPackets_carried hcarries incoming 0 hb, ← hlength]
  exact (delivers_iff_markedAtEnd crypto track.nextSequence timestamp hincoming (fun _ => rfl)
    (baseHeader_buildable track) hreceives hother).trans
      (frameEnds_iff (by simpa using hunits) (by decide) (by decide))

/-- An access unit from one connection to the other, over the network in order: the frame callback
is called once and with the whole of it, exactly when every NAL unit but the last fits a packet.
Of a frame with another timestamp something may be left at the receiver. -/
theorem accessUnit_arrives_iff {units : List (StartCode × NalUnit)} {incoming : Nat → IncomingEnv}
    {i : Nat} {left : List SentPacket} (hlinked : Linked crypto hostOrder a b)
    (hsends : SendsWhole env a place track (accessUnit units)) (hcodec : track.codecId = .h264)
    (hincoming : ∀ n, (incoming n).mallocOk = true ∧ (incoming n).reallocOk = true)
    (hreceives : ReceivesVideo (sentPayloadType track) i { b with srtpRx := none } left)
    (hunits : units ≠ []) {timestamp : UInt32}
    (hother : ∀ packet ∈ left.getLast?, packet.timestamp ≠ timestamp) :
    ∃ a' events,
      trackSendFrame crypto env a place (accessUnit units) timestamp = some (.ok, a', events) ∧
      ((incomingPackets crypto incoming 0 b (sentPackets events)).map Prod.snd =
          some (List.replicate ((sentPackets events).length - 1) [] ++
            [[.videoFrame i (annexB (units.map Prod.snd)) timestamp]]) ↔
        ∀ nal ∈ (units.map Prod.snd).dropLast, nal.bytes.length ≤ 1478) := by
  obtain ⟨first, second, ha, hb⟩ := hlinked.secured
  exact hsends.accessUnit_iff ha hb hcodec hincoming hreceives hunits hother

end

/-- One of the two sample connections, with SRTP set up. -/
def linkedPeer (isInitiator : Bool) : PeerConnection :=
  (pcInitializeSrtpAfterDtls toyCrypto write32 setupEnv (linkedConnection isInitiator)).2

theorem linkedPeers_linked : Linked toyCrypto write32 (linkedPeer true) (linkedPeer false) :=
  .setUp (linkedConnection_hasSecret true) (linkedConnection_hasSecret false) rfl (.nil _) (.nil _)

theorem linkedPeer_sendsVideo (frame : List UInt8) :
    SendsWhole ⟨fun _ => true, fun _ => true⟩ (linkedPeer true) 0 linkedVideoTrack frame :=
  ⟨rfl, rfl, by decide +kernel, fun _ => rfl, fun _ => rfl, by decide +kernel⟩

theorem linkedPeer_sendsAudio (frame : List UInt8) :
    SendsWhole ⟨fun _ => true, fun _ => true⟩ (linkedPeer true) 1 linkedAudioTrack frame :=
  ⟨rfl, rfl, by decide +kernel, fun _ => rfl, fun _ => rfl, by decide +kernel⟩

theorem linkedPeer_receivesVideo :
    ReceivesVideo (sentPayloadType linkedVideoTrack) 0
      { linkedPeer false with srtpRx := none } [] :=
  ⟨rfl, rfl, rfl, _, _, rfl, rfl, rfl, rfl, by decide, ⟨rfl, rfl, by simp, by simp⟩⟩

theorem linkedPeer_receivesGeneric :
    ReceivesGeneric (sentPayloadType linkedAudioTrack) linkedAudioTrack.codecId .audio 1
      { linkedPeer false with srtpRx := none } :=
  ⟨rfl, rfl, rfl, _, _, rfl, rfl, rfl, rfl, by decide⟩

theorem accessUnit_arrives_linkedPeer :
    ∃ a' events,
      trackSendFrame toyCrypto ⟨fun _ => true, fun _ => true⟩ (linkedPeer true) 0
        (accessUnit [(.long, parameterSet), (.short, slice)]) 9000 = some (.ok, a', events) ∧
      (incomingPackets toyCrypto (fun _ => ⟨1, true, true⟩) 0 (linkedPeer false)
        (sentPackets events)).map Prod.snd =
          some (List.replicate ((sentPackets events).length - 1) [] ++
            [[.videoFrame 0 (annexB [parameterSet, slice]) 9000]]) := by
  have hincoming : ∀ n, ((fun _ => ⟨1, true, true⟩ : Nat → IncomingEnv) n).mallocOk = true ∧
      ((fun _ => ⟨1, true, true⟩ : Nat → IncomingEnv) n).reallocOk = true :=
    fun _ => ⟨rfl, rfl⟩
  obtain ⟨a', events, hsend, hiff⟩ := accessUnit_arrives_iff linkedPeers_linked
    (linkedPeer_sendsVideo (accessUnit [(.long, parameterSet), (.short, slice)])) rfl hincoming
    linkedPeer_receivesVideo (List.cons_ne_nil _ _) (by simp)
  exact ⟨a', events, hsend, hiff.mpr (by decide)⟩

section

variable {crypto : Crypto} {hostOrder : UInt32 → List UInt8} {a b : PeerConnection}
  {env : SendEnv} {place : Nat} {track : Track} {frame : List UInt8}

theorem SendsWhole.genericFrame_iff {first second : Bytes 16 × Bytes 14}
    {incoming : Nat → IncomingEnv} {kind : TrackKind} {i : Nat}
    (hsends : SendsWhole env a place track frame) (ha : Secured first second a)
    (hb : Secured second first b) (hcodec : track.codecId ≠ .h264)
    (hincoming : ∀ n, (incoming n).mallocOk = true)
    (hreceives : ReceivesGeneric (sentPayloadType track) track.codecId kind i
      { b with srtpRx := none })
    (hframe : frame ≠ []) (timestamp : UInt32) :
    ∃ a' events, trackSendFrame crypto env a place frame timestamp = some (.ok, a', events) ∧
      ((incomingPackets crypto incoming 0 b (sentPackets events)).map
          (fun result => result.2.flatten) = some [kindFrameEvent kind i frame timestamp] ↔
        frame.length ≤ 1478) := by
  obtain ⟨a', events, hsend, hcarries⟩ :=
    @SendsWhole.carries crypto _ _ _ _ _ _ _ hsends ha timestamp
  refine ⟨a', events, hsend, ?_⟩
  obtain ⟨chunks, last, hchunks, hflatten, hdelivered⟩ := @deliveredFrames_eq crypto _ _ _ _ _ _
    hincoming (fun _ => true) (baseHeader_buildable track) hcodec hreceives track.nextSequence
    timestamp _ hframe
  have hcallbacks := congrArg (Option.map List.flatten)
    (incomingPackets_carried hcarries incoming 0 hb)
  rw [Option.map_map, Option.map_map] at hcallbacks
  have harrives : (incomingPackets crypto incoming 0 b (sentPackets events)).map
      (fun result => result.2.flatten) = some [kindFrameEvent kind i last timestamp] :=
    hcallbacks.trans hdelivered
  rw [harrives, ← last_chunk_eq_iff hchunks hflatten, Option.some.injEq, List.cons.injEq,
    and_iff_left rfl]
  cases kind <;> simp [kindFrameEvent]

/-- A frame of any other codec arrives whole exactly when it fits one packet. -/
theorem genericFrame_arrives_iff {incoming : Nat → IncomingEnv} {kind : TrackKind} {i : Nat}
    (hlinked : Linked crypto hostOrder a b) (hsends : SendsWhole env a place track frame)
    (hcodec : track.codecId ≠ .h264) (hincoming : ∀ n, (incoming n).mallocOk = true)
    (hreceives : ReceivesGeneric (sentPayloadType track) track.codecId kind i
      { b with srtpRx := none })
    (hframe : frame ≠ []) (timestamp : UInt32) :
    ∃ a' events, trackSendFrame crypto env a place frame timestamp = some (.ok, a', events) ∧
      ((incomingPackets crypto incoming 0 b (sentPackets events)).map
          (fun result => result.2.flatten) = some [kindFrameEvent kind i frame timestamp] ↔
        frame.length ≤ 1478) := by
  obtain ⟨first, second, ha, hb⟩ := hlinked.secured
  exact hsends.genericFrame_iff ha hb hcodec hincoming hreceives hframe timestamp

end

theorem genericFrame_arrives_linkedPeer :
    ∃ a' events,
      trackSendFrame toyCrypto ⟨fun _ => true, fun _ => true⟩ (linkedPeer true) 1 [0xD5, 0x55] 160 =
        some (.ok, a', events) ∧
      (incomingPackets toyCrypto (fun _ => ⟨1, true, true⟩) 0 (linkedPeer false)
        (sentPackets events)).map (fun result => result.2.flatten) =
          some [.audioFrame 1 [0xD5, 0x55] 160] := by
  have hincoming : ∀ n, ((fun _ => ⟨1, true, true⟩ : Nat → IncomingEnv) n).mallocOk = true :=
    fun _ => rfl
  obtain ⟨a', events, hsend, hiff⟩ := genericFrame_arrives_iff linkedPeers_linked
    (linkedPeer_sendsAudio [0xD5, 0x55]) (by decide) hincoming linkedPeer_receivesGeneric
    (List.cons_ne_nil _ _) 160
  exact ⟨a', events, hsend, hiff.mpr (by decide)⟩

end TinyRtc.MediaSessions
