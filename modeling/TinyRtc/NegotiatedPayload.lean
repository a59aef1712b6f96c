import TinyRtc.LocalTracks
import TinyRtc.SrtpRoundTrip

namespace TinyRtc.NegotiatedPayload

open TinyRtc.AnswerMedia
open TinyRtc.BigEndian
open TinyRtc.CallEffects
open TinyRtc.Common
open TinyRtc.Connection
open TinyRtc.CString
open TinyRtc.Inet
open TinyRtc.LabelledRuns
open TinyRtc.LocalTracks
open TinyRtc.MediaCodec
open TinyRtc.MediaSend
open TinyRtc.Negotiation
open TinyRtc.Packetization
open TinyRtc.ProcessEvents
open TinyRtc.Rtp
open TinyRtc.Sdp
open TinyRtc.SecureMedia
open TinyRtc.SendSteps
open TinyRtc.Srtp
open TinyRtc.SrtpRoundTrip
open TinyRtc.Stun

/-- The payload type that the header of the packet carries, as the receiver compares
it. -/
def CarriesPayloadType (payloadType : Int32) (packet : List UInt8) : Prop :=
  ∃ header, tinyrtcRtpParseHeader packet = some header ∧
    header.payloadType.toUInt32.toInt32 = payloadType

theorem CarriesPayloadType.unique {first second : Int32} {packet : List UInt8}
    (hfirst : CarriesPayloadType first packet) (hsecond : CarriesPayloadType second packet) :
    first = second := by
  obtain ⟨header, hparse, rfl⟩ := hfirst
  obtain ⟨header', hparse', rfl⟩ := hsecond
  rw [hparse] at hparse'
  cases hparse'
  rfl

/-- The payload type of a track, as far as the header has room for it. -/
def sentPayloadType (track : Track) : Int32 :=
  (track.payloadType.toUInt32.toUInt8 &&& 0x7F).toUInt32.toInt32

section

variable (track : Track) (sequence : UInt16) (timestamp : UInt32) (marker : Bool)

theorem carries_sentHeader (rest : List UInt8) :
    CarriesPayloadType (sentPayloadType track)
      (tinyrtcRtpBuildHeader (sentHeader track sequence timestamp marker) rtpBufferSize ++ rest) := by
  obtain ⟨header, hb, hcsrc, hpt, hbuild⟩ := build_sentHeader track sequence timestamp marker
  refine ⟨header, ?_, ?_⟩
  · rw [hbuild, parse_build hb]
    rw [hcsrc]
    decide
  · rw [hpt]
    rfl

end

/-- The connection can hand packets of the track to the network. -/
structure CanSend (pc : PeerConnection) (track : Track) : Prop where
  isLocal : track.isLocal = true
  ready : pcIsSecureMediaReady pc = true
  remote : ∃ remote addr, selectedRemote pc = some remote ∧ inetPton remote.ip.bytes = some addr

section

variable {crypto : Crypto} {pc : PeerConnection} {track : Track} {timestamp : UInt32}
  {s s' : SendState}

/-- A call of `packetize_send_callback` sends nothing, or one packet with the
payload type of the track. -/
theorem packetizeSendCallback_cases {sent : Bool} {callback : PacketCallback}
    (h : packetizeSendCallback crypto pc track timestamp sent s callback = some s') :
    s'.events = s.events ∨
      (pcIsSecureMediaReady pc = true ∧
        ∃ remote addr packet, selectedRemote pc = some remote ∧
          inetPton remote.ip.bytes = some addr ∧
          CarriesPayloadType (sentPayloadType track) packet ∧
          s'.events = s.events ++ [.rtp ⟨addr, remote.port⟩ packet sent]) := by
  cases packetizeSendCallback_step h with
  | failed => exact .inl rfl
  | handed hready hremote haddr hpacket =>
      obtain ⟨tail, rfl⟩ := hpacket.header
      exact .inr ⟨hready, _, _, _, hremote, haddr, carries_sentHeader _ _ _ _ _, rfl⟩

theorem sendCallbacks_carries {sent : Nat → Bool} {i : Nat} {callbacks : List PacketCallback}
    (h : sendCallbacks crypto pc track timestamp sent i callbacks s = some s')
    (hs : ∀ dest packet accepted, PcEvent.rtp dest packet accepted ∈ s.events →
      CarriesPayloadType (sentPayloadType track) packet) :
    ∀ dest packet accepted, PcEvent.rtp dest packet accepted ∈ s'.events →
      CarriesPayloadType (sentPayloadType track) packet := by
  induction callbacks generalizing i s with
  | nil =>
      cases h
      exact hs
  | cons callback callbacks ih =>
      obtain ⟨next, hnext, hrest⟩ := Option.bind_eq_some_iff.mp h
      apply ih hrest
      intro dest packet accepted hmem
      rcases packetizeSendCallback_cases hnext with hevents | ⟨-, remote, addr, last, -, -, hlast,
        hevents⟩
      · exact hs dest packet accepted (hevents ▸ hmem)
      · rw [hevents] at hmem
        rcases List.mem_append.mp hmem with hmem | hmem
        · exact hs dest packet accepted hmem
        · cases List.mem_singleton.mp hmem
          exact hlast

theorem sendCallbacks_events_of_not {sent : Nat → Bool} {i : Nat}
    {callbacks : List PacketCallback}
    (h : sendCallbacks crypto pc track timestamp sent i callbacks s = some s')
    (hlocal : track.isLocal = true) (hcannot : ¬ CanSend pc track) : s'.events = s.events := by
  induction callbacks generalizing i s with
  | nil =>
      cases h
      rfl
  | cons callback callbacks ih =>
      obtain ⟨next, hnext, hrest⟩ := Option.bind_eq_some_iff.mp h
      rw [ih hrest]
      rcases packetizeSendCallback_cases hnext with hevents | ⟨hready, remote, addr, -, hremote,
        haddr, -⟩
      · exact hevents
      · exact absurd ⟨hlocal, hready, remote, addr, hremote, haddr⟩ hcannot

variable (crypto timestamp s) in
theorem packetizeSendCallback_sends (hcan : CanSend pc track) (sent : Bool)
    {callback : PacketCallback} (hlen : callback.payload.length ≤ 1000) :
    ∃ s' dest packet, packetizeSendCallback crypto pc track timestamp sent s callback = some s' ∧
      s'.events = s.events ++ [.rtp dest packet sent] ∧
      packet.length =
        headerLen + callback.payload.length + if s.srtp.isSome then srtpAuthTagLen else 0 := by
  obtain ⟨remote, addr, hremote, haddr⟩ := hcan.remote
  have hpacket : (tinyrtcRtpBuildHeader (sentHeader track s.sequence timestamp callback.marker)
      rtpBufferSize ++ callback.payload).length = headerLen + callback.payload.length := by
    rw [List.length_append, sentHeader_length]
  rw [packetizeSendCallback]
  simp only [hcan.ready, Bool.not_true, Bool.false_eq_true, if_false, hremote, haddr]
  cases hsrtp : s.srtp with
  | none =>
      refine ⟨_, _, _, rfl, rfl, ?_⟩
      rw [hpacket]
      simp
  | some srtp =>
      generalize tinyrtcRtpBuildHeader (sentHeader track s.sequence timestamp callback.marker)
        rtpBufferSize ++ callback.payload = packet at hpacket
      have hmax : packet.length + srtpAuthTagLen ≤ rtpBufferSize := by
        rw [hpacket, headerLen, srtpAuthTagLen, rtpBufferSize]
        omega
      obtain ⟨result, hresult, hok, -, hresultLen, hresultPacket⟩ :=
        srtpEncryptPacket_of_fits crypto srtp
          (packet ++ List.replicate (rtpBufferSize - packet.length) 0x00)
          (hpacket ▸ Nat.le_add_right _ _) hmax
      simp only [hresult, Option.map_some, hok, ne_eq, not_true_eq_false, if_false]
      refine ⟨_, _, _, rfl, rfl, ?_⟩
      have hresultLength : packet.length + srtpAuthTagLen ≤ result.packet.length := by
        rw [hresultPacket]
        simp only [List.length_append, List.length_take, List.length_drop, cryptPayload_length,
          srtpGenerateAuth_length, List.length_replicate]
        omega
      rw [List.length_take, hresultLen, Nat.min_eq_left hresultLength, hpacket]
      simp

theorem packetizeFrame_congr {codec codec' : CodecId} (h : codec = .h264 ↔ codec' = .h264)
    (malloc : Nat → Bool) (mtu : UInt32) (frame : List UInt8) :
    tinyrtcPacketizeFrame malloc codec mtu frame = tinyrtcPacketizeFrame malloc codec' mtu frame := by
  cases codec <;> cases codec' <;> first | rfl | (exfalso; simp at h)

/-- A frame whose packets tell the two kinds apart: a NAL unit of one byte. -/
def probeFrame : List UInt8 :=
  [0x00, 0x00, 0x00, 0x01, 0x65]

theorem packetize_probeFrame (codec : CodecId) :
    ∃ callback, (tinyrtcPacketizeFrame (fun _ => true) codec sendMtu probeFrame).callbacks =
        [callback] ∧
      callback.payload.length = if codec = .h264 then 1 else 5 := by
  cases codec <;> exact ⟨_, rfl, rfl⟩

end

/-- The packets are those of the frame as it is packetized for the codec. -/
def PacketizedFor (crypto : Crypto) (env : SendEnv) (pc : PeerConnection) (track : Track)
    (frame : List UInt8) (timestamp : UInt32) (codecId : CodecId) (events : List PcEvent) : Prop :=
  ∃ s, sendCallbacks crypto pc track timestamp env.sent 0
      (tinyrtcPacketizeFrame env.malloc codecId sendMtu frame).callbacks
      ⟨track.nextSequence, pc.srtp, track.nextSequence, []⟩ = some s ∧
    events = s.events

/-- The packets of a frame are as the media entry announces them. -/
structure SendsAnnounced (crypto : Crypto) (env : SendEnv) (pc : PeerConnection) (track : Track)
    (frame : List UInt8) (timestamp : UInt32) (media : SdpMedia) (events : List PcEvent) :
    Prop where
  payloadType : ∀ dest packet accepted, PcEvent.rtp dest packet accepted ∈ events →
    CarriesPayloadType media.payloadType packet
  packetized : events ≠ [] →
    PacketizedFor crypto env pc track frame timestamp media.codecId events

/-- The track sends what the media entry announces. -/
structure MatchesAnnounced (track : Track) (media : SdpMedia) : Prop where
  payloadType : sentPayloadType track = media.payloadType
  codecId : track.codecId = .h264 ↔ media.codecId = .h264

section

variable {crypto : Crypto} {pc : PeerConnection} {place : Nat} {track : Track} {media : SdpMedia}

theorem trackSendFrame_announced {env : SendEnv} {frame : List UInt8} {timestamp : UInt32}
    {err : TinyrtcError} {pc' : PeerConnection} {events : List PcEvent}
    (htrack : pc.localTracks.items[place]? = some track)
    (hmatches : CanSend pc track → MatchesAnnounced track media)
    (h : trackSendFrame crypto env pc place frame timestamp = some (err, pc', events)) :
    SendsAnnounced crypto env pc track frame timestamp media events := by
  have hnothing : SendsAnnounced crypto env pc track frame timestamp media [] :=
    ⟨fun _ _ _ hmem => absurd hmem List.not_mem_nil, fun hne => absurd rfl hne⟩
  cases trackSendFrame_course h with
  | refused hrefused => exact hnothing
  | @sent track' s htrack' hlocal hready hsends =>
      cases htrack.symm.trans htrack'
      by_cases hcan : CanSend pc track
      · obtain ⟨hpt, hcodec⟩ := hmatches hcan
        constructor
        · rw [← hpt]
          exact sendCallbacks_carries hsends fun _ _ _ hmem => absurd hmem List.not_mem_nil
        · intro _
          exact ⟨s, (packetizeFrame_congr hcodec _ _ _) ▸ hsends, rfl⟩
      · rw [sendCallbacks_events_of_not hsends hlocal hcan]
        exact hnothing

variable (crypto) in
theorem sendCallbacks_probeFrame (hcan : CanSend pc track) (codecId : CodecId) :
    ∃ s dest packet, sendCallbacks crypto pc track 0 (fun _ => true) 0
        (tinyrtcPacketizeFrame (fun _ => true) codecId sendMtu probeFrame).callbacks
        ⟨track.nextSequence, pc.srtp, track.nextSequence, []⟩ = some s ∧
      s.events = [.rtp dest packet true] ∧
      packet.length = headerLen + (if codecId = .h264 then 1 else 5) +
        if pc.srtp.isSome then srtpAuthTagLen else 0 := by
  obtain ⟨callback, hcallbacks, hpayload⟩ := packetize_probeFrame codecId
  have hsmall : callback.payload.length ≤ 1000 := by
    rw [hpayload]
    split <;> decide
  obtain ⟨s, dest, packet, hsend, hevents, hlength⟩ := packetizeSendCallback_sends
    crypto 0 ⟨track.nextSequence, pc.srtp, track.nextSequence, []⟩ hcan true hsmall
  refine ⟨s, dest, packet, ?_, hevents, ?_⟩
  · rw [hcallbacks, sendCallbacks, hsend]
    rfl
  · rw [hlength, hpayload]

variable (crypto) in
theorem matchesAnnounced_of_sends (htrack : pc.localTracks.items[place]? = some track)
    (hsends : ∀ env frame timestamp err pc' events,
      trackSendFrame crypto env pc place frame timestamp = some (err, pc', events) →
        SendsAnnounced crypto env pc track frame timestamp media events)
    (hcan : CanSend pc track) : MatchesAnnounced track media := by
  obtain ⟨s, dest, packet, hs, hevents, hlength⟩ :=
    sendCallbacks_probeFrame crypto hcan track.codecId
  have hframe : ∃ pc', trackSendFrame crypto ⟨fun _ => true, fun _ => true⟩ pc place probeFrame 0 =
      some (.ok, pc', s.events) := by
    rw [trackSendFrame, htrack]
    simp only [hcan.isLocal, hcan.ready, Bool.not_true, Bool.false_eq_true, if_false, hs,
      Option.map_some]
    exact ⟨_, rfl⟩
  obtain ⟨pc', hframe⟩ := hframe
  obtain ⟨hpt, hpacketized⟩ := hsends _ _ _ _ _ _ hframe
  have hmem : PcEvent.rtp dest packet true ∈ s.events := by
    rw [hevents]
    exact List.mem_singleton_self _
  constructor
  · have hcarries := sendCallbacks_carries hs (fun _ _ _ h => absurd h List.not_mem_nil) dest
      packet true hmem
    exact hcarries.unique (hpt dest packet true hmem)
  · obtain ⟨s', hs', hsame⟩ := hpacketized (List.ne_nil_of_mem hmem)
    obtain ⟨s'', dest', packet', hs'', hevents', hlength'⟩ :=
      sendCallbacks_probeFrame crypto hcan media.codecId
    rw [hs''] at hs'
    cases hs'
    rw [hevents, hevents'] at hsame
    cases hsame
    rw [hlength] at hlength'
    by_cases htrackCodec : track.codecId = .h264 <;> by_cases hmediaCodec : media.codecId = .h264 <;>
      simp [htrackCodec, hmediaCodec] at hlength' ⊢

/-- The two functions that send a frame on the track at `place`. -/
def IsSend (place : Nat) (env : SendEnv) (frame : List UInt8) (timestamp : UInt32)
    (call : PcCall) : Prop :=
  call = .sendAudioFrame env place frame timestamp ∨
    call = .sendVideoFrame env place frame timestamp

/-- The entry of the offer announces what the track sends. -/
structure MatchesOffer (track : Track) (offered : SdpMedia) : Prop where
  payloadType : sentPayloadType track =
    if offered.payloadType ≠ 0 then offered.payloadType
    else tinyrtcCodecGetDefaultPayload offered.codecId
  codecId : track.codecId = .h264 ↔ offered.codecId = .h264

end

/-- After an answer, the frames on a matched track go out as its entry of the answer
announces them exactly when the track sends what the offer announces. -/
theorem sendsAnnounced_iff {crypto : Crypto} {hostOrder : UInt32 → List UInt8}
    {env : DescriptionEnv} {pc answered pc' : PeerConnection} {text : List UInt8}
    {events : List PcEvent} {later : List (PcCall × List PcEvent)} {offered : SdpMedia}
    {i place : Nat} {track : Track}
    (hanswer : tinyrtcPeerConnectionCreateAnswer crypto env pc = some (.ok text, answered, events))
    (hoffered : offered ∈ pc.remoteSdp.media.items)
    (hfirst : pc.localTracks.items.findIdx? (fun track => track.kind == offered.kind) = some i)
    (htrack : pc.localTracks.items[i]? = some track)
    (hrun : Run (PcStep crypto hostOrder) answered later pc')
    (hplace : placeAfter i (later.map Prod.fst) = some place) :
    sdpMediaOfConfig (answerConfig offered) ∈ answered.localSdp.media.items ∧
      ∃ sender, pc'.localTracks.items[place]? = some sender ∧
        ((∀ sendEnv frame timestamp call sendEvents pc'',
            IsSend place sendEnv frame timestamp call →
            PcStep crypto hostOrder pc' (call, sendEvents) pc'' →
              SendsAnnounced crypto sendEnv pc' sender frame timestamp
                (sdpMediaOfConfig (answerConfig offered)) sendEvents) ↔
          (CanSend pc' sender → MatchesOffer track offered)) := by
  have hopen : pc.state ≠ .closed := by
    intro hclosed
    rw [tinyrtcPeerConnectionCreateAnswer, if_pos hclosed] at hanswer
    cases hanswer
  obtain ⟨htracks, -, hmedia⟩ := createAnswer_media hanswer hopen
  constructor
  · rw [hmedia]
    refine List.mem_map.mpr ⟨offered, List.mem_filter.mpr ⟨hoffered, ?_⟩, rfl⟩
    exact hasLocalTrack_iff.mpr ⟨track, List.mem_of_getElem? htrack, by
      obtain ⟨hlt, hkind, -⟩ := List.findIdx?_eq_some_iff_getElem.mp hfirst
      rw [List.getElem?_eq_getElem hlt] at htrack
      cases htrack
      exact eq_of_beq hkind⟩
  · obtain ⟨sender, hsender, hsame⟩ := sameTrack_run hrun (htracks ▸ htrack) hplace
    have hmatches : MatchesAnnounced sender (sdpMediaOfConfig (answerConfig offered)) ↔
        MatchesOffer track offered := by
      have hpt : sentPayloadType sender = sentPayloadType track := by
        rw [sentPayloadType, hsame.payloadType, sentPayloadType]
      constructor
      · rintro ⟨hpayloadType, hcodec⟩
        exact ⟨hpt.symm.trans hpayloadType, hsame.codecId ▸ hcodec⟩
      · rintro ⟨hpayloadType, hcodec⟩
        exact ⟨hpt.trans hpayloadType, hsame.codecId.symm ▸ hcodec⟩
    refine ⟨sender, hsender, ?_⟩
    rw [← hmatches]
    constructor
    · intro hsends hcan
      refine matchesAnnounced_of_sends crypto hsender ?_ hcan
      intro sendEnv frame timestamp err pc'' sendEvents hframe
      exact hsends sendEnv frame timestamp (.sendVideoFrame sendEnv place frame timestamp) sendEvents
        pc'' (.inr rfl) (congrArg (Option.map Prod.snd) hframe)
    · intro hsends sendEnv frame timestamp call sendEvents pc'' hcall hstep
      have hframe : (trackSendFrame crypto sendEnv pc' place frame timestamp).map Prod.snd =
          some (pc'', sendEvents) := by
        rcases hcall with rfl | rfl <;> exact hstep
      obtain ⟨⟨err, result⟩, hframe, rfl⟩ := Option.map_eq_some_iff.mp hframe
      exact trackSendFrame_announced hsender hsends hframe

/-- A video track with a payload type of its own. -/
def sampleVideoTrack (payloadType : Int32) : TrackConfig :=
  ⟨.video, ascii "v0", .h264, payloadType, 0, 0⟩

def sampleVideoOffer : List UInt8 :=
  ascii "m=video 9 RTP/SAVPF 96\na=mid:1\n"

def sampleFrame : PcCall :=
  .sendVideoFrame ⟨fun _ => true, fun _ => true⟩ 0 probeFrame 0

/-- The payload type that an event carries. -/
def eventPayloadType : PcEvent → Option UInt8
  | .rtp _ packet _ => (tinyrtcRtpParseHeader packet).map RtpHeader.payloadType
  | _ => none

/-- The connection is set up, and the frame is sent: a check of the connection that
sends it and of the events. -/
def checkFrame (q : PeerConnection → List PcEvent → Bool) (answered : PeerConnection) : Bool :=
  (pcCalls toyCrypto write32 (fun _ _ => True) answered (sampleConnect [])).any fun reached =>
    (pcCall toyCrypto write32 reached.2 sampleFrame).any fun result => q reached.2 result.2

theorem exists_sentFrame (payloadType : Int32) (p : PeerConnection → PeerConnection → Bool)
    (q : PeerConnection → List PcEvent → Bool)
    (h : ((afterOffer [sampleVideoTrack payloadType] sampleVideoOffer).any fun pc =>
      (tinyrtcPeerConnectionCreateAnswer toyCrypto sampleDescriptionEnv pc).any
        fun answer => answer.1.toBool && (p pc answer.2.1 && checkFrame q answer.2.1)) = true) :
    ∃ pc text answered events later pc' sendEvents pc'',
      afterOffer [sampleVideoTrack payloadType] sampleVideoOffer = some pc ∧
      tinyrtcPeerConnectionCreateAnswer toyCrypto sampleDescriptionEnv pc =
        some (.ok text, answered, events) ∧
      Run (PcStep toyCrypto write32) answered later pc' ∧
      placeAfter 0 (later.map Prod.fst) = some 0 ∧
      PcStep toyCrypto write32 pc' (sampleFrame, sendEvents) pc'' ∧
      p pc answered = true ∧ q pc' sendEvents = true := by
  obtain ⟨pc, text, answered, events, hoffer, hanswer, hp⟩ :=
    exists_answer [sampleVideoTrack payloadType] sampleVideoOffer
      (fun pc answered => p pc answered && checkFrame q answered) h
  rw [Bool.and_eq_true, checkFrame, Option.any_eq_true] at hp
  obtain ⟨hpc, ⟨later, pc'⟩, hcalls, hq⟩ := hp
  rw [Option.any_eq_true] at hq
  obtain ⟨⟨pc'', sendEvents⟩, hstep, hq⟩ := hq
  refine ⟨pc, text, answered, events, later, pc', sendEvents, pc'', hoffer, hanswer, ?_, ?_, hstep,
    hpc, hq⟩
  · exact (run_pcCalls hcalls).mono fun _ _ _ h => h.1
  · rw [map_fst_pcCalls hcalls]
    rfl

/-- The offer announces the payload type that the track has been given. -/
theorem sendsAnnounced_sampleFrame :
    ∃ pc text answered events later pc' sendEvents pc'' sender media,
      afterOffer [sampleVideoTrack 96] sampleVideoOffer = some pc ∧
      tinyrtcPeerConnectionCreateAnswer toyCrypto sampleDescriptionEnv pc =
        some (.ok text, answered, events) ∧
      media ∈ answered.localSdp.media.items ∧
      Run (PcStep toyCrypto write32) answered later pc' ∧
      PcStep toyCrypto write32 pc' (sampleFrame, sendEvents) pc'' ∧
      sendEvents.filterMap eventPayloadType = [96] ∧
      SendsAnnounced toyCrypto ⟨fun _ => true, fun _ => true⟩ pc' sender probeFrame 0 media
        sendEvents := by
  obtain ⟨pc, text, answered, events, later, pc', sendEvents, pc'', hoffer, hanswer, hrun, hplace,
    hstep, hp, hq⟩ := exists_sentFrame 96
      (fun pc _ => decide (pc.localTracks.items ≠ [] ∧ pc.remoteSdp.media.items ≠ [] ∧
        ∀ track ∈ pc.localTracks.items, ∀ offered ∈ pc.remoteSdp.media.items,
          track.kind = offered.kind ∧ sentPayloadType track = 96 ∧ offered.payloadType = 96 ∧
            track.codecId = .h264 ∧ offered.codecId = .h264))
      (fun _ events => decide (events.filterMap eventPayloadType = [96])) (by decide +kernel)
  obtain ⟨htracks, hentries, hall⟩ := of_decide_eq_true hp
  obtain ⟨track, tracks, htrack⟩ := List.exists_cons_of_ne_nil htracks
  obtain ⟨offered, hoffered⟩ := List.exists_mem_of_ne_nil _ hentries
  obtain ⟨hkind, hsent, hpayloadType, hcodec, hcodec'⟩ := hall track
    (htrack ▸ List.mem_cons_self) offered hoffered
  have hfirst : pc.localTracks.items.findIdx? (fun track => track.kind == offered.kind) = some 0 := by
    rw [htrack, List.findIdx?_cons, if_pos (beq_iff_eq.mpr hkind)]
  have hzero : pc.localTracks.items[0]? = some track := by
    rw [htrack]
    rfl
  have hmatches : MatchesOffer track offered :=
    ⟨by rw [hsent, hpayloadType]; rfl, by rw [hcodec, hcodec']⟩
  obtain ⟨hentry, sender, -, hsends⟩ := sendsAnnounced_iff hanswer hoffered hfirst hzero hrun hplace
  exact ⟨pc, text, answered, events, later, pc', sendEvents, pc'', sender, _, hoffer, hanswer, hentry,
    hrun, hstep, of_decide_eq_true hq,
    hsends.mpr (fun _ => hmatches) _ _ _ _ _ _ (.inr rfl) hstep⟩

/-- The track keeps its default payload type 100 where the answer announces 96. -/
theorem sendsAnnounced_fails :
    ∃ pc text answered events media later pc' sendEvents pc'',
      afterOffer [sampleVideoTrack 0] sampleVideoOffer = some pc ∧
      tinyrtcPeerConnectionCreateAnswer toyCrypto sampleDescriptionEnv pc =
        some (.ok text, answered, events) ∧
      answered.localSdp.media.items = [media] ∧ media.payloadType = 96 ∧
      Run (PcStep toyCrypto write32) answered later pc' ∧
      placeAfter 0 (later.map Prod.fst) = some 0 ∧
      PcStep toyCrypto write32 pc' (sampleFrame, sendEvents) pc'' ∧
      ∃ dest packet accepted, PcEvent.rtp dest packet accepted ∈ sendEvents ∧
        ¬ CarriesPayloadType media.payloadType packet := by
  obtain ⟨pc, text, answered, events, later, pc', sendEvents, pc'', hoffer, hanswer, hrun, hplace,
    hstep, hp, hq⟩ := exists_sentFrame 0
      (fun _ answered => decide (answered.localSdp.media.items.map SdpMedia.payloadType = [96]))
      (fun _ events => decide (events.filterMap eventPayloadType = [100])) (by decide +kernel)
  obtain ⟨media, hmedia, hpt⟩ := List.map_eq_singleton_iff.mp (of_decide_eq_true hp)
  have hsent := of_decide_eq_true hq
  have hmem : (100 : UInt8) ∈ sendEvents.filterMap eventPayloadType := by
    rw [hsent]
    exact List.mem_singleton_self _
  obtain ⟨event, hevent, hcarried⟩ := List.mem_filterMap.mp hmem
  refine ⟨pc, text, answered, events, media, later, pc', sendEvents, pc'', hoffer, hanswer, hmedia,
    hpt, hrun, hplace, hstep, ?_⟩
  cases event with
  | rtp dest packet accepted =>
      refine ⟨dest, packet, accepted, hevent, ?_⟩
      rintro ⟨header, hparse, hcarries⟩
      rw [eventPayloadType, hparse, Option.map_some] at hcarried
      rw [Option.some.inj hcarried, hpt] at hcarries
      exact absurd hcarries (by decide)
  | _ => cases hcarried

end TinyRtc.NegotiatedPayload
