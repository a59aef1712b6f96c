import TinyRtc.DescriptionExchange
import TinyRtc.DtlsRoles
import TinyRtc.MediaSessions
import TinyRtc.RemoteTrackRuns
import TinyRtc.RemoteTracks

namespace TinyRtc.NegotiatedMedia

open TinyRtc.AnnexB
open TinyRtc.BigEndian
open TinyRtc.CallEffects
open TinyRtc.CarriedDescriptions
open TinyRtc.CertifiedContexts
open TinyRtc.Common
open TinyRtc.Connection
open TinyRtc.CString
open TinyRtc.DescriptionExchange
open TinyRtc.DtlsRoles
open TinyRtc.FrameAssembly
open TinyRtc.GenericDelivery
open TinyRtc.H264RoundTrip
open TinyRtc.IncomingRtp
open TinyRtc.LabelledRuns
open TinyRtc.LocalTracks
open TinyRtc.MediaCodec
open TinyRtc.MediaSend
open TinyRtc.MediaSessions
open TinyRtc.Negotiation
open TinyRtc.ProcessEvents
open TinyRtc.RemoteTrackRuns
open TinyRtc.RemoteTracks
open TinyRtc.Sdp
open TinyRtc.SdpGenerator
open TinyRtc.SdpParser
open TinyRtc.SdpRoundTrip
open TinyRtc.SdpScanning
open TinyRtc.SecureMedia
open TinyRtc.SecureSession
open TinyRtc.SendResults
open TinyRtc.SessionKeys
open TinyRtc.SendSteps
open TinyRtc.SlotArray
open TinyRtc.Srtp

/-- The track is as the application has configured it, but for what sending changes. -/
def Configured (track : Track) : Prop :=
  ∃ config, SameTrack (localTrackOfConfig config) track

/-- A configured track is offered with the payload type that it sends. -/
theorem Configured.offered_payloadType {track : Track} (h : Configured track) :
    (offeredMedia track).payloadType = track.payloadType := by
  obtain ⟨config, hsame⟩ := h
  have hpayload := hsame.payloadType
  have hcodec : track.codecId = config.codecId := hsame.codecId
  change (if track.payloadType ≠ 0 then track.payloadType
    else tinyrtcCodecGetDefaultPayload track.codecId) = track.payloadType
  rw [hcodec, hpayload, localTrackOfConfig]
  dsimp only
  split_ifs <;> simp_all

section

variable {crypto : Crypto} {hostOrder : UInt32 → List UInt8} {pc pc' : PeerConnection}

/-- Where the local tracks behind a call come from. -/
theorem localTracks_step {call : PcCall × List PcEvent} (h : PcStep crypto hostOrder pc call pc')
    {track : Track} (htrack : track ∈ pc'.localTracks.items) :
    Configured track ∨ ∃ before ∈ pc.localTracks.items, SameTrack before track := by
  obtain ⟨call, events⟩ := call
  have hkept : pc'.localTracks = pc.localTracks →
      Configured track ∨ ∃ before ∈ pc.localTracks.items, SameTrack before track := by
    intro hsame
    exact .inr ⟨track, hsame ▸ htrack, .refl track⟩
  have hsends : ∀ {env : SendEnv} {place : Nat} {frame : List UInt8} {timestamp : UInt32}
      {err : TinyrtcError},
      trackSendFrame crypto env pc place frame timestamp = some (err, pc', events) →
      Configured track ∨ ∃ before ∈ pc.localTracks.items, SameTrack before track := by
    intro env place frame timestamp err hsend
    cases trackSendFrame_course hsend with
    | refused hrefused => exact hkept rfl
    | sent hsender hlocal hready hcallbacks =>
        rcases List.mem_or_eq_of_mem_set htrack with hold | rfl
        · exact .inr ⟨track, hold, .refl track⟩
        · exact .inr ⟨_, List.mem_of_getElem? hsender, rfl, rfl, rfl, rfl⟩
  cases call with
  | addTrack callocOk config =>
      cases h
      rw [tinyrtcPeerConnectionAddTrack] at htrack
      split at htrack
      · exact .inr ⟨track, htrack, .refl track⟩
      · cases hpush : pc.localTracks.push? (localTrackOfConfig config) with
        | none =>
            rw [hpush] at htrack
            exact .inr ⟨track, htrack, .refl track⟩
        | some tracks =>
            rw [hpush, Option.map_some, Option.getD_some, Slots.push?_items hpush] at htrack
            rcases List.mem_append.mp htrack with hold | hnew
            · exact .inr ⟨track, hold, .refl track⟩
            · rw [List.mem_singleton.mp hnew]
              exact .inl ⟨config, .refl _⟩
  | removeTrack removed =>
      cases h
      rw [tinyrtcPeerConnectionRemoveTrack] at htrack
      split at htrack
      · exact .inr ⟨track, List.mem_of_mem_eraseIdx htrack, .refl track⟩
      · exact .inr ⟨track, htrack, .refl track⟩
  | createOffer env =>
      obtain ⟨⟨text, result⟩, hoffer, rfl⟩ := Option.map_eq_some_iff.mp h
      exact hkept (createOffer_localTracks hoffer)
  | setRemoteDescription locals trackOk sdp =>
      obtain ⟨⟨err, result⟩, hset, rfl⟩ := Option.map_eq_some_iff.mp h
      exact hkept (setRemoteDescription_localTracks hset)
  | createAnswer env =>
      obtain ⟨⟨text, result⟩, hanswer, rfl⟩ := Option.map_eq_some_iff.mp h
      exact hkept (createAnswer_localTracks hanswer)
  | addIceCandidate candidate =>
      cases h
      exact hkept (addIceCandidate_localTracks pc candidate)
  | close =>
      cases h
      exact hkept rfl
  | sendAudioFrame env sender frame timestamp =>
      obtain ⟨⟨err, result⟩, hsend, rfl⟩ := Option.map_eq_some_iff.mp h
      exact hsends hsend
  | sendVideoFrame env sender frame timestamp =>
      obtain ⟨⟨err, result⟩, hsend, rfl⟩ := Option.map_eq_some_iff.mp h
      exact hsends hsend
  | processEvents input => exact hkept (processEvents_localTracks h)

theorem configured_run {config : PcConfig} {history : List (PcCall × List PcEvent)}
    (hrun : Run (PcStep crypto hostOrder) (tinyrtcPeerConnectionCreate config) history pc) :
    ∀ track ∈ pc.localTracks.items, Configured track := by
  refine hrun.invariant (I := fun reached => ∀ track ∈ reached.localTracks.items, Configured track)
    ?_ fun track htrack => absurd htrack List.not_mem_nil
  intro reached call reached' hbefore hstep track htrack
  rcases localTracks_step hstep htrack with hnew | ⟨before, hmem, hsame⟩
  · exact hnew
  · obtain ⟨config, hconfigured⟩ := hbefore before hmem
    exact ⟨config, hconfigured.trans hsame⟩

/-- A connection without remote tracks that takes a description gets those of its entries. -/
theorem setRemoteDescription_tracks {locals : Locals} {session : SdpSession} {err : TinyrtcError}
    {events : List PcEvent} (hopen : pc.state ≠ .closed) (hfresh : pc.remoteTracks.items = [])
    (hsession : CarriedSession session)
    (h : tinyrtcPeerConnectionSetRemoteDescription locals (fun _ => true) pc (sdpText session) =
      some (err, pc', events)) :
    pc'.remoteTracks.items = session.media.items.map remoteTrackOfMedia ∧
      pc'.config = pc.config := by
  have hitems := addRemoteTracks_items session.media.items { pc with remoteSdp := session }
  obtain ⟨⟨remoteTracks, hadded⟩, -⟩ := addRemoteTracks_cases (fun _ => true)
    session.media.items { pc with remoteSdp := session }
  rw [tinyrtcPeerConnectionSetRemoteDescription, if_neg hopen, sdpParse_sdpText locals hsession,
    Option.map_some] at h
  cases h
  dsimp only
  refine ⟨?_, ?_⟩
  · refine hitems.trans ?_
    dsimp only
    rw [hfresh, List.nil_append, List.take_of_length_le]
    rw [List.length_map]
    exact session.media.length_le
  · exact (congrArg PeerConnection.config hadded).trans rfl

end

/-- Two connections at any time after the second one has taken an offer of the first one, and what
has been called on the first one since. -/
inductive Offered (crypto : Crypto) (hostOrder : UInt32 → List UInt8)
    (offerer answerer : PeerConnection) :
    List PcCall → PeerConnection → PeerConnection → Prop
  | taken {config : PcConfig} {history sending receiving : List (PcCall × List PcEvent)}
      {env : DescriptionEnv} {offer : List UInt8} {locals : Locals} {err : TinyrtcError}
      {offering asked sender receiver : PeerConnection} {events events' : List PcEvent}
      (hofferer : Run (PcStep crypto hostOrder) (tinyrtcPeerConnectionCreate config) history
        offerer)
      (hoffers : Offers offerer)
      (hoffer : tinyrtcPeerConnectionCreateOffer crypto env offerer =
        some (.ok offer, offering, events))
      (hopen : answerer.state ≠ .closed) (hfresh : answerer.remoteTracks.items = [])
      (hasked : tinyrtcPeerConnectionSetRemoteDescription locals (fun _ => true) answerer offer =
        some (err, asked, events'))
      (hsender : Run (PcStep crypto hostOrder) offering sending sender)
      (hreceiver : Run (PcStep crypto hostOrder) asked receiving receiver) :
      Offered crypto hostOrder offerer answerer (sending.map Prod.fst) sender receiver

/-- The header has room for the payload type of the track. -/
def FitsHeader (track : Track) : Prop :=
  track.payloadType.toUInt32 < 128

theorem FitsHeader.sent {track : Track} (h : FitsHeader track) :
    (sentPayloadType track).toUInt32.toInt32 = track.payloadType := by
  have hlt : track.payloadType.toUInt32.toNat < 128 := h
  have hnat : (sentPayloadType track).toUInt32.toNat = track.payloadType.toUInt32.toNat := by
    rw [sentPayloadType, UInt8.toNat_toUInt32, UInt8.toNat_and, UInt32.toNat_toUInt8]
    change track.payloadType.toUInt32.toNat % 256 &&& (2 ^ 7 - 1) = _
    rw [Nat.and_two_pow_sub_one_eq_mod]
    omega
  rw [UInt32.toNat_inj.mp hnat]
  rfl

/-- The remote track that comes of an offered track. -/
def announced (track : Track) : TrackShape :=
  shapeOf (remoteTrackOfMedia (offeredMedia track))

/-- Remote track `i` is what the offer has announced for a track. -/
structure ReceivesAs (track : Track) (i : Nat) (receiver : PeerConnection) : Prop where
  matched : ∀ payloadType : UInt8, payloadType.toUInt32.toInt32 = track.payloadType →
    matchTrack receiver payloadType = some i
  track : ∃ received jb, receiver.remoteTracks.items[i]? = some received ∧
    received.kind = track.kind ∧ received.codecId = track.codecId ∧
    received.jitterBuffer = some jb ∧ jb.config.bufferSize ≠ 0

/-- Entries that are told apart by a number are found by it. -/
theorem findIdx?_of_nodup {α β : Type*} [BEq β] [LawfulBEq β] {entries : List α} {key : α → β}
    (hnodup : (entries.map key).Nodup) {i : Nat} {entry : α} (hentry : entries[i]? = some entry) :
    entries.findIdx? (fun other => key other == key entry) = some i := by
  obtain ⟨hlt, rfl⟩ := List.getElem?_eq_some_iff.mp hentry
  rw [List.findIdx?_eq_some_iff_getElem]
  refine ⟨hlt, beq_self_eq_true _, fun j hji hsame => ?_⟩
  have hj : j < (entries.map key).length := by
    rw [List.length_map]
    omega
  have hkeys : (entries.map key)[j]? = (entries.map key)[i]? := by
    rw [List.getElem?_map, List.getElem?_map, List.getElem?_eq_getElem hlt,
      List.getElem?_eq_getElem (hji.trans hlt), Option.map_some, Option.map_some, eq_of_beq hsame]
  exact hji.ne ((List.getElem?_inj hj hnodup).mp hkeys)

section

variable {crypto : Crypto} {hostOrder : UInt32 → List UInt8}
  {offerer answerer sender receiver : PeerConnection} {calls : List PcCall} {p place : Nat}
  {track : Track}

theorem Offered.sends (h : Offered crypto hostOrder offerer answerer calls sender receiver)
    (htrack : offerer.localTracks.items[p]? = some track)
    (hplace : placeAfter p calls = some place) :
    ∃ track', sender.localTracks.items[place]? = some track' ∧ SameTrack track track' := by
  obtain ⟨-, -, hoffer, -, -, -, hsender, -⟩ := h
  rw [← createOffer_localTracks hoffer] at htrack
  exact sameTrack_run hsender htrack hplace

theorem Offered.receives (h : Offered crypto hostOrder offerer answerer calls sender receiver)
    (htrack : offerer.localTracks.items[p]? = some track) :
    ReceivesAs track p receiver ∧ receiver.config = answerer.config := by
  cases h with
  | @taken _ _ _ _ _ _ _ _ _ asked _ _ _ _ hofferer hoffers hoffer hopen hfresh hasked hsender
      hreceiver =>
      obtain ⟨rfl, hcarried, -, hmedia⟩ :=
        createOffer_carried (certified_run hofferer) hoffers hoffer
      obtain ⟨htracks, hconfig⟩ := setRemoteDescription_tracks hopen hfresh hcarried hasked
      have hpayload : (offeredMedia track).payloadType = track.payloadType :=
        (configured_run hofferer track (List.mem_of_getElem? htrack)).offered_payloadType
      have hshapes := shapes_run hreceiver
      have hannounced : remoteShapes asked = offerer.localTracks.items.map announced := by
        rw [remoteShapes, htracks, hmedia, List.map_map, List.map_map]
        rfl
      rw [hannounced] at hshapes
      refine ⟨⟨fun payloadType hsame => ?_, ?_⟩, (pcRun_roles hreceiver).config.trans hconfig⟩
      · refine matchTrack_of_shapes hshapes ?_
        rw [List.findIdx?_map, hsame, ← hpayload]
        exact findIdx?_of_nodup hoffers.payloadTypes htrack
      · have hshape : (remoteShapes receiver)[p]? = some (announced track) := by
          obtain ⟨later, hlater⟩ := hshapes
          have hlt := (List.getElem?_eq_some_iff.mp htrack).1
          rw [← hlater, List.getElem?_append_left (by rwa [List.length_map]),
            List.getElem?_map, htrack]
          rfl
        rw [remoteShapes, List.getElem?_map] at hshape
        obtain ⟨received, hreceived, hsame⟩ := Option.map_eq_some_iff.mp hshape
        obtain ⟨jb, hjb, hjbConfig⟩ := Option.map_eq_some_iff.mp (congrArg TrackShape.buffer hsame)
        refine ⟨received, jb, hreceived, congrArg TrackShape.kind hsame,
          congrArg TrackShape.codecId hsame, hjb, ?_⟩
        rw [hjbConfig]
        decide

theorem ReceivesAs.video {received : Track} {payloadType : UInt8} {left : List SentPacket}
    (h : ReceivesAs track p receiver)
    (hpayload : payloadType.toUInt32.toInt32 = track.payloadType) (hkind : track.kind = .video)
    (hcodec : track.codecId = .h264) (hobserved : receiver.config.observer.onVideoFrame = true)
    (hreceived : receiver.remoteTracks.items[p]? = some received)
    (hleft : Represents received.reassembly left) :
    ReceivesVideo payloadType p { receiver with srtpRx := none } left := by
  obtain ⟨received', jb, hreceived', hkind', hcodec', hjb, hsize⟩ := h.track
  cases hreceived.symm.trans hreceived'
  exact ⟨rfl, hobserved, h.matched payloadType hpayload, received, jb, hreceived,
    hkind'.trans hkind, hcodec'.trans hcodec, hjb, hsize, hleft⟩

theorem ReceivesAs.generic {payloadType : UInt8} (h : ReceivesAs track p receiver)
    (hpayload : payloadType.toUInt32.toInt32 = track.payloadType)
    (hobserved : ObservesKind receiver.config.observer track.kind) :
    ReceivesGeneric payloadType track.codecId track.kind p { receiver with srtpRx := none } :=
  ⟨rfl, hobserved, h.matched payloadType hpayload, h.track⟩

theorem sentPayloadType_of_same {track' : Track} (h : SameTrack track track') :
    sentPayloadType track' = sentPayloadType track := by
  rw [sentPayloadType, sentPayloadType, h.payloadType]

end

section

variable {crypto : Crypto} {hostOrder : UInt32 → List UInt8}
  {offerer answerer sender receiver : PeerConnection} {calls : List PcCall} {p place : Nat}
  {track current : Track} {first second : Bytes 16 × Bytes 14} {env : SendEnv}

/-- What has come of a frame, if anything, has another timestamp. -/
def HoldsOther (r : Reassembly) (timestamp : UInt32) : Prop :=
  ∃ left, Represents r left ∧ ∀ packet ∈ left.getLast?, packet.timestamp ≠ timestamp

end

def sampleParty (isInitiator : Bool) : PcConfig :=
  ⟨none, ⟨false, false, false, true, true⟩, isInitiator⟩

/-- A new connection with a video and an audio track. -/
def sampleOfferer : PeerConnection :=
  { tinyrtcPeerConnectionCreate (sampleParty true) with
    localTracks := (linkedConnection true).localTracks }

def sampleAnswerer : PeerConnection :=
  tinyrtcPeerConnectionCreate (sampleParty false)

/-- Both sides are ready, with the keys of each other, and no frame is under way. -/
def readyPair (sender receiver : PeerConnection) : Bool :=
  decide (sender.srtpInitialized = true ∧ receiver.srtpInitialized = true ∧
    sender.srtp.map keysOf = receiver.srtpRx.map keysOf ∧
    receiver.srtp.map keysOf = sender.srtpRx.map keysOf ∧
    sender.srtp.isSome = true ∧ receiver.srtp.isSome = true ∧
    pcIsSecureMediaReady sender = true ∧ (remoteAddr sender).isSome = true ∧
    (∀ received ∈ receiver.remoteTracks.items,
      received.reassembly.bytes = [] ∧ received.reassembly.active = false))

/-- The offer of the one goes to the other, which answers it, and both connect. -/
def sampleCall : Option (PeerConnection × PeerConnection) :=
  (tinyrtcPeerConnectionCreateOffer toyCrypto sampleDescriptionEnv sampleOfferer).bind
    fun offered => offered.1.toOption.bind fun offer =>
      (tinyrtcPeerConnectionSetRemoteDescription DescriptionExchange.sampleLocals (fun _ => true)
        sampleAnswerer offer).bind fun asked =>
          (pcCalls toyCrypto write32 (fun _ _ => True) offered.2.1 (sampleConnect [])).bind
            fun sending =>
              (pcCalls toyCrypto write32 (fun _ _ => True) asked.2.1
                (.createAnswer sampleDescriptionEnv :: sampleConnect [])).map
                  fun receiving => (sending.2, receiving.2)

theorem offers_sampleOfferer : Offers sampleOfferer := by
  refine ⟨fun track htrack => ?_, by decide⟩
  have hcases : track = linkedVideoTrack ∨ track = linkedAudioTrack := by
    simpa [sampleOfferer, linkedConnection] using htrack
  rcases hcases with rfl | rfl
  · exact ⟨lineText_of_isLineText rfl, by decide⟩
  · exact ⟨lineText_of_isLineText rfl, by decide⟩

theorem run_sampleOfferer : Run (PcStep toyCrypto write32)
    (tinyrtcPeerConnectionCreate (sampleParty true))
    [(.addTrack true (NegotiatedPayload.sampleVideoTrack 100), []),
      (.addTrack true ⟨.audio, ascii "a0", .pcmu, 0, 0, 0⟩, [])] sampleOfferer :=
  .cons rfl (.singleton rfl)

theorem offered_of_sampleCall {sender receiver : PeerConnection}
    (h : sampleCall = some (sender, receiver)) :
    Offered toyCrypto write32 sampleOfferer sampleAnswerer (sampleConnect []) sender receiver := by
  simp only [sampleCall, Option.bind_eq_some_iff, Option.map_eq_some_iff] at h
  obtain ⟨⟨offerText, offering, events⟩, hoffer, offer, hofferText, ⟨err, asked, events'⟩, hasked,
    ⟨sending, sender'⟩, hsending, ⟨receiving, receiver'⟩, hreceiving, hpair⟩ := h
  cases hpair
  cases offerText with
  | error _ => cases hofferText
  | ok _ =>
    cases hofferText
    have hoffered := Offered.taken run_sampleOfferer offers_sampleOfferer hoffer (by decide) rfl
      hasked ((run_pcCalls hsending).mono fun _ _ _ h => h.1)
      ((run_pcCalls hreceiving).mono fun _ _ _ h => h.1)
    rwa [map_fst_pcCalls hsending] at hoffered

theorem readyPair_spec {sender receiver : PeerConnection} (h : readyPair sender receiver = true) :
    ∃ first second, Secured first second sender ∧ Secured second first receiver ∧
      pcIsSecureMediaReady sender = true ∧ (remoteAddr sender).isSome = true ∧
      ∀ received ∈ receiver.remoteTracks.items, Represents received.reassembly [] := by
  obtain ⟨hsenderSet, hreceiverSet, hforth, hback, hsends, hanswers, hmedia, hremote, hidle⟩ :=
    of_decide_eq_true h
  obtain ⟨srtp, hsrtp⟩ := Option.isSome_iff_exists.mp hsends
  obtain ⟨srtp', hsrtp'⟩ := Option.isSome_iff_exists.mp hanswers
  rw [hsrtp, Option.map_some] at hforth
  rw [hsrtp', Option.map_some] at hback
  refine ⟨keysOf srtp, keysOf srtp', ⟨hsenderSet, ?_, hback.symm⟩,
    ⟨hreceiverSet, ?_, hforth.symm⟩, hmedia, hremote, fun received hmem => ?_⟩
  · rw [hsrtp, Option.map_some]
  · rw [hsrtp', Option.map_some]
  · obtain ⟨hbytes, hactive⟩ := hidle received hmem
    exact ⟨hbytes, hactive, by simp, by simp⟩

theorem exists_readyPair :
    ∃ sender receiver, sampleCall = some (sender, receiver) ∧
      readyPair sender receiver = true := by
  have hready : sampleCall.any (fun pair => readyPair pair.1 pair.2) = true := by decide +kernel
  obtain ⟨⟨sender, receiver⟩, hcall, hready⟩ := Option.any_eq_true _ _ |>.mp hready
  exact ⟨sender, receiver, hcall, hready⟩

theorem Offered.sendsWhole {sender receiver : PeerConnection} {p : Nat} {track : Track}
    (hoffered : Offered toyCrypto write32 sampleOfferer sampleAnswerer (sampleConnect []) sender
      receiver) (htrack : sampleOfferer.localTracks.items[p]? = some track)
    (hlocal : track.isLocal = true) (hready : pcIsSecureMediaReady sender = true)
    (hremote : (remoteAddr sender).isSome = true) (frame : List UInt8) :
    ∃ current, SendsWhole ⟨fun _ => true, fun _ => true⟩ sender p current frame := by
  obtain ⟨current, hcurrent, hsame⟩ := hoffered.sends htrack rfl
  exact ⟨current, hcurrent, hsame.isLocal.trans hlocal, hready, fun _ => rfl, fun _ => rfl, hremote⟩

end TinyRtc.NegotiatedMedia
