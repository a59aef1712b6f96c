import TinyRtc.Connection
import TinyRtc.SdpGenerator
import TinyRtc.SdpParser

namespace TinyRtc.Negotiation

open TinyRtc.Common
open TinyRtc.Connection
open TinyRtc.CString
open TinyRtc.Decimal
open TinyRtc.Dtls
open TinyRtc.Ice
open TinyRtc.Jitter
open TinyRtc.Sdp
open TinyRtc.SdpGenerator
open TinyRtc.SdpParser
open TinyRtc.SlotArray
open TinyRtc.Srtp

/-- What the world answers to a call that makes a local description: the clock at
its three readings, the certificate that a new DTLS context would get, the
allocations, and what gathering finds. -/
structure DescriptionEnv where
  clock : Fin 3 → UInt64
  certificate : Option (List UInt8)
  iceCallocOk : Bool
  gathering : GatheringEnv
  sdpMallocOk : Bool

def pcGenerateLocalIceCredentials (now : UInt64) (session : SdpSession) : SdpSession :=
  { session with
    iceUfrag := CStr.strncpy (ascii "tiny" ++ decimal now.toNat)
    icePwd := CStr.strncpy (ascii "rtc" ++ decimal (now + 12345).toNat ++ ascii "random") }

def pcDtlsRole (pc : PeerConnection) : DtlsRole :=
  if pc.config.isInitiator then .client else .server

def pcEnsureLocalDtlsMaterial (crypto : Crypto) (certificate : Option (List UInt8))
    (pc : PeerConnection) (session : SdpSession) : PeerConnection × SdpSession :=
  let pc :=
    if pc.dtls.isNone then { pc with dtls := dtlsInit crypto (pcDtlsRole pc) certificate } else pc
  match pc.dtls with
  | none => (pc, session)
  | some dtls =>
      if dtls.fingerprint.bytes = [] then (pc, session)
      else
        (pc,
          { session with
            fingerprintType := CStr.strncpy (ascii "sha-256")
            fingerprint := CStr.strncpy dtls.fingerprint.bytes })

theorem pcEnsureLocalDtlsMaterial_fst (crypto : Crypto) (certificate : Option (List UInt8))
    (pc : PeerConnection) (session : SdpSession) :
    (pcEnsureLocalDtlsMaterial crypto certificate pc session).1 =
      if pc.dtls.isNone then { pc with dtls := dtlsInit crypto (pcDtlsRole pc) certificate }
      else pc := by
  rw [pcEnsureLocalDtlsMaterial]
  split
  · rfl
  · split <;> rfl

/-- Only the fingerprint of the description is set. -/
theorem pcEnsureLocalDtlsMaterial_snd (crypto : Crypto) (certificate : Option (List UInt8))
    (pc : PeerConnection) (session : SdpSession) :
    ∃ fingerprintType fingerprint,
      (pcEnsureLocalDtlsMaterial crypto certificate pc session).2 =
        { session with fingerprintType := fingerprintType, fingerprint := fingerprint } := by
  rw [pcEnsureLocalDtlsMaterial]
  split
  · exact ⟨_, _, rfl⟩
  · split <;> exact ⟨_, _, rfl⟩

/-- The fields that both kinds of description set to the same values. -/
def descriptionDefaults (session : SdpSession) : SdpSession :=
  { session with
    version := 0
    unicastAddress := CStr.strncpy (ascii "0.0.0.0")
    sessionName := CStr.strncpy (ascii "TinyRTC")
    startTime := 0
    stopTime := 0 }

/-- The part of `tinyrtc_peer_connection_create_offer` and
`tinyrtc_peer_connection_create_answer` from the ICE session on. `none` when the
session is not there and the source reads its candidates all the same. -/
def pcGatherAndGenerate (env : DescriptionEnv) (pc : PeerConnection) :
    Option (Except TinyrtcError (List UInt8) × PeerConnection × List PcEvent) :=
  if !env.iceCallocOk then none
  else
    let (_, ice, outputs) := iceStartGathering env.gathering iceSessionCreate pc.config.stunServer
    let ice := pc.remoteSdp.candidates.items.foldl
      (fun ice candidate => (iceAddRemoteCandidate ice candidate).2) ice
    let candidates : Slots SdpCandidate tinyrtcMaxCandidates :=
      ⟨ice.localCandidates.items.map iceCandidateToSdp, by
        rw [List.length_map]
        exact ice.localCandidates.length_le⟩
    let pc := { pc with ice := some ice, localSdp := { pc.localSdp with candidates := candidates } }
    let notified :=
      if pc.config.observer.onIceCandidate then candidates.items.map IceOutput.candidate else []
    (sdpGenerate env.sdpMallocOk pc.localSdp).map fun text =>
      (text, pc, (outputs ++ notified).map .ice)

/-- What a call that gathers and generates leaves behind. -/
theorem pcGatherAndGenerate_cases {env : DescriptionEnv} {pc pc' : PeerConnection}
    {text : Except TinyrtcError (List UInt8)} {events : List PcEvent}
    (h : pcGatherAndGenerate env pc = some (text, pc', events)) :
    ∃ (candidates : Slots SdpCandidate tinyrtcMaxCandidates) (outputs : List IceOutput),
      pc' = { pc with
        ice := some (pc.remoteSdp.candidates.items.foldl
          (fun ice candidate => (iceAddRemoteCandidate ice candidate).2)
          (iceStartGathering env.gathering iceSessionCreate pc.config.stunServer).2.1)
        localSdp := { pc.localSdp with candidates := candidates } } ∧
      events = outputs.map PcEvent.ice := by
  rw [pcGatherAndGenerate] at h
  split at h
  · cases h
  · obtain ⟨text', -, hresult⟩ := Option.map_eq_some_iff.mp h
    cases hresult
    exact ⟨_, _, rfl, rfl⟩

/-- The entry that the offer gets for a local track. -/
def offerConfig (track : Track) : TrackConfig where
  kind := track.kind
  mid := track.mid.bytes
  codecId := track.codecId
  payloadType := track.payloadType
  clockRate := track.clockRate
  channels := 0

def tinyrtcPeerConnectionCreateOffer (crypto : Crypto) (env : DescriptionEnv)
    (pc : PeerConnection) :
    Option (Except TinyrtcError (List UInt8) × PeerConnection × List PcEvent) :=
  if pc.state = .closed then some (.error .invalidState, pc, [])
  else
    let pc := { pc with state := .connecting }
    let offer := descriptionDefaults
      { sdpSessionInit with
        username := CStr.strncpy (ascii "-")
        sessionId := env.clock 0
        sessionVersion := env.clock 1
        networkType := CStr.strncpy (ascii "IN")
        addressType := CStr.strncpy (ascii "IP4") }
    let offer := pcGenerateLocalIceCredentials (env.clock 2) offer
    let offer := { offer with dtlsSetup := CStr.strncpy (ascii "actpass") }
    let (pc, offer) := pcEnsureLocalDtlsMaterial crypto env.certificate pc offer
    let offer := pc.localTracks.items.foldl
      (fun offer track => (sdpAddMedia offer (offerConfig track)).getD offer) offer
    pcGatherAndGenerate env { pc with localSdp := offer }

/-- The entry that the answer gets for a remote media entry. -/
def answerConfig (media : SdpMedia) : TrackConfig where
  kind := media.kind
  mid := media.mid.bytes
  codecId := media.codecId
  payloadType := media.payloadType
  clockRate := media.clockRate
  channels := media.channels

def tinyrtcPeerConnectionCreateAnswer (crypto : Crypto) (env : DescriptionEnv)
    (pc : PeerConnection) :
    Option (Except TinyrtcError (List UInt8) × PeerConnection × List PcEvent) :=
  if pc.state = .closed then some (.error .invalidState, pc, [])
  else
    let pc := { pc with state := .connecting }
    let answer := descriptionDefaults
      { sdpSessionInit with
        username := pc.remoteSdp.username
        sessionId := pc.remoteSdp.sessionId
        sessionVersion := pc.remoteSdp.sessionVersion + 1
        networkType := pc.remoteSdp.networkType
        addressType := pc.remoteSdp.addressType }
    let answer := pcGenerateLocalIceCredentials (env.clock 2) answer
    let answer := { answer with dtlsSetup := CStr.strncpy (ascii "active") }
    let (pc, answer) := pcEnsureLocalDtlsMaterial crypto env.certificate pc answer
    let answer := pc.remoteSdp.media.items.foldl
      (fun answer media =>
        if pc.localTracks.items.any fun track => track.kind == media.kind then
          (sdpAddMedia answer (answerConfig media)).getD answer
        else answer) answer
    pcGatherAndGenerate env { pc with localSdp := answer }

/-- The track that a remote media entry becomes. -/
def remoteTrackOfMedia (media : SdpMedia) : Track where
  kind := media.kind
  codecId := media.codecId
  mid := media.mid
  payloadType := media.payloadType
  clockRate := media.clockRate
  isLocal := false
  nextSequence := 0
  jitterBuffer := some (tinyrtcJitterBufferCreate tinyrtcJitterGetDefaultConfig)
  reassembly := .zero
  framesSent := 0
  bytesSent := 0
  packetsReceived := 0
  framesReceived := 0

/-- One turn of the loop over the remote media. `trackOk i` says whether the track
and the jitter buffer for entry `i` can be allocated. -/
def addRemoteTrack (trackOk : Nat → Bool) (state : PeerConnection × List PcEvent)
    (entry : SdpMedia × Nat) : PeerConnection × List PcEvent :=
  let (pc, events) := state
  let (media, i) := entry
  if !trackOk i then (pc, events)
  else
    match pc.remoteTracks.push? (remoteTrackOfMedia media) with
    | none => (pc, events)
    | some tracks =>
        ({ pc with remoteTracks := tracks },
          if pc.config.observer.onTrackAdded then events ++ [.trackAdded pc.remoteTracks.count]
          else events)

def addRemoteTracks (trackOk : Nat → Bool) (media : List SdpMedia) (pc : PeerConnection) :
    PeerConnection × List PcEvent :=
  media.zipIdx.foldl (addRemoteTrack trackOk) (pc, [])

/-- `none` when the parser reads past the end of the text. -/
def tinyrtcPeerConnectionSetRemoteDescription (locals : Locals) (trackOk : Nat → Bool)
    (pc : PeerConnection) (sdp : List UInt8) :
    Option (TinyrtcError × PeerConnection × List PcEvent) :=
  if pc.state = .closed then some (.invalidState, pc, [])
  else
    (sdpParse locals sdp).map fun (err, session) =>
      let pc := { pc with remoteSdp := session }
      if err ≠ .ok then (err, pc, [])
      else
        let (pc, events) := addRemoteTracks trackOk session.media.items pc
        let ice := pc.ice.map fun ice =>
          session.candidates.items.foldl
            (fun ice candidate => (iceAddRemoteCandidate ice candidate).2) ice
        (.ok, { pc with ice := ice }, events)

def tinyrtcPeerConnectionAddIceCandidate (pc : PeerConnection) (candidate : IceCandidate) :
    TinyrtcError × PeerConnection :=
  if !strcaseEq candidate.protocol (ascii "udp") then (.ok, pc)
  else
    match sdpAddCandidate pc.remoteSdp candidate with
    | none => (.error, pc)
    | some remoteSdp =>
        let pc := { pc with remoteSdp := remoteSdp }
        match pc.ice with
        | none => (.ok, pc)
        | some ice =>
            let (iceErr, ice) := iceAddRemoteCandidate ice (sdpCandidateOfIce candidate)
            (iceErr, { pc with ice := some ice })

end TinyRtc.Negotiation
