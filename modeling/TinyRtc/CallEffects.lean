import TinyRtc.LabelledRuns
import TinyRtc.ProcessEvents
import TinyRtc.SendSteps

namespace TinyRtc.CallEffects

open TinyRtc.Common
open TinyRtc.Connection
open TinyRtc.Dtls
open TinyRtc.Ice
open TinyRtc.IncomingRtp
open TinyRtc.Inet
open TinyRtc.LabelledRuns
open TinyRtc.MediaSend
open TinyRtc.Negotiation
open TinyRtc.Packetization
open TinyRtc.ProcessEvents
open TinyRtc.Sdp
open TinyRtc.SdpParser
open TinyRtc.SendSteps
open TinyRtc.SlotArray
open TinyRtc.Srtp
open TinyRtc.Stun

/-- The media callbacks. -/
def IsFrame : PcEvent → Prop
  | .audioFrame _ _ _ => True
  | .videoFrame _ _ _ => True
  | _ => False

/-- The callbacks that carry no media, and what ICE sends. -/
def IsNotice : PcEvent → Prop
  | .ice _ => True
  | .connectionStateChange _ => True
  | .trackAdded _ => True
  | _ => False

def IsRtp : PcEvent → Prop
  | .rtp _ _ _ => True
  | _ => False

instance : DecidablePred IsFrame
  | .audioFrame _ _ _ => isTrue trivial
  | .videoFrame _ _ _ => isTrue trivial
  | .ice _ => isFalse id
  | .connectionStateChange _ => isFalse id
  | .trackAdded _ => isFalse id
  | .rtp _ _ _ => isFalse id

/-- The receiving side of SRTP is as it was, and a handshake that is over was over
before. -/
structure KeepsSecurity (pc pc' : PeerConnection) : Prop where
  srtpInitialized : pc'.srtpInitialized = pc.srtpInitialized
  srtpRx : pc'.srtpRx = pc.srtpRx
  handshake : ∀ dtls, pc'.dtls = some dtls → dtls.handshakeComplete = true → pc.dtls = some dtls

/-- So is what the remote description says about the certificate. -/
structure KeepsRemote (pc pc' : PeerConnection) : Prop extends KeepsSecurity pc pc' where
  fingerprint : pc'.remoteSdp.fingerprint = pc.remoteSdp.fingerprint

section

variable {pc pc' pc'' : PeerConnection}

theorem KeepsSecurity.of_eq (hinitialized : pc'.srtpInitialized = pc.srtpInitialized)
    (hrx : pc'.srtpRx = pc.srtpRx) (hdtls : pc'.dtls = pc.dtls) : KeepsSecurity pc pc' :=
  ⟨hinitialized, hrx, fun _ h _ => hdtls ▸ h⟩

theorem KeepsSecurity.refl (pc : PeerConnection) : KeepsSecurity pc pc :=
  .of_eq rfl rfl rfl

theorem KeepsSecurity.trans (hfirst : KeepsSecurity pc pc') (hsecond : KeepsSecurity pc' pc'') :
    KeepsSecurity pc pc'' where
  srtpInitialized := hsecond.srtpInitialized.trans hfirst.srtpInitialized
  srtpRx := hsecond.srtpRx.trans hfirst.srtpRx
  handshake dtls hdtls hover := hfirst.handshake dtls (hsecond.handshake dtls hdtls hover) hover

theorem KeepsRemote.of_eq (hinitialized : pc'.srtpInitialized = pc.srtpInitialized)
    (hrx : pc'.srtpRx = pc.srtpRx) (hdtls : pc'.dtls = pc.dtls)
    (hremote : pc'.remoteSdp.fingerprint = pc.remoteSdp.fingerprint) : KeepsRemote pc pc' :=
  ⟨.of_eq hinitialized hrx hdtls, hremote⟩

theorem KeepsRemote.refl (pc : PeerConnection) : KeepsRemote pc pc :=
  ⟨.refl pc, rfl⟩

theorem KeepsRemote.trans (hfirst : KeepsRemote pc pc') (hsecond : KeepsRemote pc' pc'') :
    KeepsRemote pc pc'' :=
  ⟨hfirst.toKeepsSecurity.trans hsecond.toKeepsSecurity,
    hsecond.fingerprint.trans hfirst.fingerprint⟩

end

theorem IsRtp.not_isFrame {event : PcEvent} (h : IsRtp event) : ¬ IsFrame event := by
  cases event with
  | rtp dest packet accepted => exact id
  | _ => exact h.elim

theorem IsNotice.not_isFrame {event : PcEvent} (h : IsNotice event) : ¬ IsFrame event := by
  cases event with
  | audioFrame track frame timestamp => exact h.elim
  | videoFrame track frame timestamp => exact h.elim
  | _ => exact id

theorem IsNotice.not_isRtp {event : PcEvent} (h : IsNotice event) : ¬ IsRtp event := by
  cases event with
  | rtp dest packet accepted => exact h.elim
  | _ => exact id

theorem isNotice_of_mem_map_ice {outputs : List IceOutput} {event : PcEvent}
    (h : event ∈ outputs.map .ice) : IsNotice event := by
  obtain ⟨output, -, rfl⟩ := List.mem_map.mp h
  trivial

theorem pcEnsureLocalDtlsMaterial_keeps (crypto : Crypto) (certificate : Option (List UInt8))
    (pc : PeerConnection) (session : SdpSession) :
    KeepsRemote pc (pcEnsureLocalDtlsMaterial crypto certificate pc session).1 := by
  rw [pcEnsureLocalDtlsMaterial_fst]
  split
  · refine ⟨⟨rfl, rfl, ?_⟩, rfl⟩
    intro dtls hinit hover
    obtain ⟨certificate', -, rfl⟩ := Option.map_eq_some_iff.mp hinit
    cases hover
  · exact .refl pc

section

variable {crypto : Crypto} {env : DescriptionEnv} {pc pc' : PeerConnection}
  {text : Except TinyrtcError (List UInt8)} {events : List PcEvent}

theorem pcGatherAndGenerate_keeps (h : pcGatherAndGenerate env pc = some (text, pc', events)) :
    KeepsRemote pc pc' ∧ ∀ event ∈ events, IsNotice event := by
  obtain ⟨candidates, outputs, rfl, rfl⟩ := pcGatherAndGenerate_cases h
  exact ⟨.of_eq rfl rfl rfl rfl, fun _ => isNotice_of_mem_map_ice⟩

theorem makeDescription_keeps {session localSdp : SdpSession}
    (h : pcGatherAndGenerate env
      { (pcEnsureLocalDtlsMaterial crypto env.certificate
          { pc with state := .connecting } session).1 with localSdp := localSdp } =
        some (text, pc', events)) :
    KeepsRemote pc pc' ∧ ∀ event ∈ events, IsNotice event := by
  obtain ⟨hgenerate, hevents⟩ := pcGatherAndGenerate_keeps h
  have hconnecting : KeepsRemote pc { pc with state := .connecting } := .of_eq rfl rfl rfl rfl
  have hensure := hconnecting.trans
    (pcEnsureLocalDtlsMaterial_keeps crypto env.certificate { pc with state := .connecting } session)
  refine ⟨hensure.trans (KeepsRemote.trans ?_ hgenerate), hevents⟩
  exact .of_eq rfl rfl rfl rfl

theorem createOffer_keeps
    (h : tinyrtcPeerConnectionCreateOffer crypto env pc = some (text, pc', events)) :
    KeepsRemote pc pc' ∧ ∀ event ∈ events, IsNotice event := by
  rw [tinyrtcPeerConnectionCreateOffer] at h
  split at h
  · cases h
    exact ⟨.refl pc, by simp⟩
  · exact makeDescription_keeps h

theorem createAnswer_keeps
    (h : tinyrtcPeerConnectionCreateAnswer crypto env pc = some (text, pc', events)) :
    KeepsRemote pc pc' ∧ ∀ event ∈ events, IsNotice event := by
  rw [tinyrtcPeerConnectionCreateAnswer] at h
  split at h
  · cases h
    exact ⟨.refl pc, by simp⟩
  · exact makeDescription_keeps h

/-- What a call that makes a description may change. -/
theorem makeDescription_frame {session localSdp : SdpSession}
    (h : pcGatherAndGenerate env
      { (pcEnsureLocalDtlsMaterial crypto env.certificate
          { pc with state := .connecting } session).1 with localSdp := localSdp } =
        some (text, pc', events)) :
    ∃ localSdp' ice dtls, pc' =
      { pc with
        state := .connecting
        localSdp := localSdp'
        ice := some ice
        dtls := dtls } := by
  have hensure : ∃ dtls, (pcEnsureLocalDtlsMaterial crypto env.certificate
      { pc with state := .connecting } session).1 =
        { pc with state := .connecting, dtls := dtls } := by
    rw [pcEnsureLocalDtlsMaterial_fst]
    split
    · exact ⟨_, rfl⟩
    · exact ⟨_, rfl⟩
  obtain ⟨dtls, hensure⟩ := hensure
  obtain ⟨candidates, outputs, rfl, rfl⟩ := pcGatherAndGenerate_cases h
  rw [hensure]
  exact ⟨_, _, _, rfl⟩

theorem createOffer_frame
    (h : tinyrtcPeerConnectionCreateOffer crypto env pc = some (text, pc', events)) :
    ∃ state localSdp ice dtls, pc' =
      { pc with state := state, localSdp := localSdp, ice := ice, dtls := dtls } := by
  rw [tinyrtcPeerConnectionCreateOffer] at h
  split at h
  · cases h
    exact ⟨_, _, _, _, rfl⟩
  · obtain ⟨localSdp, ice, dtls, rfl⟩ := makeDescription_frame h
    exact ⟨_, _, _, _, rfl⟩

theorem createAnswer_frame
    (h : tinyrtcPeerConnectionCreateAnswer crypto env pc = some (text, pc', events)) :
    ∃ state localSdp ice dtls, pc' =
      { pc with state := state, localSdp := localSdp, ice := ice, dtls := dtls } := by
  rw [tinyrtcPeerConnectionCreateAnswer] at h
  split at h
  · cases h
    exact ⟨_, _, _, _, rfl⟩
  · obtain ⟨localSdp, ice, dtls, rfl⟩ := makeDescription_frame h
    exact ⟨_, _, _, _, rfl⟩

end

theorem addRemoteTrack_cases (trackOk : Nat → Bool) (state : PeerConnection × List PcEvent)
    (entry : SdpMedia × Nat) (hevents : ∀ event ∈ state.2, IsNotice event) :
    (∃ remoteTracks, (addRemoteTrack trackOk state entry).1 =
        { state.1 with remoteTracks := remoteTracks }) ∧
      ∀ event ∈ (addRemoteTrack trackOk state entry).2, IsNotice event := by
  rw [addRemoteTrack]
  split
  · exact ⟨⟨_, rfl⟩, hevents⟩
  · split
    · exact ⟨⟨_, rfl⟩, hevents⟩
    · refine ⟨⟨_, rfl⟩, ?_⟩
      dsimp only
      split
      · intro event hevent
        rcases List.mem_append.mp hevent with hevent | hevent
        · exact hevents event hevent
        · rw [List.mem_singleton.mp hevent]
          trivial
      · exact hevents

theorem addRemoteTracks_cases (trackOk : Nat → Bool) (media : List SdpMedia)
    (pc : PeerConnection) :
    (∃ remoteTracks, (addRemoteTracks trackOk media pc).1 =
        { pc with remoteTracks := remoteTracks }) ∧
      ∀ event ∈ (addRemoteTracks trackOk media pc).2, IsNotice event := by
  have hfold : ∀ (entries : List (SdpMedia × Nat)) (state : PeerConnection × List PcEvent),
      (∀ event ∈ state.2, IsNotice event) →
        (∃ remoteTracks, (entries.foldl (addRemoteTrack trackOk) state).1 =
            { state.1 with remoteTracks := remoteTracks }) ∧
          ∀ event ∈ (entries.foldl (addRemoteTrack trackOk) state).2, IsNotice event := by
    intro entries
    induction entries with
    | nil => exact fun state hevents => ⟨⟨_, rfl⟩, hevents⟩
    | cons entry entries ih =>
        intro state hevents
        obtain ⟨⟨added, hadd⟩, hstep⟩ := addRemoteTrack_cases trackOk state entry hevents
        obtain ⟨⟨remoteTracks, hrest⟩, hfinal⟩ := ih _ hstep
        refine ⟨⟨remoteTracks, hrest.trans ?_⟩, hfinal⟩
        rw [hadd]
  exact hfold _ (pc, []) (by simp)

/-- The courses of a call that sets a remote description: the connection is closed, the
parser fails behind what it has stored, or the description is taken. -/
theorem setRemoteDescription_cases {locals : Locals} {trackOk : Nat → Bool}
    {pc pc' : PeerConnection} {sdp : List UInt8} {err : TinyrtcError} {events : List PcEvent}
    (h : tinyrtcPeerConnectionSetRemoteDescription locals trackOk pc sdp =
      some (err, pc', events)) :
    (pc.state = .closed ∧ pc' = pc ∧ events = []) ∨
      ∃ session, sdpParse locals sdp = some (err, session) ∧
        ((err ≠ .ok ∧ pc' = { pc with remoteSdp := session } ∧ events = []) ∨
          err = .ok ∧ (∃ remoteTracks, pc' = { pc with
            remoteSdp := session
            remoteTracks := remoteTracks
            ice := pc.ice.map fun ice => session.candidates.items.foldl
              (fun ice candidate => (iceAddRemoteCandidate ice candidate).2) ice }) ∧
            ∀ event ∈ events, IsNotice event) := by
  rw [tinyrtcPeerConnectionSetRemoteDescription] at h
  split at h
  · next hclosed =>
    cases h
    exact .inl ⟨hclosed, rfl, rfl⟩
  · obtain ⟨⟨err', session⟩, hparse, hresult⟩ := Option.map_eq_some_iff.mp h
    dsimp only at hresult
    split at hresult
    · next herr =>
      cases hresult
      exact .inr ⟨session, hparse, .inl ⟨herr, rfl, rfl⟩⟩
    · next hok =>
      obtain ⟨⟨remoteTracks, hadd⟩, hevents⟩ := addRemoteTracks_cases trackOk session.media.items
        { pc with remoteSdp := session }
      rw [not_not] at hok
      subst hok
      cases hresult
      refine .inr ⟨session, hparse, .inr ⟨rfl, ⟨remoteTracks, ?_⟩, hevents⟩⟩
      rw [hadd]

theorem setRemoteDescription_keeps {locals : Locals} {trackOk : Nat → Bool}
    {pc pc' : PeerConnection} {sdp : List UInt8} {err : TinyrtcError} {events : List PcEvent}
    (h : tinyrtcPeerConnectionSetRemoteDescription locals trackOk pc sdp =
      some (err, pc', events)) :
    KeepsSecurity pc pc' ∧ ∀ event ∈ events, IsNotice event := by
  rcases setRemoteDescription_cases h with
    ⟨-, rfl, rfl⟩ | ⟨session, -, ⟨-, rfl, rfl⟩ | ⟨-, ⟨remoteTracks, rfl⟩, hevents⟩⟩
  · exact ⟨.refl pc', by simp⟩
  · exact ⟨.of_eq rfl rfl rfl, by simp⟩
  · exact ⟨.of_eq rfl rfl rfl, hevents⟩

section

variable (pc : PeerConnection)

theorem addTrack_frame (callocOk : Bool) (config : TrackConfig) :
    ∃ localTracks, (tinyrtcPeerConnectionAddTrack callocOk pc config).getD pc =
      { pc with localTracks := localTracks } := by
  rw [tinyrtcPeerConnectionAddTrack]
  split
  · exact ⟨_, rfl⟩
  · cases pc.localTracks.push? (localTrackOfConfig config) with
    | none => exact ⟨_, rfl⟩
    | some tracks => exact ⟨_, rfl⟩

theorem removeTrack_frame (track : Nat) :
    ∃ localTracks, (tinyrtcPeerConnectionRemoveTrack pc track).2 =
      { pc with localTracks := localTracks } := by
  rw [tinyrtcPeerConnectionRemoveTrack]
  split
  · exact ⟨_, rfl⟩
  · exact ⟨_, rfl⟩

theorem addIceCandidate_frame (candidate : IceCandidate) :
    ∃ remoteSdp ice, (tinyrtcPeerConnectionAddIceCandidate pc candidate).2 =
        { pc with remoteSdp := remoteSdp, ice := ice } ∧
      remoteSdp.fingerprint = pc.remoteSdp.fingerprint := by
  rw [tinyrtcPeerConnectionAddIceCandidate]
  split
  · exact ⟨_, _, rfl, rfl⟩
  · split
    · exact ⟨_, _, rfl, rfl⟩
    · next remoteSdp hadd =>
      obtain ⟨candidates, -, rfl⟩ := Option.map_eq_some_iff.mp hadd
      dsimp only
      split
      · exact ⟨_, _, rfl, rfl⟩
      · exact ⟨_, _, rfl, rfl⟩

end

theorem packetizeSendCallback_events {crypto : Crypto} {pc : PeerConnection} {track : Track}
    {timestamp : UInt32} {sent : Bool} {s s' : SendState} {callback : PacketCallback}
    (h : packetizeSendCallback crypto pc track timestamp sent s callback = some s')
    (hs : ∀ event ∈ s.events, IsRtp event) : ∀ event ∈ s'.events, IsRtp event := by
  cases packetizeSendCallback_step h with
  | failed => exact hs
  | handed =>
      intro event hevent
      rcases List.mem_append.mp hevent with hevent | hevent
      · exact hs event hevent
      · rw [List.mem_singleton.mp hevent]
        trivial

theorem sendCallbacks_events {crypto : Crypto} {pc : PeerConnection} {track : Track}
    {timestamp : UInt32} {sent : Nat → Bool} {i : Nat} {callbacks : List PacketCallback}
    {s s' : SendState} (h : sendCallbacks crypto pc track timestamp sent i callbacks s = some s')
    (hs : ∀ event ∈ s.events, IsRtp event) : ∀ event ∈ s'.events, IsRtp event := by
  induction callbacks generalizing i s with
  | nil =>
      cases h
      exact hs
  | cons callback callbacks ih =>
      obtain ⟨next, hnext, hrest⟩ := Option.bind_eq_some_iff.mp h
      exact ih hrest (packetizeSendCallback_events hnext hs)

theorem trackSendFrame_cases {crypto : Crypto} {env : SendEnv} {pc pc' : PeerConnection}
    {track : Nat} {frame : List UInt8} {timestamp : UInt32} {err : TinyrtcError}
    {events : List PcEvent}
    (h : trackSendFrame crypto env pc track frame timestamp = some (err, pc', events)) :
    (∃ srtp localTracks, pc' = { pc with srtp := srtp, localTracks := localTracks }) ∧
      ∀ event ∈ events, IsRtp event := by
  cases trackSendFrame_course h with
  | refused hrefused => exact ⟨⟨_, _, rfl⟩, by simp⟩
  | sent htrack hlocal hready hsends =>
      exact ⟨⟨_, _, rfl⟩, sendCallbacks_events hsends fun _ h => absurd h List.not_mem_nil⟩

theorem trackSendFrame_keeps {crypto : Crypto} {env : SendEnv} {pc pc' : PeerConnection}
    {track : Nat} {frame : List UInt8} {timestamp : UInt32} {err : TinyrtcError}
    {events : List PcEvent}
    (h : trackSendFrame crypto env pc track frame timestamp = some (err, pc', events)) :
    KeepsRemote pc pc' ∧ ∀ event ∈ events, ¬ IsFrame event := by
  obtain ⟨⟨srtp, localTracks, rfl⟩, hevents⟩ := trackSendFrame_cases h
  exact ⟨.of_eq rfl rfl rfl rfl, fun event hevent => (hevents event hevent).not_isFrame⟩

theorem frameEvents_isFrame (observer : PcObserver) (kind : TrackKind) (track : Nat)
    (frame : List UInt8) (timestamp : UInt32) :
    ∀ event ∈ frameEvents observer kind track frame timestamp, IsFrame event := by
  intro event hevent
  cases kind with
  | audio =>
      simp only [frameEvents] at hevent
      split at hevent
      · rw [List.mem_singleton.mp hevent]
        trivial
      · cases hevent
  | video =>
      simp only [frameEvents] at hevent
      split at hevent
      · rw [List.mem_singleton.mp hevent]
        trivial
      · cases hevent

theorem processPlainRtp_cases {env : IncomingEnv} {pc pc' : PeerConnection} {packet : List UInt8}
    {err : TinyrtcError} {events : List PcEvent}
    (h : processPlainRtp env pc packet = some (err, pc', events)) :
    (∃ remoteTracks, pc' = { pc with remoteTracks := remoteTracks }) ∧
      ∀ event ∈ events, IsFrame event := by
  rw [processPlainRtp] at h
  split at h
  · cases h
    exact ⟨⟨_, rfl⟩, by simp⟩
  · split at h
    · cases h
      exact ⟨⟨_, rfl⟩, by simp⟩
    · split at h
      · cases h
        exact ⟨⟨_, rfl⟩, by simp⟩
      · obtain ⟨⟨err', jb⟩, -, hresult⟩ := Option.map_eq_some_iff.mp h
        dsimp only at hresult
        split at hresult
        · cases hresult
          exact ⟨⟨_, rfl⟩, by simp⟩
        · cases hresult
          refine ⟨⟨_, rfl⟩, ?_⟩
          split
          · simp
          · exact frameEvents_isFrame _ _ _ _ _

theorem pcProcessIncomingRtp_parts {crypto : Crypto} {env : IncomingEnv} {pc pc' : PeerConnection}
    {packet : List UInt8} {err : TinyrtcError} {events : List PcEvent}
    (h : pcProcessIncomingRtp crypto env pc packet = some (err, pc', events)) :
    (∃ srtpRx remoteTracks, pc' = { pc with srtpRx := srtpRx, remoteTracks := remoteTracks }) ∧
      ∀ event ∈ events, IsFrame event := by
  rw [pcProcessIncomingRtp] at h
  split at h
  · obtain ⟨⟨remoteTracks, rfl⟩, hevents⟩ := processPlainRtp_cases h
    exact ⟨⟨_, remoteTracks, rfl⟩, hevents⟩
  · dsimp only at h
    split at h
    · cases h
      exact ⟨⟨_, _, rfl⟩, by simp⟩
    · obtain ⟨⟨remoteTracks, rfl⟩, hevents⟩ := processPlainRtp_cases h
      exact ⟨⟨_, remoteTracks, rfl⟩, hevents⟩

/-- What a datagram changes: the ICE session, the DTLS context if the datagram goes there,
and what media changes. -/
theorem processDatagram_parts {crypto : Crypto} {input : EventInput} {pc pc' : PeerConnection}
    {ice : IceSession} {datagram : Datagram} {events : List PcEvent}
    (h : processDatagram crypto input pc ice datagram = some (pc', events)) :
    ∃ dtls srtpRx remoteTracks media,
      pc' = { pc with
        ice := some (iceProcessPacket crypto pc.icePeer ice datagram).2.1
        dtls := dtls
        srtpRx := srtpRx
        remoteTracks := remoteTracks } ∧
      events = (iceProcessPacket crypto pc.icePeer ice datagram).2.2.map .ice ++ media ∧
      (∀ event ∈ media, IsFrame event) ∧
      (dtls = pc.dtls ∨ ∃ context, pc.dtls = some context ∧
        dtls = some (dtlsProcessData context input.firstHandshake input.secondHandshake
          datagram.bytes.length).2) := by
  have hmediaPath : ∀ ice' (outputs : List PcEvent),
      (pcProcessIncomingRtp crypto input.incoming { pc with ice := some ice' }
        datagram.bytes).map (fun x => (x.2.1, outputs ++ x.2.2)) = some (pc', events) →
      ∃ srtpRx remoteTracks media,
        pc' = { pc with ice := some ice', srtpRx := srtpRx, remoteTracks := remoteTracks } ∧
        events = outputs ++ media ∧ ∀ event ∈ media, IsFrame event := by
    intro ice' outputs hmap
    obtain ⟨⟨err, pc'', media⟩, hincoming, hresult⟩ := Option.map_eq_some_iff.mp hmap
    cases hresult
    obtain ⟨⟨srtpRx, remoteTracks, rfl⟩, hmedia⟩ := pcProcessIncomingRtp_parts hincoming
    exact ⟨srtpRx, remoteTracks, media, rfl, rfl, hmedia⟩
  rw [processDatagram] at h
  dsimp only at h
  split at h
  · cases h
    exact ⟨_, _, _, [], rfl, (List.append_nil _).symm, by simp, .inl rfl⟩
  · split at h
    · next context hdtls =>
      split at h
      · cases h
        exact ⟨_, _, _, [], rfl, (List.append_nil _).symm, by simp, .inr ⟨context, hdtls, rfl⟩⟩
      · obtain ⟨srtpRx, remoteTracks, media, hpc', hevents, hmedia⟩ := hmediaPath _ _ h
        exact ⟨_, srtpRx, remoteTracks, media, hpc', hevents, hmedia, .inl rfl⟩
    · obtain ⟨srtpRx, remoteTracks, media, hpc', hevents, hmedia⟩ := hmediaPath _ _ h
      exact ⟨_, srtpRx, remoteTracks, media, hpc', hevents, hmedia, .inl rfl⟩

/-- A round: the datagram, and then the checks of ICE, the callback and the handshake. -/
theorem processEvents_parts {crypto : Crypto} {hostOrder : UInt32 → List UInt8}
    {input : EventInput} {pc pc' : PeerConnection} {events : List PcEvent}
    (h : tinyrtcProcessEvents crypto hostOrder input pc = some (pc', events)) :
    ∃ received, (received = pc ∨ ∃ ice datagram receivedEvents, pc.ice = some ice ∧
        processDatagram crypto input pc ice datagram = some (received, receivedEvents)) ∧
      (pc' = received ∨ ∃ ice, (∃ ice', received.ice = some ice' ∧
          ice = (iceCheckConnectivity crypto received.icePeer ice' input.now input.checkClock).1) ∧
        pc' = pollDtls crypto hostOrder input
          (notifyConnected crypto input { received with ice := some ice } ice).1 ice) := by
  rw [tinyrtcProcessEvents] at h
  split at h
  · cases h
    exact ⟨pc, .inl rfl, .inl rfl⟩
  · next ice hice =>
    split at h
    · cases h
      exact ⟨pc, .inl rfl, .inl rfl⟩
    · obtain ⟨⟨received, receivedEvents⟩, hreceived, hresult⟩ := Option.map_eq_some_iff.mp h
      refine ⟨received, ?_, ?_⟩
      · split at hreceived
        · cases hreceived
          exact .inl rfl
        · split at hreceived
          · cases hreceived
            exact .inl rfl
          · exact .inr ⟨_, _, _, hice, hreceived⟩
      · dsimp only at hresult
        split at hresult
        · cases hresult
          exact .inl rfl
        · next ice' hice' =>
          cases hresult
          exact .inr ⟨_, ⟨ice', hice', rfl⟩, rfl⟩

theorem notifyConnected_frame (crypto : Crypto) (input : EventInput) (pc : PeerConnection)
    (ice : IceSession) :
    (∃ state dtls, (notifyConnected crypto input pc ice).1 =
        { pc with state := state, dtls := dtls }) ∧
      ∀ event ∈ (notifyConnected crypto input pc ice).2, IsNotice event := by
  rw [notifyConnected]
  split
  · refine ⟨⟨_, _, rfl⟩, ?_⟩
    dsimp only
    split
    · intro event hevent
      rw [List.mem_singleton.mp hevent]
      trivial
    · simp
  · exact ⟨⟨_, _, rfl⟩, by simp⟩

/-- Setting up SRTP fills in both contexts, or does nothing. -/
theorem pcInitializeSrtpAfterDtls_cases (crypto : Crypto) (hostOrder : UInt32 → List UInt8)
    (env : SrtpSetupEnv) (pc : PeerConnection) :
    (pcInitializeSrtpAfterDtls crypto hostOrder env pc).2 = pc ∨
      ∃ srtp srtpRx, (pcInitializeSrtpAfterDtls crypto hostOrder env pc).2 =
        { pc with srtp := some srtp, srtpRx := some srtpRx, srtpInitialized := true } := by
  rw [pcInitializeSrtpAfterDtls]
  split
  · exact .inl rfl
  · split
    · exact .inl rfl
    · dsimp only
      split
      · exact .inl rfl
      · exact .inr ⟨_, _, rfl⟩

/-- The last part of a round goes on with the handshake, and may set up SRTP behind a
handshake that is over. -/
theorem pollDtls_cases (crypto : Crypto) (hostOrder : UInt32 → List UInt8) (input : EventInput)
    (pc : PeerConnection) (ice : IceSession) :
    pollDtls crypto hostOrder input pc ice = pc ∨
      ∃ dtls polled, pc.dtls = some dtls ∧ pc.srtpInitialized = false ∧
        polled = (dtlsPollHandshake dtls input.pollHandshake).2 ∧
        (pollDtls crypto hostOrder input pc ice = { pc with dtls := some polled } ∨
          polled.handshakeComplete = true ∧ ∃ srtp srtpRx,
            pollDtls crypto hostOrder input pc ice =
              { pc with
                dtls := some polled
                srtp := some srtp
                srtpRx := some srtpRx
                srtpInitialized := true }) := by
  rw [pollDtls]
  split
  · exact .inl rfl
  · next dtls hdtls =>
    split
    · next hready =>
      rw [Bool.and_eq_true, Bool.not_eq_true'] at hready
      refine .inr ⟨dtls, _, hdtls, hready.1, rfl, ?_⟩
      dsimp only
      split
      · next hcomplete =>
        rw [dtlsIsHandshakeComplete, Bool.and_eq_true] at hcomplete
        rcases pcInitializeSrtpAfterDtls_cases crypto hostOrder input.srtpSetup
            { pc with dtls := some (dtlsPollHandshake dtls input.pollHandshake).2 } with
          hset | ⟨srtp, srtpRx, hset⟩
        · exact .inl hset
        · exact .inr ⟨hcomplete.1, srtp, srtpRx, hset⟩
      · exact .inl rfl
    · exact .inl rfl

theorem pollDtls_frame (crypto : Crypto) (hostOrder : UInt32 → List UInt8) (input : EventInput)
    (pc : PeerConnection) (ice : IceSession) :
    ∃ dtls srtp srtpRx initialized, pollDtls crypto hostOrder input pc ice =
      { pc with
        dtls := dtls
        srtp := srtp
        srtpRx := srtpRx
        srtpInitialized := initialized } := by
  rcases pollDtls_cases crypto hostOrder input pc ice with
    hidle | ⟨dtls, polled, -, -, -, hpolled | ⟨-, srtp, srtpRx, hinstalled⟩⟩
  · exact ⟨_, _, _, _, hidle⟩
  · exact ⟨_, _, _, _, hpolled⟩
  · exact ⟨_, _, _, _, hinstalled⟩

/-- The SRTP contexts are both there behind it, or as they were. -/
theorem pollDtls_contexts (crypto : Crypto) (hostOrder : UInt32 → List UInt8) (input : EventInput)
    (pc : PeerConnection) (ice : IceSession) :
    ((pollDtls crypto hostOrder input pc ice).srtpInitialized = pc.srtpInitialized ∧
      (pollDtls crypto hostOrder input pc ice).srtp = pc.srtp ∧
      (pollDtls crypto hostOrder input pc ice).srtpRx = pc.srtpRx) ∨
    ((pollDtls crypto hostOrder input pc ice).srtpInitialized = true ∧
      (pollDtls crypto hostOrder input pc ice).srtp.isSome = true ∧
      (pollDtls crypto hostOrder input pc ice).srtpRx.isSome = true) := by
  rcases pollDtls_cases crypto hostOrder input pc ice with
    hidle | ⟨dtls, polled, -, -, -, hpolled | ⟨-, srtp, srtpRx, hset⟩⟩
  · rw [hidle]
    exact .inl ⟨rfl, rfl, rfl⟩
  · rw [hpolled]
    exact .inl ⟨rfl, rfl, rfl⟩
  · rw [hset]
    exact .inr ⟨rfl, rfl, rfl⟩

/-- A round hands over callbacks and what ICE sends, never media. -/
theorem processEvents_not_isRtp {crypto : Crypto} {hostOrder : UInt32 → List UInt8}
    {input : EventInput} {pc pc' : PeerConnection} {events : List PcEvent}
    (h : tinyrtcProcessEvents crypto hostOrder input pc = some (pc', events)) :
    ∀ event ∈ events, ¬ IsRtp event := by
  rw [tinyrtcProcessEvents] at h
  split at h
  · cases h
    simp
  · split at h
    · cases h
      simp
    · obtain ⟨⟨received, receivedEvents⟩, hreceived, hresult⟩ := Option.map_eq_some_iff.mp h
      have hdatagram : ∀ event ∈ receivedEvents, ¬ IsRtp event := by
        split at hreceived
        · cases hreceived
          simp
        · split at hreceived
          · cases hreceived
            simp
          · obtain ⟨_, _, _, media, -, rfl, hmedia, -⟩ := processDatagram_parts hreceived
            intro event hevent hrtp
            rcases List.mem_append.mp hevent with hevent | hevent
            · exact (isNotice_of_mem_map_ice hevent).not_isRtp hrtp
            · exact hrtp.not_isFrame (hmedia event hevent)
      dsimp only at hresult
      split at hresult
      · cases hresult
        exact hdatagram
      · cases hresult
        intro event hevent
        rcases List.mem_append.mp hevent with hevent | hevent
        · rcases List.mem_append.mp hevent with hevent | hevent
          · exact hdatagram event hevent
          · exact (isNotice_of_mem_map_ice hevent).not_isRtp
        · exact ((notifyConnected_frame crypto input _ _).2 event hevent).not_isRtp

/-- The calls that are neither a round of `tinyrtc_process_events` nor set a remote
description. -/
def IsLocalCall : PcCall → Prop
  | .setRemoteDescription _ _ _ => False
  | .processEvents _ => False
  | _ => True

section

variable {crypto : Crypto} {hostOrder : UInt32 → List UInt8} {pc pc' : PeerConnection}
  {call : PcCall} {events : List PcEvent}

/-- What a call leaves and raises. -/
inductive CallCourse (crypto : Crypto) (hostOrder : UInt32 → List UInt8) (pc : PeerConnection) :
    PcCall → PeerConnection → List PcEvent → Prop
  | addTrack {callocOk : Bool} {config : TrackConfig} (localTracks : Slots Track sdpMaxMedia) :
      CallCourse crypto hostOrder pc (.addTrack callocOk config)
        { pc with localTracks := localTracks } []
  | removeTrack {track : Nat} (localTracks : Slots Track sdpMaxMedia) :
      CallCourse crypto hostOrder pc (.removeTrack track) { pc with localTracks := localTracks } []
  | createOffer {env : DescriptionEnv} {text : Except TinyrtcError (List UInt8)}
      {pc' : PeerConnection} {events : List PcEvent}
      (hoffer : tinyrtcPeerConnectionCreateOffer crypto env pc = some (text, pc', events)) :
      CallCourse crypto hostOrder pc (.createOffer env) pc' events
  | setRemoteDescription {locals : Locals} {trackOk : Nat → Bool} {sdp : List UInt8}
      {err : TinyrtcError} {pc' : PeerConnection} {events : List PcEvent}
      (hset : tinyrtcPeerConnectionSetRemoteDescription locals trackOk pc sdp =
        some (err, pc', events)) :
      CallCourse crypto hostOrder pc (.setRemoteDescription locals trackOk sdp) pc' events
  | createAnswer {env : DescriptionEnv} {text : Except TinyrtcError (List UInt8)}
      {pc' : PeerConnection} {events : List PcEvent}
      (hanswer : tinyrtcPeerConnectionCreateAnswer crypto env pc = some (text, pc', events)) :
      CallCourse crypto hostOrder pc (.createAnswer env) pc' events
  | addIceCandidate (candidate : IceCandidate) :
      CallCourse crypto hostOrder pc (.addIceCandidate candidate)
        (tinyrtcPeerConnectionAddIceCandidate pc candidate).2 []
  | close :
      CallCourse crypto hostOrder pc .close (tinyrtcPeerConnectionClose pc).1
        (tinyrtcPeerConnectionClose pc).2
  | sendAudioFrame {env : SendEnv} {track : Nat} {frame : List UInt8} {timestamp : UInt32}
      {err : TinyrtcError} {pc' : PeerConnection} {events : List PcEvent}
      (hsend : trackSendFrame crypto env pc track frame timestamp = some (err, pc', events)) :
      CallCourse crypto hostOrder pc (.sendAudioFrame env track frame timestamp) pc' events
  | sendVideoFrame {env : SendEnv} {track : Nat} {frame : List UInt8} {timestamp : UInt32}
      {err : TinyrtcError} {pc' : PeerConnection} {events : List PcEvent}
      (hsend : trackSendFrame crypto env pc track frame timestamp = some (err, pc', events)) :
      CallCourse crypto hostOrder pc (.sendVideoFrame env track frame timestamp) pc' events
  | processEvents {input : EventInput} {pc' : PeerConnection} {events : List PcEvent}
      (hround : tinyrtcProcessEvents crypto hostOrder input pc = some (pc', events)) :
      CallCourse crypto hostOrder pc (.processEvents input) pc' events

theorem pcCall_course (h : pcCall crypto hostOrder pc call = some (pc', events)) :
    CallCourse crypto hostOrder pc call pc' events := by
  cases call with
  | addTrack callocOk config =>
      cases h
      obtain ⟨localTracks, hadded⟩ := addTrack_frame pc callocOk config
      rw [hadded]
      exact .addTrack localTracks
  | removeTrack track =>
      cases h
      obtain ⟨localTracks, hremoved⟩ := removeTrack_frame pc track
      rw [hremoved]
      exact .removeTrack localTracks
  | createOffer env =>
      obtain ⟨⟨text, result⟩, hoffer, rfl⟩ := Option.map_eq_some_iff.mp h
      exact .createOffer hoffer
  | setRemoteDescription locals trackOk sdp =>
      obtain ⟨⟨err, result⟩, hset, rfl⟩ := Option.map_eq_some_iff.mp h
      exact .setRemoteDescription hset
  | createAnswer env =>
      obtain ⟨⟨text, result⟩, hanswer, rfl⟩ := Option.map_eq_some_iff.mp h
      exact .createAnswer hanswer
  | addIceCandidate candidate =>
      cases h
      exact .addIceCandidate candidate
  | close =>
      cases h
      exact .close
  | sendAudioFrame env track frame timestamp =>
      obtain ⟨⟨err, result⟩, hsend, rfl⟩ := Option.map_eq_some_iff.mp h
      exact .sendAudioFrame hsend
  | sendVideoFrame env track frame timestamp =>
      obtain ⟨⟨err, result⟩, hsend, rfl⟩ := Option.map_eq_some_iff.mp h
      exact .sendVideoFrame hsend
  | processEvents input => exact .processEvents h

/-- Closing raises a change of the state, or nothing. -/
theorem close_events (pc : PeerConnection) :
    ∀ event ∈ (tinyrtcPeerConnectionClose pc).2, event = .connectionStateChange .closed := by
  rw [tinyrtcPeerConnectionClose]
  dsimp only
  split
  · exact fun event hevent => List.mem_singleton.mp hevent
  · exact fun event hevent => absurd hevent List.not_mem_nil

theorem pcCall_keepsRemote (h : pcCall crypto hostOrder pc call = some (pc', events))
    (hcall : IsLocalCall call) : KeepsRemote pc pc' ∧ ∀ event ∈ events, ¬ IsFrame event := by
  cases pcCall_course h with
  | addTrack localTracks => exact ⟨.of_eq rfl rfl rfl rfl, by simp⟩
  | removeTrack localTracks => exact ⟨.of_eq rfl rfl rfl rfl, by simp⟩
  | createOffer hoffer =>
      obtain ⟨hkeeps, hevents⟩ := createOffer_keeps hoffer
      exact ⟨hkeeps, fun event hevent => (hevents event hevent).not_isFrame⟩
  | setRemoteDescription hset => exact hcall.elim
  | createAnswer hanswer =>
      obtain ⟨hkeeps, hevents⟩ := createAnswer_keeps hanswer
      exact ⟨hkeeps, fun event hevent => (hevents event hevent).not_isFrame⟩
  | addIceCandidate candidate =>
      obtain ⟨remoteSdp, ice, hadded, hfingerprint⟩ := addIceCandidate_frame pc candidate
      rw [hadded]
      exact ⟨.of_eq rfl rfl rfl hfingerprint, by simp⟩
  | close =>
      refine ⟨.of_eq rfl rfl rfl rfl, fun event hevent => ?_⟩
      rw [close_events pc event hevent]
      exact id
  | sendAudioFrame hsend => exact trackSendFrame_keeps hsend
  | sendVideoFrame hsend => exact trackSendFrame_keeps hsend
  | processEvents hround => exact hcall.elim

/-- No call but `tinyrtc_process_events` touches the receiving side of SRTP or
delivers a frame. -/
theorem pcCall_keeps (h : pcCall crypto hostOrder pc call = some (pc', events))
    (hcall : ∀ input, call ≠ .processEvents input) :
    KeepsSecurity pc pc' ∧ ∀ event ∈ events, ¬ IsFrame event := by
  by_cases hlocal : IsLocalCall call
  · obtain ⟨hkeeps, hevents⟩ := pcCall_keepsRemote h hlocal
    exact ⟨hkeeps.toKeepsSecurity, hevents⟩
  · cases pcCall_course h with
    | setRemoteDescription hset =>
        obtain ⟨hkeeps, hevents⟩ := setRemoteDescription_keeps hset
        exact ⟨hkeeps, fun event hevent => (hevents event hevent).not_isFrame⟩
    | @processEvents input pc' events hround => exact absurd rfl (hcall input)
    | _ => exact absurd trivial hlocal

end

/-- A step that meets a condition on the call and the state before it. -/
def GuardedStep (crypto : Crypto) (hostOrder : UInt32 → List UInt8)
    (guard : PeerConnection → PcCall → Prop) (pc : PeerConnection) (call : PcCall × List PcEvent)
    (pc' : PeerConnection) : Prop :=
  PcStep crypto hostOrder pc call pc' ∧ guard pc call.1

section

variable (crypto : Crypto) (hostOrder : UInt32 → List UInt8)
  (guard : PeerConnection → PcCall → Prop) [∀ pc call, Decidable (guard pc call)]

/-- The calls of a list one after the other, each with the events it raises, if they
all meet the condition. -/
def pcCalls (pc : PeerConnection) :
    List PcCall → Option (List (PcCall × List PcEvent) × PeerConnection)
  | [] => some ([], pc)
  | call :: calls =>
      if guard pc call then
        (pcCall crypto hostOrder pc call).bind fun (pc', events) =>
          (pcCalls pc' calls).map fun (history, pc'') => ((call, events) :: history, pc'')
      else none

variable {crypto hostOrder guard}

theorem pcCalls_cons {call : PcCall} {calls : List PcCall} {pc pc' : PeerConnection}
    {history : List (PcCall × List PcEvent)}
    (h : pcCalls crypto hostOrder guard pc (call :: calls) = some (history, pc')) :
    guard pc call ∧ ∃ next events rest, pcCall crypto hostOrder pc call = some (next, events) ∧
      pcCalls crypto hostOrder guard next calls = some (rest, pc') ∧
      history = (call, events) :: rest := by
  rw [pcCalls] at h
  split at h
  · next hguard =>
    obtain ⟨⟨next, events⟩, hcall, hrest⟩ := Option.bind_eq_some_iff.mp h
    obtain ⟨⟨rest, final⟩, hcalls, hresult⟩ := Option.map_eq_some_iff.mp hrest
    cases hresult
    exact ⟨hguard, next, events, rest, hcall, hcalls, rfl⟩
  · cases h

theorem run_pcCalls {calls : List PcCall} {pc pc' : PeerConnection}
    {history : List (PcCall × List PcEvent)}
    (h : pcCalls crypto hostOrder guard pc calls = some (history, pc')) :
    Run (GuardedStep crypto hostOrder guard) pc history pc' := by
  induction calls generalizing pc history with
  | nil =>
      cases h
      exact .nil _
  | cons call calls ih =>
      obtain ⟨hguard, next, events, rest, hcall, hcalls, rfl⟩ := pcCalls_cons h
      exact .cons ⟨hcall, hguard⟩ (ih hcalls)

theorem map_fst_pcCalls {calls : List PcCall} {pc pc' : PeerConnection}
    {history : List (PcCall × List PcEvent)}
    (h : pcCalls crypto hostOrder guard pc calls = some (history, pc')) :
    history.map Prod.fst = calls := by
  induction calls generalizing pc history with
  | nil =>
      cases h
      rfl
  | cons call calls ih =>
      obtain ⟨-, next, events, rest, -, hcalls, rfl⟩ := pcCalls_cons h
      rw [List.map_cons, ih hcalls]

variable (crypto hostOrder guard)

theorem exists_guardedStep (start : PeerConnection) (calls : List PcCall) (call : PcCall)
    (p : PeerConnection → List PcEvent → PeerConnection → Bool)
    (h : ((pcCalls crypto hostOrder guard start calls).any fun reached =>
      (pcCall crypto hostOrder reached.2 call).any fun result =>
        p reached.2 result.2 result.1) = true) :
    ∃ history pc events pc', Run (GuardedStep crypto hostOrder guard) start history pc ∧
      PcStep crypto hostOrder pc (call, events) pc' ∧ p pc events pc' = true := by
  rw [Option.any_eq_true] at h
  obtain ⟨⟨history, pc⟩, hcalls, hstep⟩ := h
  rw [Option.any_eq_true] at hstep
  obtain ⟨⟨pc', events⟩, hcall, hp⟩ := hstep
  exact ⟨history, pc, events, pc', run_pcCalls hcalls, hcall, hp⟩

end

theorem exists_step (crypto : Crypto) (hostOrder : UInt32 → List UInt8) (start : PeerConnection)
    (calls : List PcCall) (call : PcCall)
    (p : PeerConnection → List PcEvent → PeerConnection → Bool)
    (h : ((pcCalls crypto hostOrder (fun _ _ => True) start calls).any fun reached =>
      (pcCall crypto hostOrder reached.2 call).any fun result =>
        p reached.2 result.2 result.1) = true) :
    ∃ history pc events pc', Run (PcStep crypto hostOrder) start history pc ∧
      PcStep crypto hostOrder pc (call, events) pc' ∧ p pc events pc' = true := by
  obtain ⟨history, pc, events, pc', hrun, hstep⟩ :=
    exists_guardedStep crypto hostOrder (fun _ _ => True) start calls call p h
  exact ⟨history, pc, events, pc', hrun.mono fun _ _ _ h => h.1, hstep⟩

end TinyRtc.CallEffects
