import TinyRtc.NegotiatedPayload

namespace TinyRtc.SecureSending

open TinyRtc.BigEndian
open TinyRtc.CallEffects
open TinyRtc.Common
open TinyRtc.Connection
open TinyRtc.Inet
open TinyRtc.LabelledRuns
open TinyRtc.MediaSend
open TinyRtc.NegotiatedPayload
open TinyRtc.Negotiation
open TinyRtc.Packetization
open TinyRtc.ProcessEvents
open TinyRtc.SecureMedia
open TinyRtc.SendSteps
open TinyRtc.Srtp

/-- The SRTP send context is there exactly when SRTP is said to be initialised. -/
def SrtpTxInstalled (pc : PeerConnection) : Prop :=
  pc.srtpInitialized = pc.srtp.isSome

/-- A packet on its way to `dest` is what `srtp_encrypt_packet` has made of it, under the
send context as the earlier packets have left it, and `dest` is the remote candidate of the
selected pair. -/
structure SentProtected (crypto : Crypto) (pc : PeerConnection) (dest : SockAddr)
    (packet : List UInt8) : Prop where
  initialized : pc.srtpInitialized = true
  encrypted : ∃ first srtp plain srtp', pc.srtp = some first ∧
    Relation.ReflTransGen (ContextStep crypto) (some first) (some srtp) ∧
    Encrypts crypto srtp plain packet srtp'
  addressed : ∃ remote addr, selectedRemote pc = some remote ∧
    inetPton remote.ip.bytes = some addr ∧ dest = ⟨addr, remote.port⟩

theorem pcIsSecureMediaReady_initialized {pc : PeerConnection}
    (h : pcIsSecureMediaReady pc = true) : pc.srtpInitialized = true := by
  rw [pcIsSecureMediaReady] at h
  split at h
  · cases h
  · split at h
    · cases h
    · exact h

section

variable {crypto : Crypto} {pc pc' : PeerConnection} {events : List PcEvent}

theorem contextStep_isSome {srtp srtp' : Option SrtpContext} (h : ContextStep crypto srtp srtp') :
    srtp'.isSome = srtp.isSome := by
  obtain ⟨plain, packet, hout⟩ := h
  cases srtp with
  | none => rw [hout.2]
  | some first =>
      obtain ⟨next, -, rfl⟩ := hout
      rfl

theorem contexts_isSome {srtp srtp' : Option SrtpContext}
    (h : Relation.ReflTransGen (ContextStep crypto) srtp srtp') : srtp'.isSome = srtp.isSome := by
  induction h with
  | refl => rfl
  | tail _ hstep ih => rw [contextStep_isSome hstep, ih]

/-- One call of the callback: the context steps on at most once, and what is handed over is
protected if there is a context. -/
theorem packetizeSendCallback_protected {track : Track} {timestamp : UInt32} {sent : Bool}
    {callback : PacketCallback} {s s' : SendState}
    (h : packetizeSendCallback crypto pc track timestamp sent s callback = some s')
    (hinstalled : SrtpTxInstalled pc)
    (hcontext : Relation.ReflTransGen (ContextStep crypto) pc.srtp s.srtp) :
    Relation.ReflTransGen (ContextStep crypto) pc.srtp s'.srtp ∧
      ∀ dest packet accepted, PcEvent.rtp dest packet accepted ∈ s'.events →
        PcEvent.rtp dest packet accepted ∈ s.events ∨ SentProtected crypto pc dest packet := by
  cases packetizeSendCallback_step h with
  | failed hsrtp =>
      exact ⟨hcontext.trans hsrtp.to_reflTransGen, fun _ _ _ hmem => .inl hmem⟩
  | @handed srtp remote addr sentPacket hready hremote haddr hpacket =>
      refine ⟨hcontext.tail ⟨_, _, hpacket⟩, ?_⟩
      intro dest packet accepted hmem
      rcases List.mem_append.mp hmem with hmem | hmem
      · exact .inl hmem
      · cases List.mem_singleton.mp hmem
        have hinitialized := pcIsSecureMediaReady_initialized hready
        rw [SrtpTxInstalled, hinitialized] at hinstalled
        obtain ⟨first, hfirst⟩ := Option.isSome_iff_exists.mp hinstalled.symm
        have hsome : s.srtp.isSome = true := by
          rw [contexts_isSome hcontext, hfirst]
          rfl
        obtain ⟨context, hcurrent⟩ := Option.isSome_iff_exists.mp hsome
        rw [hcurrent] at hpacket hcontext
        rw [hfirst] at hcontext
        obtain ⟨next, hencrypts, -⟩ := hpacket
        exact .inr ⟨hinitialized, ⟨first, context, _, next, hfirst, hcontext, hencrypts⟩,
          remote, addr, hremote, haddr, rfl⟩

theorem sendCallbacks_protected {track : Track} {timestamp : UInt32} {sent : Nat → Bool} {i : Nat}
    {callbacks : List PacketCallback} {s s' : SendState}
    (h : sendCallbacks crypto pc track timestamp sent i callbacks s = some s')
    (hinstalled : SrtpTxInstalled pc)
    (hcontext : Relation.ReflTransGen (ContextStep crypto) pc.srtp s.srtp) :
    Relation.ReflTransGen (ContextStep crypto) pc.srtp s'.srtp ∧
      ∀ dest packet accepted, PcEvent.rtp dest packet accepted ∈ s'.events →
        PcEvent.rtp dest packet accepted ∈ s.events ∨ SentProtected crypto pc dest packet := by
  induction callbacks generalizing i s with
  | nil =>
      cases h
      exact ⟨hcontext, fun _ _ _ hmem => .inl hmem⟩
  | cons callback callbacks ih =>
      obtain ⟨next, hnext, hrest⟩ := Option.bind_eq_some_iff.mp h
      obtain ⟨hstepped, hone⟩ := packetizeSendCallback_protected hnext hinstalled hcontext
      obtain ⟨hfinal, hothers⟩ := ih hrest hstepped
      refine ⟨hfinal, fun dest packet accepted hmem => ?_⟩
      rcases hothers dest packet accepted hmem with hmem | hprotected
      · exact hone dest packet accepted hmem
      · exact .inr hprotected

/-- What a call does to the sending side of SRTP, and to the network. -/
structure SendsSecurely (crypto : Crypto) (pc pc' : PeerConnection) (events : List PcEvent) :
    Prop where
  installed : SrtpTxInstalled pc'
  packets : ∀ dest packet accepted, PcEvent.rtp dest packet accepted ∈ events →
    SentProtected crypto pc dest packet

theorem SendsSecurely.of_not_isRtp (hinstalled : SrtpTxInstalled pc')
    (hevents : ∀ event ∈ events, ¬ IsRtp event) : SendsSecurely crypto pc pc' events :=
  ⟨hinstalled, fun _ _ _ hmem => (hevents _ hmem trivial).elim⟩

theorem trackSendFrame_secure {env : SendEnv} {track : Nat} {frame : List UInt8}
    {timestamp : UInt32} {err : TinyrtcError} (hinstalled : SrtpTxInstalled pc)
    (h : trackSendFrame crypto env pc track frame timestamp = some (err, pc', events)) :
    SendsSecurely crypto pc pc' events := by
  cases trackSendFrame_course h with
  | refused hrefused =>
      exact .of_not_isRtp hinstalled fun _ hmem => absurd hmem List.not_mem_nil
  | sent htrack hlocal hready hsends =>
      obtain ⟨hcontext, hpackets⟩ := sendCallbacks_protected hsends hinstalled .refl
      refine ⟨hinstalled.trans (contexts_isSome hcontext).symm, ?_⟩
      intro dest packet accepted hmem
      exact (hpackets dest packet accepted hmem).resolve_left List.not_mem_nil

theorem pollDtls_txInstalled (hostOrder : UInt32 → List UInt8) (input : EventInput)
    (ice : Ice.IceSession) (h : SrtpTxInstalled pc) :
    SrtpTxInstalled (pollDtls crypto hostOrder input pc ice) := by
  rcases pollDtls_contexts crypto hostOrder input pc ice with
    ⟨hinitialized, hsrtp, -⟩ | ⟨hinitialized, hsrtp, -⟩
  · rw [SrtpTxInstalled, hinitialized, hsrtp]
    exact h
  · exact hinitialized.trans hsrtp.symm

theorem processEvents_secure {hostOrder : UInt32 → List UInt8} {input : EventInput}
    (hinstalled : SrtpTxInstalled pc)
    (h : tinyrtcProcessEvents crypto hostOrder input pc = some (pc', events)) :
    SendsSecurely crypto pc pc' events := by
  refine .of_not_isRtp ?_ (processEvents_not_isRtp h)
  obtain ⟨received, hreceived, hrest⟩ := processEvents_parts h
  have hround : SrtpTxInstalled received := by
    rcases hreceived with rfl | ⟨ice, datagram, receivedEvents, -, hreceived⟩
    · exact hinstalled
    · obtain ⟨dtls, srtpRx, remoteTracks, media, rfl, -⟩ := processDatagram_parts hreceived
      exact hinstalled
  rcases hrest with rfl | ⟨ice, -, rfl⟩
  · exact hround
  · obtain ⟨⟨state, dtls, hnotified⟩, -⟩ :=
      notifyConnected_frame crypto input { received with ice := some ice } ice
    rw [hnotified]
    exact pollDtls_txInstalled hostOrder input ice hround

theorem pcStep_secure {hostOrder : UInt32 → List UInt8} {call : PcCall × List PcEvent}
    (hinstalled : SrtpTxInstalled pc) (hstep : PcStep crypto hostOrder pc call pc') :
    SendsSecurely crypto pc pc' call.2 := by
  obtain ⟨call, events⟩ := call
  cases pcCall_course hstep with
  | addTrack localTracks => exact .of_not_isRtp hinstalled (by simp)
  | removeTrack localTracks => exact .of_not_isRtp hinstalled (by simp)
  | createOffer hoffer =>
      have hevents := (createOffer_keeps hoffer).2
      obtain ⟨state, localSdp, ice, dtls, rfl⟩ := createOffer_frame hoffer
      exact .of_not_isRtp hinstalled fun event hevent => (hevents event hevent).not_isRtp
  | setRemoteDescription hset =>
      rcases setRemoteDescription_cases hset with
        ⟨-, rfl, rfl⟩ | ⟨session, -, ⟨-, rfl, rfl⟩ | ⟨-, ⟨remoteTracks, rfl⟩, hevents⟩⟩
      · exact .of_not_isRtp hinstalled (by simp)
      · exact .of_not_isRtp hinstalled (by simp)
      · exact .of_not_isRtp hinstalled fun event hevent => (hevents event hevent).not_isRtp
  | createAnswer hanswer =>
      have hevents := (createAnswer_keeps hanswer).2
      obtain ⟨state, localSdp, ice, dtls, rfl⟩ := createAnswer_frame hanswer
      exact .of_not_isRtp hinstalled fun event hevent => (hevents event hevent).not_isRtp
  | addIceCandidate candidate =>
      obtain ⟨remoteSdp, ice, hadded, -⟩ := addIceCandidate_frame pc candidate
      rw [hadded]
      exact .of_not_isRtp hinstalled (by simp)
  | close =>
      refine .of_not_isRtp hinstalled fun event hevent => ?_
      rw [close_events pc event hevent]
      exact id
  | sendAudioFrame hsend => exact trackSendFrame_secure hinstalled hsend
  | sendVideoFrame hsend => exact trackSendFrame_secure hinstalled hsend
  | processEvents hround => exact processEvents_secure hinstalled hround

end

theorem srtpTxInstalled_run {crypto : Crypto} {hostOrder : UInt32 → List UInt8} {config : PcConfig}
    {history : List (PcCall × List PcEvent)} {pc : PeerConnection}
    (hrun : Run (PcStep crypto hostOrder) (tinyrtcPeerConnectionCreate config) history pc) :
    SrtpTxInstalled pc := by
  have hcreate : SrtpTxInstalled (tinyrtcPeerConnectionCreate config) := rfl
  refine hrun.invariant ?_ hcreate
  intro pc call pc' hpc hstep
  exact (pcStep_secure hpc hstep).installed

/-- In every run, whatever goes to `sendto` as media is protected. -/
theorem media_sent_protected {crypto : Crypto} {hostOrder : UInt32 → List UInt8}
    {config : PcConfig} {history : List (PcCall × List PcEvent)} {pc pc' : PeerConnection}
    {call : PcCall} {events : List PcEvent}
    (hrun : Run (PcStep crypto hostOrder) (tinyrtcPeerConnectionCreate config) history pc)
    (hstep : PcStep crypto hostOrder pc (call, events) pc') {dest : SockAddr}
    {packet : List UInt8} {accepted : Bool} (hsent : PcEvent.rtp dest packet accepted ∈ events) :
    SentProtected crypto pc dest packet :=
  (pcStep_secure (srtpTxInstalled_run hrun) hstep).packets dest packet accepted hsent

/-- The network has taken a media packet. -/
def isTransmission : PcEvent → Bool
  | .rtp _ _ accepted => accepted
  | _ => false

theorem sampleFrame_sent_protected :
    ∃ history pc events pc' dest packet,
      Run (PcStep toyCrypto write32) (tinyrtcPeerConnectionCreate sampleConfig) history pc ∧
      PcStep toyCrypto write32 pc (sampleFrame, events) pc' ∧
      PcEvent.rtp dest packet true ∈ events ∧ SentProtected toyCrypto pc dest packet := by
  obtain ⟨history, pc, events, pc', hrun, hstep, hp⟩ := exists_step toyCrypto write32
    (tinyrtcPeerConnectionCreate sampleConfig)
    (.addTrack true (sampleVideoTrack 96) :: sampleSetup ++ sampleConnect []) sampleFrame
    (fun _ events _ => events.any isTransmission) (by decide +kernel)
  obtain ⟨event, hevent, hsent⟩ := List.any_eq_true.mp hp
  cases event with
  | rtp dest packet accepted =>
      obtain rfl : accepted = true := hsent
      exact ⟨history, pc, events, pc', dest, packet, hrun, hstep, hevent,
        media_sent_protected hrun hstep hevent⟩
  | _ => cases hsent

end TinyRtc.SecureSending
