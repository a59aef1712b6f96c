import TinyRtc.CarriedDescriptions

namespace TinyRtc.DescriptionExchange

open TinyRtc.AnswerMedia
open TinyRtc.BigEndian
open TinyRtc.CallEffects
open TinyRtc.CarriedDescriptions
open TinyRtc.CertifiedContexts
open TinyRtc.Common
open TinyRtc.Connection
open TinyRtc.Ice
open TinyRtc.IceEffects
open TinyRtc.LabelledRuns
open TinyRtc.Negotiation
open TinyRtc.ProcessEvents
open TinyRtc.Sdp
open TinyRtc.SdpGenerator
open TinyRtc.SdpParser
open TinyRtc.SdpRoundTrip
open TinyRtc.SdpScanning
open TinyRtc.SecureMedia
open TinyRtc.Srtp

/-- The calls that leave both descriptions alone and the connection open. -/
def LeavesDescriptions : PcCall → Prop
  | .addTrack _ _ => True
  | .removeTrack _ => True
  | .sendAudioFrame _ _ _ _ => True
  | .sendVideoFrame _ _ _ _ => True
  | .processEvents _ => True
  | _ => False

def WaitingStep (crypto : Crypto) (hostOrder : UInt32 → List UInt8) (pc : PeerConnection)
    (call : PcCall × List PcEvent) (pc' : PeerConnection) : Prop :=
  PcStep crypto hostOrder pc call pc' ∧ LeavesDescriptions call.1

structure SameDescriptions (pc pc' : PeerConnection) : Prop where
  localSdp : pc'.localSdp = pc.localSdp
  remoteSdp : pc'.remoteSdp = pc.remoteSdp
  stillOpen : pc.state ≠ .closed → pc'.state ≠ .closed

theorem SameDescriptions.refl (pc : PeerConnection) : SameDescriptions pc pc :=
  ⟨rfl, rfl, id⟩

theorem SameDescriptions.trans {pc pc' pc'' : PeerConnection} (hfirst : SameDescriptions pc pc')
    (hsecond : SameDescriptions pc' pc'') : SameDescriptions pc pc'' :=
  ⟨hsecond.localSdp.trans hfirst.localSdp, hsecond.remoteSdp.trans hfirst.remoteSdp,
    hsecond.stillOpen ∘ hfirst.stillOpen⟩

section

variable {crypto : Crypto} {hostOrder : UInt32 → List UInt8} {pc pc' : PeerConnection}
  {events : List PcEvent}

theorem notifyConnected_same (input : EventInput) (pc : PeerConnection) (ice : IceSession) :
    SameDescriptions pc (notifyConnected crypto input pc ice).1 := by
  rw [notifyConnected]
  split
  · exact ⟨rfl, rfl, fun _ hclosed => by cases hclosed⟩
  · exact .refl pc

theorem processEvents_same {input : EventInput}
    (h : tinyrtcProcessEvents crypto hostOrder input pc = some (pc', events)) :
    SameDescriptions pc pc' := by
  obtain ⟨received, hreceived, hrest⟩ := processEvents_parts h
  have hround : SameDescriptions pc received := by
    rcases hreceived with rfl | ⟨ice, datagram, receivedEvents, -, hreceived⟩
    · exact .refl _
    · obtain ⟨dtls, srtpRx, remoteTracks, media, rfl, -, -, -⟩ := processDatagram_parts hreceived
      exact ⟨rfl, rfl, id⟩
  rcases hrest with rfl | ⟨ice, -, rfl⟩
  · exact hround
  · have hchecked : SameDescriptions received { received with ice := some ice } := ⟨rfl, rfl, id⟩
    have hnotified := @notifyConnected_same crypto input { received with ice := some ice } ice
    have hpolled : ∀ notified, SameDescriptions notified
        (pollDtls crypto hostOrder input notified ice) := by
      intro notified
      obtain ⟨dtls, srtp, srtpRx, initialized, hpolled⟩ :=
        pollDtls_frame crypto hostOrder input notified ice
      rw [hpolled]
      exact ⟨rfl, rfl, id⟩
    exact ((hround.trans hchecked).trans hnotified).trans (hpolled _)

theorem pcCall_same {call : PcCall} (h : pcCall crypto hostOrder pc call = some (pc', events))
    (hcall : LeavesDescriptions call) : SameDescriptions pc pc' := by
  cases pcCall_course h with
  | addTrack localTracks => exact ⟨rfl, rfl, id⟩
  | removeTrack localTracks => exact ⟨rfl, rfl, id⟩
  | sendAudioFrame hsend =>
      obtain ⟨⟨srtp, localTracks, rfl⟩, -⟩ := trackSendFrame_cases hsend
      exact ⟨rfl, rfl, id⟩
  | sendVideoFrame hsend =>
      obtain ⟨⟨srtp, localTracks, rfl⟩, -⟩ := trackSendFrame_cases hsend
      exact ⟨rfl, rfl, id⟩
  | processEvents hround => exact processEvents_same hround
  | _ => exact hcall.elim

theorem waitingRun_same {calls : List (PcCall × List PcEvent)}
    (hrun : Run (WaitingStep crypto hostOrder) pc calls pc') : SameDescriptions pc pc' := by
  induction hrun with
  | nil pc => exact .refl pc
  | cons hstep _ ih => exact (pcCall_same hstep.1 hstep.2).trans ih

theorem waitingRun_certified {calls : List (PcCall × List PcEvent)}
    (hrun : Run (WaitingStep crypto hostOrder) pc calls pc') (hpc : Certified crypto pc) :
    Certified crypto pc' :=
  have hstep : ∀ s call s', Certified crypto s → WaitingStep crypto hostOrder s call s' →
      Certified crypto s' :=
    fun _ _ _ hs h => pcCall_certified hs h.1
  hrun.invariant hstep hpc

end

theorem createOffer_open {crypto : Crypto} {env : DescriptionEnv} {pc pc' : PeerConnection}
    {text : List UInt8} {events : List PcEvent}
    (h : tinyrtcPeerConnectionCreateOffer crypto env pc = some (.ok text, pc', events)) :
    pc'.state ≠ .closed := by
  rw [tinyrtcPeerConnectionCreateOffer] at h
  split at h
  · cases h
  · obtain ⟨localSdp, ice, dtls, rfl⟩ := makeDescription_frame h
    exact fun hclosed => by cases hclosed

/-- A description that can be carried is taken as it is. -/
theorem setRemoteDescription_carried {locals : Locals} {trackOk : Nat → Bool}
    {pc pc' : PeerConnection} {session : SdpSession} {err : TinyrtcError} {events : List PcEvent}
    (hopen : pc.state ≠ .closed) (hsession : CarriedSession session)
    (h : tinyrtcPeerConnectionSetRemoteDescription locals trackOk pc (sdpText session) =
      some (err, pc', events)) :
    err = .ok ∧ pc'.remoteSdp = session ∧ pc'.localSdp = pc.localSdp ∧
      pc'.state = pc.state ∧ pc'.localTracks = pc.localTracks ∧ pc'.dtls = pc.dtls := by
  have hparsed := sdpParse_sdpText locals hsession
  rcases setRemoteDescription_cases h with
    ⟨hclosed, -, -⟩ | ⟨parsed, hparse, ⟨herr, -, -⟩ | ⟨rfl, ⟨remoteTracks, rfl⟩, -⟩⟩
  · exact absurd hclosed hopen
  · rw [hparsed] at hparse
    cases hparse
    exact absurd rfl herr
  · rw [hparsed] at hparse
    cases hparse
    exact ⟨rfl, rfl, rfl, rfl, rfl, rfl⟩

/-- A connection that is open takes it, whatever the locals hold. -/
theorem exists_setRemoteDescription (locals : Locals) (trackOk : Nat → Bool) {pc : PeerConnection}
    {session : SdpSession} (hopen : pc.state ≠ .closed) (hsession : CarriedSession session) :
    ∃ pc' events, tinyrtcPeerConnectionSetRemoteDescription locals trackOk pc (sdpText session) =
      some (.ok, pc', events) ∧ pc'.remoteSdp = session := by
  obtain ⟨⟨err, pc', events⟩, hset⟩ : ∃ result,
      tinyrtcPeerConnectionSetRemoteDescription locals trackOk pc (sdpText session) =
        some result := by
    rw [tinyrtcPeerConnectionSetRemoteDescription, if_neg hopen, sdpParse_sdpText locals hsession]
    exact ⟨_, rfl⟩
  obtain ⟨rfl, hremote, -⟩ := setRemoteDescription_carried hopen hsession hset
  exact ⟨pc', events, hset, hremote⟩

/-- A new connection with one audio track. -/
def oneTrack : PeerConnection :=
  (tinyrtcPeerConnectionAddTrack true (tinyrtcPeerConnectionCreate sampleConfig)
    (sampleTrack .audio .opus)).getD (tinyrtcPeerConnectionCreate sampleConfig)

theorem offers_oneTrack : Offers oneTrack := by
  refine ⟨fun track htrack => ?_, by decide⟩
  cases List.mem_singleton.mp htrack
  exact ⟨lineText_of_isLineText rfl, by decide⟩

def sampleLocals : Locals :=
  ⟨fun _ => 0, fun _ => 0⟩

/-- An offer of the one connection goes to the other, and the answer comes back. -/
def exchanges (offerer answerer : PeerConnection) : Bool :=
  (tinyrtcPeerConnectionCreateOffer toyCrypto sampleDescriptionEnv offerer).any fun offered =>
    offered.1.toOption.any fun offer =>
      (tinyrtcPeerConnectionSetRemoteDescription sampleLocals (fun _ => true) answerer offer).any
        fun asked =>
          (tinyrtcPeerConnectionCreateAnswer toyCrypto sampleDescriptionEnv asked.2.1).any
            fun answered => answered.1.toOption.any fun answer =>
              (tinyrtcPeerConnectionSetRemoteDescription sampleLocals (fun _ => true) offered.2.1
                answer).isSome

end TinyRtc.DescriptionExchange
