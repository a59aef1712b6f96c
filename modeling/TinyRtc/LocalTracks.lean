import TinyRtc.AnswerMedia

namespace TinyRtc.LocalTracks

open TinyRtc.AnswerMedia
open TinyRtc.CallEffects
open TinyRtc.Common
open TinyRtc.Connection
open TinyRtc.Ice
open TinyRtc.IncomingRtp
open TinyRtc.Inet
open TinyRtc.LabelledRuns
open TinyRtc.MediaCodec
open TinyRtc.MediaSend
open TinyRtc.Negotiation
open TinyRtc.ProcessEvents
open TinyRtc.Sdp
open TinyRtc.SendSteps
open TinyRtc.SlotArray
open TinyRtc.Srtp

/-- Where a call leaves the local track that is at `place`; `none` when the call
removes it. -/
def placeAfterCall (place : Nat) : PcCall → Option Nat
  | .removeTrack track =>
      if track = place then none else if track < place then some (place - 1) else some place
  | _ => some place

def placeAfter (place : Nat) : List PcCall → Option Nat
  | [] => some place
  | call :: calls => (placeAfterCall place call).bind fun next => placeAfter next calls

/-- The calls that send a frame on the local track at `place`. -/
def SendsOn (place : Nat) : PcCall → Prop
  | .sendAudioFrame _ track _ _ => track = place
  | .sendVideoFrame _ track _ _ => track = place
  | _ => False

/-- What of a local track no call changes. -/
structure SameTrack (track track' : Track) : Prop where
  kind : track'.kind = track.kind
  codecId : track'.codecId = track.codecId
  payloadType : track'.payloadType = track.payloadType
  isLocal : track'.isLocal = track.isLocal

theorem SameTrack.refl (track : Track) : SameTrack track track :=
  ⟨rfl, rfl, rfl, rfl⟩

theorem SameTrack.trans {track track' track'' : Track} (hfirst : SameTrack track track')
    (hsecond : SameTrack track' track'') : SameTrack track track'' where
  kind := hsecond.kind.trans hfirst.kind
  codecId := hsecond.codecId.trans hfirst.codecId
  payloadType := hsecond.payloadType.trans hfirst.payloadType
  isLocal := hsecond.isLocal.trans hfirst.isLocal

section

variable {crypto : Crypto} {hostOrder : UInt32 → List UInt8} {pc pc' : PeerConnection}
  {events : List PcEvent}

theorem createOffer_localTracks {env : DescriptionEnv} {text : Except TinyrtcError (List UInt8)}
    (h : tinyrtcPeerConnectionCreateOffer crypto env pc = some (text, pc', events)) :
    pc'.localTracks = pc.localTracks := by
  rw [tinyrtcPeerConnectionCreateOffer] at h
  split at h
  · cases h
    rfl
  · obtain ⟨htracks, -, -⟩ := pcGatherAndGenerate_media h
    exact htracks.trans (pcEnsureLocalDtlsMaterial_media _ _ _ _).1

theorem createAnswer_localTracks {env : DescriptionEnv} {text : Except TinyrtcError (List UInt8)}
    (h : tinyrtcPeerConnectionCreateAnswer crypto env pc = some (text, pc', events)) :
    pc'.localTracks = pc.localTracks := by
  by_cases hclosed : pc.state = .closed
  · rw [tinyrtcPeerConnectionCreateAnswer, if_pos hclosed] at h
    cases h
    rfl
  · exact (createAnswer_media h hclosed).1

theorem setRemoteDescription_localTracks {locals : SdpParser.Locals} {trackOk : Nat → Bool}
    {sdp : List UInt8} {err : TinyrtcError}
    (h : tinyrtcPeerConnectionSetRemoteDescription locals trackOk pc sdp =
      some (err, pc', events)) : pc'.localTracks = pc.localTracks := by
  rcases setRemoteDescription_cases h with
    ⟨-, rfl, -⟩ | ⟨session, -, ⟨-, rfl, -⟩ | ⟨-, ⟨remoteTracks, rfl⟩, -⟩⟩
  · rfl
  · rfl
  · rfl

theorem addIceCandidate_localTracks (pc : PeerConnection) (candidate : IceCandidate) :
    (tinyrtcPeerConnectionAddIceCandidate pc candidate).2.localTracks = pc.localTracks := by
  obtain ⟨remoteSdp, ice, hadded, -⟩ := addIceCandidate_frame pc candidate
  rw [hadded]

theorem processDatagram_localTracks {input : EventInput} {ice : IceSession} {datagram : Datagram}
    (h : processDatagram crypto input pc ice datagram = some (pc', events)) :
    pc'.localTracks = pc.localTracks := by
  obtain ⟨dtls, srtpRx, remoteTracks, media, rfl, -⟩ := processDatagram_parts h
  rfl

theorem notifyConnected_localTracks (input : EventInput) (pc : PeerConnection) (ice : IceSession) :
    (notifyConnected crypto input pc ice).1.localTracks = pc.localTracks := by
  obtain ⟨⟨state, dtls, hnotified⟩, -⟩ := notifyConnected_frame crypto input pc ice
  rw [hnotified]

theorem pollDtls_localTracks (input : EventInput) (pc : PeerConnection) (ice : IceSession) :
    (pollDtls crypto hostOrder input pc ice).localTracks = pc.localTracks := by
  obtain ⟨dtls, srtp, srtpRx, initialized, hpoll⟩ := pollDtls_frame crypto hostOrder input pc ice
  rw [hpoll]

theorem processEvents_localTracks {input : EventInput}
    (h : tinyrtcProcessEvents crypto hostOrder input pc = some (pc', events)) :
    pc'.localTracks = pc.localTracks := by
  obtain ⟨received, hreceived, hrest⟩ := processEvents_parts h
  have hround : received.localTracks = pc.localTracks := by
    rcases hreceived with rfl | ⟨ice, datagram, receivedEvents, -, hreceived⟩
    · rfl
    · exact processDatagram_localTracks hreceived
  rcases hrest with rfl | ⟨ice, -, rfl⟩
  · exact hround
  · rw [pollDtls_localTracks, notifyConnected_localTracks]
    exact hround

theorem trackSendFrame_otherTrack {env : SendEnv} {sender : Nat} {frame : List UInt8}
    {timestamp : UInt32} {err : TinyrtcError} {place : Nat}
    (h : trackSendFrame crypto env pc sender frame timestamp = some (err, pc', events))
    (hne : sender ≠ place) : pc'.localTracks.items[place]? = pc.localTracks.items[place]? := by
  cases trackSendFrame_course h with
  | refused hrefused => rfl
  | sent htrack hlocal hready hsends => exact List.getElem?_set_ne hne

theorem trackSendFrame_sameTrack {env : SendEnv} {frame : List UInt8} {timestamp : UInt32}
    {err : TinyrtcError} {place : Nat} {track : Track}
    (h : trackSendFrame crypto env pc place frame timestamp = some (err, pc', events))
    (htrack : pc.localTracks.items[place]? = some track) :
    ∃ track', pc'.localTracks.items[place]? = some track' ∧ SameTrack track track' := by
  cases trackSendFrame_course h with
  | refused hrefused => exact ⟨track, htrack, .refl track⟩
  | sent htrack' hlocal hready hsends =>
      cases htrack.symm.trans htrack'
      exact ⟨_, List.getElem?_set_self (List.getElem?_eq_some_iff.mp htrack).1,
        rfl, rfl, rfl, rfl⟩

theorem removeTrack_sameTrack {place place' removed : Nat} {track : Track}
    (htrack : pc.localTracks.items[place]? = some track)
    (hplace : placeAfterCall place (.removeTrack removed) = some place') :
    (tinyrtcPeerConnectionRemoveTrack pc removed).2.localTracks.items[place']? = some track := by
  have hlt := (List.getElem?_eq_some_iff.mp htrack).1
  rw [placeAfterCall] at hplace
  rw [tinyrtcPeerConnectionRemoveTrack]
  split at hplace
  · cases hplace
  · next hne =>
    split at hplace
    · -- The tracks behind the removed one move up.
      next hbefore =>
      cases hplace
      have hcount : removed < pc.localTracks.count := Nat.lt_trans hbefore hlt
      rw [if_pos hcount]
      dsimp only
      rw [List.getElem?_eraseIdx, if_neg (by omega), Nat.sub_add_cancel (by omega)]
      exact htrack
    · next hbehind =>
      cases hplace
      split
      · dsimp only
        rw [List.getElem?_eraseIdx, if_pos (by omega)]
        exact htrack
      · exact htrack

/-- A call that does not send on a track leaves it as it is, if not removed. -/
theorem otherTrack_step {call : PcCall × List PcEvent} {place place' : Nat} {track : Track}
    (h : PcStep crypto hostOrder pc call pc') (htrack : pc.localTracks.items[place]? = some track)
    (hplace : placeAfterCall place call.1 = some place') (hother : ¬ SendsOn place call.1) :
    pc'.localTracks.items[place']? = some track := by
  obtain ⟨call, events⟩ := call
  have hkept : pc'.localTracks = pc.localTracks → placeAfterCall place call = some place →
      pc'.localTracks.items[place']? = some track := by
    intro hsame hstays
    rw [hstays] at hplace
    cases hplace
    exact hsame ▸ htrack
  cases call with
  | addTrack callocOk config =>
      cases h
      cases hplace
      rw [tinyrtcPeerConnectionAddTrack]
      split
      · exact htrack
      · cases hpush : pc.localTracks.push? (localTrackOfConfig config) with
        | none => exact htrack
        | some tracks =>
            rw [Option.map_some, Option.getD_some, Slots.push?_items hpush,
              List.getElem?_append_left (List.getElem?_eq_some_iff.mp htrack).1]
            exact htrack
  | removeTrack removed =>
      cases h
      exact removeTrack_sameTrack htrack hplace
  | createOffer env =>
      obtain ⟨⟨text, result⟩, hoffer, rfl⟩ := Option.map_eq_some_iff.mp h
      exact hkept (createOffer_localTracks hoffer) rfl
  | setRemoteDescription locals trackOk sdp =>
      obtain ⟨⟨err, result⟩, hset, rfl⟩ := Option.map_eq_some_iff.mp h
      exact hkept (setRemoteDescription_localTracks hset) rfl
  | createAnswer env =>
      obtain ⟨⟨text, result⟩, hanswer, rfl⟩ := Option.map_eq_some_iff.mp h
      exact hkept (createAnswer_localTracks hanswer) rfl
  | addIceCandidate candidate =>
      cases h
      exact hkept (addIceCandidate_localTracks pc candidate) rfl
  | close =>
      cases h
      exact hkept rfl rfl
  | sendAudioFrame env sender frame timestamp =>
      obtain ⟨⟨err, result⟩, hsend, rfl⟩ := Option.map_eq_some_iff.mp h
      cases hplace
      rw [trackSendFrame_otherTrack hsend hother]
      exact htrack
  | sendVideoFrame env sender frame timestamp =>
      obtain ⟨⟨err, result⟩, hsend, rfl⟩ := Option.map_eq_some_iff.mp h
      cases hplace
      rw [trackSendFrame_otherTrack hsend hother]
      exact htrack
  | processEvents input => exact hkept (processEvents_localTracks h) rfl

theorem sameTrack_step {call : PcCall × List PcEvent} {place place' : Nat} {track : Track}
    (h : PcStep crypto hostOrder pc call pc') (htrack : pc.localTracks.items[place]? = some track)
    (hplace : placeAfterCall place call.1 = some place') :
    ∃ track', pc'.localTracks.items[place']? = some track' ∧ SameTrack track track' := by
  by_cases hsends : SendsOn place call.1
  · obtain ⟨call, events⟩ := call
    cases call with
    | sendAudioFrame env sender frame timestamp =>
        obtain ⟨⟨err, result⟩, hsend, rfl⟩ := Option.map_eq_some_iff.mp h
        cases hsends
        cases hplace
        exact trackSendFrame_sameTrack hsend htrack
    | sendVideoFrame env sender frame timestamp =>
        obtain ⟨⟨err, result⟩, hsend, rfl⟩ := Option.map_eq_some_iff.mp h
        cases hsends
        cases hplace
        exact trackSendFrame_sameTrack hsend htrack
    | _ => exact hsends.elim
  · exact ⟨track, otherTrack_step h htrack hplace hsends, .refl track⟩

/-- A local track that is not removed is the same after every run. -/
theorem sameTrack_run {later : List (PcCall × List PcEvent)} {place place' : Nat} {track : Track}
    (hrun : Run (PcStep crypto hostOrder) pc later pc')
    (htrack : pc.localTracks.items[place]? = some track)
    (hplace : placeAfter place (later.map Prod.fst) = some place') :
    ∃ track', pc'.localTracks.items[place']? = some track' ∧ SameTrack track track' := by
  induction hrun generalizing place track with
  | nil pc =>
      cases hplace
      exact ⟨track, htrack, .refl track⟩
  | cons hstep _ ih =>
      obtain ⟨next, hnext, hrest⟩ := Option.bind_eq_some_iff.mp hplace
      obtain ⟨track', htrack', hsame⟩ := sameTrack_step hstep htrack hnext
      obtain ⟨track'', htrack'', hsame'⟩ := ih htrack' hrest
      exact ⟨track'', htrack'', hsame.trans hsame'⟩

end

end TinyRtc.LocalTracks
