import TinyRtc.FrameAssembly
import TinyRtc.LocalTracks
import TinyRtc.SecureMedia

namespace TinyRtc.RemoteTrackRuns

open TinyRtc.BigEndian
open TinyRtc.CallEffects
open TinyRtc.Common
open TinyRtc.Connection
open TinyRtc.CString
open TinyRtc.Ice
open TinyRtc.IncomingRtp
open TinyRtc.Inet
open TinyRtc.Jitter
open TinyRtc.LabelledRuns
open TinyRtc.MediaCodec
open TinyRtc.Negotiation
open TinyRtc.ProcessEvents
open TinyRtc.Sdp
open TinyRtc.SdpParser
open TinyRtc.SecureMedia
open TinyRtc.SlotArray
open TinyRtc.Srtp

/-- What of a remote track no packet changes. -/
@[ext]
structure TrackShape where
  kind : TrackKind
  codecId : CodecId
  payloadType : Int32
  buffer : Option JitterConfig

def shapeOf (track : Track) : TrackShape :=
  ⟨track.kind, track.codecId, track.payloadType, track.jitterBuffer.map JitterBuffer.config⟩

def remoteShapes (pc : PeerConnection) : List TrackShape :=
  pc.remoteTracks.items.map shapeOf

/-- A payload type is matched by the shapes alone. -/
theorem matchTrack_eq (pc : PeerConnection) (payloadType : UInt8) :
    matchTrack pc payloadType = (remoteShapes pc).findIdx? fun shape =>
      shape.payloadType == payloadType.toUInt32.toInt32 := by
  rw [remoteShapes, List.findIdx?_map]
  rfl

theorem matchTrack_of_shapes {shapes : List TrackShape} {pc : PeerConnection}
    (h : shapes <+: remoteShapes pc) {payloadType : UInt8} {i : Nat}
    (hi : shapes.findIdx? (fun shape => shape.payloadType == payloadType.toUInt32.toInt32) =
      some i) : matchTrack pc payloadType = some i := by
  obtain ⟨later, hlater⟩ := h
  rw [matchTrack_eq, ← hlater, List.findIdx?_append, hi]
  rfl

theorem processTrackPacket_shape {reallocOk : Bool} {track track' : Track}
    {packet : List UInt8} {timestamp : UInt32} {err : TinyrtcError} {frame : Option (List UInt8)}
    (h : processTrackPacket reallocOk track packet timestamp = (err, track', frame)) :
    shapeOf track' = shapeOf track := by
  rw [processTrackPacket] at h
  dsimp only at h
  split_ifs at h <;> cases h <;> rfl

theorem setRemoteTrack_shapes {pc : PeerConnection} {i : Nat} {track track' : Track}
    (htrack : pc.remoteTracks.items[i]? = some track) (hshape : shapeOf track' = shapeOf track) :
    remoteShapes (setRemoteTrack pc i track') = remoteShapes pc := by
  obtain ⟨hi, hget⟩ := List.getElem?_eq_some_iff.mp htrack
  change (pc.remoteTracks.items.set i track').map shapeOf = pc.remoteTracks.items.map shapeOf
  have hlen : i < (pc.remoteTracks.items.map shapeOf).length := by
    rw [List.length_map]
    exact hi
  have hself : (pc.remoteTracks.items.map shapeOf)[i] = shapeOf track := by
    rw [List.getElem_map, hget]
  rw [List.map_set, hshape, ← hself, List.set_getElem_self hlen]

section

variable {crypto : Crypto} {hostOrder : UInt32 → List UInt8} {pc pc' : PeerConnection}
  {events : List PcEvent}

theorem processPlainRtp_shapes {env : IncomingEnv} {packet : List UInt8} {err : TinyrtcError}
    (h : processPlainRtp env pc packet = some (err, pc', events)) :
    remoteShapes pc' = remoteShapes pc := by
  rw [processPlainRtp] at h
  split at h
  · cases h
    rfl
  · split at h
    · cases h
      rfl
    · split at h
      · cases h
        rfl
      · next track htrack =>
        obtain ⟨⟨added, buffer⟩, hadded, hresult⟩ := Option.map_eq_some_iff.mp h
        have hbuffer : buffer.map JitterBuffer.config =
            track.jitterBuffer.map JitterBuffer.config := by
          cases hjb : track.jitterBuffer with
          | none =>
              rw [hjb] at hadded
              cases hadded
              rfl
          | some jb =>
              rw [hjb] at hadded
              obtain ⟨⟨result, jb'⟩, hadd, hpair⟩ := Option.map_eq_some_iff.mp hadded
              cases hpair
              exact congrArg some (addPacket_config hadd)
        dsimp only at hresult
        have hshape : shapeOf
            { track with
              jitterBuffer := buffer
              packetsReceived := track.packetsReceived + 1 } = shapeOf track :=
          TrackShape.ext rfl rfl rfl hbuffer
        split at hresult
        · cases hresult
          exact setRemoteTrack_shapes htrack hshape
        · cases hresult
          exact setRemoteTrack_shapes htrack ((processTrackPacket_shape rfl).trans hshape)

theorem pcProcessIncomingRtp_shapes {env : IncomingEnv} {packet : List UInt8} {err : TinyrtcError}
    (h : pcProcessIncomingRtp crypto env pc packet = some (err, pc', events)) :
    remoteShapes pc' = remoteShapes pc := by
  rw [pcProcessIncomingRtp] at h
  split at h
  · exact processPlainRtp_shapes h
  · dsimp only at h
    split at h
    · cases h
      rfl
    · exact (processPlainRtp_shapes h).trans rfl

theorem processDatagram_shapes {input : EventInput} {ice : IceSession} {datagram : Datagram}
    (h : processDatagram crypto input pc ice datagram = some (pc', events)) :
    remoteShapes pc' = remoteShapes pc := by
  have hmedia : ∀ ice' (outputs : List PcEvent),
      (pcProcessIncomingRtp crypto input.incoming { pc with ice := some ice' }
        datagram.bytes).map (fun x => (x.2.1, outputs ++ x.2.2)) = some (pc', events) →
      remoteShapes pc' = remoteShapes pc := by
    intro ice' outputs hmap
    obtain ⟨⟨err, pc'', media⟩, hincoming, hresult⟩ := Option.map_eq_some_iff.mp hmap
    cases hresult
    exact (pcProcessIncomingRtp_shapes hincoming).trans rfl
  rw [processDatagram] at h
  dsimp only at h
  split at h
  · cases h
    rfl
  · split at h
    · split at h
      · cases h
        rfl
      · exact hmedia _ _ h
    · exact hmedia _ _ h

theorem processEvents_shapes {input : EventInput}
    (h : tinyrtcProcessEvents crypto hostOrder input pc = some (pc', events)) :
    remoteShapes pc' = remoteShapes pc := by
  obtain ⟨received, hreceived, hrest⟩ := processEvents_parts h
  have hround : remoteShapes received = remoteShapes pc := by
    rcases hreceived with rfl | ⟨ice, datagram, receivedEvents, -, hreceived⟩
    · rfl
    · exact processDatagram_shapes hreceived
  rcases hrest with rfl | ⟨ice, -, rfl⟩
  · exact hround
  · obtain ⟨⟨state, dtls, hnotified⟩, -⟩ :=
      notifyConnected_frame crypto input { received with ice := some ice } ice
    obtain ⟨dtls', srtp, srtpRx, initialized, hpoll⟩ := pollDtls_frame crypto hostOrder input
      (notifyConnected crypto input { received with ice := some ice } ice).1 ice
    rw [hpoll, hnotified]
    exact hround

theorem addRemoteTrack_shapes (trackOk : Nat → Bool) (state : PeerConnection × List PcEvent)
    (entry : SdpMedia × Nat) :
    remoteShapes state.1 <+: remoteShapes (addRemoteTrack trackOk state entry).1 := by
  rw [addRemoteTrack]
  split
  · exact List.prefix_rfl
  · split
    · exact List.prefix_rfl
    · next tracks hpush =>
      change state.1.remoteTracks.items.map shapeOf <+: tracks.items.map shapeOf
      rw [Slots.push?_items hpush, List.map_append]
      exact List.prefix_append _ _

theorem addRemoteTracks_shapes (trackOk : Nat → Bool) (media : List SdpMedia)
    (pc : PeerConnection) :
    remoteShapes pc <+: remoteShapes (addRemoteTracks trackOk media pc).1 := by
  have hfold : ∀ (entries : List (SdpMedia × Nat)) (state : PeerConnection × List PcEvent),
      remoteShapes state.1 <+: remoteShapes (entries.foldl (addRemoteTrack trackOk) state).1 := by
    intro entries
    induction entries with
    | nil => exact fun state => List.prefix_rfl
    | cons entry entries ih =>
        exact fun state => (addRemoteTrack_shapes trackOk state entry).trans (ih _)
  exact hfold _ (pc, [])

theorem setRemoteDescription_shapes {locals : Locals} {trackOk : Nat → Bool} {sdp : List UInt8}
    {err : TinyrtcError}
    (h : tinyrtcPeerConnectionSetRemoteDescription locals trackOk pc sdp =
      some (err, pc', events)) : remoteShapes pc <+: remoteShapes pc' := by
  rw [tinyrtcPeerConnectionSetRemoteDescription] at h
  split at h
  · cases h
    exact List.prefix_rfl
  · obtain ⟨⟨err', session⟩, hparse, hresult⟩ := Option.map_eq_some_iff.mp h
    dsimp only at hresult
    split at hresult
    · cases hresult
      exact List.prefix_rfl
    · cases hresult
      exact addRemoteTracks_shapes trackOk session.media.items { pc with remoteSdp := session }

/-- No call changes the shape of a remote track or its place. -/
theorem pcCall_shapes {call : PcCall}
    (h : pcCall crypto hostOrder pc call = some (pc', events)) :
    remoteShapes pc <+: remoteShapes pc' := by
  have hkept : pc'.remoteTracks = pc.remoteTracks → remoteShapes pc <+: remoteShapes pc' := by
    intro hsame
    rw [remoteShapes, remoteShapes, hsame]
  cases pcCall_course h with
  | addTrack localTracks => exact hkept rfl
  | removeTrack localTracks => exact hkept rfl
  | createOffer hoffer =>
      obtain ⟨state, localSdp, ice, dtls, rfl⟩ := createOffer_frame hoffer
      exact hkept rfl
  | setRemoteDescription hset => exact setRemoteDescription_shapes hset
  | createAnswer hanswer =>
      obtain ⟨state, localSdp, ice, dtls, rfl⟩ := createAnswer_frame hanswer
      exact hkept rfl
  | addIceCandidate candidate =>
      obtain ⟨remoteSdp, ice, hadded, -⟩ := addIceCandidate_frame pc candidate
      rw [hadded] at hkept ⊢
      exact hkept rfl
  | close => exact hkept rfl
  | sendAudioFrame hsend =>
      obtain ⟨⟨srtp, localTracks, rfl⟩, -⟩ := trackSendFrame_cases hsend
      exact hkept rfl
  | sendVideoFrame hsend =>
      obtain ⟨⟨srtp, localTracks, rfl⟩, -⟩ := trackSendFrame_cases hsend
      exact hkept rfl
  | processEvents hround => exact (processEvents_shapes hround).symm ▸ List.prefix_rfl

/-- Over a run remote tracks only come in behind those that are there. -/
theorem shapes_run {history : List (PcCall × List PcEvent)}
    (hrun : Run (PcStep crypto hostOrder) pc history pc') :
    remoteShapes pc <+: remoteShapes pc' :=
  hrun.invariant (I := fun reached => remoteShapes pc <+: remoteShapes reached)
    (fun _ _ _ hbefore hstep => hbefore.trans (pcCall_shapes hstep)) List.prefix_rfl

end

/-- A payload type stays with the track that it leads to. Whatever is called on the connection or
arrives at it, the track keeps its place, its kind and its codec, also if a later description
gives the payload type to another track. -/
theorem payloadType_keeps_track {crypto : Crypto} {hostOrder : UInt32 → List UInt8}
    {pc pc' : PeerConnection} {history : List (PcCall × List PcEvent)}
    (hrun : Run (PcStep crypto hostOrder) pc history pc') {payloadType : UInt8} {i : Nat}
    (hmatched : matchTrack pc payloadType = some i) :
    matchTrack pc' payloadType = some i ∧
      pc'.remoteTracks.items[i]?.map shapeOf = pc.remoteTracks.items[i]?.map shapeOf := by
  have hshapes := shapes_run hrun
  rw [matchTrack_eq] at hmatched
  refine ⟨matchTrack_of_shapes hshapes hmatched, ?_⟩
  obtain ⟨hlt, -⟩ := List.findIdx?_eq_some_iff_getElem.mp hmatched
  rw [← List.getElem?_map, ← List.getElem?_map]
  change (remoteShapes pc')[i]? = (remoteShapes pc)[i]?
  obtain ⟨later, hlater⟩ := hshapes
  rw [← hlater, List.getElem?_append_left hlt]

/-- A description with a video track of payload type 0, which an audio track has already. -/
def sampleRepeat : PcCall :=
  .setRemoteDescription ⟨fun _ => 0, fun _ => 0⟩ (fun _ => true) (ascii "m=video 1 UDP 0\n")

theorem payloadType_keeps_track_sampleRepeat :
    ∃ history pc events pc',
      Run (PcStep toyCrypto write32) (tinyrtcPeerConnectionCreate sampleConfig) history pc ∧
      Run (PcStep toyCrypto write32) pc [(sampleRepeat, events)] pc' ∧
      pc'.remoteTracks.count = pc.remoteTracks.count + 1 ∧ matchTrack pc' 0 = some 0 ∧
      pc'.remoteTracks.items[0]?.map shapeOf = pc.remoteTracks.items[0]?.map shapeOf := by
  obtain ⟨history, pc, events, pc', hrun, hstep, hp⟩ := exists_step toyCrypto write32
    (tinyrtcPeerConnectionCreate sampleConfig) sampleSetup sampleRepeat
    (fun pc _ pc' => decide (pc'.remoteTracks.count = pc.remoteTracks.count + 1 ∧
      matchTrack pc 0 = some 0)) (by decide +kernel)
  obtain ⟨hcount, hmatched⟩ := of_decide_eq_true hp
  exact ⟨history, pc, events, pc', hrun, .singleton hstep, hcount,
    payloadType_keeps_track (.singleton hstep) hmatched⟩

end TinyRtc.RemoteTrackRuns
