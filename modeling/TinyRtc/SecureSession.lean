import TinyRtc.SendResults
import TinyRtc.SessionKeys

namespace TinyRtc.SecureSession

open TinyRtc.CallEffects
open TinyRtc.Common
open TinyRtc.Connection
open TinyRtc.BigEndian
open TinyRtc.CString
open TinyRtc.Ice
open TinyRtc.IncomingRtp
open TinyRtc.NegotiatedPayload
open TinyRtc.Negotiation
open TinyRtc.Sdp
open TinyRtc.LabelledRuns
open TinyRtc.MediaSend
open TinyRtc.Packetization
open TinyRtc.ProcessEvents
open TinyRtc.Rtp
open TinyRtc.SecureSending
open TinyRtc.SendSteps
open TinyRtc.SessionKeys
open TinyRtc.Srtp
open TinyRtc.SrtpRoundTrip

/-- `packet` is `plain`, protected with these keys. -/
def Carries (crypto : Crypto) (keys : Bytes 16 × Bytes 14) (plain packet : List UInt8) : Prop :=
  ∃ srtp srtp', keysOf srtp = keys ∧ Encrypts crypto srtp plain packet srtp'

section

variable {crypto : Crypto} {keys : Bytes 16 × Bytes 14} {plain packet : List UInt8}

/-- A context with the keys gives back the packet, and goes on. -/
theorem Carries.decrypts (h : Carries crypto keys plain packet) {receiver : SrtpContext}
    (hkeys : keysOf receiver = keys) :
    (srtpDecryptPacket crypto receiver packet packet.length).error = .ok ∧
      (srtpDecryptPacket crypto receiver packet packet.length).packet.take
        (srtpDecryptPacket crypto receiver packet packet.length).len = plain := by
  obtain ⟨sender, sender', hsender, result, hresult, hok, rfl, -⟩ := h
  have hsame : keysOf sender = keysOf receiver := hsender.trans hkeys.symm
  have hfits : headerLen ≤ plain.length ∧ plain.length + srtpAuthTagLen ≤ rtpBufferSize := by
    rw [srtpEncryptPacket] at hresult
    split at hresult
    · cases hresult
      cases hok
    · split at hresult
      · cases hresult
      · omega
  have hbuffer : (plain ++ List.replicate (rtpBufferSize - plain.length) 0x00).length =
      rtpBufferSize := by
    rw [List.length_append, List.length_replicate]
    omega
  have hroundTrips := @roundTrips_of_same_keys crypto sender receiver (congrArg Prod.fst hsame)
    (congrArg Prod.snd hsame) _ _ _ hfits.1 hfits.2 hbuffer.ge
  obtain ⟨sent, hsent, -, hlen, hsentLength, -, -, hreceived⟩ := hroundTrips
  cases hresult.symm.trans hsent
  have hpacket : (result.packet.take result.len).length = plain.length + srtpAuthTagLen := by
    rw [List.length_take, hsentLength, hbuffer, hlen]
    omega
  obtain ⟨hdecrypted, hplainLen, hplain⟩ := hreceived (result.packet.take result.len) (by
    rw [hlen, List.take_take, Nat.min_self])
  rw [hpacket]
  refine ⟨hdecrypted, ?_⟩
  rw [hplainLen, hplain]
  exact List.take_left

theorem processPlainRtp_srtpRx (env : IncomingEnv) (pc : PeerConnection)
    (srtpRx : Option SrtpContext) (packet : List UInt8) :
    processPlainRtp env { pc with srtpRx := srtpRx } packet =
      (processPlainRtp env pc packet).map
        fun (err, pc, events) => (err, { pc with srtpRx := srtpRx }, events) := by
  rw [processPlainRtp, processPlainRtp]
  have hmatch : ∀ payloadType,
      matchTrack { pc with srtpRx := srtpRx } payloadType = matchTrack pc payloadType :=
    fun _ => rfl
  cases tinyrtcRtpParseHeader packet with
  | none => rfl
  | some header =>
      dsimp only
      rw [hmatch]
      cases matchTrack pc header.payloadType with
      | none => rfl
      | some i =>
          dsimp only
          cases pc.remoteTracks.items[i]? with
          | none => rfl
          | some track =>
              dsimp only
              rw [Option.map_map]
              refine congrArg (fun f => Option.map f _) (funext fun added => ?_)
              dsimp only [Function.comp_apply]
              split <;> rfl

/-- A protected packet is handled as the packet that it carries. -/
theorem pcProcessIncomingRtp_carried {sending : Bytes 16 × Bytes 14} {pc : PeerConnection}
    (h : Carries crypto keys plain packet) (hpc : Secured sending keys pc) :
    ∃ srtpRx, keysOf srtpRx = keys ∧ ∀ env,
      pcProcessIncomingRtp crypto env pc packet =
        (processPlainRtp env pc plain).map
          fun (err, pc, events) => (err, { pc with srtpRx := some srtpRx }, events) := by
  obtain ⟨receiver, hreceiver, hkeys⟩ := Option.map_eq_some_iff.mp hpc.receives
  obtain ⟨hok, hplain⟩ := h.decrypts hkeys
  refine ⟨(srtpDecryptPacket crypto receiver packet packet.length).srtp, ?_, fun env => ?_⟩
  · rw [← hkeys]
    exact @keysOf_of_srtpStep crypto _ _ (.decrypt packet packet.length) rfl
  · rw [pcProcessIncomingRtp, hreceiver]
    dsimp only
    rw [if_neg (not_not.mpr hok), hplain, processPlainRtp_srtpRx]

/-- A packet that does not pass the authentication leaves the connection as it was. -/
theorem pcProcessIncomingRtp_rejected {pc : PeerConnection} {srtpRx : SrtpContext}
    (hpc : pc.srtpRx = some srtpRx)
    (hfails : (srtpDecryptPacket crypto srtpRx packet packet.length).error ≠ .ok)
    (env : IncomingEnv) : pcProcessIncomingRtp crypto env pc packet = some (.error, pc, []) := by
  have hcontext : (srtpDecryptPacket crypto srtpRx packet packet.length).error = .error ∧
      (srtpDecryptPacket crypto srtpRx packet packet.length).srtp = srtpRx := by
    rw [srtpDecryptPacket] at hfails ⊢
    split
    · exact ⟨rfl, rfl⟩
    · next hlong =>
      rw [if_neg hlong] at hfails
      dsimp only at hfails ⊢
      split
      · exact ⟨rfl, rfl⟩
      · next hverified =>
        rw [if_neg hverified] at hfails
        exact absurd rfl hfails
  rw [pcProcessIncomingRtp, hpc]
  dsimp only
  rw [if_pos hfails, hcontext.1, hcontext.2, ← hpc]

end

section

variable {crypto : Crypto} {hostOrder : UInt32 → List UInt8} {pc pc' : PeerConnection}
  {keys receiving : Bytes 16 × Bytes 14}

/-- The packets of a frame that reach the network carry what the packetizer has made of it. -/
theorem sendCallbacks_carries {track : Track} {timestamp : UInt32} {sent : Nat → Bool} {i : Nat}
    {callbacks : List PacketCallback} {s s' : SendState}
    (h : sendCallbacks crypto pc track timestamp sent i callbacks s = some s')
    (hkeys : s.srtp.map keysOf = some keys) :
    ∀ dest packet accepted, PcEvent.rtp dest packet accepted ∈ s'.events →
      PcEvent.rtp dest packet accepted ∈ s.events ∨ ∃ sequence, ∃ callback ∈ callbacks,
        Carries crypto keys (plainPacket track timestamp sequence callback) packet := by
  induction callbacks generalizing i s with
  | nil =>
      cases h
      exact fun _ _ _ hmem => .inl hmem
  | cons callback callbacks ih =>
      obtain ⟨next, hnext, hrest⟩ := Option.bind_eq_some_iff.mp h
      obtain ⟨srtp, hsrtp, hsrtpKeys⟩ := Option.map_eq_some_iff.mp hkeys
      have hstep : next.srtp.map keysOf = some keys ∧
          ∀ dest packet accepted, PcEvent.rtp dest packet accepted ∈ next.events →
            PcEvent.rtp dest packet accepted ∈ s.events ∨
              Carries crypto keys (plainPacket track timestamp s.sequence callback) packet := by
        cases packetizeSendCallback_step hnext with
        | failed hcontext =>
            exact ⟨(contexts_keys hcontext.to_reflTransGen).trans hkeys, fun _ _ _ => .inl⟩
        | handed hready hremote haddr hout =>
            refine ⟨(contextStep_keys ⟨_, _, hout⟩).trans hkeys, fun dest packet accepted hmem => ?_⟩
            rcases List.mem_append.mp hmem with hmem | hmem
            · exact .inl hmem
            · cases List.mem_singleton.mp hmem
              rw [hsrtp] at hout
              obtain ⟨srtp', hencrypts, -⟩ := hout
              exact .inr ⟨srtp, srtp', hsrtpKeys, hencrypts⟩
      intro dest packet accepted hmem
      rcases ih hrest hstep.1 dest packet accepted hmem with
        hmem | ⟨sequence, callback', hcallback', hcarries⟩
      · rcases hstep.2 dest packet accepted hmem with hmem | hcarries
        · exact .inl hmem
        · exact .inr ⟨s.sequence, callback, List.mem_cons_self, hcarries⟩
      · exact .inr ⟨sequence, callback', List.mem_cons_of_mem _ hcallback', hcarries⟩

/-- A call that sends a frame: its answers from the world, the place of the track, the frame and
its timestamp. -/
def sentFrame : PcCall → Option (SendEnv × Nat × List UInt8 × UInt32)
  | .sendAudioFrame env track frame timestamp => some (env, track, frame, timestamp)
  | .sendVideoFrame env track frame timestamp => some (env, track, frame, timestamp)
  | _ => none

/-- Only the two calls that send a frame hand anything to the network as media. -/
theorem pcCall_isRtp {call : PcCall} {events : List PcEvent}
    (h : pcCall crypto hostOrder pc call = some (pc', events)) {event : PcEvent}
    (hmem : event ∈ events) (hrtp : IsRtp event) :
    ∃ env place frame timestamp err, sentFrame call = some (env, place, frame, timestamp) ∧
      trackSendFrame crypto env pc place frame timestamp = some (err, pc', events) := by
  cases pcCall_course h with
  | addTrack localTracks => exact absurd hmem List.not_mem_nil
  | removeTrack localTracks => exact absurd hmem List.not_mem_nil
  | createOffer hoffer => exact absurd hrtp ((createOffer_keeps hoffer).2 event hmem).not_isRtp
  | setRemoteDescription hset =>
      exact absurd hrtp ((setRemoteDescription_keeps hset).2 event hmem).not_isRtp
  | createAnswer hanswer => exact absurd hrtp ((createAnswer_keeps hanswer).2 event hmem).not_isRtp
  | addIceCandidate candidate => exact absurd hmem List.not_mem_nil
  | close =>
      rw [close_events pc event hmem] at hrtp
      exact hrtp.elim
  | sendAudioFrame hsend => exact ⟨_, _, _, _, _, rfl, hsend⟩
  | sendVideoFrame hsend => exact ⟨_, _, _, _, _, rfl, hsend⟩
  | processEvents hround => exact absurd hrtp (processEvents_not_isRtp hround event hmem)

/-- `plain` is one of the packets of the frame that a call on `pc` sends. -/
def IsPacketOf (pc : PeerConnection) (call : PcCall) (plain : List UInt8) : Prop :=
  ∃ env place frame timestamp track sequence,
    sentFrame call = some (env, place, frame, timestamp) ∧
    pc.localTracks.items[place]? = some track ∧
    ∃ callback ∈ (tinyrtcPacketizeFrame env.malloc track.codecId sendMtu frame).callbacks,
      plain = plainPacket track timestamp sequence callback

theorem pcStep_carries {call : PcCall} {events : List PcEvent} (h : Secured keys receiving pc)
    (hstep : PcStep crypto hostOrder pc (call, events) pc') {dest : Inet.SockAddr}
    {packet : List UInt8} {accepted : Bool} (hsent : PcEvent.rtp dest packet accepted ∈ events) :
    ∃ plain, IsPacketOf pc call plain ∧ Carries crypto keys plain packet := by
  obtain ⟨env, place, frame, timestamp, err, hframe, hsend⟩ := pcCall_isRtp hstep hsent trivial
  cases trackSendFrame_course hsend with
  | refused hrefused => exact absurd hsent List.not_mem_nil
  | @sent track s htrack hlocal hready hsends =>
      rcases sendCallbacks_carries hsends h.sends dest packet accepted hsent with
        hmem | ⟨sequence, callback, hcallback, hcarries⟩
      · exact absurd hmem List.not_mem_nil
      · exact ⟨_, ⟨env, place, frame, timestamp, track, sequence, hframe, htrack, callback,
          hcallback, rfl⟩, hcarries⟩

end

/-- Two connections of one secret, whatever has been called on either of them since, by the
application or by the network: a packet of a frame that one of them has sent is handled by the
other one as if it came in the clear, and what does not pass the authentication changes nothing.
-/
theorem session_transparent {crypto : Crypto} {hostOrder : UInt32 → List UInt8}
    {secret : Bytes 48} {a b a' b' : PeerConnection}
    {historyA historyB : List (PcCall × List PcEvent)} (ha : HasSecret a secret)
    (hb : HasSecret b secret) (hroles : b.config.isInitiator = !a.config.isInitiator)
    (hrunA : Run (PcStep crypto hostOrder)
      (pcInitializeSrtpAfterDtls crypto hostOrder setupEnv a).2 historyA a')
    (hrunB : Run (PcStep crypto hostOrder)
      (pcInitializeSrtpAfterDtls crypto hostOrder setupEnv b).2 historyB b') :
    (∀ call events dest packet accepted, (call, events) ∈ historyA →
      PcEvent.rtp dest packet accepted ∈ events →
      ∃ before pc plain srtpRx,
        Run (PcStep crypto hostOrder)
          (pcInitializeSrtpAfterDtls crypto hostOrder setupEnv a).2 before pc ∧
        IsPacketOf pc call plain ∧
        ∀ env, pcProcessIncomingRtp crypto env b' packet =
          (processPlainRtp env b' plain).map
            fun (err, pc, events) => (err, { pc with srtpRx := some srtpRx }, events)) ∧
    ∃ srtpRx, b'.srtpRx = some srtpRx ∧ ∀ packet env,
      (srtpDecryptPacket crypto srtpRx packet packet.length).error ≠ .ok →
      pcProcessIncomingRtp crypto env b' packet = some (.error, b', []) := by
  obtain ⟨first, second, hfirst, hsecond⟩ :=
    pcInitializeSrtpAfterDtls_secured crypto hostOrder ha hb hroles
  have hb' := secured_run hsecond hrunB
  constructor
  · intro call events dest packet accepted hcall hsent
    obtain ⟨before, pc, pc', hbefore, hstep⟩ := hrunA.exists_step hcall
    obtain ⟨plain, hplain, hcarries⟩ := pcStep_carries (secured_run hfirst hbefore) hstep hsent
    obtain ⟨srtpRx, -, hprocess⟩ := pcProcessIncomingRtp_carried hcarries hb'
    exact ⟨before, pc, plain, srtpRx, hbefore, hplain, hprocess⟩
  · obtain ⟨srtpRx, hsrtpRx, -⟩ := Option.map_eq_some_iff.mp hb'.receives
    exact ⟨srtpRx, hsrtpRx, fun packet env hfails =>
      pcProcessIncomingRtp_rejected hsrtpRx hfails env⟩

/-- An ICE session that has selected the pair to 10.0.0.1:5000. -/
def linkedIce : IceSession :=
  { iceSessionCreate with
    remoteCandidates :=
      ⟨[{ IceCandidateInternal.zero with ip := .strncpy (ascii "10.0.0.1"), port := 5000 }],
        by decide⟩
    checkPairs := ⟨[{ IceCheckPair.fresh 0 0 with succeeded := true }], by decide⟩
    selectedPair := some 0
    socket := some 3 }

def linkedVideoTrack : Track :=
  localTrackOfConfig (sampleVideoTrack 100)

def linkedAudioTrack : Track :=
  localTrackOfConfig ⟨.audio, ascii "a0", .pcmu, 0, 0, 0⟩

/-- A connection with an H264 and a PCMU track each way, whose handshake is over. -/
def linkedConnection (isInitiator : Bool) : PeerConnection :=
  { sampleConnection isInitiator with
    config := ⟨none, ⟨false, false, false, true, true⟩, isInitiator⟩
    ice := some linkedIce
    localTracks := ⟨[linkedVideoTrack, linkedAudioTrack], by decide⟩
    remoteTracks :=
      ⟨[remoteTrackOfMedia { SdpMedia.zero with kind := .video, payloadType := 100 },
        remoteTrackOfMedia { SdpMedia.zero with kind := .audio, codecId := .pcmu }], by decide⟩ }

theorem linkedConnection_hasSecret (isInitiator : Bool) :
    HasSecret (linkedConnection isInitiator) fun _ => 0 :=
  ⟨_, rfl, rfl⟩

theorem session_transparent_linkedConnection :
    ∃ a' events dest packet accepted,
      Run (PcStep toyCrypto write32)
        (pcInitializeSrtpAfterDtls toyCrypto write32 setupEnv (linkedConnection true)).2
        [(sampleFrame, events)] a' ∧
      PcEvent.rtp dest packet accepted ∈ events ∧
      ∃ plain srtpRx, ∀ env, pcProcessIncomingRtp toyCrypto env
        (pcInitializeSrtpAfterDtls toyCrypto write32 setupEnv (linkedConnection false)).2 packet =
          (processPlainRtp env (pcInitializeSrtpAfterDtls toyCrypto write32 setupEnv
            (linkedConnection false)).2 plain).map
              fun (err, pc, events) => (err, { pc with srtpRx := some srtpRx }, events) := by
  have hsends : (pcCall toyCrypto write32
      (pcInitializeSrtpAfterDtls toyCrypto write32 setupEnv (linkedConnection true)).2
      sampleFrame).any (fun result => result.2.any isTransmission) = true := by
    decide +kernel
  obtain ⟨⟨a', events⟩, hcall, hevents⟩ := Option.any_eq_true _ _ |>.mp hsends
  obtain ⟨event, hevent, hsent⟩ := List.any_eq_true.mp hevents
  have hrun : Run (PcStep toyCrypto write32)
      (pcInitializeSrtpAfterDtls toyCrypto write32 setupEnv (linkedConnection true)).2
      [(sampleFrame, events)] a' := .singleton hcall
  cases event with
  | rtp dest packet accepted =>
      obtain ⟨before, pc, plain, srtpRx, -, -, hprocess⟩ :=
        (session_transparent (linkedConnection_hasSecret true) (linkedConnection_hasSecret false)
          rfl hrun (.nil _)).1 sampleFrame events dest packet accepted (List.mem_singleton_self _)
          hevent
      exact ⟨a', events, dest, packet, accepted, hrun, hevent, plain, srtpRx, hprocess⟩
  | _ => cases hsent

end TinyRtc.SecureSession
