import TinyRtc.SecureSending
import TinyRtc.SrtpRoundTrip

namespace TinyRtc.SessionKeys

open TinyRtc.BigEndian
open TinyRtc.CallEffects
open TinyRtc.Common
open TinyRtc.Connection
open TinyRtc.Dtls
open TinyRtc.Ice
open TinyRtc.IncomingRtp
open TinyRtc.Inet
open TinyRtc.LabelledRuns
open TinyRtc.MediaSend
open TinyRtc.Packetization
open TinyRtc.ProcessEvents
open TinyRtc.SecureMedia
open TinyRtc.SecureSending
open TinyRtc.SendSteps
open TinyRtc.Srtp
open TinyRtc.SrtpRoundTrip

/-- What of an SRTP context its packets are protected with. -/
def keysOf (srtp : SrtpContext) : Bytes 16 × Bytes 14 :=
  (srtp.key, srtp.salt)

/-- SRTP is set up, with these keys for what is sent and for what is received. -/
structure Secured (sending receiving : Bytes 16 × Bytes 14) (pc : PeerConnection) : Prop where
  initialized : pc.srtpInitialized = true
  sends : pc.srtp.map keysOf = some sending
  receives : pc.srtpRx.map keysOf = some receiving

theorem keysOf_of_srtpStep {crypto : Crypto} {srtp srtp' : SrtpContext} {call : SrtpCall}
    (h : SrtpStep crypto srtp call srtp') : keysOf srtp' = keysOf srtp := by
  obtain ⟨hkey, hsalt⟩ := srtpStep_keys h
  rw [keysOf, hkey, hsalt, keysOf]

section

variable {crypto : Crypto} {hostOrder : UInt32 → List UInt8} {pc pc' : PeerConnection}
  {sending receiving : Bytes 16 × Bytes 14}

theorem Encrypts.keysOf_eq {srtp srtp' : SrtpContext} {plain packet : List UInt8}
    (h : Encrypts crypto srtp plain packet srtp') : keysOf srtp' = keysOf srtp := by
  obtain ⟨result, hresult, -, -, rfl⟩ := h
  have hstep : SrtpStep crypto srtp (.encrypt
      (plain ++ List.replicate (rtpBufferSize - plain.length) 0x00) plain.length rtpBufferSize)
      result.srtp := by
    rw [SrtpStep, srtpCall, hresult, Option.map_some]
  exact keysOf_of_srtpStep hstep

theorem contextStep_keys {srtp srtp' : Option SrtpContext} (h : ContextStep crypto srtp srtp') :
    srtp'.map keysOf = srtp.map keysOf := by
  obtain ⟨plain, packet, hout⟩ := h
  cases srtp with
  | none => rw [hout.2]
  | some first =>
      obtain ⟨next, hencrypts, rfl⟩ := hout
      rw [Option.map_some, Option.map_some, Encrypts.keysOf_eq hencrypts]

theorem contexts_keys {srtp srtp' : Option SrtpContext}
    (h : Relation.ReflTransGen (ContextStep crypto) srtp srtp') :
    srtp'.map keysOf = srtp.map keysOf := by
  induction h with
  | refl => rfl
  | tail _ hstep ih => rw [contextStep_keys hstep, ih]

theorem Secured.of_eq (h : Secured sending receiving pc)
    (hinitialized : pc'.srtpInitialized = pc.srtpInitialized)
    (hsends : pc'.srtp.map keysOf = pc.srtp.map keysOf)
    (hreceives : pc'.srtpRx.map keysOf = pc.srtpRx.map keysOf) : Secured sending receiving pc' :=
  ⟨hinitialized.trans h.initialized, hsends.trans h.sends, hreceives.trans h.receives⟩

theorem pcProcessIncomingRtp_secured {env : IncomingEnv} {packet : List UInt8}
    {err : TinyrtcError} {events : List PcEvent} (h : Secured sending receiving pc)
    (hprocess : pcProcessIncomingRtp crypto env pc packet = some (err, pc', events)) :
    Secured sending receiving pc' := by
  rw [pcProcessIncomingRtp] at hprocess
  split at hprocess
  · obtain ⟨⟨remoteTracks, rfl⟩, -⟩ := processPlainRtp_cases hprocess
    exact h.of_eq rfl rfl rfl
  · next srtpRx hsrtpRx =>
    have hkeys : keysOf (srtpDecryptPacket crypto srtpRx packet packet.length).srtp =
        keysOf srtpRx :=
      @keysOf_of_srtpStep crypto _ _ (.decrypt packet packet.length) rfl
    have hreceives : (some (srtpDecryptPacket crypto srtpRx packet packet.length).srtp).map keysOf =
        pc.srtpRx.map keysOf := by
      rw [hsrtpRx, Option.map_some, Option.map_some, hkeys]
    dsimp only at hprocess
    split at hprocess
    · cases hprocess
      exact h.of_eq rfl rfl hreceives
    · obtain ⟨⟨remoteTracks, rfl⟩, -⟩ := processPlainRtp_cases hprocess
      exact h.of_eq rfl rfl hreceives

theorem processDatagram_secured {input : EventInput} {ice : IceSession} {datagram : Datagram}
    {events : List PcEvent} (h : Secured sending receiving pc)
    (hprocess : processDatagram crypto input pc ice datagram = some (pc', events)) :
    Secured sending receiving pc' := by
  have hmedia : ∀ ice' (outputs : List PcEvent),
      (pcProcessIncomingRtp crypto input.incoming { pc with ice := some ice' }
        datagram.bytes).map (fun x => (x.2.1, outputs ++ x.2.2)) = some (pc', events) →
      Secured sending receiving pc' := by
    intro ice' outputs hmap
    obtain ⟨⟨err, pc'', media⟩, hincoming, hresult⟩ := Option.map_eq_some_iff.mp hmap
    cases hresult
    have hice : Secured sending receiving { pc with ice := some ice' } := h.of_eq rfl rfl rfl
    exact pcProcessIncomingRtp_secured hice hincoming
  rw [processDatagram] at hprocess
  dsimp only at hprocess
  split at hprocess
  · cases hprocess
    exact h.of_eq rfl rfl rfl
  · split at hprocess
    · split at hprocess
      · cases hprocess
        exact h.of_eq rfl rfl rfl
      · exact hmedia _ _ hprocess
    · exact hmedia _ _ hprocess

/-- The handshake is over once SRTP is set up. -/
theorem pollDtls_of_initialized (hinitialized : pc.srtpInitialized = true) (input : EventInput)
    (ice : IceSession) : pollDtls crypto hostOrder input pc ice = pc := by
  rw [pollDtls, hinitialized]
  cases pc.dtls with
  | none => rfl
  | some dtls => rfl

theorem processEvents_secured {input : EventInput} {events : List PcEvent}
    (h : Secured sending receiving pc)
    (hround : tinyrtcProcessEvents crypto hostOrder input pc = some (pc', events)) :
    Secured sending receiving pc' := by
  obtain ⟨received, hreceived, hrest⟩ := processEvents_parts hround
  have hsecured : Secured sending receiving received := by
    rcases hreceived with rfl | ⟨ice, datagram, receivedEvents, -, hreceived⟩
    · exact h
    · exact processDatagram_secured h hreceived
  rcases hrest with rfl | ⟨ice, -, rfl⟩
  · exact hsecured
  · obtain ⟨⟨state, dtls, hnotified⟩, -⟩ :=
      notifyConnected_frame crypto input { received with ice := some ice } ice
    have hnotified' : Secured sending receiving
        (notifyConnected crypto input { received with ice := some ice } ice).1 := by
      rw [hnotified]
      exact hsecured.of_eq rfl rfl rfl
    rwa [pollDtls_of_initialized hnotified'.initialized]

theorem trackSendFrame_secured {env : SendEnv} {place : Nat} {frame : List UInt8}
    {timestamp : UInt32} {err : TinyrtcError} {events : List PcEvent}
    (h : Secured sending receiving pc)
    (hsend : trackSendFrame crypto env pc place frame timestamp = some (err, pc', events)) :
    Secured sending receiving pc' := by
  cases trackSendFrame_course hsend with
  | refused hrefused => exact h
  | sent htrack hlocal hready hsends =>
      have hinstalled : SrtpTxInstalled pc := by
        rw [SrtpTxInstalled, h.initialized, ← Option.isSome_map, h.sends]
        rfl
      obtain ⟨hcontexts, -⟩ := sendCallbacks_protected hsends hinstalled .refl
      exact h.of_eq rfl (contexts_keys hcontexts) rfl

/-- No call replaces or drops the keys. -/
theorem secured_step {call : PcCall × List PcEvent} (h : Secured sending receiving pc)
    (hstep : PcStep crypto hostOrder pc call pc') : Secured sending receiving pc' := by
  obtain ⟨call, events⟩ := call
  cases pcCall_course hstep with
  | addTrack localTracks => exact h.of_eq rfl rfl rfl
  | removeTrack localTracks => exact h.of_eq rfl rfl rfl
  | createOffer hoffer =>
      obtain ⟨state, localSdp, ice, dtls, rfl⟩ := createOffer_frame hoffer
      exact h.of_eq rfl rfl rfl
  | setRemoteDescription hset =>
      rcases setRemoteDescription_cases hset with
        ⟨-, rfl, rfl⟩ | ⟨session, -, ⟨-, rfl, rfl⟩ | ⟨-, ⟨remoteTracks, rfl⟩, -⟩⟩
      · exact h
      · exact h.of_eq rfl rfl rfl
      · exact h.of_eq rfl rfl rfl
  | createAnswer hanswer =>
      obtain ⟨state, localSdp, ice, dtls, rfl⟩ := createAnswer_frame hanswer
      exact h.of_eq rfl rfl rfl
  | addIceCandidate candidate =>
      obtain ⟨remoteSdp, ice, hadded, -⟩ := addIceCandidate_frame pc candidate
      rw [hadded]
      exact h.of_eq rfl rfl rfl
  | close => exact h.of_eq rfl rfl rfl
  | sendAudioFrame hsend => exact trackSendFrame_secured h hsend
  | sendVideoFrame hsend => exact trackSendFrame_secured h hsend
  | processEvents hround => exact processEvents_secured h hround

theorem secured_run {history : List (PcCall × List PcEvent)} (h : Secured sending receiving pc)
    (hrun : Run (PcStep crypto hostOrder) pc history pc') : Secured sending receiving pc' :=
  hrun.invariant (I := Secured sending receiving) (fun _ _ _ hs hstep => secured_step hs hstep) h

end

/-- Once SRTP is set up, no renegotiation, no close, no restart of the handshake and no datagram
gives a connection other keys, or takes them away. -/
theorem keys_stable {crypto : Crypto} {hostOrder : UInt32 → List UInt8} {config : PcConfig}
    {history later : List (PcCall × List PcEvent)} {pc pc' : PeerConnection}
    (hrun : Run (PcStep crypto hostOrder) (tinyrtcPeerConnectionCreate config) history pc)
    (hinitialized : pc.srtpInitialized = true)
    (hlater : Run (PcStep crypto hostOrder) pc later pc') :
    ∃ sending receiving, Secured sending receiving pc ∧ Secured sending receiving pc' := by
  have hsends : SrtpTxInstalled pc := srtpTxInstalled_run hrun
  have hreceives : SrtpRxInstalled pc := srtpRxInstalled_run hrun
  rw [SrtpTxInstalled, hinitialized] at hsends
  rw [SrtpRxInstalled, hinitialized] at hreceives
  obtain ⟨srtp, hsrtp⟩ := Option.isSome_iff_exists.mp hsends.symm
  obtain ⟨srtpRx, hsrtpRx⟩ := Option.isSome_iff_exists.mp hreceives.symm
  have hsecured : Secured (keysOf srtp) (keysOf srtpRx) pc := by
    refine ⟨hinitialized, ?_, ?_⟩
    · rw [hsrtp, Option.map_some]
    · rw [hsrtpRx, Option.map_some]
  exact ⟨_, _, hsecured, secured_run hsecured hlater⟩

/-- The offer comes again and is answered, then a packet comes, and the connection is closed. -/
def sampleRenegotiation : List PcCall :=
  sampleSetup ++ [sampleRound (sampleRtp ++ List.replicate 10 0x00) handshakeWaits, .close]

theorem keys_stable_sampleRenegotiation :
    ∃ history later pc pc', Run (PcStep toyCrypto write32)
        (tinyrtcPeerConnectionCreate sampleConfig) history pc ∧
      Run (PcStep toyCrypto write32) pc later pc' ∧ later.map Prod.fst = sampleRenegotiation ∧
      ∃ sending receiving, Secured sending receiving pc ∧ Secured sending receiving pc' := by
  have hcalls : (pcCalls toyCrypto write32 (fun _ _ => True)
      (tinyrtcPeerConnectionCreate sampleConfig) (sampleSetup ++ sampleConnect [])).any
        (fun reached => reached.2.srtpInitialized &&
          (pcCalls toyCrypto write32 (fun _ _ => True) reached.2 sampleRenegotiation).isSome) =
            true := by
    decide +kernel
  rw [Option.any_eq_true] at hcalls
  obtain ⟨⟨history, pc⟩, hcalls, hp⟩ := hcalls
  rw [Bool.and_eq_true] at hp
  obtain ⟨hinitialized, hlater⟩ := hp
  obtain ⟨⟨later, pc'⟩, hlater⟩ := Option.isSome_iff_exists.mp hlater
  have hrun : Run (PcStep toyCrypto write32) (tinyrtcPeerConnectionCreate sampleConfig)
      history pc := (run_pcCalls hcalls).mono fun _ _ _ h => h.1
  have hrun' : Run (PcStep toyCrypto write32) pc later pc' :=
    (run_pcCalls hlater).mono fun _ _ _ h => h.1
  exact ⟨history, later, pc, pc', hrun, hrun', map_fst_pcCalls hlater,
    keys_stable hrun hinitialized hrun'⟩

/-- The set-up gives two peers of one secret the keys of each other. -/
theorem pcInitializeSrtpAfterDtls_secured (crypto : Crypto) (hostOrder : UInt32 → List UInt8)
    {secret : Bytes 48} {a b : PeerConnection} (ha : HasSecret a secret) (hb : HasSecret b secret)
    (hroles : b.config.isInitiator = !a.config.isInitiator) :
    ∃ first second,
      Secured first second (pcInitializeSrtpAfterDtls crypto hostOrder setupEnv a).2 ∧
      Secured second first (pcInitializeSrtpAfterDtls crypto hostOrder setupEnv b).2 := by
  have hinitialized : ∀ {pc : PeerConnection}, HasSecret pc secret →
      (pcInitializeSrtpAfterDtls crypto hostOrder setupEnv pc).2.srtpInitialized = true := by
    rintro pc ⟨dtls, hdtls, hsecret⟩
    have hderive : dtlsDeriveSrtpKeys crypto hostOrder true dtls =
        .ok (srtpKeysOfSecret crypto hostOrder secret) := by
      rw [dtlsDeriveSrtpKeys, hsecret]
      rfl
    simp only [pcInitializeSrtpAfterDtls, hdtls, setupEnv, hderive]
    rfl
  have hback : a.config.isInitiator = !b.config.isInitiator := by
    rw [hroles, Bool.not_not]
  obtain ⟨toB, haSends, hbReceives⟩ :=
    pcInitializeSrtpAfterDtls_peers crypto hostOrder ha hb hroles
  obtain ⟨toA, hbSends, haReceives⟩ :=
    pcInitializeSrtpAfterDtls_peers crypto hostOrder hb ha hback
  refine ⟨keysOf toB, keysOf toA, ⟨hinitialized ha, ?_, ?_⟩, ⟨hinitialized hb, ?_, ?_⟩⟩
  · rw [haSends, Option.map_some]
  · rw [haReceives, Option.map_some]
  · rw [hbSends, Option.map_some]
  · rw [hbReceives, Option.map_some]

end TinyRtc.SessionKeys
