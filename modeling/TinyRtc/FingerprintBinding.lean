import TinyRtc.SecureMedia

namespace TinyRtc.FingerprintBinding

open TinyRtc.BigEndian
open TinyRtc.CallEffects
open TinyRtc.Common
open TinyRtc.Connection
open TinyRtc.CString
open TinyRtc.Dtls
open TinyRtc.Ice
open TinyRtc.IncomingRtp
open TinyRtc.Inet
open TinyRtc.LabelledRuns
open TinyRtc.Negotiation
open TinyRtc.ProcessEvents
open TinyRtc.SecureMedia
open TinyRtc.Srtp
open TinyRtc.Stun

def HasFingerprint (crypto : Crypto) (fingerprint : List UInt8)
    (certificate : Option (List UInt8)) : Prop :=
  ∃ presented, certificate = some presented ∧
    certificateFingerprint crypto presented = fingerprint

instance (crypto : Crypto) (fingerprint : List UInt8) (certificate : Option (List UInt8)) :
    Decidable (HasFingerprint crypto fingerprint certificate) :=
  match certificate with
  | none => isFalse fun ⟨_, h, _⟩ => Option.some_ne_none _ h.symm
  | some presented =>
      decidable_of_iff (certificateFingerprint crypto presented = fingerprint)
        ⟨fun h => ⟨presented, rfl, h⟩, fun ⟨_, h, heq⟩ => Option.some.inj h ▸ heq⟩

/-- If the handshake is over, it was with the owner of the fingerprint. -/
def EndedWith (crypto : Crypto) (fingerprint : List UInt8) (dtls : DtlsContext) : Prop :=
  dtls.handshakeComplete = true → HasFingerprint crypto fingerprint dtls.peerCertificate

/-- If this answer ends the handshake, it is with the owner of the fingerprint. -/
def EndsWith (crypto : Crypto) (fingerprint : List UInt8) (env : HandshakeEnv) : Prop :=
  env.answer.result = .done → HasFingerprint crypto fingerprint env.answer.peerCertificate

instance (crypto : Crypto) (fingerprint : List UInt8) (env : HandshakeEnv) :
    Decidable (EndsWith crypto fingerprint env) :=
  inferInstanceAs (Decidable (_ → _))

section

variable {crypto : Crypto} {fingerprint : List UInt8} {dtls : DtlsContext}

theorem dtlsContinueHandshake_endedWith {env : HandshakeEnv}
    (hdtls : EndedWith crypto fingerprint dtls) (henv : EndsWith crypto fingerprint env) :
    EndedWith crypto fingerprint (dtlsContinueHandshake dtls env.answer).2 := by
  rw [dtlsContinueHandshake]
  split
  · exact hdtls
  · intro hcomplete
    exact henv (eq_of_beq hcomplete)

theorem dtlsHandleHandshakeResult_endedWith (env : HandshakeEnv) (result : HandshakeResult)
    (hdtls : EndedWith crypto fingerprint dtls) :
    EndedWith crypto fingerprint (dtlsHandleHandshakeResult dtls env result).2 := by
  have hreset : EndedWith crypto fingerprint
      { dtls with isOver := false, peerCertificate := none, handshakeComplete := false } :=
    fun hcomplete => absurd hcomplete Bool.false_ne_true
  cases result with
  | done => exact hdtls
  | wantRead => exact hdtls
  | wantWrite => exact hdtls
  | peerCloseNotify => exact hdtls
  | failed => exact hdtls
  | helloVerifyRequired =>
      simp only [dtlsHandleHandshakeResult]
      split
      · split
        · exact hdtls
        · split <;> exact hreset
      · exact hdtls

theorem dtlsProcessData_endedWith {first second : HandshakeEnv} (len : Nat)
    (hdtls : EndedWith crypto fingerprint dtls) (hfirst : EndsWith crypto fingerprint first)
    (hsecond : EndsWith crypto fingerprint second) :
    EndedWith crypto fingerprint (dtlsProcessData dtls first second len).2 := by
  have hcontinued := dtlsContinueHandshake_endedWith hdtls hfirst
  rw [dtlsProcessData]
  split
  · exact hdtls
  · dsimp only
    split
    · have hhandled := dtlsHandleHandshakeResult_endedWith first
        (dtlsContinueHandshake dtls first.answer).1 hcontinued
      split
      · exact hhandled
      · exact dtlsHandleHandshakeResult_endedWith _ _
          (dtlsContinueHandshake_endedWith hhandled hsecond)
    · exact dtlsHandleHandshakeResult_endedWith _ _ hcontinued

theorem dtlsPollHandshake_endedWith {env : HandshakeEnv}
    (hdtls : EndedWith crypto fingerprint dtls) (henv : EndsWith crypto fingerprint env) :
    EndedWith crypto fingerprint (dtlsPollHandshake dtls env).2 :=
  dtlsHandleHandshakeResult_endedWith _ _ (dtlsContinueHandshake_endedWith hdtls henv)

theorem dtlsStart_endedWith {env : HandshakeEnv} (ice : IceSession)
    (hdtls : EndedWith crypto fingerprint dtls) (henv : EndsWith crypto fingerprint env) :
    EndedWith crypto fingerprint (dtlsStart dtls env ice).2 := by
  rw [dtlsStart]
  split
  · exact hdtls
  · dsimp only
    split
    · exact hdtls
    · have hstarted : EndedWith crypto fingerprint { dtls with transport := some ice } := hdtls
      exact dtlsContinueHandshake_endedWith hstarted henv

end

/-- Whatever handshake is over in this connection was with the owner of the
fingerprint that the remote description announces. -/
structure AnnouncedPeer (crypto : Crypto) (fingerprint : List UInt8) (pc : PeerConnection) :
    Prop where
  announced : pc.remoteSdp.fingerprint.bytes = fingerprint
  ended : ∀ dtls, pc.dtls = some dtls → EndedWith crypto fingerprint dtls

/-- The handshakes that end in this round are with the owner of the fingerprint that
the remote description announces. -/
structure EndsWithAnnouncedPeer (crypto : Crypto) (pc : PeerConnection) (input : EventInput) :
    Prop where
  first : EndsWith crypto pc.remoteSdp.fingerprint.bytes input.firstHandshake
  second : EndsWith crypto pc.remoteSdp.fingerprint.bytes input.secondHandshake
  start : EndsWith crypto pc.remoteSdp.fingerprint.bytes input.startHandshake
  poll : EndsWith crypto pc.remoteSdp.fingerprint.bytes input.pollHandshake

instance (crypto : Crypto) (pc : PeerConnection) (input : EventInput) :
    Decidable (EndsWithAnnouncedPeer crypto pc input) :=
  decidable_of_iff
    (EndsWith crypto pc.remoteSdp.fingerprint.bytes input.firstHandshake ∧
      EndsWith crypto pc.remoteSdp.fingerprint.bytes input.secondHandshake ∧
      EndsWith crypto pc.remoteSdp.fingerprint.bytes input.startHandshake ∧
      EndsWith crypto pc.remoteSdp.fingerprint.bytes input.pollHandshake)
    ⟨fun ⟨first, second, start, poll⟩ => ⟨first, second, start, poll⟩,
      fun ⟨first, second, start, poll⟩ => ⟨first, second, start, poll⟩⟩

/-- As long as SRTP is not initialised, handshakes end with the announced peer, and
none has ended when a remote description is set. -/
def CallWithAnnouncedPeer (crypto : Crypto) (pc : PeerConnection) : PcCall → Prop
  | .processEvents input => pc.srtpInitialized = false → EndsWithAnnouncedPeer crypto pc input
  | .setRemoteDescription _ _ _ =>
      pc.srtpInitialized = false → ∀ dtls, pc.dtls = some dtls → dtls.handshakeComplete = false
  | _ => True

instance (crypto : Crypto) (pc : PeerConnection) :
    DecidablePred (CallWithAnnouncedPeer crypto pc)
  | .processEvents input =>
      inferInstanceAs (Decidable (_ → EndsWithAnnouncedPeer crypto pc input))
  | .setRemoteDescription _ _ _ =>
      inferInstanceAs (Decidable (_ → ∀ dtls ∈ pc.dtls, dtls.handshakeComplete = false))
  | .addTrack _ _ | .removeTrack _ | .createOffer _ | .createAnswer _ | .addIceCandidate _
  | .close | .sendAudioFrame _ _ _ _ | .sendVideoFrame _ _ _ _ => isTrue trivial

/-- SRTP becomes initialised with the announced peer only. -/
def BindsFingerprint (crypto : Crypto) (pc pc' : PeerConnection) : Prop :=
  pc.srtpInitialized = false → pc'.srtpInitialized = true →
    ∃ dtls, pc'.dtls = some dtls ∧
      HasFingerprint crypto pc'.remoteSdp.fingerprint.bytes dtls.peerCertificate

theorem BindsFingerprint.of_eq {crypto : Crypto} {pc pc' : PeerConnection}
    (h : pc'.srtpInitialized = pc.srtpInitialized) : BindsFingerprint crypto pc pc' := by
  intro hbefore hafter
  rw [h, hbefore] at hafter
  cases hafter

def Announced (crypto : Crypto) (pc : PeerConnection) : Prop :=
  pc.srtpInitialized = false → AnnouncedPeer crypto pc.remoteSdp.fingerprint.bytes pc

section

variable {crypto : Crypto} {hostOrder : UInt32 → List UInt8} {fingerprint : List UInt8}
  {pc pc' : PeerConnection}

theorem AnnouncedPeer.of_keeps (h : AnnouncedPeer crypto fingerprint pc)
    (hkeeps : KeepsRemote pc pc') : AnnouncedPeer crypto fingerprint pc' := by
  refine ⟨?_, ?_⟩
  · rw [hkeeps.fingerprint]
    exact h.announced
  · intro dtls hdtls hover
    exact h.ended dtls (hkeeps.handshake dtls hdtls hover) hover

theorem processDatagram_initialized {input : EventInput} {ice : IceSession} {datagram : Datagram}
    {events : List PcEvent}
    (h : processDatagram crypto input pc ice datagram = some (pc', events)) :
    pc'.srtpInitialized = pc.srtpInitialized := by
  obtain ⟨dtls, srtpRx, remoteTracks, media, rfl, -⟩ := processDatagram_parts h
  rfl

theorem processDatagram_announced {input : EventInput} {ice : IceSession} {datagram : Datagram}
    {events : List PcEvent}
    (h : processDatagram crypto input pc ice datagram = some (pc', events))
    (hpc : AnnouncedPeer crypto fingerprint pc)
    (hfirst : EndsWith crypto fingerprint input.firstHandshake)
    (hsecond : EndsWith crypto fingerprint input.secondHandshake) :
    AnnouncedPeer crypto fingerprint pc' := by
  obtain ⟨dtls, srtpRx, remoteTracks, media, rfl, -, -, hdtls⟩ := processDatagram_parts h
  refine ⟨hpc.announced, ?_⟩
  rcases hdtls with rfl | ⟨context, hcontext, rfl⟩
  · exact hpc.ended
  · intro dtls' hdtls'
    cases hdtls'
    exact dtlsProcessData_endedWith _ (hpc.ended context hcontext) hfirst hsecond

theorem notifyConnected_announced {input : EventInput} (ice : IceSession)
    (hpc : AnnouncedPeer crypto fingerprint pc)
    (hstart : EndsWith crypto fingerprint input.startHandshake) :
    AnnouncedPeer crypto fingerprint (notifyConnected crypto input pc ice).1 := by
  rw [notifyConnected]
  split
  · refine ⟨hpc.announced, ?_⟩
    intro dtls hdtls
    obtain ⟨started, hstarted, rfl⟩ := Option.map_eq_some_iff.mp hdtls
    apply dtlsStart_endedWith _ _ hstart
    split at hstarted
    · -- A new context has not shaken hands.
      obtain ⟨certificate, -, rfl⟩ := Option.map_eq_some_iff.mp hstarted
      exact fun hcomplete => absurd hcomplete Bool.false_ne_true
    · exact hpc.ended started hstarted
  · exact hpc

theorem pollDtls_announced (hostOrder : UInt32 → List UInt8) {input : EventInput}
    (ice : IceSession) (hpc : AnnouncedPeer crypto fingerprint pc)
    (hpoll : EndsWith crypto fingerprint input.pollHandshake) :
    AnnouncedPeer crypto fingerprint (pollDtls crypto hostOrder input pc ice) ∧
      BindsFingerprint crypto pc (pollDtls crypto hostOrder input pc ice) := by
  rcases pollDtls_cases crypto hostOrder input pc ice with
    hidle | ⟨dtls, polled, hdtls, -, hpolled, hrest⟩
  · rw [hidle]
    exact ⟨hpc, .of_eq rfl⟩
  · have hended : EndedWith crypto fingerprint polled :=
      hpolled ▸ dtlsPollHandshake_endedWith (hpc.ended dtls hdtls) hpoll
    rcases hrest with hrest | ⟨hcomplete, srtp, srtpRx, hrest⟩
    · rw [hrest]
      refine ⟨⟨hpc.announced, ?_⟩, .of_eq rfl⟩
      rintro _ ⟨⟩
      exact hended
    · rw [hrest]
      refine ⟨⟨hpc.announced, ?_⟩, ?_⟩
      · rintro _ ⟨⟩
        exact hended
      · intro _ _
        refine ⟨_, rfl, ?_⟩
        rw [hpc.announced]
        exact hended hcomplete

theorem processEvents_announced {input : EventInput} {events : List PcEvent}
    (h : tinyrtcProcessEvents crypto hostOrder input pc = some (pc', events))
    (hpc : AnnouncedPeer crypto pc.remoteSdp.fingerprint.bytes pc)
    (hround : EndsWithAnnouncedPeer crypto pc input) :
    AnnouncedPeer crypto pc.remoteSdp.fingerprint.bytes pc' ∧ BindsFingerprint crypto pc pc' := by
  obtain ⟨received, hreceived, hrest⟩ := processEvents_parts h
  have hafterDatagram : AnnouncedPeer crypto pc.remoteSdp.fingerprint.bytes received ∧
      received.srtpInitialized = pc.srtpInitialized := by
    rcases hreceived with rfl | ⟨ice, datagram, receivedEvents, -, hreceived⟩
    · exact ⟨hpc, rfl⟩
    · exact ⟨processDatagram_announced hreceived hpc hround.first hround.second,
        processDatagram_initialized hreceived⟩
  obtain ⟨hannounced, hinitialized⟩ := hafterDatagram
  rcases hrest with rfl | ⟨ice, -, rfl⟩
  · exact ⟨hannounced, .of_eq hinitialized⟩
  · have hchecked : AnnouncedPeer crypto pc.remoteSdp.fingerprint.bytes
        { received with ice := some ice } := ⟨hannounced.announced, hannounced.ended⟩
    obtain ⟨hsame, -, -⟩ := notifyConnected_srtp crypto input { received with ice := some ice } ice
    obtain ⟨hfinal, hbinds⟩ := pollDtls_announced hostOrder ice
      (notifyConnected_announced ice hchecked hround.start) hround.poll
    exact ⟨hfinal, fun hbefore => hbinds (hsame.trans (hinitialized.trans hbefore))⟩

theorem processEvents_initialized {input : EventInput} {events : List PcEvent}
    (h : tinyrtcProcessEvents crypto hostOrder input pc = some (pc', events))
    (hpc : pc.srtpInitialized = true) : pc'.srtpInitialized = true := by
  obtain ⟨received, hreceived, hrest⟩ := processEvents_parts h
  have hinitialized : received.srtpInitialized = true := by
    rcases hreceived with rfl | ⟨ice, datagram, receivedEvents, -, hreceived⟩
    · exact hpc
    · exact (processDatagram_initialized hreceived).trans hpc
  rcases hrest with rfl | ⟨ice, -, rfl⟩
  · exact hinitialized
  · obtain ⟨hsame, -, -⟩ := notifyConnected_srtp crypto input { received with ice := some ice } ice
    have hnotified := hsame.trans hinitialized
    rcases pollDtls_cases crypto hostOrder input
      (notifyConnected crypto input { received with ice := some ice } ice).1 ice with
      hidle | ⟨dtls, polled, -, hbefore, -⟩
    · rw [hidle]
      exact hnotified
    · rw [hnotified] at hbefore
      cases hbefore

/-- One step under the condition: the invariant is kept, and keys are installed with
the announced peer only. -/
theorem announced_step {call : PcCall × List PcEvent} (hpc : Announced crypto pc)
    (hstep : GuardedStep crypto hostOrder (CallWithAnnouncedPeer crypto) pc call pc') :
    Announced crypto pc' ∧ BindsFingerprint crypto pc pc' := by
  obtain ⟨call, events⟩ := call
  obtain ⟨hcall, hpeer⟩ := hstep
  by_cases hlocal : IsLocalCall call
  · have hkeeps := (pcCall_keepsRemote hcall hlocal).1
    refine ⟨?_, BindsFingerprint.of_eq hkeeps.srtpInitialized⟩
    intro hafter
    rw [hkeeps.srtpInitialized] at hafter
    rw [hkeeps.fingerprint]
    exact (hpc hafter).of_keeps hkeeps
  · cases call with
    | setRemoteDescription locals trackOk sdp =>
        have hkeeps := (pcCall_keeps hcall fun input heq => by cases heq).1
        refine ⟨?_, BindsFingerprint.of_eq hkeeps.srtpInitialized⟩
        intro hafter
        rw [hkeeps.srtpInitialized] at hafter
        refine ⟨rfl, ?_⟩
        intro dtls hdtls hover
        rw [hpeer hafter dtls (hkeeps.handshake dtls hdtls hover)] at hover
        cases hover
    | processEvents input =>
        by_cases hbefore : pc.srtpInitialized = false
        · obtain ⟨hannounced, hbinds⟩ := processEvents_announced hcall (hpc hbefore) (hpeer hbefore)
          refine ⟨?_, hbinds⟩
          intro _
          rw [hannounced.announced]
          exact hannounced
        · have hafter := processEvents_initialized hcall (eq_true_of_ne_false hbefore)
          constructor
          · intro hfalse
            rw [hafter] at hfalse
            cases hfalse
          · exact fun hfalse => absurd hfalse hbefore
    | _ => exact absurd trivial hlocal

end

/-- In every run whose handshakes are with the announced peer, SRTP becomes
initialised with that peer only. -/
theorem bindsFingerprint_of_run {crypto : Crypto} {hostOrder : UInt32 → List UInt8}
    {config : PcConfig} {history : List (PcCall × List PcEvent)} {pc pc' : PeerConnection}
    {call : PcCall × List PcEvent}
    (hrun : Run (GuardedStep crypto hostOrder (CallWithAnnouncedPeer crypto))
      (tinyrtcPeerConnectionCreate config) history pc)
    (hstep : GuardedStep crypto hostOrder (CallWithAnnouncedPeer crypto) pc call pc') : BindsFingerprint crypto pc pc' := by
  have hstart : Announced crypto (tinyrtcPeerConnectionCreate config) :=
    fun _ => ⟨rfl, fun dtls hdtls => by cases hdtls⟩
  have hpc := hrun.invariant (I := Announced crypto) (fun _ _ _ h hs => (announced_step h hs).1)
    hstart
  exact (announced_step hpc hstep).2

/-- An offer that announces a certificate by its fingerprint arrives and is answered,
and the remote candidate is given. -/
def sampleAnnounced (fingerprint : List UInt8) : List PcCall :=
  [.setRemoteDescription ⟨fun _ => 0, fun _ => 0⟩ (fun _ => true)
      (ascii "a=fingerprint:sha-256 " ++ fingerprint ++ ascii "\nm=audio 1 UDP 0\n"),
    .createAnswer sampleDescriptionEnv,
    .addIceCandidate ⟨ascii "1", 1, ascii "10.0.0.1", 5000, ascii "host", ascii "udp", false⟩]

def sampleHandshake (certificate : List UInt8) : PcCall :=
  sampleRound (stunHeader stunBindingRequest (List.replicate 12 0x00)) (handshakeEnds certificate)

theorem bindsFingerprint_sampleHandshake :
    ∃ history pc events pc',
      Run (GuardedStep toyCrypto write32 (CallWithAnnouncedPeer toyCrypto))
        (tinyrtcPeerConnectionCreate sampleConfig) history pc ∧
      GuardedStep toyCrypto write32 (CallWithAnnouncedPeer toyCrypto) pc
        (sampleHandshake [], events) pc' ∧
      pc.srtpInitialized = false ∧ pc'.srtpInitialized = true ∧
      BindsFingerprint toyCrypto pc pc' := by
  obtain ⟨history, pc, events, pc', hrun, hstep, hp⟩ := exists_guardedStep toyCrypto write32
    (CallWithAnnouncedPeer toyCrypto) (tinyrtcPeerConnectionCreate sampleConfig)
    (sampleAnnounced (certificateFingerprint toyCrypto [])) (sampleHandshake [])
    (fun pc _ pc' => decide (CallWithAnnouncedPeer toyCrypto pc (sampleHandshake [])) &&
      !pc.srtpInitialized && pc'.srtpInitialized)
    (by decide +kernel)
  rw [Bool.and_eq_true, Bool.and_eq_true, Bool.not_eq_true', decide_eq_true_iff] at hp
  obtain ⟨⟨hpeer, hbefore⟩, hafter⟩ := hp
  exact ⟨history, pc, events, pc', hrun, ⟨hstep, hpeer⟩, hbefore, hafter,
    bindsFingerprint_of_run hrun ⟨hstep, hpeer⟩⟩

/-- Whatever the offer announces, the keys are installed with the peer that has
ended the handshake. -/
theorem bindsFingerprint_fails :
    ∃ history pc call events pc',
      Run (PcStep toyCrypto write32) (tinyrtcPeerConnectionCreate sampleConfig) history pc ∧
      PcStep toyCrypto write32 pc (call, events) pc' ∧ ¬ BindsFingerprint toyCrypto pc pc' := by
  obtain ⟨history, pc, events, pc', hrun, hstep, hp⟩ := exists_step toyCrypto write32
    (tinyrtcPeerConnectionCreate sampleConfig)
    (sampleAnnounced (List.intercalate (ascii ":") (List.replicate 32 (ascii "AA"))))
    (sampleHandshake [])
    (fun pc _ pc' => !pc.srtpInitialized && pc'.srtpInitialized &&
      decide (∀ dtls ∈ pc'.dtls,
        ¬ HasFingerprint toyCrypto pc'.remoteSdp.fingerprint.bytes dtls.peerCertificate))
    (by decide +kernel)
  rw [Bool.and_eq_true, Bool.and_eq_true, Bool.not_eq_true', decide_eq_true_iff] at hp
  obtain ⟨⟨hbefore, hafter⟩, hother⟩ := hp
  refine ⟨history, pc, _, events, pc', hrun, hstep, ?_⟩
  intro hbinds
  obtain ⟨dtls, hdtls, hfingerprint⟩ := hbinds hbefore hafter
  exact hother dtls hdtls hfingerprint

end TinyRtc.FingerprintBinding
