import TinyRtc.CallEffects

namespace TinyRtc.SecureMedia

open TinyRtc.BigEndian
open TinyRtc.CallEffects
open TinyRtc.Common
open TinyRtc.Connection
open TinyRtc.CString
open TinyRtc.Dtls
open TinyRtc.Ice
open TinyRtc.IncomingRtp
open TinyRtc.Inet
open TinyRtc.LabelledRuns
open TinyRtc.Negotiation
open TinyRtc.ProcessEvents
open TinyRtc.Srtp
open TinyRtc.Stun

/-- What ICE takes for a STUN message. -/
def IsStun (datagram : Datagram) : Prop :=
  8 ≤ datagram.bytes.length ∧ stunRead32 datagram.byteAt 4 = stunMagicCookie

instance (datagram : Datagram) : Decidable (IsStun datagram) :=
  inferInstanceAs (Decidable (_ ∧ _))

theorem iceProcessPacket_isMedia (crypto : Crypto) (peer : IcePeer) (ice : IceSession)
    (datagram : Datagram) :
    (iceProcessPacket crypto peer ice datagram).1 = decide (¬ IsStun datagram) := by
  rw [iceProcessPacket]
  split
  · next hshort => simp [IsStun, Nat.not_le.mpr hshort]
  · next hlong =>
    split
    · next hmagic => simp [IsStun, hmagic]
    · next hmagic =>
      have hstun : IsStun datagram := ⟨Nat.not_lt.mp hlong, not_not.mp hmagic⟩
      rw [decide_eq_false (not_not.mpr hstun)]
      dsimp only
      split
      · rfl
      · split
        · split <;> rfl
        · rfl

theorem iceProcessPacket_media (crypto : Crypto) (peer : IcePeer) (ice : IceSession)
    {datagram : Datagram} (h : ¬ IsStun datagram) :
    iceProcessPacket crypto peer ice datagram = (true, ice, []) := by
  rw [iceProcessPacket]
  split
  · rfl
  · next hlong =>
    rw [if_pos]
    intro hmagic
    exact h ⟨Nat.not_lt.mp hlong, hmagic⟩

/-- The SRTP receive context is there exactly when SRTP is said to be
initialised. -/
def SrtpRxInstalled (pc : PeerConnection) : Prop :=
  pc.srtpInitialized = pc.srtpRx.isSome

theorem SrtpRxInstalled.of_eq {pc pc' : PeerConnection} (h : SrtpRxInstalled pc)
    (hinitialized : pc'.srtpInitialized = pc.srtpInitialized) (hrx : pc'.srtpRx = pc.srtpRx) :
    SrtpRxInstalled pc' := by
  rw [SrtpRxInstalled, hinitialized, hrx]
  exact h

theorem SrtpRxInstalled.of_keeps {pc pc' : PeerConnection} (h : SrtpRxInstalled pc)
    (hkeeps : KeepsSecurity pc pc') : SrtpRxInstalled pc' :=
  h.of_eq hkeeps.srtpInitialized hkeeps.srtpRx

theorem processPlainRtp_keeps {env : IncomingEnv} {pc pc' : PeerConnection} {packet : List UInt8}
    {err : TinyrtcError} {events : List PcEvent}
    (h : processPlainRtp env pc packet = some (err, pc', events)) : KeepsRemote pc pc' := by
  obtain ⟨⟨remoteTracks, rfl⟩, -⟩ := processPlainRtp_cases h
  exact .of_eq rfl rfl rfl rfl

/-- The datagram has passed the authentication of the installed receive context. -/
def Authenticated (crypto : Crypto) (pc : PeerConnection) (packet : List UInt8) : Prop :=
  ∃ srtpRx, pc.srtpRx = some srtpRx ∧
    (srtpDecryptPacket crypto srtpRx packet packet.length).error = .ok

/-- A packet that raises an event has been authenticated, if there is a receive
context at all. -/
theorem pcProcessIncomingRtp_cases {crypto : Crypto} {env : IncomingEnv} {pc pc' : PeerConnection}
    {packet : List UInt8} {err : TinyrtcError} {events : List PcEvent}
    (h : pcProcessIncomingRtp crypto env pc packet = some (err, pc', events))
    (hinstalled : SrtpRxInstalled pc) :
    SrtpRxInstalled pc' ∧
      (pc.srtpRx ≠ none → events ≠ [] → Authenticated crypto pc packet) := by
  rw [pcProcessIncomingRtp] at h
  split at h
  · next hnone =>
    exact ⟨hinstalled.of_keeps (processPlainRtp_keeps h).toKeepsSecurity,
      fun hne => absurd hnone hne⟩
  · next srtpRx hsome =>
    have hnext : SrtpRxInstalled
        { pc with srtpRx := some (srtpDecryptPacket crypto srtpRx packet packet.length).srtp } := by
      rw [SrtpRxInstalled, hsome] at hinstalled
      exact hinstalled
    dsimp only at h
    split at h
    · cases h
      exact ⟨hnext, fun _ hevents => absurd rfl hevents⟩
    · next hok =>
      exact ⟨hnext.of_keeps (processPlainRtp_keeps h).toKeepsSecurity,
        fun _ _ => ⟨srtpRx, hsome, not_not.mp hok⟩⟩

/-- The datagram, if it is not STUN, does not come in the clear: SRTP is set up, or
the datagram goes to DTLS. -/
def NotInTheClear (pc : PeerConnection) (datagram : Datagram) : Prop :=
  IsStun datagram ∨ pc.srtpRx ≠ none ∨
    ∃ dtls ice, pc.dtls = some dtls ∧ pc.ice = some ice ∧ iceIsConnected ice = true

/-- Media that does not come in the clear goes through the receive context, and nothing else
raises frames. -/
theorem processDatagram_course {crypto : Crypto} {input : EventInput} {pc pc' : PeerConnection}
    {ice : IceSession} {datagram : Datagram} {events : List PcEvent}
    (h : processDatagram crypto input pc ice datagram = some (pc', events)) (hice : pc.ice = some ice)
    (hinstalled : SrtpRxInstalled pc) :
    ((∃ ice' dtls, pc' = { pc with ice := some ice', dtls := dtls }) ∧
      ∀ event ∈ events, ¬ IsFrame event) ∨
    ¬ IsStun datagram ∧ (NotInTheClear pc datagram → pc.srtpRx ≠ none) ∧
      ∃ err, pcProcessIncomingRtp crypto input.incoming pc datagram.bytes =
        some (err, pc', events) := by
  rw [processDatagram] at h
  by_cases hstun : IsStun datagram
  · have hmedia := iceProcessPacket_isMedia crypto pc.icePeer ice datagram
    rw [decide_eq_false (not_not.mpr hstun)] at hmedia
    simp only [hmedia, Bool.not_false, if_true, Option.some.injEq, Prod.mk.injEq] at h
    obtain ⟨rfl, rfl⟩ := h
    exact .inl ⟨⟨_, _, rfl⟩, fun event hevent => (isNotice_of_mem_map_ice hevent).not_isFrame⟩
  · have hmap : pc.ice = some ice → { pc with ice := some ice } = pc := by
      intro hsame
      cases pc
      cases hsame
      rfl
    simp only [iceProcessPacket_media crypto pc.icePeer ice hstun, hmap hice, List.map_nil,
      List.nil_append, Bool.not_true, Bool.false_eq_true, if_false] at h
    have hmediaPath : (pcProcessIncomingRtp crypto input.incoming pc datagram.bytes).map
          (fun x => (x.2.1, x.2.2)) = some (pc', events) →
        ∃ err, pcProcessIncomingRtp crypto input.incoming pc datagram.bytes =
          some (err, pc', events) := by
      intro hmap
      obtain ⟨⟨err, pc'', media⟩, hincoming, hresult⟩ := Option.map_eq_some_iff.mp hmap
      cases hresult
      exact ⟨err, hincoming⟩
    cases hdtls : pc.dtls with
    | none =>
        rw [hdtls] at h
        refine .inr ⟨hstun, fun hclear => ?_, hmediaPath h⟩
        rcases hclear with hclear | hclear | ⟨dtls, ice', hclear, -⟩
        · exact absurd hclear hstun
        · exact hclear
        · rw [hdtls] at hclear
          cases hclear
    | some dtls =>
        rw [hdtls] at h
        dsimp only at h
        split at h
        · cases h
          exact .inl ⟨⟨ice, _, by rw [← hice]⟩, fun event hevent => absurd hevent List.not_mem_nil⟩
        · next hroute =>
          refine .inr ⟨hstun, fun hclear => ?_, hmediaPath h⟩
          rcases hclear with hclear | hclear | ⟨dtls', ice', -, hice', hconnected⟩
          · exact absurd hclear hstun
          · exact hclear
          · -- With ICE connected, only an initialised SRTP sends it to the media path.
            rw [hice] at hice'
            cases hice'
            rw [hconnected, Bool.and_true, Bool.not_eq_true', Bool.not_eq_false] at hroute
            rw [SrtpRxInstalled, hroute] at hinstalled
            exact Option.isSome_iff_ne_none.mp hinstalled.symm

theorem processDatagram_cases {crypto : Crypto} {input : EventInput} {pc pc' : PeerConnection}
    {ice : IceSession} {datagram : Datagram} {events : List PcEvent}
    (h : processDatagram crypto input pc ice datagram = some (pc', events)) (hice : pc.ice = some ice)
    (hinstalled : SrtpRxInstalled pc) :
    SrtpRxInstalled pc' ∧ (NotInTheClear pc datagram → (∃ event ∈ events, IsFrame event) →
      Authenticated crypto pc datagram.bytes) := by
  rcases processDatagram_course h hice hinstalled with
    ⟨⟨ice', dtls, rfl⟩, hevents⟩ | ⟨-, hrx, err, hincoming⟩
  · exact ⟨hinstalled, fun _ ⟨event, hevent, hframe⟩ => absurd hframe (hevents event hevent)⟩
  · obtain ⟨hafter, hauth⟩ := pcProcessIncomingRtp_cases hincoming hinstalled
    refine ⟨hafter, fun hclear hframe => hauth (hrx hclear) ?_⟩
    obtain ⟨event, hevent, -⟩ := hframe
    exact List.ne_nil_of_mem hevent

/-- The DTLS context aside, becoming connected changes the state only. -/
theorem notifyConnected_srtp (crypto : Crypto) (input : EventInput) (pc : PeerConnection)
    (ice : IceSession) :
    (notifyConnected crypto input pc ice).1.srtpInitialized = pc.srtpInitialized ∧
      (notifyConnected crypto input pc ice).1.srtpRx = pc.srtpRx ∧
      ∀ event ∈ (notifyConnected crypto input pc ice).2, IsNotice event := by
  obtain ⟨⟨state, dtls, hnotified⟩, hevents⟩ := notifyConnected_frame crypto input pc ice
  rw [hnotified]
  exact ⟨rfl, rfl, hevents⟩

theorem pollDtls_installed (crypto : Crypto) (hostOrder : UInt32 → List UInt8) (input : EventInput)
    {pc : PeerConnection} (ice : IceSession) (h : SrtpRxInstalled pc) :
    SrtpRxInstalled (pollDtls crypto hostOrder input pc ice) := by
  rcases pollDtls_contexts crypto hostOrder input pc ice with
    ⟨hinitialized, -, hrx⟩ | ⟨hinitialized, -, hrx⟩
  · exact h.of_eq hinitialized hrx
  · exact hinitialized.trans hrx.symm

/-- The datagram of a round does not come in the clear. -/
def RoundNotInTheClear (pc : PeerConnection) (input : EventInput) : Prop :=
  ∀ datagram, input.datagram = some datagram → NotInTheClear pc datagram

instance (pc : PeerConnection) (datagram : Datagram) : Decidable (NotInTheClear pc datagram) :=
  decidable_of_iff (IsStun datagram ∨ pc.srtpRx.isSome = true ∨
      pc.dtls.isSome = true ∧ pc.ice.any iceIsConnected = true) (by
    rw [NotInTheClear, Option.isSome_iff_ne_none, Option.isSome_iff_exists, Option.any_eq_true]
    simp only [exists_and_left, exists_and_right])

instance (pc : PeerConnection) (input : EventInput) : Decidable (RoundNotInTheClear pc input) :=
  decidable_of_iff (input.datagram.all (fun datagram => decide (NotInTheClear pc datagram)) = true)
    (by rw [RoundNotInTheClear, Option.all_eq_true]; simp)

/-- The condition of a call: a round must not find media in the clear. -/
def CallNotInTheClear (pc : PeerConnection) : PcCall → Prop
  | .processEvents input => RoundNotInTheClear pc input
  | _ => True

instance (pc : PeerConnection) : DecidablePred (CallNotInTheClear pc)
  | .processEvents input => inferInstanceAs (Decidable (RoundNotInTheClear pc input))
  | .addTrack _ _ | .removeTrack _ | .createOffer _ | .setRemoteDescription _ _ _
  | .createAnswer _ | .addIceCandidate _ | .close | .sendAudioFrame _ _ _ _
  | .sendVideoFrame _ _ _ _ => isTrue trivial

/-- Frames are delivered for an authenticated datagram only. -/
def TriggeredByAuthenticated (crypto : Crypto) (pc : PeerConnection) (call : PcCall)
    (events : List PcEvent) : Prop :=
  (∃ event ∈ events, IsFrame event) →
    pc.srtpInitialized = true ∧ ∃ input datagram, call = .processEvents input ∧
      input.datagram = some datagram ∧ Authenticated crypto pc datagram.bytes

/-- The datagram decides about the frames of a round and about the tracks. -/
theorem processEvents_received {crypto : Crypto} {hostOrder : UInt32 → List UInt8}
    {input : EventInput} {pc pc' : PeerConnection} {events : List PcEvent}
    (h : tinyrtcProcessEvents crypto hostOrder input pc = some (pc', events)) :
    ∃ received receivedEvents,
      (received = pc ∧ receivedEvents = [] ∨ ∃ ice datagram, pc.ice = some ice ∧
        input.datagram = some datagram ∧
        processDatagram crypto input pc ice datagram = some (received, receivedEvents)) ∧
      pc'.remoteTracks = received.remoteTracks ∧
      (SrtpRxInstalled received → SrtpRxInstalled pc') ∧
      ∀ event ∈ events, IsFrame event → event ∈ receivedEvents := by
  rw [tinyrtcProcessEvents] at h
  split at h
  · cases h
    exact ⟨_, _, .inl ⟨rfl, rfl⟩, rfl, id, by simp⟩
  · next ice hice =>
    split at h
    · cases h
      exact ⟨_, _, .inl ⟨rfl, rfl⟩, rfl, id, by simp⟩
    · obtain ⟨⟨received, receivedEvents⟩, hreceived, hresult⟩ := Option.map_eq_some_iff.mp h
      refine ⟨received, receivedEvents, ?_, ?_⟩
      · split at hreceived
        · cases hreceived
          exact .inl ⟨rfl, rfl⟩
        · next datagram hdatagram =>
          split at hreceived
          · cases hreceived
            exact .inl ⟨rfl, rfl⟩
          · exact .inr ⟨ice, datagram, hice, hdatagram, hreceived⟩
      · dsimp only at hresult
        split at hresult
        · cases hresult
          exact ⟨rfl, id, fun _ hevent _ => hevent⟩
        · next ice' hice' =>
          generalize iceCheckConnectivity crypto received.icePeer ice' input.now input.checkClock =
            checked at hresult
          obtain ⟨ice, checks⟩ := checked
          cases hresult
          obtain ⟨⟨state, dtls, hstate⟩, -⟩ :=
            notifyConnected_frame crypto input { received with ice := some ice } ice
          obtain ⟨hinitialized, hrx, hnotified⟩ :=
            notifyConnected_srtp crypto input { received with ice := some ice } ice
          refine ⟨?_, fun hreceived =>
            pollDtls_installed _ _ _ _ (hreceived.of_eq hinitialized hrx), ?_⟩
          · obtain ⟨dtls', srtp, srtpRx, initialized, hpoll⟩ := pollDtls_frame crypto hostOrder input
              (notifyConnected crypto input { received with ice := some ice } ice).1 ice
            rw [hpoll, hstate]
          · intro event hevent hframe
            rcases List.mem_append.mp hevent with hevent | hevent
            · rcases List.mem_append.mp hevent with hevent | hevent
              · exact hevent
              · exact absurd hframe (isNotice_of_mem_map_ice hevent).not_isFrame
            · exact absurd hframe (hnotified event hevent).not_isFrame

theorem processEvents_cases {crypto : Crypto} {hostOrder : UInt32 → List UInt8}
    {input : EventInput} {pc pc' : PeerConnection} {events : List PcEvent}
    (h : tinyrtcProcessEvents crypto hostOrder input pc = some (pc', events))
    (hinstalled : SrtpRxInstalled pc) :
    SrtpRxInstalled pc' ∧ (RoundNotInTheClear pc input → (∃ event ∈ events, IsFrame event) →
      ∃ datagram, input.datagram = some datagram ∧ Authenticated crypto pc datagram.bytes) := by
  obtain ⟨received, receivedEvents, hreceived, -, hafter, hframes⟩ := processEvents_received h
  rcases hreceived with ⟨rfl, rfl⟩ | ⟨ice, datagram, hice, hdatagram, hreceived⟩
  · exact ⟨hafter hinstalled, fun _ ⟨event, hevent, hframe⟩ =>
      absurd (hframes event hevent hframe) List.not_mem_nil⟩
  · obtain ⟨hround, hauth⟩ := processDatagram_cases hreceived hice hinstalled
    refine ⟨hafter hround, fun hclear hframe => ⟨datagram, hdatagram, ?_⟩⟩
    obtain ⟨event, hevent, hframe⟩ := hframe
    exact hauth (hclear datagram hdatagram) ⟨event, hframes event hevent hframe, hframe⟩

theorem srtpRxInstalled_step {crypto : Crypto} {hostOrder : UInt32 → List UInt8}
    {pc pc' : PeerConnection} {call : PcCall × List PcEvent} (hpc : SrtpRxInstalled pc)
    (hstep : PcStep crypto hostOrder pc call pc') : SrtpRxInstalled pc' := by
  obtain ⟨call, events⟩ := call
  by_cases hround : ∃ input, call = .processEvents input
  · obtain ⟨input, rfl⟩ := hround
    exact (processEvents_cases hstep hpc).1
  · exact hpc.of_keeps (pcCall_keeps hstep fun input heq => hround ⟨input, heq⟩).1

theorem srtpRxInstalled_run {crypto : Crypto} {hostOrder : UInt32 → List UInt8}
    {config : PcConfig} {history : List (PcCall × List PcEvent)} {pc : PeerConnection}
    (hrun : Run (PcStep crypto hostOrder) (tinyrtcPeerConnectionCreate config) history pc) :
    SrtpRxInstalled pc :=
  hrun.invariant (I := SrtpRxInstalled) (fun _ _ _ => srtpRxInstalled_step) rfl

theorem triggeredByAuthenticated_step {crypto : Crypto} {hostOrder : UInt32 → List UInt8}
    {pc pc' : PeerConnection} {call : PcCall} {events : List PcEvent} (hinstalled : SrtpRxInstalled pc)
    (hstep : PcStep crypto hostOrder pc (call, events) pc') (hclear : CallNotInTheClear pc call) :
    TriggeredByAuthenticated crypto pc call events := by
  intro hframe
  by_cases hround : ∃ input, call = .processEvents input
  · obtain ⟨input, rfl⟩ := hround
    obtain ⟨datagram, hdatagram, hauth⟩ :=
      (processEvents_cases hstep hinstalled).2 hclear hframe
    obtain ⟨srtpRx, hsrtpRx, hok⟩ := hauth
    refine ⟨?_, input, datagram, rfl, hdatagram, srtpRx, hsrtpRx, hok⟩
    rw [hinstalled, hsrtpRx]
    rfl
  · obtain ⟨event, hevent, hframe⟩ := hframe
    exact absurd hframe
      ((pcCall_keeps hstep fun input heq => hround ⟨input, heq⟩).2 event hevent)

def sampleConfig : PcConfig :=
  ⟨none, ⟨false, false, false, true, true⟩, false⟩

def sampleDescriptionEnv : DescriptionEnv where
  clock _ := 1
  certificate := some []
  iceCallocOk := true
  gathering := ⟨some 3, true, 4000, [], 1, fun _ _ => none⟩
  sdpMallocOk := true

def handshakeWaits : HandshakeEnv :=
  ⟨⟨.wantRead, false, none, none⟩, true, true⟩

def handshakeEnds (certificate : List UInt8) : HandshakeEnv :=
  ⟨⟨.done, true, some fun _ => 0, some certificate⟩, true, true⟩

/-- A round that finds a datagram from 10.0.0.1:5000. -/
def sampleRound (datagram : List UInt8) (poll : HandshakeEnv) : PcCall :=
  .processEvents
    { datagram := some ⟨datagram, fun _ => 0, ⟨0x0A000001, 5000⟩⟩
      now := 1
      checkClock := fun _ => 1
      incoming := ⟨1, true, true⟩
      firstHandshake := handshakeWaits
      secondHandshake := handshakeWaits
      certificate := some []
      startHandshake := handshakeWaits
      pollHandshake := poll
      srtpSetup := ⟨true, true, true⟩ }

/-- An offer with one audio track arrives and is answered. -/
def sampleSetup : List PcCall :=
  [.setRemoteDescription ⟨fun _ => 0, fun _ => 0⟩ (fun _ => true) (ascii "m=audio 1 UDP 0\n"),
    .createAnswer sampleDescriptionEnv]

/-- The remote candidate checks the connection, and the handshake ends in the same
round. -/
def sampleConnect (certificate : List UInt8) : List PcCall :=
  [.addIceCandidate ⟨ascii "1", 1, ascii "10.0.0.1", 5000, ascii "host", ascii "udp", false⟩,
    sampleRound (stunHeader stunBindingRequest (List.replicate 12 0x00))
      (handshakeEnds certificate)]

/-- An RTP packet of the audio track, its marker bit set. -/
def sampleRtp : List UInt8 :=
  [0x80, 0x80, 0x00, 0x01] ++ write32 9000 ++ write32 0 ++ [0x55]

end TinyRtc.SecureMedia
