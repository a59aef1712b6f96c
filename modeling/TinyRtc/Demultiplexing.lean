import TinyRtc.SecureMedia
import TinyRtc.SelectedPair

namespace TinyRtc.Demultiplexing

open TinyRtc.BigEndian
open TinyRtc.CallEffects
open TinyRtc.Common
open TinyRtc.Connection
open TinyRtc.CString
open TinyRtc.Dtls
open TinyRtc.Ice
open TinyRtc.IceEffects
open TinyRtc.IncomingRtp
open TinyRtc.Inet
open TinyRtc.LabelledRuns
open TinyRtc.Negotiation
open TinyRtc.ProcessEvents
open TinyRtc.Rtp
open TinyRtc.Sdp
open TinyRtc.SdpParser
open TinyRtc.SecureMedia
open TinyRtc.SelectedPair
open TinyRtc.Srtp
open TinyRtc.Stun

/-- Who takes a datagram: `ice_process_packet` alone, or after it `dtls_process_data` or
`pc_process_incoming_rtp`. -/
inductive Handler where
  | ice
  | dtls
  | media
  deriving DecidableEq, Repr

/-- `processDatagram`, and who takes the datagram. -/
def processDatagramTraced (crypto : Crypto) (input : EventInput) (pc : PeerConnection)
    (ice : IceSession) (datagram : Datagram) :
    Handler × Option (PeerConnection × List PcEvent) :=
  let (isMedia, ice, outputs) := iceProcessPacket crypto pc.icePeer ice datagram
  let pc := { pc with ice := some ice }
  let events := outputs.map .ice
  if !isMedia then (.ice, some (pc, events))
  else
    match pc.dtls with
    | some dtls =>
        if !pc.srtpInitialized && iceIsConnected ice then
          let (_, dtls) := dtlsProcessData dtls input.firstHandshake input.secondHandshake
            datagram.bytes.length
          (.dtls, some ({ pc with dtls := some dtls }, events))
        else
          (.media, (pcProcessIncomingRtp crypto input.incoming pc datagram.bytes).map
            fun (_, pc, media) => (pc, events ++ media))
    | none =>
        (.media, (pcProcessIncomingRtp crypto input.incoming pc datagram.bytes).map
          fun (_, pc, media) => (pc, events ++ media))

theorem processDatagramTraced_snd (crypto : Crypto) (input : EventInput) (pc : PeerConnection)
    (ice : IceSession) (datagram : Datagram) :
    (processDatagramTraced crypto input pc ice datagram).2 =
      processDatagram crypto input pc ice datagram := by
  rw [processDatagramTraced, processDatagram]
  dsimp only
  split
  · rfl
  · cases pc.dtls with
    | none => rfl
    | some dtls =>
        dsimp only
        split <;> rfl

/-- What a round does behind the datagram. -/
def finishRound (crypto : Crypto) (hostOrder : UInt32 → List UInt8) (input : EventInput)
    (pc : PeerConnection) (received : List PcEvent) : PeerConnection × List PcEvent :=
  match pc.ice with
  | none => (pc, received)
  | some ice =>
      let (ice, outputs) := iceCheckConnectivity crypto pc.icePeer ice input.now input.checkClock
      let pc := { pc with ice := some ice }
      let (pc, notified) := notifyConnected crypto input pc ice
      (pollDtls crypto hostOrder input pc ice, received ++ outputs.map .ice ++ notified)

/-- `tinyrtcProcessEvents`, and who takes the datagram of the round if there is one. -/
def tinyrtcProcessEventsTraced (crypto : Crypto) (hostOrder : UInt32 → List UInt8)
    (input : EventInput) (pc : PeerConnection) :
    Option Handler × Option (PeerConnection × List PcEvent) :=
  match pc.ice with
  | none => (none, some (pc, []))
  | some ice =>
      if ice.socket = none then (none, some (pc, []))
      else
        let (handler, received) :=
          match input.datagram with
          | none => (none, some (pc, []))
          | some datagram =>
              if datagram.bytes.length = 0 then (none, some (pc, []))
              else
                let (handler, received) := processDatagramTraced crypto input pc ice datagram
                (some handler, received)
        (handler, received.map fun (pc, received) => finishRound crypto hostOrder input pc received)

theorem tinyrtcProcessEventsTraced_snd (crypto : Crypto) (hostOrder : UInt32 → List UInt8)
    (input : EventInput) (pc : PeerConnection) :
    (tinyrtcProcessEventsTraced crypto hostOrder input pc).2 =
      tinyrtcProcessEvents crypto hostOrder input pc := by
  rw [tinyrtcProcessEventsTraced, tinyrtcProcessEvents]
  cases pc.ice with
  | none => rfl
  | some ice =>
      dsimp only
      split
      · rfl
      · dsimp only
        congr 1
        cases input.datagram with
        | none => rfl
        | some datagram =>
            dsimp only
            split
            · rfl
            · exact processDatagramTraced_snd crypto input pc ice datagram

/-- The first bytes of DTLS records. -/
def IsDtlsByte (byte : UInt8) : Prop :=
  20 ≤ byte ∧ byte ≤ 63

/-- The first bytes of RTP and RTCP packets. -/
def IsMediaByte (byte : UInt8) : Prop :=
  128 ≤ byte ∧ byte ≤ 191

instance (byte : UInt8) : Decidable (IsDtlsByte byte) :=
  inferInstanceAs (Decidable (_ ∧ _))

instance (byte : UInt8) : Decidable (IsMediaByte byte) :=
  inferInstanceAs (Decidable (_ ∧ _))

theorem IsDtlsByte.not_isMediaByte {byte : UInt8} (h : IsDtlsByte byte) : ¬ IsMediaByte byte := by
  rintro ⟨hmedia, -⟩
  exact absurd (UInt8.le_trans hmedia h.2) (by decide)

/-- The session of the connection is as its checks leave it. -/
def IceSound (pc : PeerConnection) : Prop :=
  ∀ ice, pc.ice = some ice → SelectionSound ice

theorem IceSound.of_ice {pc pc' : PeerConnection} (h : IceSound pc) (hice : pc'.ice = pc.ice) :
    IceSound pc' :=
  fun ice hsome => h ice (hice.symm.trans hsome)

theorem iceSound_some {pc : PeerConnection} {ice : IceSession} (hice : pc.ice = some ice)
    (hsound : SelectionSound ice) : IceSound pc := by
  intro ice' hsome
  cases hice.symm.trans hsome
  exact hsound

theorem selectionSound_replay (candidates : List SdpCandidate) {ice : IceSession}
    (h : SelectionSound ice) :
    SelectionSound (candidates.foldl
      (fun ice candidate => (iceAddRemoteCandidate ice candidate).2) ice) := by
  induction candidates generalizing ice with
  | nil => exact h
  | cons candidate candidates ih =>
      exact ih ((selectionUnchanged_iceAddRemoteCandidate ice candidate).sound h)

section

variable {crypto : Crypto} {hostOrder : UInt32 → List UInt8} {env : DescriptionEnv}
  {pc pc' : PeerConnection} {text : Except TinyrtcError (List UInt8)} {events : List PcEvent}

theorem pcGatherAndGenerate_sound (h : pcGatherAndGenerate env pc = some (text, pc', events)) :
    IceSound pc' := by
  obtain ⟨candidates, outputs, rfl, rfl⟩ := pcGatherAndGenerate_cases h
  exact iceSound_some rfl (selectionSound_replay _ (selectionSound_gathered _ _))

theorem createOffer_sound (hpc : IceSound pc)
    (h : tinyrtcPeerConnectionCreateOffer crypto env pc = some (text, pc', events)) :
    IceSound pc' := by
  rw [tinyrtcPeerConnectionCreateOffer] at h
  split at h
  · cases h
    exact hpc
  · exact pcGatherAndGenerate_sound h

theorem createAnswer_sound (hpc : IceSound pc)
    (h : tinyrtcPeerConnectionCreateAnswer crypto env pc = some (text, pc', events)) :
    IceSound pc' := by
  rw [tinyrtcPeerConnectionCreateAnswer] at h
  split at h
  · cases h
    exact hpc
  · exact pcGatherAndGenerate_sound h

theorem setRemoteDescription_sound {locals : Locals} {trackOk : Nat → Bool} {sdp : List UInt8}
    {err : TinyrtcError} (hpc : IceSound pc)
    (h : tinyrtcPeerConnectionSetRemoteDescription locals trackOk pc sdp =
      some (err, pc', events)) : IceSound pc' := by
  rcases setRemoteDescription_cases h with
    ⟨-, rfl, -⟩ | ⟨session, -, ⟨-, rfl, -⟩ | ⟨-, ⟨remoteTracks, rfl⟩, -⟩⟩
  · exact hpc
  · exact hpc.of_ice rfl
  · intro ice hsome
    obtain ⟨ice', hice', rfl⟩ := Option.map_eq_some_iff.mp hsome
    exact selectionSound_replay _ (hpc ice' hice')

theorem addIceCandidate_sound (hpc : IceSound pc) (candidate : IceCandidate) :
    IceSound (tinyrtcPeerConnectionAddIceCandidate pc candidate).2 := by
  rw [tinyrtcPeerConnectionAddIceCandidate]
  split
  · exact hpc
  · split
    · exact hpc
    · dsimp only
      split
      · exact hpc.of_ice rfl
      · next ice hice =>
        have hunchanged :=
          selectionUnchanged_iceAddRemoteCandidate ice (sdpCandidateOfIce candidate)
        exact iceSound_some rfl (hunchanged.sound (hpc ice hice))

theorem processEvents_sound {input : EventInput} (hpc : IceSound pc)
    (h : tinyrtcProcessEvents crypto hostOrder input pc = some (pc', events)) : IceSound pc' := by
  obtain ⟨received, hreceived, hrest⟩ := processEvents_parts h
  have hround : IceSound received := by
    rcases hreceived with rfl | ⟨ice, datagram, receivedEvents, hice, hreceived⟩
    · exact hpc
    · obtain ⟨dtls, srtpRx, remoteTracks, media, rfl, -⟩ := processDatagram_parts hreceived
      have hunchanged := selectionUnchanged_iceProcessPacket crypto pc.icePeer ice datagram
      exact iceSound_some rfl (hunchanged.sound (hpc ice hice))
  rcases hrest with rfl | ⟨ice, ⟨ice', hice', hchecked⟩, rfl⟩
  · exact hround
  · have hsound := (iceCheckConnectivity_selection crypto received.icePeer input.now
      input.checkClock (hround ice' hice')).1
    rw [← hchecked] at hsound
    obtain ⟨⟨state, dtls, hnotified⟩, -⟩ :=
      notifyConnected_frame crypto input { received with ice := some ice } ice
    obtain ⟨dtls', srtp, srtpRx, initialized, hpolled⟩ := pollDtls_frame crypto hostOrder input
      (notifyConnected crypto input { received with ice := some ice } ice).1 ice
    rw [hpolled, hnotified]
    exact iceSound_some rfl hsound

theorem iceSound_step {call : PcCall × List PcEvent} (hpc : IceSound pc)
    (hstep : PcStep crypto hostOrder pc call pc') : IceSound pc' := by
  obtain ⟨call, events⟩ := call
  cases pcCall_course hstep with
  | addTrack localTracks => exact hpc.of_ice rfl
  | removeTrack localTracks => exact hpc.of_ice rfl
  | createOffer hoffer => exact createOffer_sound hpc hoffer
  | setRemoteDescription hset => exact setRemoteDescription_sound hpc hset
  | createAnswer hanswer => exact createAnswer_sound hpc hanswer
  | addIceCandidate candidate => exact addIceCandidate_sound hpc candidate
  | close => exact hpc.of_ice rfl
  | sendAudioFrame hsend =>
      obtain ⟨⟨srtp, localTracks, rfl⟩, -⟩ := trackSendFrame_cases hsend
      exact hpc.of_ice rfl
  | sendVideoFrame hsend =>
      obtain ⟨⟨srtp, localTracks, rfl⟩, -⟩ := trackSendFrame_cases hsend
      exact hpc.of_ice rfl
  | processEvents hround => exact processEvents_sound hpc hround

end

theorem iceSound_run {crypto : Crypto} {hostOrder : UInt32 → List UInt8} {config : PcConfig}
    {history : List (PcCall × List PcEvent)} {pc : PeerConnection}
    (hrun : Run (PcStep crypto hostOrder) (tinyrtcPeerConnectionCreate config) history pc) :
    IceSound pc :=
  hrun.invariant (I := IceSound) (fun _ _ _ => iceSound_step) fun _ hnone => by cases hnone

/-- The connection has a DTLS context and a selected pair, and the round takes the
datagram off the socket. -/
structure Receives (pc : PeerConnection) (input : EventInput) (datagram : Datagram) : Prop where
  dtls : pc.dtls ≠ none
  ice : ∃ ice, pc.ice = some ice ∧ ice.selectedPair ≠ none ∧ ice.socket ≠ none
  received : input.datagram = some datagram
  nonempty : datagram.bytes ≠ []

/-- The first byte of the datagram decides who takes it. -/
def RoutedByFirstByte (datagram : Datagram) (handler : Option Handler) : Prop :=
  (handler = some .dtls ↔ IsDtlsByte (datagram.byteAt 0)) ∧
    (handler = some .media ↔ IsMediaByte (datagram.byteAt 0))

instance (datagram : Datagram) (handler : Option Handler) :
    Decidable (RoutedByFirstByte datagram handler) :=
  inferInstanceAs (Decidable (_ ∧ _))

/-- The phase decides instead. -/
theorem handler_of_receives {crypto : Crypto} {hostOrder : UInt32 → List UInt8} {input : EventInput}
    {pc : PeerConnection} {datagram : Datagram} (hpc : IceSound pc)
    (hreceives : Receives pc input datagram) (hstun : ¬ IsStun datagram) :
    (tinyrtcProcessEventsTraced crypto hostOrder input pc).1 =
      some (if pc.srtpInitialized = true then .media else .dtls) := by
  obtain ⟨ice, hice, hselected, hsocket⟩ := hreceives.ice
  obtain ⟨dtls, hdtls⟩ := Option.ne_none_iff_exists'.mp hreceives.dtls
  have hconnected := (hpc ice hice).isConnected hselected
  have hlength : datagram.bytes.length ≠ 0 :=
    fun hzero => hreceives.nonempty (List.eq_nil_of_length_eq_zero hzero)
  rw [tinyrtcProcessEventsTraced, hice]
  dsimp only
  rw [if_neg hsocket, hreceives.received]
  dsimp only
  rw [if_neg hlength, processDatagramTraced, iceProcessPacket_media crypto pc.icePeer ice hstun]
  dsimp only
  rw [hdtls, hconnected, Bool.and_true]
  cases pc.srtpInitialized <;> rfl

theorem routedByFirstByte_iff {crypto : Crypto} {hostOrder : UInt32 → List UInt8}
    {config : PcConfig} {history : List (PcCall × List PcEvent)} {pc : PeerConnection}
    {input : EventInput} {datagram : Datagram}
    (hrun : Run (PcStep crypto hostOrder) (tinyrtcPeerConnectionCreate config) history pc)
    (hreceives : Receives pc input datagram) (hstun : ¬ IsStun datagram) :
    RoutedByFirstByte datagram (tinyrtcProcessEventsTraced crypto hostOrder input pc).1 ↔
      if pc.srtpInitialized = true then IsMediaByte (datagram.byteAt 0)
      else IsDtlsByte (datagram.byteAt 0) := by
  rw [handler_of_receives (iceSound_run hrun) hreceives hstun, RoutedByFirstByte]
  split
  · constructor
    · rintro ⟨-, hmedia⟩
      exact hmedia.mp rfl
    · intro hmedia
      refine ⟨iff_of_false (by decide) fun hdtls => ?_, iff_of_true rfl hmedia⟩
      exact hdtls.not_isMediaByte hmedia
  · constructor
    · rintro ⟨hdtls, -⟩
      exact hdtls.mp rfl
    · intro hdtls
      exact ⟨iff_of_true rfl hdtls, iff_of_false (by decide) hdtls.not_isMediaByte⟩

/-- What ICE does with a datagram that is not its own. -/
def LeftToMedia (crypto : Crypto) (peer : IcePeer) (ice : IceSession) (datagram : Datagram) :
    Prop :=
  (iceProcessPacket crypto peer ice datagram).1 = true ∧
    (iceProcessPacket crypto peer ice datagram).2.1 = ice

theorem leftToMedia_iff {crypto : Crypto} {peer : IcePeer} {ice : IceSession}
    {datagram : Datagram} :
    LeftToMedia crypto peer ice datagram ↔ ¬ IsStun datagram := by
  constructor
  · rintro ⟨hmedia, -⟩
    rw [iceProcessPacket_isMedia] at hmedia
    exact of_decide_eq_true hmedia
  · intro hmedia
    rw [LeftToMedia, iceProcessPacket_media crypto peer ice hmedia]
    exact ⟨rfl, rfl⟩

/-- The magic cookie stands where an RTP packet has its timestamp. -/
theorem isStun_rtp_iff {datagram : Datagram} {header : RtpHeader}
    (hparse : tinyrtcRtpParseHeader datagram.bytes = some header) :
    IsStun datagram ↔ header.timestamp = stunMagicCookie := by
  obtain ⟨bytes, stale, source⟩ := datagram
  dsimp only at hparse
  unfold tinyrtcRtpParseHeader at hparse
  split at hparse
  · next b0 b1 b2 b3 b4 b5 b6 b7 b8 b9 b10 b11 rest =>
    have htimestamp : header.timestamp = read32 b4 b5 b6 b7 := by
      dsimp only at hparse
      split at hparse
      · cases hparse
      · split at hparse
        · cases hparse
        · split at hparse
          · cases hparse
          · split at hparse
            · cases hparse
            · cases hparse
              rfl
    have hlength : 8 ≤ (b0 :: b1 :: b2 :: b3 :: b4 :: b5 :: b6 :: b7 :: b8 :: b9 :: b10 :: b11 ::
        rest).length := by
      simp only [List.length_cons]
      omega
    rw [htimestamp]
    exact and_iff_right hlength
  · cases hparse

/-- Every RTP packet is left to the media path but those of one timestamp. -/
theorem rtp_leftToMedia_iff {crypto : Crypto} {peer : IcePeer} {ice : IceSession}
    {datagram : Datagram} {header : RtpHeader}
    (hparse : tinyrtcRtpParseHeader datagram.bytes = some header) :
    LeftToMedia crypto peer ice datagram ↔ header.timestamp ≠ stunMagicCookie := by
  rw [leftToMedia_iff, isStun_rtp_iff hparse]

/-- A datagram from 10.0.0.1:5000. -/
def sampleDatagram (bytes : List UInt8) : Datagram :=
  ⟨bytes, fun _ => 0, ⟨0x0A000001, 5000⟩⟩

/-- A packet of payload type 96 with one byte of payload. -/
def samplePacket (timestamp : UInt32) : List UInt8 :=
  [0x80, 0x60] ++ write16 7 ++ write32 timestamp ++ write32 1 ++ [0xAA]

theorem rtp_leftToMedia_samplePacket :
    LeftToMedia toyCrypto (tinyrtcPeerConnectionCreate sampleConfig).icePeer iceSessionCreate
      (sampleDatagram (samplePacket 9000)) :=
  (@rtp_leftToMedia_iff _ _ _ _ ⟨2, false, false, 0, false, 0x60, 7, 9000, 1, []⟩ (by decide)).mpr
    (by decide)

/-- The packet of the one timestamp is taken for a STUN message. -/
theorem rtp_mistaken_for_stun :
    (tinyrtcRtpParseHeader (sampleDatagram (samplePacket 0x2112A442)).bytes).isSome = true ∧
      ¬ LeftToMedia toyCrypto (tinyrtcPeerConnectionCreate sampleConfig).icePeer iceSessionCreate
        (sampleDatagram (samplePacket 0x2112A442)) := by
  refine ⟨by decide, fun hleft => ?_⟩
  exact absurd (leftToMedia_iff.mp hleft) (by decide)

def sampleInput (bytes : List UInt8) (poll : HandshakeEnv) : EventInput where
  datagram := some (sampleDatagram bytes)
  now := 1
  checkClock := fun _ => 1
  incoming := ⟨1, true, true⟩
  firstHandshake := handshakeWaits
  secondHandshake := handshakeWaits
  certificate := some []
  startHandshake := handshakeWaits
  pollHandshake := poll
  srtpSetup := ⟨true, true, true⟩

/-- The remote candidate checks the connection, and the handshake is polled once. -/
def sampleCheck (poll : HandshakeEnv) : List PcCall :=
  [.addIceCandidate ⟨ascii "1", 1, ascii "10.0.0.1", 5000, ascii "host", ascii "udp", false⟩,
    .processEvents
      (sampleInput (Stun.stunHeader Stun.stunBindingRequest (List.replicate 12 0x00)) poll)]

/-- The header of a handshake record of DTLS 1.2. -/
def sampleRecord : List UInt8 :=
  [0x16, 0xFE, 0xFD] ++ List.replicate 10 0x00

def hasSelectedPair (pc : PeerConnection) : Bool :=
  pc.dtls.isSome && pc.ice.any fun ice => ice.selectedPair.isSome && ice.socket.isSome

theorem receives_sampleRecord {pc : PeerConnection} (h : hasSelectedPair pc = true) :
    Receives pc (sampleInput sampleRecord handshakeWaits) (sampleDatagram sampleRecord) := by
  rw [hasSelectedPair, Bool.and_eq_true, Option.any_eq_true] at h
  obtain ⟨hdtls, ice, hice, hpair⟩ := h
  rw [Bool.and_eq_true] at hpair
  refine ⟨Option.isSome_iff_ne_none.mp hdtls, ⟨ice, hice, ?_⟩, rfl, by decide⟩
  exact ⟨Option.isSome_iff_ne_none.mp hpair.1, Option.isSome_iff_ne_none.mp hpair.2⟩

theorem routedByFirstByte_sampleRecord :
    ∃ history pc,
      Run (PcStep toyCrypto write32) (tinyrtcPeerConnectionCreate sampleConfig) history pc ∧
      RoutedByFirstByte (sampleDatagram sampleRecord)
        (tinyrtcProcessEventsTraced toyCrypto write32 (sampleInput sampleRecord handshakeWaits)
          pc).1 := by
  obtain ⟨history, pc, events, pc', hrun, -, hp⟩ := exists_step toyCrypto write32
    (tinyrtcPeerConnectionCreate sampleConfig) (sampleSetup ++ sampleCheck handshakeWaits)
    (.processEvents (sampleInput sampleRecord handshakeWaits))
    (fun pc _ _ => hasSelectedPair pc && !pc.srtpInitialized) (by decide +kernel)
  rw [Bool.and_eq_true, Bool.not_eq_true'] at hp
  refine ⟨history, pc, hrun, ?_⟩
  rw [routedByFirstByte_iff hrun (receives_sampleRecord hp.1) (by decide), hp.2]
  decide

/-- Once SRTP is set up, the same record is taken for media. -/
theorem routedByFirstByte_fails :
    ∃ history pc,
      Run (PcStep toyCrypto write32) (tinyrtcPeerConnectionCreate sampleConfig) history pc ∧
      Receives pc (sampleInput sampleRecord handshakeWaits) (sampleDatagram sampleRecord) ∧
      ¬ IsStun (sampleDatagram sampleRecord) ∧
      ¬ RoutedByFirstByte (sampleDatagram sampleRecord)
        (tinyrtcProcessEventsTraced toyCrypto write32 (sampleInput sampleRecord handshakeWaits)
          pc).1 := by
  obtain ⟨history, pc, events, pc', hrun, -, hp⟩ := exists_step toyCrypto write32
    (tinyrtcPeerConnectionCreate sampleConfig) (sampleSetup ++ sampleCheck (handshakeEnds []))
    (.processEvents (sampleInput sampleRecord handshakeWaits))
    (fun pc _ _ => hasSelectedPair pc && pc.srtpInitialized) (by decide +kernel)
  rw [Bool.and_eq_true] at hp
  have hreceives := receives_sampleRecord hp.1
  refine ⟨history, pc, hrun, hreceives, by decide, ?_⟩
  rw [handler_of_receives (iceSound_run hrun) hreceives (by decide), if_pos hp.2]
  decide

end TinyRtc.Demultiplexing
