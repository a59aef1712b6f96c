import TinyRtc.PacketizerBounds
import TinyRtc.SecureSending

namespace TinyRtc.SendResults

open TinyRtc.BigEndian
open TinyRtc.CallEffects
open TinyRtc.Common
open TinyRtc.Connection
open TinyRtc.Ice
open TinyRtc.Inet
open TinyRtc.LabelledRuns
open TinyRtc.MediaCodec
open TinyRtc.MediaSend
open TinyRtc.NegotiatedPayload
open TinyRtc.Packetization
open TinyRtc.PacketizerBounds
open TinyRtc.ProcessEvents
open TinyRtc.Rtp
open TinyRtc.Sdp
open TinyRtc.SecureMedia
open TinyRtc.SendSteps
open TinyRtc.SlotArray
open TinyRtc.Srtp

/-- Where the packets of the connection go: the address of the remote candidate of the
selected pair, if it is one. -/
def remoteAddr (pc : PeerConnection) : Option SockAddr :=
  (selectedRemote pc).bind fun remote =>
    (inetPton remote.ip.bytes).map fun addr => ⟨addr, remote.port⟩

/-- The packets of the frame, as they are when no allocation fails. -/
def framePackets (track : Track) (frame : List UInt8) : List PacketCallback :=
  (tinyrtcPacketizeFrame (fun _ => true) track.codecId sendMtu frame).callbacks

/-- Each packet has been made ready behind the one before it, and the network has taken
it. -/
inductive Handed (crypto : Crypto) (pc : PeerConnection) (track : Track) (timestamp : UInt32) :
    UInt16 → Option SrtpContext → List PacketCallback → List PcEvent → Prop
  | nil {sequence : UInt16} {srtp : Option SrtpContext} :
      Handed crypto pc track timestamp sequence srtp [] []
  | cons {sequence : UInt16} {srtp srtp' : Option SrtpContext} {callback : PacketCallback}
      {callbacks : List PacketCallback} {dest : SockAddr} {packet : List UInt8}
      {events : List PcEvent} (hdest : remoteAddr pc = some dest)
      (hpacket : GoesOut crypto (plainPacket track timestamp sequence callback) packet srtp srtp')
      (hrest : Handed crypto pc track timestamp (sequence + 1) srtp' callbacks events) :
      Handed crypto pc track timestamp sequence srtp (callback :: callbacks)
        (.rtp dest packet true :: events)

/-- The answer to a frame: a success, and more frames or bytes on the track's account, only if
every packet of the frame has been handed to the network. -/
def Truthful (crypto : Crypto) (pc : PeerConnection) (place : Nat) (frame : List UInt8)
    (timestamp : UInt32) (err : TinyrtcError) (pc' : PeerConnection) (events : List PcEvent) :
    Prop :=
  ∀ track, pc.localTracks.items[place]? = some track →
    (err = .ok ∨ ∃ track', pc'.localTracks.items[place]? = some track' ∧
      (track'.framesSent ≠ track.framesSent ∨ track'.bytesSent ≠ track.bytesSent)) →
    Handed crypto pc track timestamp track.nextSequence pc.srtp (framePackets track frame) events

/-- The frame is not refused only if its fragments can be allocated and each of its packets
has an address to go to and is taken there. -/
def EveryPacketTaken (env : SendEnv) (pc : PeerConnection) (place : Nat) (frame : List UInt8) :
    Prop :=
  ∀ track, pc.localTracks.items[place]? = some track → track.isLocal = true →
    pcIsSecureMediaReady pc = true →
    (tinyrtcPacketizeFrame env.malloc track.codecId sendMtu frame).callbacks =
        framePackets track frame ∧
      ∀ i < (framePackets track frame).length, env.sent i = true ∧ (remoteAddr pc).isSome = true

/-- The end of `packetize_send_callback`, for a packet that is ready. -/
def handOver (pc : PeerConnection) (sent : Bool) (s : SendState) (packet : List UInt8) :
    SendState :=
  match selectedRemote pc with
  | none => s
  | some remote =>
      match inetPton remote.ip.bytes with
      | none => s
      | some addr =>
          { s with
            nextSequence := if sent then s.sequence else s.nextSequence
            events := s.events ++ [.rtp ⟨addr, remote.port⟩ packet sent] }

theorem handOver_eq (pc : PeerConnection) (sent : Bool) (s : SendState) (packet : List UInt8) :
    handOver pc sent s packet =
      (remoteAddr pc).elim s fun dest =>
        { s with
          nextSequence := if sent then s.sequence else s.nextSequence
          events := s.events ++ [.rtp dest packet sent] } := by
  rw [handOver, remoteAddr]
  cases selectedRemote pc with
  | none => rfl
  | some remote =>
      dsimp only [Option.bind_some]
      cases inetPton remote.ip.bytes with
      | none => rfl
      | some addr => rfl

section

variable {crypto : Crypto} {pc : PeerConnection} {track : Track} {timestamp : UInt32}

theorem GoesOut.unique {plain packet packet' : List UInt8} {srtp next next' : Option SrtpContext}
    (h : GoesOut crypto plain packet srtp next) (h' : GoesOut crypto plain packet' srtp next') :
    packet = packet' ∧ next = next' := by
  cases srtp with
  | none => exact ⟨h.1.trans h'.1.symm, h.2.trans h'.2.symm⟩
  | some context =>
      obtain ⟨_, ⟨result, hresult, -, rfl, rfl⟩, rfl⟩ := h
      obtain ⟨_, ⟨result', hresult', -, rfl, rfl⟩, rfl⟩ := h'
      cases hresult.symm.trans hresult'
      exact ⟨rfl, rfl⟩

theorem Handed.length_eq {sequence : UInt16} {srtp : Option SrtpContext}
    {callbacks : List PacketCallback} {events : List PcEvent}
    (h : Handed crypto pc track timestamp sequence srtp callbacks events) :
    events.length = callbacks.length := by
  induction h with
  | nil => rfl
  | cons _ _ _ ih => rw [List.length_cons, List.length_cons, ih]

theorem handed_cons_iff {sequence : UInt16} {srtp srtp' : Option SrtpContext}
    {callback : PacketCallback} {callbacks : List PacketCallback} {dest : SockAddr}
    {packet : List UInt8} {accepted : Bool} {events : List PcEvent}
    (hdest : remoteAddr pc = some dest)
    (hout : GoesOut crypto (plainPacket track timestamp sequence callback) packet srtp srtp') :
    Handed crypto pc track timestamp sequence srtp (callback :: callbacks)
        (.rtp dest packet accepted :: events) ↔
      accepted = true ∧ Handed crypto pc track timestamp (sequence + 1) srtp' callbacks events := by
  constructor
  · intro h
    cases h with
    | cons _ hpacket hrest =>
        obtain ⟨-, rfl⟩ := GoesOut.unique hout hpacket
        exact ⟨rfl, hrest⟩
  · rintro ⟨rfl, hrest⟩
    exact .cons hdest hout hrest

/-- The packet of a callback fits into the buffer together with its tag, so the encryption
does not fail. -/
theorem packetizeSendCallback_eq (hready : pcIsSecureMediaReady pc = true) (sent : Bool)
    (s : SendState) {callback : PacketCallback} (hlen : callback.payload.length ≤ 1478) :
    ∃ packet srtp',
      GoesOut crypto (plainPacket track timestamp s.sequence callback) packet s.srtp srtp' ∧
      packetizeSendCallback crypto pc track timestamp sent s callback =
        some (handOver pc sent { s with sequence := s.sequence + 1, srtp := srtp' } packet) := by
  have hlength : (plainPacket track timestamp s.sequence callback).length =
      headerLen + callback.payload.length := by
    rw [plainPacket, List.length_append, sentHeader_length]
  rw [packetizeSendCallback]
  simp only [hready, Bool.not_true, Bool.false_eq_true, if_false]
  change ∃ packet srtp', _ ∧ Option.map _ _ = _
  rw [plainPacket] at hlength ⊢
  generalize tinyrtcRtpBuildHeader (sentHeader track s.sequence timestamp callback.marker)
    rtpBufferSize ++ callback.payload = plain at hlength ⊢
  cases hsrtp : s.srtp with
  | none => exact ⟨plain, none, ⟨rfl, rfl⟩, rfl⟩
  | some srtp =>
      have hmax : plain.length + srtpAuthTagLen ≤ rtpBufferSize := by
        rw [hlength, headerLen, srtpAuthTagLen, rtpBufferSize]
        omega
      obtain ⟨result, hresult, hok, -⟩ :=
        srtpEncryptPacket_of_fits crypto srtp
          (plain ++ List.replicate (rtpBufferSize - plain.length) 0x00)
          (hlength ▸ Nat.le_add_right _ _) hmax
      refine ⟨_, some result.srtp, ⟨_, ⟨result, hresult, hok, rfl, rfl⟩, rfl⟩, ?_⟩
      simp only [hresult, Option.map_some, hok, ne_eq, not_true_eq_false, if_false]
      rfl

/-- The callbacks of a frame do not fail, and they all reach the network exactly when each of
them has an address to go to and is taken. -/
theorem sendCallbacks_handed (hready : pcIsSecureMediaReady pc = true) (sent : Nat → Bool)
    (i : Nat) (s : SendState) {callbacks : List PacketCallback}
    (hlen : ∀ callback ∈ callbacks, callback.payload.length ≤ 1478) :
    ∃ s' events, sendCallbacks crypto pc track timestamp sent i callbacks s = some s' ∧
      s'.events = s.events ++ events ∧ events.length ≤ callbacks.length ∧
      (Handed crypto pc track timestamp s.sequence s.srtp callbacks events ↔
        ∀ j < callbacks.length, sent (i + j) = true ∧ (remoteAddr pc).isSome = true) := by
  induction callbacks generalizing i s with
  | nil => exact ⟨s, [], rfl, (List.append_nil _).symm, le_rfl,
      iff_of_true .nil fun j hj => absurd hj (Nat.not_lt_zero j)⟩
  | cons callback callbacks ih =>
      obtain ⟨packet, srtp', hout, hcall⟩ := @packetizeSendCallback_eq crypto pc track timestamp
        hready (sent i) s callback (hlen callback List.mem_cons_self)
      obtain ⟨s', events, hrest, hevents, hlength, hiff⟩ := ih (i + 1)
        (handOver pc (sent i) { s with sequence := s.sequence + 1, srtp := srtp' } packet)
        fun callback' hmem => hlen callback' (List.mem_cons_of_mem _ hmem)
      have hsends : sendCallbacks crypto pc track timestamp sent i (callback :: callbacks) s =
          some s' := by
        rw [sendCallbacks, hcall]
        exact hrest
      rw [handOver_eq] at hevents hiff
      cases hdest : remoteAddr pc with
      | none =>
          rw [hdest] at hevents hiff
          refine ⟨s', events, hsends, hevents, Nat.le_succ_of_le hlength, iff_of_false ?_ ?_⟩
          · intro hhanded
            cases hhanded with
            | cons hsome _ _ => cases hdest.symm.trans hsome
          · intro hall
            exact absurd (hall 0 (Nat.succ_pos _)).2 (by simp)
      | some dest =>
          rw [hdest] at hevents hiff
          refine ⟨s', .rtp dest packet (sent i) :: events, hsends, ?_, Nat.succ_le_succ hlength, ?_⟩
          · rw [hevents]
            exact List.append_assoc ..
          · rw [handed_cons_iff hdest hout, List.length_cons, Nat.forall_lt_succ_left]
            refine and_congr (and_iff_left rfl).symm (hiff.trans ?_)
            simp only [Nat.add_right_comm i 1, Nat.add_assoc]

end

/-- An allocation that fails takes the packets of a NAL unit away. -/
theorem h264PacketizeNalu_sublist (mallocOk : Bool) (nalu : List UInt8) (maxPayload : Nat)
    (isLastNalu : Bool) :
    (h264PacketizeNalu mallocOk nalu maxPayload isLastNalu).callbacks.Sublist
      (h264PacketizeNalu true nalu maxPayload isLastNalu).callbacks := by
  cases mallocOk with
  | true => exact .refl _
  | false =>
      cases nalu with
      | nil => exact .refl _
      | cons naluHeader naluData =>
          rw [h264PacketizeNalu, h264PacketizeNalu]
          split
          · exact .refl _
          · split
            · exact .refl _
            · exact List.nil_sublist _

theorem h264Loop_sublist (malloc : Nat → Bool) (maxPayload fuel offset : Nat)
    (rest : List UInt8) :
    (h264Loop malloc maxPayload fuel offset rest).callbacks.Sublist
      (h264Loop (fun _ => true) maxPayload fuel offset rest).callbacks := by
  induction fuel generalizing offset rest with
  | zero => exact .refl _
  | succ fuel ih =>
      rw [h264Loop, h264Loop]
      dsimp only
      split_ifs
      · exact .refl _
      · exact ih _ _
      · exact h264PacketizeNalu_sublist _ _ _ _
      · exact (h264PacketizeNalu_sublist _ _ _ _).append (ih _ _)

theorem packetizeFrame_sublist (malloc : Nat → Bool) (track : Track) (frame : List UInt8) :
    (tinyrtcPacketizeFrame malloc track.codecId sendMtu frame).callbacks.Sublist
      (framePackets track frame) := by
  rw [framePackets, tinyrtcPacketizeFrame, tinyrtcPacketizeFrame]
  split
  · exact .refl _
  · cases track.codecId with
    | h264 =>
        dsimp only
        split_ifs
        · exact h264Loop_sublist _ _ _ _ _
        · exact h264PacketizeNalu_sublist _ _ _ _
    | _ => exact .refl _

section

variable {env : SendEnv} {pc : PeerConnection} {place : Nat} {track : Track} {frame : List UInt8}

theorem everyPacketTaken_iff (htrack : pc.localTracks.items[place]? = some track)
    (hlocal : track.isLocal = true) (hready : pcIsSecureMediaReady pc = true) :
    EveryPacketTaken env pc place frame ↔
      (tinyrtcPacketizeFrame env.malloc track.codecId sendMtu frame).callbacks =
          framePackets track frame ∧
        ∀ i < (framePackets track frame).length,
          env.sent i = true ∧ (remoteAddr pc).isSome = true := by
  constructor
  · intro h
    exact h track htrack hlocal hready
  · intro h track' htrack' _ _
    cases htrack.symm.trans htrack'
    exact h

variable (crypto : Crypto) (env) (frame) (timestamp : UInt32) in
/-- A frame that is not refused: success is reported whatever has become of its packets. -/
theorem truthful_sent (htrack : pc.localTracks.items[place]? = some track)
    (hlocal : track.isLocal = true) (hready : pcIsSecureMediaReady pc = true) :
    ∃ pc' events, trackSendFrame crypto env pc place frame timestamp = some (.ok, pc', events) ∧
      (Truthful crypto pc place frame timestamp .ok pc' events ↔
        EveryPacketTaken env pc place frame) := by
  have hbounded := packetizeFrame_bounded env.malloc track.codecId
    (by decide : (20 : UInt32) ≤ sendMtu) frame
  obtain ⟨s, events, hsends, hevents, hfewer, hiff⟩ :=
    @sendCallbacks_handed crypto pc track timestamp hready env.sent 0
      ⟨track.nextSequence, pc.srtp, track.nextSequence, []⟩ _ hbounded.length_le
  rw [List.nil_append] at hevents
  refine ⟨afterSend pc place track frame s, s.events, ?_, ?_⟩
  · rw [trackSendFrame, htrack]
    dsimp only
    rw [if_neg (by rw [hlocal]; decide), if_neg (by rw [hready]; decide), hsends]
    rfl
  · rw [everyPacketTaken_iff htrack hlocal hready, hevents]
    have htruthful : Truthful crypto pc place frame timestamp .ok (afterSend pc place track frame s)
        events ↔ Handed crypto pc track timestamp track.nextSequence pc.srtp
          (framePackets track frame) events := by
      constructor
      · intro h
        exact h track htrack (.inl rfl)
      · intro h track' htrack' _
        cases htrack.symm.trans htrack'
        exact h
    simp only [Nat.zero_add] at hiff
    rw [htruthful]
    constructor
    · intro hhanded
      -- there are no fewer events than packets of the frame, so no packet is missing
      have hwhole := (packetizeFrame_sublist env.malloc track frame).eq_of_length_le
        (hhanded.length_eq ▸ hfewer)
      rw [hwhole] at hiff
      exact ⟨hwhole, hiff.mp hhanded⟩
    · rintro ⟨hwhole, htaken⟩
      rw [hwhole] at hiff
      exact hiff.mpr htaken

end

theorem truthful_refused {crypto : Crypto} {pc : PeerConnection} {place : Nat}
    {frame : List UInt8} {timestamp : UInt32} {err : TinyrtcError} (herr : err ≠ .ok) :
    Truthful crypto pc place frame timestamp err pc [] := by
  rintro track htrack (hok | ⟨track', htrack', hgrown⟩)
  · exact absurd hok herr
  · cases htrack.symm.trans htrack'
    rcases hgrown with hgrown | hgrown <;> exact absurd rfl hgrown

/-- The function for one kind of track. -/
def tinyrtcTrackSendFrame (kind : TrackKind) :
    Crypto → SendEnv → PeerConnection → Nat → List UInt8 → UInt32 →
      Option (TinyrtcError × PeerConnection × List PcEvent) :=
  match kind with
  | .audio => tinyrtcTrackSendAudioFrame
  | .video => tinyrtcTrackSendVideoFrame

/-- Both functions answer truthfully just when nothing goes wrong. -/
theorem truthful_iff (kind : TrackKind) (crypto : Crypto) (env : SendEnv) (pc : PeerConnection)
    (place : Nat) (frame : List UInt8) (timestamp : UInt32) :
    ∃ err pc' events,
      tinyrtcTrackSendFrame kind crypto env pc place frame timestamp = some (err, pc', events) ∧
      (Truthful crypto pc place frame timestamp err pc' events ↔
        EveryPacketTaken env pc place frame) := by
  have hkind : tinyrtcTrackSendFrame kind crypto env pc place frame timestamp =
      trackSendFrame crypto env pc place frame timestamp := by
    cases kind <;> rfl
  rw [hkind]
  cases htrack : pc.localTracks.items[place]? with
  | none =>
      refine ⟨.invalidArg, pc, [], by rw [trackSendFrame, htrack], ?_⟩
      refine iff_of_true (truthful_refused (by decide)) fun track hsome => ?_
      cases htrack.symm.trans hsome
  | some track =>
      by_cases hlocal : track.isLocal = true
      · by_cases hready : pcIsSecureMediaReady pc = true
        · obtain ⟨pc', events, hsend, hiff⟩ :=
            truthful_sent env frame crypto timestamp htrack hlocal hready
          exact ⟨.ok, pc', events, hsend, hiff⟩
        · refine ⟨.invalidState, pc, [], ?_, ?_⟩
          · rw [trackSendFrame, htrack]
            simp [hlocal, hready]
          · exact iff_of_true (truthful_refused (by decide)) fun _ _ _ hready' =>
              absurd hready' hready
      · refine ⟨.invalidState, pc, [], ?_, ?_⟩
        · rw [trackSendFrame, htrack]
          simp [hlocal]
        · refine iff_of_true (truthful_refused (by decide)) fun track' htrack' hlocal' => ?_
          cases htrack.symm.trans htrack'
          exact absurd hlocal' hlocal

def canSendFirst (pc : PeerConnection) : Bool :=
  pcIsSecureMediaReady pc && pc.localTracks.items[0]?.any Track.isLocal

/-- The connection is set up, and the network refuses the one packet of a frame. -/
theorem truthful_fails :
    ∃ history pc events pc',
      Run (PcStep toyCrypto write32) (tinyrtcPeerConnectionCreate sampleConfig) history pc ∧
      tinyrtcTrackSendFrame .video toyCrypto ⟨fun _ => true, fun _ => false⟩ pc 0 probeFrame 0 =
        some (.ok, pc', events) ∧
      ¬ Truthful toyCrypto pc 0 probeFrame 0 .ok pc' events := by
  obtain ⟨history, pc, -, -, hrun, -, hp⟩ := exists_step toyCrypto write32
    (tinyrtcPeerConnectionCreate sampleConfig)
    (.addTrack true (sampleVideoTrack 96) :: sampleSetup ++ sampleConnect []) sampleFrame
    (fun pc _ _ => canSendFirst pc) (by decide +kernel)
  rw [canSendFirst, Bool.and_eq_true, Option.any_eq_true] at hp
  obtain ⟨hready, track, htrack, hlocal⟩ := hp
  obtain ⟨pc', events, hsend, hiff⟩ :=
    truthful_sent ⟨fun _ => true, fun _ => false⟩ probeFrame toyCrypto 0 htrack hlocal hready
  refine ⟨history, pc, events, pc', hrun, hsend, fun htruthful => ?_⟩
  obtain ⟨-, htaken⟩ := (everyPacketTaken_iff htrack hlocal hready).mp (hiff.mp htruthful)
  obtain ⟨callback, hcallbacks, -⟩ := packetize_probeFrame track.codecId
  have hfirst : 0 < (framePackets track probeFrame).length := by
    rw [framePackets, hcallbacks]
    exact Nat.one_pos
  exact Bool.false_ne_true (htaken 0 hfirst).1

end TinyRtc.SendResults
