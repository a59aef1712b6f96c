import TinyRtc.SecureMedia

namespace TinyRtc.AuthenticatedMedia

open TinyRtc.BigEndian
open TinyRtc.CallEffects
open TinyRtc.Common
open TinyRtc.Connection
open TinyRtc.CString
open TinyRtc.IncomingRtp
open TinyRtc.Inet
open TinyRtc.LabelledRuns
open TinyRtc.MediaCodec
open TinyRtc.Negotiation
open TinyRtc.Packetization
open TinyRtc.ProcessEvents
open TinyRtc.Rtp
open TinyRtc.Sdp
open TinyRtc.SdpParser
open TinyRtc.SecureMedia
open TinyRtc.SlotArray
open TinyRtc.Srtp

/-- The plain packet of a datagram that passes `srtp_decrypt_packet` under the installed
receive context. -/
def authenticatedPacket (crypto : Crypto) (pc : PeerConnection) (datagram : Datagram) :
    Option (List UInt8) :=
  pc.srtpRx.bind fun srtpRx =>
    let result := srtpDecryptPacket crypto srtpRx datagram.bytes datagram.bytes.length
    if ¬ IsStun datagram ∧ result.error = .ok then some (result.packet.take result.len) else none

/-- What a call authenticates. -/
def authenticatedIn (crypto : Crypto) (pc : PeerConnection) : PcCall → List (List UInt8)
  | .processEvents input => (input.datagram.bind (authenticatedPacket crypto pc)).toList
  | _ => []

/-- The packets that are authenticated while the calls are made, in the order in which they
come. -/
def authenticatedPackets (crypto : Crypto) (hostOrder : UInt32 → List UInt8) :
    PeerConnection → List PcCall → List (List UInt8)
  | _, [] => []
  | pc, call :: calls => authenticatedIn crypto pc call ++
      ((pcCall crypto hostOrder pc call).map Prod.fst).elim [] fun pc' =>
        authenticatedPackets crypto hostOrder pc' calls

/-- What a packet adds to a frame. -/
def mediaOf (codec : CodecId) (packet : List UInt8) : List UInt8 :=
  (tinyrtcDepacketizeFrame codec packet frameBufferSize).2

/-- The bytes are those of packets out of the list, in their order. -/
def PutTogether (codec : CodecId) (packets : List (List UInt8)) (bytes : List UInt8) : Prop :=
  ∃ parts : List (List UInt8), parts.Sublist packets ∧ bytes = parts.flatMap (mediaOf codec)

/-- The frame, if it is one, has no byte from elsewhere. -/
def MadeOf (packets : List (List UInt8)) : PcEvent → Prop
  | .audioFrame _ frame _ => ∃ codec, PutTogether codec packets frame
  | .videoFrame _ frame _ => ∃ codec, PutTogether codec packets frame
  | _ => True

section

variable {codec : CodecId} {packets : List (List UInt8)}

theorem PutTogether.nil (codec : CodecId) (packets : List (List UInt8)) :
    PutTogether codec packets [] :=
  ⟨[], packets.nil_sublist, rfl⟩

theorem PutTogether.later {bytes : List UInt8} (h : PutTogether codec packets bytes)
    (later : List (List UInt8)) : PutTogether codec (packets ++ later) bytes := by
  obtain ⟨parts, hparts, rfl⟩ := h
  exact ⟨parts, hparts.trans (List.sublist_append_left packets later), rfl⟩

theorem PutTogether.append {bytes : List UInt8} (h : PutTogether codec packets bytes)
    (packet : List UInt8) :
    PutTogether codec (packets ++ [packet]) (bytes ++ mediaOf codec packet) := by
  obtain ⟨parts, hparts, rfl⟩ := h
  refine ⟨parts ++ [packet], hparts.append (.refl _), ?_⟩
  rw [List.flatMap_append, List.flatMap_singleton]

theorem MadeOf.of_not_isFrame {event : PcEvent} (h : ¬ IsFrame event) : MadeOf packets event := by
  cases event with
  | audioFrame track frame timestamp => exact absurd trivial h
  | videoFrame track frame timestamp => exact absurd trivial h
  | _ => trivial

end

/-- What the tracks keep of frames under way comes from the packets. -/
def TracksFed (packets : List (List UInt8)) (pc : PeerConnection) : Prop :=
  ∀ track ∈ pc.remoteTracks.items, PutTogether .h264 packets track.reassembly.bytes

section

variable {packets : List (List UInt8)} {pc pc' : PeerConnection}

theorem TracksFed.of_eq (h : TracksFed packets pc) (hsame : pc'.remoteTracks = pc.remoteTracks) :
    TracksFed packets pc' := by
  rw [TracksFed, hsame]
  exact h

theorem TracksFed.later (h : TracksFed packets pc) (later : List (List UInt8)) :
    TracksFed (packets ++ later) pc :=
  fun track htrack => (h track htrack).later later

theorem TracksFed.set (h : TracksFed packets pc) (i : Nat) {track : Track}
    (htrack : PutTogether .h264 packets track.reassembly.bytes) :
    TracksFed packets (setRemoteTrack pc i track) := by
  intro other hother
  rcases List.mem_or_eq_of_mem_set hother with hother | rfl
  · exact h other hother
  · exact htrack

theorem trackAppendReassembly_bytes {reallocOk : Bool} {r r' : Reassembly} {data : List UInt8}
    (h : trackAppendReassembly reallocOk r data = some r') : r'.bytes = r.bytes ++ data := by
  rw [trackAppendReassembly] at h
  split at h
  · next hempty =>
    cases h
    rw [List.length_eq_zero_iff.mp hempty, List.append_nil]
  · split at h
    · cases h
      rfl
    · split at h
      · cases h
      · cases h
        rfl

/-- The bytes of the packet go behind what is there, or what is there is given up. -/
theorem reassemble_putTogether (reallocOk : Bool) (timestamp : UInt32) {r : Reassembly}
    (packet : List UInt8) (h : PutTogether .h264 packets r.bytes) :
    PutTogether .h264 (packets ++ [packet])
      (reassemble reallocOk timestamp (mediaOf .h264 packet) r).2.bytes := by
  rw [reassemble]
  split
  · exact .nil _ _
  · next happend =>
    rw [trackAppendReassembly_bytes happend]
    refine PutTogether.append ?_ packet
    -- What the packet goes behind is empty when the frame before was given up.
    split_ifs
    · exact .nil _ _
    · exact .nil _ _
    · exact h
    · exact h

/-- A track keeps and hands on media of the packets only. -/
theorem processTrackPacket_putTogether {reallocOk : Bool} {track track' : Track}
    {packet : List UInt8} {timestamp : UInt32} {err : TinyrtcError} {frame : Option (List UInt8)}
    (h : processTrackPacket reallocOk track packet timestamp = (err, track', frame))
    (htrack : PutTogether .h264 packets track.reassembly.bytes) :
    PutTogether .h264 (packets ++ [packet]) track'.reassembly.bytes ∧
      ∀ bytes ∈ frame, PutTogether track.codecId (packets ++ [packet]) bytes := by
  have hlater := htrack.later [packet]
  have hsingle : PutTogether track.codecId (packets ++ [packet])
      (tinyrtcDepacketizeFrame track.codecId packet frameBufferSize).2 :=
    (PutTogether.nil track.codecId packets).append packet
  rw [processTrackPacket] at h
  dsimp only at h
  generalize hresult : (if
        (tinyrtcDepacketizeFrame track.codecId packet frameBufferSize).2.length > 0 ∧
          track.codecId = .h264 then
      reassemble reallocOk timestamp
        (tinyrtcDepacketizeFrame track.codecId packet frameBufferSize).2 track.reassembly
    else (true, track.reassembly)) = result at h
  obtain ⟨appended, reassembly⟩ := result
  -- The reassembly is what it was, or the packet is one of H264.
  have hgrown : PutTogether .h264 (packets ++ [packet]) reassembly.bytes := by
    split at hresult
    · next hcodec =>
      have hmade := reassemble_putTogether reallocOk timestamp packet htrack
      rwa [mediaOf, ← hcodec.2, hresult, hcodec.2] at hmade
    · cases hresult
      exact hlater
  split at h
  · cases h
    exact ⟨hgrown, by simp⟩
  · split at h
    · cases h
      exact ⟨hgrown, by simp⟩
    · split at h
      · next hcodec =>
        cases h
        refine ⟨.nil _ _, fun bytes hbytes => ?_⟩
        cases hbytes
        rw [hcodec]
        exact hgrown
      · cases h
        refine ⟨hgrown, fun bytes hbytes => ?_⟩
        cases hbytes
        exact hsingle

theorem frameEvents_madeOf {observer : PcObserver} {kind : TrackKind} {i : Nat}
    {frame : List UInt8} {timestamp : UInt32} {codec : CodecId}
    (h : PutTogether codec packets frame) :
    ∀ event ∈ frameEvents observer kind i frame timestamp, MadeOf packets event := by
  intro event hevent
  cases kind with
  | audio =>
      simp only [frameEvents] at hevent
      split at hevent
      · rw [List.mem_singleton.mp hevent]
        exact ⟨codec, h⟩
      · cases hevent
  | video =>
      simp only [frameEvents] at hevent
      split at hevent
      · rw [List.mem_singleton.mp hevent]
        exact ⟨codec, h⟩
      · cases hevent

theorem processPlainRtp_fed {env : IncomingEnv} {packet : List UInt8} {err : TinyrtcError}
    {events : List PcEvent} (h : processPlainRtp env pc packet = some (err, pc', events))
    (hpc : TracksFed packets pc) :
    TracksFed (packets ++ [packet]) pc' ∧ ∀ event ∈ events, MadeOf (packets ++ [packet]) event := by
  have hlater := hpc.later [packet]
  rw [processPlainRtp] at h
  split at h
  · cases h
    exact ⟨hlater, by simp⟩
  · split at h
    · cases h
      exact ⟨hlater, by simp⟩
    · split at h
      · cases h
        exact ⟨hlater, by simp⟩
      · next track htrack =>
        have hheld := hpc track (List.mem_of_getElem? htrack)
        obtain ⟨⟨added, buffer⟩, -, hresult⟩ := Option.map_eq_some_iff.mp h
        dsimp only at hresult
        split at hresult
        · cases hresult
          exact ⟨hlater.set _ (hheld.later [packet]), by simp⟩
        · cases hresult
          obtain ⟨hafter, hframe⟩ := @processTrackPacket_putTogether packets env.reallocOk
            { track with
              jitterBuffer := buffer
              packetsReceived := track.packetsReceived + 1 } _ _ _ _ _ rfl hheld
          refine ⟨hlater.set _ hafter, ?_⟩
          split
          · simp
          · next frame hsome => exact frameEvents_madeOf (hframe frame hsome)

variable {crypto : Crypto}

/-- With a receive context, only what it authenticates gets to a track. -/
theorem pcProcessIncomingRtp_fed {env : IncomingEnv} {datagram : Datagram} {err : TinyrtcError}
    {events : List PcEvent} (hmedia : ¬ IsStun datagram) (hrx : pc.srtpRx ≠ none)
    (h : pcProcessIncomingRtp crypto env pc datagram.bytes = some (err, pc', events))
    (hpc : TracksFed packets pc) :
    TracksFed (packets ++ (authenticatedPacket crypto pc datagram).toList) pc' ∧
      ∀ event ∈ events,
        MadeOf (packets ++ (authenticatedPacket crypto pc datagram).toList) event := by
  rw [pcProcessIncomingRtp] at h
  split at h
  · next hnone => exact absurd hnone hrx
  · next srtpRx hsome =>
    have hplain : authenticatedPacket crypto pc datagram =
        if (srtpDecryptPacket crypto srtpRx datagram.bytes datagram.bytes.length).error = .ok then
          some ((srtpDecryptPacket crypto srtpRx datagram.bytes datagram.bytes.length).packet.take
            (srtpDecryptPacket crypto srtpRx datagram.bytes datagram.bytes.length).len)
        else none := by
      rw [authenticatedPacket, hsome, Option.bind_some]
      simp only [hmedia, not_false_eq_true, true_and]
    dsimp only at h
    split at h
    · next hfailed =>
      cases h
      rw [hplain, if_neg hfailed, Option.toList_none, List.append_nil]
      exact ⟨hpc, by simp⟩
    · next hok =>
      rw [hplain, if_pos (not_not.mp hok), Option.toList_some]
      exact processPlainRtp_fed h hpc

theorem processEvents_fed {hostOrder : UInt32 → List UInt8} {input : EventInput}
    {events : List PcEvent}
    (h : tinyrtcProcessEvents crypto hostOrder input pc = some (pc', events))
    (hclear : RoundNotInTheClear pc input) (hinstalled : SrtpRxInstalled pc)
    (hpc : TracksFed packets pc) :
    TracksFed (packets ++ authenticatedIn crypto pc (.processEvents input)) pc' ∧
      ∀ event ∈ events,
        MadeOf (packets ++ authenticatedIn crypto pc (.processEvents input)) event := by
  obtain ⟨received, receivedEvents, hreceived, htracks, -, hframes⟩ := processEvents_received h
  have hround : TracksFed (packets ++ authenticatedIn crypto pc (.processEvents input)) received ∧
      ∀ event ∈ receivedEvents, IsFrame event →
        MadeOf (packets ++ authenticatedIn crypto pc (.processEvents input)) event := by
    rcases hreceived with ⟨rfl, rfl⟩ | ⟨ice, datagram, hice, hdatagram, hreceived⟩
    · exact ⟨hpc.later _, by simp⟩
    · rcases processDatagram_course hreceived hice hinstalled with
        ⟨⟨ice', dtls, rfl⟩, hevents⟩ | ⟨hmedia, hrx, err, hincoming⟩
      · exact ⟨hpc.later _, fun event hevent hframe => absurd hframe (hevents event hevent)⟩
      · obtain ⟨hfed, hevents⟩ := pcProcessIncomingRtp_fed hmedia (hrx (hclear datagram hdatagram))
          hincoming hpc
        rw [authenticatedIn, hdatagram, Option.bind_some]
        exact ⟨hfed, fun event hevent _ => hevents event hevent⟩
  refine ⟨hround.1.of_eq htracks, fun event hevent => ?_⟩
  by_cases hframe : IsFrame event
  · exact hround.2 event (hframes event hevent hframe) hframe
  · exact .of_not_isFrame hframe

/-- A new track has nothing under way. -/
theorem addRemoteTrack_fed (trackOk : Nat → Bool) {state : PeerConnection × List PcEvent}
    (entry : SdpMedia × Nat) (h : TracksFed packets state.1) :
    TracksFed packets (addRemoteTrack trackOk state entry).1 := by
  rw [addRemoteTrack]
  split
  · exact h
  · split
    · exact h
    · next tracks hpush =>
      intro track htrack
      rw [Slots.push?_items hpush, List.mem_append, List.mem_singleton] at htrack
      rcases htrack with htrack | rfl
      · exact h track htrack
      · exact .nil _ _

theorem addRemoteTracks_fed (trackOk : Nat → Bool) (media : List SdpMedia)
    (h : TracksFed packets pc) : TracksFed packets (addRemoteTracks trackOk media pc).1 := by
  have hfold : ∀ (entries : List (SdpMedia × Nat)) (state : PeerConnection × List PcEvent),
      TracksFed packets state.1 →
        TracksFed packets (entries.foldl (addRemoteTrack trackOk) state).1 := by
    intro entries
    induction entries with
    | nil => exact fun state hstate => hstate
    | cons entry entries ih =>
        exact fun state hstate => ih _ (addRemoteTrack_fed trackOk entry hstate)
  exact hfold _ (pc, []) h

theorem setRemoteDescription_fed {locals : Locals} {trackOk : Nat → Bool} {sdp : List UInt8}
    {err : TinyrtcError} {events : List PcEvent}
    (h : tinyrtcPeerConnectionSetRemoteDescription locals trackOk pc sdp =
      some (err, pc', events)) (hpc : TracksFed packets pc) : TracksFed packets pc' := by
  rw [tinyrtcPeerConnectionSetRemoteDescription] at h
  split at h
  · cases h
    exact hpc
  · obtain ⟨⟨err', session⟩, -, hresult⟩ := Option.map_eq_some_iff.mp h
    dsimp only at hresult
    split at hresult
    · cases hresult
      exact hpc
    · cases hresult
      exact @addRemoteTracks_fed packets { pc with remoteSdp := session } trackOk
        session.media.items hpc

/-- One call: the packets that it authenticates are all that comes in. -/
theorem pcCall_fed {hostOrder : UInt32 → List UInt8} {call : PcCall} {events : List PcEvent}
    (h : pcCall crypto hostOrder pc call = some (pc', events)) (hclear : CallNotInTheClear pc call)
    (hinstalled : SrtpRxInstalled pc) (hpc : TracksFed packets pc) :
    TracksFed (packets ++ authenticatedIn crypto pc call) pc' ∧
      ∀ event ∈ events, MadeOf (packets ++ authenticatedIn crypto pc call) event := by
  by_cases hround : ∃ input, call = .processEvents input
  · obtain ⟨input, rfl⟩ := hround
    exact processEvents_fed h hclear hinstalled hpc
  · have hnone : authenticatedIn crypto pc call = [] := by
      cases call with
      | processEvents input => exact absurd ⟨input, rfl⟩ hround
      | _ => rfl
    have hframes := (pcCall_keeps h fun input heq => hround ⟨input, heq⟩).2
    rw [hnone, List.append_nil]
    refine ⟨?_, fun event hevent => .of_not_isFrame (hframes event hevent)⟩
    cases pcCall_course h with
    | addTrack localTracks => exact hpc
    | removeTrack localTracks => exact hpc
    | createOffer hoffer =>
        obtain ⟨state, localSdp, ice, dtls, rfl⟩ := createOffer_frame hoffer
        exact hpc
    | setRemoteDescription hset => exact setRemoteDescription_fed hset hpc
    | createAnswer hanswer =>
        obtain ⟨state, localSdp, ice, dtls, rfl⟩ := createAnswer_frame hanswer
        exact hpc
    | addIceCandidate candidate =>
        obtain ⟨remoteSdp, ice, hadded, -⟩ := addIceCandidate_frame pc candidate
        rw [hadded]
        exact hpc
    | close => exact hpc
    | sendAudioFrame hsend =>
        obtain ⟨⟨srtp, localTracks, rfl⟩, -⟩ := trackSendFrame_cases hsend
        exact hpc
    | sendVideoFrame hsend =>
        obtain ⟨⟨srtp, localTracks, rfl⟩, -⟩ := trackSendFrame_cases hsend
        exact hpc
    | @processEvents input => exact absurd ⟨input, rfl⟩ hround

end

section

variable {crypto : Crypto} {hostOrder : UInt32 → List UInt8} {pc pc' : PeerConnection}
  {history : List (PcCall × List PcEvent)}

theorem authenticatedPackets_cons {call : PcCall} {events : List PcEvent}
    (h : pcCall crypto hostOrder pc call = some (pc', events)) (calls : List PcCall) :
    authenticatedPackets crypto hostOrder pc (call :: calls) =
      authenticatedIn crypto pc call ++ authenticatedPackets crypto hostOrder pc' calls := by
  rw [authenticatedPackets, h]
  rfl

/-- A run in which nothing comes in the clear. -/
theorem fed_run (hrun : Run (GuardedStep crypto hostOrder CallNotInTheClear) pc history pc')
    {packets : List (List UInt8)} (hinstalled : SrtpRxInstalled pc) (hpc : TracksFed packets pc) :
    SrtpRxInstalled pc' ∧ TracksFed
      (packets ++ authenticatedPackets crypto hostOrder pc (history.map Prod.fst)) pc' := by
  induction hrun generalizing packets with
  | nil pc => exact ⟨hinstalled, hpc.later _⟩
  | cons hstep _ ih =>
      obtain ⟨hcall, hclear⟩ := hstep
      obtain ⟨hfed, -⟩ := pcCall_fed hcall hclear hinstalled hpc
      rw [List.map_cons, authenticatedPackets_cons hcall, ← List.append_assoc]
      exact ih (srtpRxInstalled_step hinstalled hcall) hfed

theorem authenticatedPackets_append {guard : PeerConnection → PcCall → Prop}
    (hrun : Run (GuardedStep crypto hostOrder guard) pc history pc') (calls : List PcCall) :
    authenticatedPackets crypto hostOrder pc (history.map Prod.fst ++ calls) =
      authenticatedPackets crypto hostOrder pc (history.map Prod.fst) ++
        authenticatedPackets crypto hostOrder pc' calls := by
  induction hrun with
  | nil pc => rfl
  | cons hstep _ ih =>
      rw [List.map_cons, List.cons_append, authenticatedPackets_cons hstep.1, ih,
        authenticatedPackets_cons hstep.1, List.append_assoc]

end

/-- Frames are delivered for an authenticated datagram only, and every byte of them comes from
packets that have been authenticated. -/
structure DeliversAuthenticated (crypto : Crypto) (packets : List (List UInt8))
    (pc : PeerConnection) (call : PcCall) (events : List PcEvent) : Prop where
  triggered : TriggeredByAuthenticated crypto pc call events
  madeOf : ∀ event ∈ events, MadeOf packets event

/-- In every run in which nothing comes in the clear, each call delivers authenticated media
only: that of the packets that have been authenticated up to then. -/
theorem deliversAuthenticated_of_run {crypto : Crypto} {hostOrder : UInt32 → List UInt8}
    {config : PcConfig} {history : List (PcCall × List PcEvent)} {pc pc' : PeerConnection}
    {call : PcCall} {events : List PcEvent}
    (hrun : Run (GuardedStep crypto hostOrder CallNotInTheClear)
      (tinyrtcPeerConnectionCreate config) history pc)
    (hstep : GuardedStep crypto hostOrder CallNotInTheClear pc (call, events) pc') :
    DeliversAuthenticated crypto (authenticatedPackets crypto hostOrder
      (tinyrtcPeerConnectionCreate config) (history.map Prod.fst ++ [call])) pc call events := by
  have hnew : TracksFed [] (tinyrtcPeerConnectionCreate config) := by
    intro track htrack
    cases htrack
  obtain ⟨hinstalled, hfed⟩ := fed_run hrun rfl hnew
  refine ⟨triggeredByAuthenticated_step hinstalled hstep.1 hstep.2, ?_⟩
  rw [authenticatedPackets_append hrun, authenticatedPackets_cons hstep.1]
  simpa [authenticatedPackets] using (pcCall_fed hstep.1 hstep.2 hinstalled hfed).2

def sampleVideoSetup : List PcCall :=
  [.setRemoteDescription ⟨fun _ => 0, fun _ => 0⟩ (fun _ => true) (ascii "m=video 1 UDP 96\n"),
    .createAnswer sampleDescriptionEnv]

/-- The two fragments of a NAL unit, the marker bit on the second. -/
def sampleFragment (marker : Bool) : List UInt8 :=
  if marker then [0x80, 0xE0, 0x00, 0x02] ++ write32 9000 ++ write32 0 ++ [0x7C, 0x45, 0x03]
  else [0x80, 0x60, 0x00, 0x01] ++ write32 9000 ++ write32 0 ++ [0x7C, 0x85, 0x01, 0x02]

/-- A round that finds a fragment with its SRTP tag. -/
def sampleFragmentRound (marker : Bool) : PcCall :=
  sampleRound (sampleFragment marker ++ List.replicate 10 0x00) handshakeWaits

/-- A frame that comes in two authenticated packets. -/
theorem deliversAuthenticated_sampleFragments :
    ∃ history pc events pc',
      Run (GuardedStep toyCrypto write32 CallNotInTheClear)
        (tinyrtcPeerConnectionCreate sampleConfig) history pc ∧
      GuardedStep toyCrypto write32 CallNotInTheClear pc (sampleFragmentRound true, events) pc' ∧
      (∃ event ∈ events, IsFrame event) ∧
      authenticatedPackets toyCrypto write32 (tinyrtcPeerConnectionCreate sampleConfig)
        (history.map Prod.fst ++ [sampleFragmentRound true]) =
          [sampleFragment false, sampleFragment true] ∧
      DeliversAuthenticated toyCrypto [sampleFragment false, sampleFragment true] pc
        (sampleFragmentRound true) events := by
  obtain ⟨⟨history, pc⟩, hcalls, hstep⟩ : ∃ reached, pcCalls toyCrypto write32 CallNotInTheClear
      (tinyrtcPeerConnectionCreate sampleConfig)
      (sampleVideoSetup ++ sampleConnect [] ++ [sampleFragmentRound false]) = some reached ∧
      (pcCall toyCrypto write32 reached.2 (sampleFragmentRound true)).any (fun result =>
        decide (CallNotInTheClear reached.2 (sampleFragmentRound true)) &&
          result.2.any fun event => decide (IsFrame event)) = true := by
    rw [← Option.any_eq_true]
    decide +kernel
  rw [Option.any_eq_true] at hstep
  obtain ⟨⟨pc', events⟩, hcall, hp⟩ := hstep
  rw [Bool.and_eq_true, List.any_eq_true] at hp
  obtain ⟨hclear, event, hevent, hframe⟩ := hp
  have hrun := run_pcCalls hcalls
  have hguarded : GuardedStep toyCrypto write32 CallNotInTheClear pc
      (sampleFragmentRound true, events) pc' := ⟨hcall, of_decide_eq_true hclear⟩
  have hpackets : authenticatedPackets toyCrypto write32 (tinyrtcPeerConnectionCreate sampleConfig)
      (history.map Prod.fst ++ [sampleFragmentRound true]) =
        [sampleFragment false, sampleFragment true] := by
    rw [map_fst_pcCalls hcalls]
    decide +kernel
  refine ⟨history, pc, events, pc', hrun, hguarded, ⟨event, hevent, of_decide_eq_true hframe⟩,
    hpackets, ?_⟩
  have hdelivers := deliversAuthenticated_of_run hrun hguarded
  rwa [hpackets] at hdelivers

/-- Before ICE has connected, a datagram in the clear is delivered as a frame. -/
theorem deliversAuthenticated_fails :
    ∃ history pc call events pc',
      Run (PcStep toyCrypto write32) (tinyrtcPeerConnectionCreate sampleConfig) history pc ∧
      PcStep toyCrypto write32 pc (call, events) pc' ∧
      ∀ packets, ¬ DeliversAuthenticated toyCrypto packets pc call events := by
  obtain ⟨history, pc, events, pc', hrun, hstep, hp⟩ := exists_step toyCrypto write32
    (tinyrtcPeerConnectionCreate sampleConfig) sampleSetup (sampleRound sampleRtp handshakeWaits)
    (fun pc events _ => !pc.srtpInitialized && events.any fun event => decide (IsFrame event))
    (by decide +kernel)
  rw [Bool.and_eq_true, List.any_eq_true, Bool.not_eq_true'] at hp
  obtain ⟨hrx, event, hevent, hframe⟩ := hp
  refine ⟨history, pc, _, events, pc', hrun, hstep, ?_⟩
  intro packets hdelivers
  have hinitialized := (hdelivers.triggered ⟨event, hevent, of_decide_eq_true hframe⟩).1
  rw [hrx] at hinitialized
  cases hinitialized

end TinyRtc.AuthenticatedMedia
