import TinyRtc.NegotiatedMedia
import TinyRtc.TrackIsolation

namespace TinyRtc.VideoStreams

open TinyRtc.AnnexB
open TinyRtc.BigEndian
open TinyRtc.CallEffects
open TinyRtc.Common
open TinyRtc.Connection
open TinyRtc.FrameAssembly
open TinyRtc.FrameTimestamps
open TinyRtc.FuaFragments
open TinyRtc.H264RoundTrip
open TinyRtc.IncomingRtp
open TinyRtc.LabelledRuns
open TinyRtc.LocalTracks
open TinyRtc.MarkedRuns
open TinyRtc.MediaDelivery
open TinyRtc.MediaSend
open TinyRtc.MediaSessions
open TinyRtc.NegotiatedMedia
open TinyRtc.Packetization
open TinyRtc.PacketizerBounds
open TinyRtc.ProcessEvents
open TinyRtc.Rtp
open TinyRtc.SecureMedia
open TinyRtc.SecureSession
open TinyRtc.SendResults
open TinyRtc.SessionKeys
open TinyRtc.Srtp
open TinyRtc.TrackIsolation

/-- An access unit ends with a packet that ends a frame. -/
theorem frameEnds_concat {nals : List NalUnit} (hne : nals ≠ []) {maxPayload : Nat}
    (hmax : 2 < maxPayload) {maxLen : Nat} (hmaxLen : maxPayload + 4 ≤ maxLen) :
    ∃ flags, frameEnds maxPayload maxLen nals = flags ++ [true] := by
  match nals with
  | [] => exact absurd rfl hne
  | [nal] =>
      obtain ⟨n, hflags⟩ := depacketized_nalu_flags nal hmax true hmaxLen
      rw [frameEnds, naluCallbacks, hflags]
      exact ⟨_, rfl⟩
  | nal :: next :: rest =>
      obtain ⟨n, hflags⟩ := depacketized_nalu_flags nal hmax false hmaxLen
      obtain ⟨flags, hrest⟩ := frameEnds_concat (List.cons_ne_nil next rest) hmax hmaxLen
      rw [frameEnds] at hrest
      rw [frameEnds, naluCallbacks, List.map_append, List.map_append, hflags, hrest,
        ← List.append_assoc]
      exact ⟨_, rfl⟩

theorem markedAtEnd_iff_count {flags : List Bool} :
    MarkedAtEnd (flags ++ [true]) ↔ (flags ++ [true]).countP id = 1 := by
  rw [MarkedAtEnd, List.length_append, List.length_singleton, Nat.add_sub_cancel,
    List.append_cancel_right_eq, List.countP_append, List.eq_replicate_iff]
  simp [List.countP_eq_zero]

theorem eq_one_of_sum {counts : List Nat} (hpos : ∀ count ∈ counts, 1 ≤ count)
    (hsum : counts.sum = counts.length) : ∀ count ∈ counts, count = 1 := by
  induction counts with
  | nil => exact fun _ hmem => absurd hmem List.not_mem_nil
  | cons count counts ih =>
      obtain ⟨hcount, hcounts⟩ := List.forall_mem_cons.mp hpos
      have hge := List.length_le_sum_of_one_le counts hcounts
      rw [List.sum_cons, List.length_cons] at hsum
      refine List.forall_mem_cons.mpr ⟨by omega, ih hcounts (by omega)⟩

/-- An access unit with its timestamp. -/
abbrev TimedUnit := List (StartCode × NalUnit) × UInt32

/-- The packets of an access unit, from a sequence number on. -/
def unitPackets (sent : UInt16 × TimedUnit) : List SentPacket :=
  accessUnitPackets (fun _ => true) sent.1 sent.2.2 sent.2.1

def unitEvent (i : Nat) (unit : TimedUnit) : PcEvent :=
  .videoFrame i (annexB (unit.1.map Prod.snd)) unit.2

theorem map_callback_unitPackets (sent : UInt16 × TimedUnit) :
    (unitPackets sent).map SentPacket.callback = naluCallbacks 1478 (sent.2.1.map Prod.snd) := by
  rw [unitPackets, accessUnitPackets, map_callback_framePackets]
  exact packetize_accessUnit (fun _ => rfl) (by decide) sent.2.1

theorem map_endsFrame_unitPackets (sent : UInt16 × TimedUnit) :
    (unitPackets sent).map SentPacket.endsFrame =
      frameEnds 1478 frameBufferSize (sent.2.1.map Prod.snd) := by
  rw [frameEnds, ← map_callback_unitPackets, List.map_map, List.map_map]
  rfl

theorem piece_ne_nil_of_unitPackets {sent : UInt16 × TimedUnit} {packet : SentPacket}
    (h : packet ∈ unitPackets sent) : packet.piece ≠ [] := by
  have hcallback := List.mem_map_of_mem (f := SentPacket.callback) h
  rw [map_callback_unitPackets] at hcallback
  exact naluCallbacks_piece_ne_nil _ (by decide) (by decide) _ hcallback

theorem timestamp_of_unitPackets {sent : UInt16 × TimedUnit} :
    ∀ packet ∈ unitPackets sent, packet.timestamp = sent.2.2 :=
  fun _ hmem => timestamp_of_mem_framePackets hmem

theorem frameEvent_unitPackets (i : Nat) {sent : UInt16 × TimedUnit} (hunits : sent.2.1 ≠ []) :
    frameEvent i (unitPackets sent) = unitEvent i sent.2 := by
  have hne : unitPackets sent ≠ [] := by
    intro hnil
    have hflags := map_endsFrame_unitPackets sent
    rw [hnil, List.map_nil] at hflags
    exact frameEnds_ne_nil (by simpa using hunits) (by decide) (by decide) hflags.symm
  rw [frameEvent_eq i hne timestamp_of_unitPackets, map_callback_unitPackets,
    depacketized_naluCallbacks _ (by decide) (by decide), unitEvent]

/-- The access units come out one by one and whole exactly when in none of them a NAL unit in
front of the last is fragmented. -/
theorem collectAll_units_iff (i : Nat) {sents : List (UInt16 × TimedUnit)}
    (hunits : ∀ sent ∈ sents, sent.2.1 ≠ []) :
    ((collectAll SentPacket.timestamp SentPacket.endsFrame []
        (sents.flatMap unitPackets)).filterMap id).map (frameEvent i) =
        sents.map (fun sent => unitEvent i sent.2) ↔
      ∀ sent ∈ sents, ∀ nal ∈ (sent.2.1.map Prod.snd).dropLast, nal.bytes.length ≤ 1478 := by
  have hends : ∀ sent ∈ sents, MarkedAtEnd ((unitPackets sent).map SentPacket.endsFrame) ↔
      ∀ nal ∈ (sent.2.1.map Prod.snd).dropLast, nal.bytes.length ≤ 1478 := by
    intro sent hmem
    rw [map_endsFrame_unitPackets]
    exact frameEnds_iff (by simpa using hunits sent hmem) (by decide) (by decide)
  have hcount : ∀ sent ∈ sents, 1 ≤ (unitPackets sent).countP SentPacket.endsFrame ∧
      ((unitPackets sent).countP SentPacket.endsFrame = 1 ↔
        MarkedAtEnd ((unitPackets sent).map SentPacket.endsFrame)) := by
    intro sent hmem
    obtain ⟨flags, hflags⟩ := @frameEnds_concat (sent.2.1.map Prod.snd)
      (by simpa using hunits sent hmem) 1478 (by decide) frameBufferSize (by decide)
    have hmap : (unitPackets sent).countP SentPacket.endsFrame = (flags ++ [true]).countP id := by
      rw [← hflags, ← map_endsFrame_unitPackets, List.countP_map]
      rfl
    rw [hmap, map_endsFrame_unitPackets, hflags, ← markedAtEnd_iff_count]
    exact ⟨by simp [List.countP_append], Iff.rfl⟩
  constructor
  · intro hevents sent hmem
    have hlength := congrArg List.length hevents
    rw [List.length_map, List.length_map, length_collectAll, List.countP_flatMap,
      ← List.length_map (fun sent => (unitPackets sent).countP SentPacket.endsFrame)] at hlength
    refine (hends sent hmem).mp ((hcount sent hmem).2.mp (eq_one_of_sum ?_ hlength _
      (List.mem_map_of_mem hmem)))
    intro count hcounts
    obtain ⟨sent', hmem', rfl⟩ := List.mem_map.mp hcounts
    exact (hcount sent' hmem').1
  · intro hfits
    have hruns : ∀ run ∈ sents.map unitPackets,
        ∃ l, IsFinishedRun SentPacket.timestamp SentPacket.endsFrame l run := by
      intro run hrun
      obtain ⟨sent, hmem, rfl⟩ := List.mem_map.mp hrun
      exact ⟨sent.2.2, (isFinishedRun_iff timestamp_of_unitPackets).mpr
        ((hends sent hmem).mpr (hfits sent hmem))⟩
    have hcollect := @collectAll_flatten _ _ _ _ _ _ hruns [] (by simp)
    rw [List.flatMap_def]
    refine (congrArg (List.map (frameEvent i)) hcollect).trans ?_
    rw [List.map_map]
    exact List.map_congr_left fun sent hmem => frameEvent_unitPackets i (hunits sent hmem)

/-- The connection sends on the track at a place, with one pair of keys. -/
structure Streams (keys receiving : Bytes 16 × Bytes 14) (track : Track) (place : Nat)
    (pc : PeerConnection) : Prop where
  secured : Secured keys receiving pc
  sends : ∃ current, pc.localTracks.items[place]? = some current ∧ SameTrack track current
  isLocal : track.isLocal = true
  ready : pcIsSecureMediaReady pc = true
  remote : (remoteAddr pc).isSome = true

/-- Nothing fails while a frame is sent. -/
def steadyEnv : SendEnv :=
  ⟨fun _ => true, fun _ => true⟩

/-- The call that sends an access unit. -/
def sendUnit (place : Nat) (unit : TimedUnit) : PcCall :=
  .sendVideoFrame steadyEnv place (accessUnit unit.1) unit.2

section

variable {crypto : Crypto} {hostOrder : UInt32 → List UInt8} {pc pc' : PeerConnection}
  {keys receiving : Bytes 16 × Bytes 14} {track : Track} {place : Nat}

theorem baseHeader_of_same {track' : Track} (h : SameTrack track track') :
    baseHeader track' = baseHeader track := by
  rw [baseHeader, baseHeader, sentPayloadType_of_same h]
  rfl

theorem Streams.step {unit : TimedUnit} {events : List PcEvent}
    (h : Streams keys receiving track place pc) (hcodec : track.codecId = .h264)
    (hstep : PcStep crypto hostOrder pc (sendUnit place unit, events) pc') :
    Streams keys receiving track place pc' ∧ ∃ sequence,
      List.Forall₂ (Carries crypto keys)
        ((unitPackets (sequence, unit)).map (SentPacket.bytes (baseHeader track)))
        (sentPackets events) := by
  obtain ⟨⟨err, result⟩, hsend, hresult⟩ := Option.map_eq_some_iff.mp hstep
  cases hresult
  obtain ⟨current, hcurrent, hsame⟩ := h.sends
  have hwhole : SendsWhole steadyEnv pc place current (accessUnit unit.1) :=
    ⟨hcurrent, hsame.isLocal.trans h.isLocal, h.ready, fun _ => rfl, fun _ => rfl, h.remote⟩
  obtain ⟨a', events', hsent, hcarries⟩ :=
    @SendsWhole.carries crypto _ _ _ _ _ _ _ hwhole h.secured unit.2
  cases hsend.symm.trans hsent
  rw [hsame.codecId.trans hcodec, baseHeader_of_same hsame] at hcarries
  obtain ⟨track', htrack', hsame'⟩ := trackSendFrame_sameTrack hsend hcurrent
  have hsecured := trackSendFrame_secured h.secured hsend
  obtain ⟨⟨srtp, localTracks, rfl⟩, -⟩ := trackSendFrame_cases hsend
  exact ⟨⟨hsecured, ⟨track', htrack', hsame.trans hsame'⟩, h.isLocal, h.ready, h.remote⟩,
    current.nextSequence, hcarries⟩

/-- The access units that are sent one after the other, each from some sequence number on, go out
in order. -/
theorem Streams.run {units : List TimedUnit} {sent : List (PcCall × List PcEvent)}
    (h : Streams keys receiving track place pc) (hcodec : track.codecId = .h264)
    (hrun : Run (PcStep crypto hostOrder) pc sent pc')
    (hcalls : sent.map Prod.fst = units.map (sendUnit place)) :
    ∃ sents : List (UInt16 × TimedUnit), sents.map Prod.snd = units ∧
      List.Forall₂ (Carries crypto keys)
        ((sents.flatMap unitPackets).map (SentPacket.bytes (baseHeader track)))
        (sent.flatMap fun call => sentPackets call.2) := by
  induction hrun generalizing units with
  | nil =>
      cases List.map_eq_nil_iff.mp hcalls.symm
      exact ⟨[], rfl, .nil⟩
  | @cons pc next pc' call sent hstep _ ih =>
      cases units with
      | nil => cases hcalls
      | cons unit units =>
          obtain ⟨call, events⟩ := call
          rw [List.map_cons, List.map_cons, List.cons.injEq] at hcalls
          obtain ⟨hcall, hcalls⟩ := hcalls
          cases hcall
          obtain ⟨hnext, sequence, hcarries⟩ := h.step hcodec hstep
          obtain ⟨sents, hsents, hrest⟩ := ih hnext hcalls
          refine ⟨(sequence, unit) :: sents, congrArg (unit :: ·) hsents, ?_⟩
          rw [List.flatMap_cons, List.map_append, List.flatMap_cons]
          exact List.rel_append hcarries hrest

end

section

variable {crypto : Crypto} {keys receiving : Bytes 16 × Bytes 14} {pc pc' : PeerConnection}

/-- Packets in order, as a run of datagrams. -/
theorem run_incomingPackets {env : Nat → IncomingEnv} {arrivals : List Arrival}
    {events : List (List PcEvent)} (n : Nat)
    (henv : ∀ j arrival, arrivals[j]? = some arrival → arrival.env = env (n + j))
    (h : incomingPackets crypto env n pc (arrivals.map Arrival.datagram) = some (pc', events)) :
    ∃ labels, Run (IncomingStep crypto) pc labels pc' ∧ labels.map Prod.fst = arrivals ∧
      labels.map Prod.snd = events := by
  induction arrivals generalizing n pc events with
  | nil =>
      cases h
      exact ⟨[], .nil _, rfl, rfl⟩
  | cons arrival arrivals ih =>
      obtain ⟨⟨err, next, raised⟩, hprocess, hrest⟩ := Option.bind_eq_some_iff.mp h
      obtain ⟨⟨last, rest⟩, hincoming, hresult⟩ := Option.map_eq_some_iff.mp hrest
      cases hresult
      have hlater : ∀ j arrival', arrivals[j]? = some arrival' →
          arrival'.env = env (n + 1 + j) := by
        intro j arrival' hj
        rw [henv (j + 1) arrival' hj, Nat.add_assoc, Nat.add_comm 1 j]
      obtain ⟨labels, hrun, harrivals, hevents⟩ := ih (n + 1) hlater hincoming
      have hfirst : arrival.env = env n := henv 0 arrival rfl
      rw [← hfirst] at hprocess
      exact ⟨(arrival, raised) :: labels, .cons ⟨err, hprocess⟩ hrun,
        congrArg (arrival :: ·) harrivals, congrArg (raised :: ·) hevents⟩

theorem framesFor_frameEvent (i : Nat) (runs : List (List SentPacket)) :
    framesFor i (runs.map (frameEvent i)) = runs.map (frameEvent i) := by
  rw [framesFor, List.filter_eq_self]
  intro event hmem
  obtain ⟨run, -, rfl⟩ := List.mem_map.mp hmem
  exact beq_self_eq_true i

/-- The datagrams for the track at `i`, among all that arrive. -/
def ownDatagrams (crypto : Crypto) (pc : PeerConnection) (i : Nat) (arrivals : List Arrival) :
    List Arrival :=
  arrivals.filter fun arrival => (ownArrival crypto pc i arrival).isSome

theorem ownArrivals_ownDatagrams (i : Nat) (arrivals : List Arrival) :
    ownArrivals crypto pc i (ownDatagrams crypto pc i arrivals) =
      ownArrivals crypto pc i arrivals := by
  rw [ownArrivals, ownArrivals, ownDatagrams, List.filterMap_filter]
  refine List.filterMap_congr fun arrival _ => ?_
  cases ownArrival crypto pc i arrival <;> rfl

/-- What comes out for a track is what its own packets carry, whatever else arrives. -/
theorem framesFor_carried {labels : List (Arrival × List PcEvent)} {packets : List SentPacket}
    {base : RtpHeader} {i : Nat} (hrun : Run (IncomingStep crypto) pc labels pc')
    (hpc : Secured receiving keys pc) (hb : Buildable base)
    (hreceives : ReceivesVideo base.payloadType i { pc with srtpRx := none } [])
    (hpieces : ∀ packet ∈ packets, packet.piece ≠ [])
    (hcarries : List.Forall₂ (Carries crypto keys) (packets.map (SentPacket.bytes base))
      ((ownDatagrams crypto pc i (labels.map Prod.fst)).map Arrival.datagram))
    (henv : ∀ label ∈ labels, label.1.env.mallocOk = true ∧ label.1.env.reallocOk = true) :
    framesFor i (labels.flatMap Prod.snd) =
      ((collectAll SentPacket.timestamp SentPacket.endsFrame [] packets).filterMap id).map
        (frameEvent i) := by
  generalize hown : ownDatagrams crypto pc i (labels.map Prod.fst) = own at hcarries
  have hincoming : ∀ n : Nat, ((own[n]?).elim ⟨0, true, true⟩ Arrival.env).mallocOk = true ∧
      ((own[n]?).elim ⟨0, true, true⟩ Arrival.env).reallocOk = true := by
    intro n
    cases hn : own[n]? with
    | none => exact ⟨rfl, rfl⟩
    | some arrival =>
        have hmem := List.mem_of_getElem? hn
        rw [← hown] at hmem
        obtain ⟨label, hlabel, rfl⟩ := List.mem_map.mp (List.mem_of_mem_filter hmem)
        exact henv label hlabel
  have hcollects := incomingPackets_collects crypto hincoming hb
    (fun packet hmem => ⟨hpieces packet hmem, rfl⟩) 0 hreceives
  rw [← incomingPackets_carried hcarries _ 0 hpc] at hcollects
  obtain ⟨⟨final, events⟩, hfinal, hevents⟩ := Option.map_eq_some_iff.mp hcollects
  obtain ⟨alone, halone, harrivals, hraised⟩ := run_incomingPackets 0
    (fun j arrival hj => by rw [Nat.zero_add, hj, Option.elim_some]) hfinal
  have hsame : ownArrivals crypto pc i (labels.map Prod.fst) =
      ownArrivals crypto pc i (alone.map Prod.fst) := by
    rw [harrivals, ← hown, ownArrivals_ownDatagrams]
  have hflat : alone.flatMap Prod.snd =
      ((collectAll SentPacket.timestamp SentPacket.endsFrame [] packets).filterMap id).map
        (frameEvent i) := by
    rw [List.flatMap_def, hraised, List.map_filterMap, List.filterMap_eq_flatMap_toList,
      List.flatMap_def]
    exact congrArg List.flatten hevents
  rw [framesFor_congr hrun halone hsame, hflat, framesFor_frameEvent]

end

section

variable {crypto : Crypto} {hostOrder : UInt32 → List UInt8}
  {offerer answerer sender sender' receiver receiver' : PeerConnection} {calls : List PcCall}
  {p place : Nat} {track : Track} {first second : Bytes 16 × Bytes 14}

theorem Offered.isLocal (h : Offered crypto hostOrder offerer answerer calls sender receiver)
    (htrack : offerer.localTracks.items[p]? = some track) : track.isLocal = true := by
  obtain ⟨hofferer, -, -, -, -, -, -, -⟩ := h
  obtain ⟨config, hsame⟩ := configured_run hofferer track (List.mem_of_getElem? htrack)
  exact hsame.isLocal

end

def sampleUnits : List TimedUnit :=
  [([(.long, parameterSet), (.short, slice)], 9000), ([(.short, slice)], 12000)]

/-- The packets among others: before each one a packet of the audio track, and behind it the same
packet with another tag. -/
def amongOthers (packets : List (List UInt8)) : List Arrival :=
  packets.flatMap fun packet =>
    [tagged sampleRtp 0x00, ⟨⟨1, true, true⟩, packet⟩, tagged packet 0xFF]

/-- The access units are sent, and their packets arrive among others. -/
def streams (sender receiver : PeerConnection) : Bool :=
  (pcCalls toyCrypto write32 (fun _ _ => True) sender (sampleUnits.map (sendUnit 0))).any
    fun sent =>
      (receiveAll toyCrypto receiver
        (amongOthers (sent.1.flatMap fun call => sentPackets call.2))).any fun result =>
          decide ((ownDatagrams toyCrypto receiver 0 (result.2.map Prod.fst)).map
            Arrival.datagram = sent.1.flatMap fun call => sentPackets call.2)

end TinyRtc.VideoStreams
