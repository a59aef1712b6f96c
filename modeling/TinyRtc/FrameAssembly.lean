import TinyRtc.H264RoundTrip
import TinyRtc.IncomingRtp
import TinyRtc.MarkedRuns

namespace TinyRtc.FrameAssembly

open TinyRtc.Common
open TinyRtc.Connection
open TinyRtc.FuaFragments
open TinyRtc.H264RoundTrip
open TinyRtc.IncomingRtp
open TinyRtc.Jitter
open TinyRtc.MarkedRuns
open TinyRtc.Packetization
open TinyRtc.Rtp
open TinyRtc.Sdp
open TinyRtc.SlotArray
open TinyRtc.Srtp

/-- A packet of a stream: what the packetizer's callback has got, and what of the RTP
header changes from packet to packet. -/
structure SentPacket where
  sequence : UInt16
  timestamp : UInt32
  callback : PacketCallback
  deriving DecidableEq

def SentPacket.header (base : RtpHeader) (packet : SentPacket) : RtpHeader :=
  { base with
    marker := packet.callback.marker
    sequence := packet.sequence
    timestamp := packet.timestamp }

def SentPacket.bytes (base : RtpHeader) (packet : SentPacket) : List UInt8 :=
  tinyrtcRtpBuildHeader (packet.header base) rtpBufferSize ++ packet.callback.payload

def SentPacket.marker (packet : SentPacket) : Bool :=
  packet.callback.marker

/-- What the depacketizer takes for the end of a frame. -/
def SentPacket.endsFrame (packet : SentPacket) : Bool :=
  (depacketized frameBufferSize packet.callback).1

/-- What the depacketizer leaves in the frame buffer. -/
def SentPacket.piece (packet : SentPacket) : List UInt8 :=
  (depacketized frameBufferSize packet.callback).2

/-- The packets of a frame, with consecutive sequence numbers. -/
def framePackets (sequence : UInt16) (timestamp : UInt32) (callbacks : List PacketCallback) :
    List SentPacket :=
  callbacks.mapIdx fun i callback => ⟨sequence + i.toUInt16, timestamp, callback⟩

theorem map_callback_framePackets (sequence : UInt16) (timestamp : UInt32)
    (callbacks : List PacketCallback) :
    (framePackets sequence timestamp callbacks).map SentPacket.callback = callbacks := by
  apply List.ext_getElem
  · simp [framePackets]
  · simp [framePackets]

theorem timestamp_of_mem_framePackets {sequence : UInt16} {timestamp : UInt32}
    {callbacks : List PacketCallback} {packet : SentPacket}
    (h : packet ∈ framePackets sequence timestamp callbacks) : packet.timestamp = timestamp := by
  obtain ⟨i, hi, rfl⟩ := List.mem_mapIdx.mp h
  rfl

/-- Packets that arrive one after the other, and the callbacks that each of them
raises. -/
def incomingPackets (crypto : Crypto) (env : Nat → IncomingEnv) :
    (n : Nat) → PeerConnection → List (List UInt8) →
      Option (PeerConnection × List (List PcEvent))
  | _, pc, [] => some (pc, [])
  | n, pc, packet :: packets =>
      (pcProcessIncomingRtp crypto (env n) pc packet).bind fun (_, pc, events) =>
        (incomingPackets crypto env (n + 1) pc packets).map fun (pc, rest) => (pc, events :: rest)

/-- The pieces of the packets of one frame, put together. -/
def frameEvent (track : Nat) (run : List SentPacket) : PcEvent :=
  .videoFrame track (run.flatMap SentPacket.piece) (run.getLast?.elim 0 SentPacket.timestamp)

theorem frameEvent_eq (track : Nat) {run : List SentPacket} {timestamp : UInt32}
    (hne : run ≠ []) (h : ∀ packet ∈ run, packet.timestamp = timestamp) :
    frameEvent track run = .videoFrame track
      (((run.map SentPacket.callback).map (depacketized frameBufferSize)).flatMap Prod.snd)
      timestamp := by
  have hlast := List.getLast?_eq_some_getLast hne
  rw [frameEvent, hlast, Option.elim_some, h _ (List.getLast_mem hne), List.map_map,
    List.flatMap_map]
  rfl

/-- The reassembly fields hold what has come of a frame. -/
structure Represents (r : Reassembly) (run : List SentPacket) : Prop where
  bytes : r.bytes = run.flatMap SentPacket.piece
  active : r.active = !run.isEmpty
  timestamp : ∀ packet ∈ run, packet.timestamp = r.timestamp
  piece_ne_nil : ∀ packet ∈ run, packet.piece ≠ []

section

variable {r : Reassembly} {run : List SentPacket} {packet : SentPacket}

theorem represents_reset (r : Reassembly) : Represents (trackResetReassembly r) [] :=
  ⟨rfl, rfl, by simp, by simp⟩

theorem Represents.bytes_pos (h : Represents r run) (hrun : run ≠ []) : r.bytes.length > 0 := by
  obtain ⟨packet, rest, rfl⟩ := List.exists_cons_of_ne_nil hrun
  have hpiece := List.length_pos_iff.mpr (h.piece_ne_nil packet List.mem_cons_self)
  rw [h.bytes, List.flatMap_cons, List.length_append]
  omega

theorem trackAppendReassembly_true (r : Reassembly) {data : List UInt8} (hdata : data ≠ []) :
    ∃ capacity, trackAppendReassembly true r data =
      some { r with bytes := r.bytes ++ data, capacity := capacity } := by
  rw [trackAppendReassembly, if_neg (by simpa using hdata)]
  split
  · exact ⟨r.capacity, rfl⟩
  · exact ⟨_, rfl⟩

variable (packet) in
theorem append_represents (hactive : r.active = true) (hbytes : r.bytes = run.flatMap SentPacket.piece)
    (htimestamp : ∀ p ∈ run ++ [packet], p.timestamp = r.timestamp)
    (hpiece : ∀ p ∈ run ++ [packet], p.piece ≠ []) :
    ∃ r', trackAppendReassembly true r packet.piece = some r' ∧
      Represents r' (run ++ [packet]) := by
  have hlast := hpiece packet (List.mem_append_right run (List.mem_singleton_self packet))
  obtain ⟨capacity, happend⟩ := trackAppendReassembly_true r hlast
  refine ⟨_, happend, ?_, ?_, htimestamp, hpiece⟩
  · simp [hbytes]
  · simp [hactive]

/-- A packet goes on with the run that its timestamp tells. -/
theorem reassemble_represents (h : Represents r run) (hpiece : packet.piece ≠ []) :
    ∃ r', reassemble true packet.timestamp packet.piece r = (true, r') ∧
      Represents r' (extendRun SentPacket.timestamp run packet) := by
  have hstart : ∀ r : Reassembly, r.bytes = [] → r.active = true →
      r.timestamp = packet.timestamp → ∃ r',
        trackAppendReassembly true r packet.piece = some r' ∧ Represents r' [packet] := by
    intro r hbytes hactive htimestamp
    have happend : ∃ r', trackAppendReassembly true r packet.piece = some r' ∧
        Represents r' ([] ++ [packet]) :=
      append_represents packet hactive hbytes (by simp [htimestamp]) (by simpa using hpiece)
    exact happend
  rw [reassemble]
  by_cases hrun : run = []
  · subst hrun
    have hactive : r.active = false := h.active
    obtain ⟨r', happend, hrepresents⟩ := hstart
      { r with timestamp := packet.timestamp, active := true } h.bytes rfl rfl
    simp only [hactive, Bool.false_eq_true, false_and, if_false, Bool.not_false, if_true, happend]
    exact ⟨r', rfl, hrepresents⟩
  · have hactive : r.active = true := by
      rw [h.active]
      simpa using hrun
    have hpos := h.bytes_pos hrun
    by_cases hsame : r.timestamp = packet.timestamp
    · have hlabels : ∀ p ∈ run, p.timestamp = packet.timestamp := fun p hp =>
        (h.timestamp p hp).trans hsame
      obtain ⟨r', happend, hrepresents⟩ := append_represents packet hactive h.bytes
        (by
          intro p hp
          rcases List.mem_append.mp hp with hp | hp
          · exact h.timestamp p hp
          · rw [List.mem_singleton.mp hp, hsame])
        (by
          intro p hp
          rcases List.mem_append.mp hp with hp | hp
          · exact h.piece_ne_nil p hp
          · rw [List.mem_singleton.mp hp]
            exact hpiece)
      simp only [hactive, hsame, ne_eq, not_true_eq_false, false_and, and_false, if_false,
        Bool.not_true, Bool.false_eq_true, happend, extendRun_of_eq hlabels rfl]
      exact ⟨r', rfl, hrepresents⟩
    · have hother : ∀ p ∈ run.getLast?, p.timestamp ≠ packet.timestamp := fun p hp hp' =>
        hsame ((h.timestamp p (List.mem_of_mem_getLast? hp)).symm.trans hp')
      obtain ⟨r', happend, hrepresents⟩ := hstart
        { trackResetReassembly r with timestamp := packet.timestamp, active := true } rfl rfl rfl
      have hreset : (trackResetReassembly r).active = false := rfl
      simp only [hactive, hsame, ne_eq, not_false_eq_true, hpos, and_self, if_true, hreset,
        Bool.not_false, happend, extendRun_of_ne rfl hother]
      exact ⟨r', rfl, hrepresents⟩

end

/-- Behind a header, a packet is to the receiver what its callback was to the
sender. -/
theorem SentPacket.receives {base : RtpHeader} (hb : Buildable base) (packet : SentPacket) :
    tinyrtcRtpParseHeader (packet.bytes base) = some (packet.header base) ∧
      tinyrtcDepacketizeFrame .h264 (packet.bytes base) frameBufferSize =
        (packet.endsFrame, packet.piece) := by
  have hheader : Buildable (packet.header base) :=
    ⟨hb.version_eq, hb.no_extension, hb.csrcCount_eq, hb.csrcCount_lt, hb.payloadType_lt⟩
  have hmax := headerLen_le hheader
  exact ⟨parse_build hheader hmax _, depacketize_build hheader hmax _ _⟩

/-- Track `i` receives H264 video of this payload type, and holds what has come of a
frame. -/
structure ReceivesVideo (payloadType : UInt8) (i : Nat) (pc : PeerConnection)
    (run : List SentPacket) : Prop where
  plain : pc.srtpRx = none
  observed : pc.config.observer.onVideoFrame = true
  matched : matchTrack pc payloadType = some i
  track : ∃ track jb, pc.remoteTracks.items[i]? = some track ∧ track.kind = .video ∧
    track.codecId = .h264 ∧ track.jitterBuffer = some jb ∧ jb.config.bufferSize ≠ 0 ∧
    Represents track.reassembly run

theorem matchTrack_setRemoteTrack {pc : PeerConnection} {i : Nat} {track track' : Track}
    (htrack : pc.remoteTracks.items[i]? = some track)
    (hsame : track'.payloadType = track.payloadType) (payloadType : UInt8) :
    matchTrack (setRemoteTrack pc i track') payloadType = matchTrack pc payloadType := by
  have hmap : (pc.remoteTracks.items.set i track').map Track.payloadType =
      pc.remoteTracks.items.map Track.payloadType := by
    have hi : i < pc.remoteTracks.items.length := (List.getElem?_eq_some_iff.mp htrack).1
    apply List.ext_getElem?
    intro n
    rw [List.map_set, hsame, List.getElem?_set]
    split
    · next h =>
      rw [← h, List.getElem?_map, htrack, List.length_map, if_pos hi]
      rfl
    · rfl
  have hmatch : ∀ tracks : List Track,
      tracks.findIdx? (fun track => track.payloadType == payloadType.toUInt32.toInt32) =
        (tracks.map Track.payloadType).findIdx? fun type => type == payloadType.toUInt32.toInt32 := by
    intro tracks
    rw [List.findIdx?_map]
    rfl
  rw [matchTrack, matchTrack, hmatch, hmatch]
  exact congrArg _ hmap

theorem processTrackPacket_collects (track : Track) {run : List SentPacket}
    {packet : SentPacket} {bytes : List UInt8} (hcodec : track.codecId = .h264)
    (hrepresents : Represents track.reassembly run)
    (hdepacketize : tinyrtcDepacketizeFrame .h264 bytes frameBufferSize =
      (packet.endsFrame, packet.piece)) (hpiece : packet.piece ≠ [])
    {isFinal : SentPacket → Bool} (hfinal : packet.endsFrame = isFinal packet) :
    ∃ reassembly received, processTrackPacket true track bytes packet.timestamp =
        (.ok, { track with reassembly := reassembly, framesReceived := received },
          (collect SentPacket.timestamp isFinal run packet).2.map
            (List.flatMap SentPacket.piece)) ∧
      Represents reassembly (collect SentPacket.timestamp isFinal run packet).1 := by
  obtain ⟨r', hreassemble, hafter⟩ := reassemble_represents hrepresents hpiece
  have hpos : packet.piece.length > 0 := List.length_pos_iff.mpr hpiece
  rw [processTrackPacket, collect]
  simp only [hcodec, hdepacketize, hpos, and_self, if_true, hreassemble, Bool.not_true,
    Bool.false_eq_true, if_false, hfinal]
  cases isFinal packet with
  | true =>
      refine ⟨trackResetReassembly r', track.framesReceived + 1, ?_, represents_reset r'⟩
      simp only [Bool.not_true, Bool.false_eq_true, if_false, if_true, Option.map_some,
        hafter.bytes]
  | false => exact ⟨r', track.framesReceived, rfl, hafter⟩

/-- A packet of the stream goes through the jitter buffer and the depacketizer to the
reassembly, and a frame comes out where the run is finished. -/
theorem pcProcessIncomingRtp_collects (crypto : Crypto) {env : IncomingEnv}
    (hmalloc : env.mallocOk = true) (hrealloc : env.reallocOk = true) {base : RtpHeader}
    (hb : Buildable base) {i : Nat} {pc : PeerConnection} {run : List SentPacket}
    (hpc : ReceivesVideo base.payloadType i pc run) {packet : SentPacket}
    (hpiece : packet.piece ≠ []) {isFinal : SentPacket → Bool}
    (hfinal : packet.endsFrame = isFinal packet) :
    ∃ pc', pcProcessIncomingRtp crypto env pc (packet.bytes base) =
        some (.ok, pc', ((collect SentPacket.timestamp isFinal run packet).2.map
          (frameEvent i)).toList) ∧
      ReceivesVideo base.payloadType i pc' (collect SentPacket.timestamp isFinal run packet).1 := by
  obtain ⟨track, jb, htrack, hkind, hcodec, hjb, hsize, hrepresents⟩ := hpc.track
  obtain ⟨hparse, hdepacketize⟩ := SentPacket.receives hb packet
  obtain ⟨jb', hadd, hconfig⟩ := addPacket_ok hsize hparse env.now
  obtain ⟨reassembly, received, hprocess, hafter⟩ := processTrackPacket_collects
    { track with
      jitterBuffer := some jb'
      packetsReceived := track.packetsReceived + 1 } hcodec hrepresents hdepacketize hpiece hfinal
  have hmatched : matchTrack pc (packet.header base).payloadType = some i := hpc.matched
  have htimestamp : (packet.header base).timestamp = packet.timestamp := rfl
  rw [pcProcessIncomingRtp, hpc.plain]
  simp only [processPlainRtp, hparse, hmatched, htrack, hjb, hmalloc, hadd, Option.map_some,
    ne_eq, not_true_eq_false, if_false, hrealloc, htimestamp, hprocess]
  refine ⟨_, congrArg some (Prod.ext rfl (Prod.ext rfl ?_)), ?_⟩
  · cases hout : (collect SentPacket.timestamp isFinal run packet).2 with
    | none => rfl
    | some out =>
        simp only [Option.map_some, frameEvents, hkind, hpc.observed, if_true, frameEvent,
          getLast?_of_collect hout]
        rfl
  · refine ⟨hpc.plain, hpc.observed, ?_, _, jb',
      List.getElem?_set_self (List.getElem?_eq_some_iff.mp htrack).1, hkind, hcodec, rfl, ?_, hafter⟩
    · refine Eq.trans (matchTrack_setRemoteTrack htrack ?_ _) hpc.matched
      rfl
    · rw [hconfig]
      exact hsize

theorem incomingPackets_collects (crypto : Crypto) {env : Nat → IncomingEnv}
    (henv : ∀ n, (env n).mallocOk = true ∧ (env n).reallocOk = true) {base : RtpHeader}
    (hb : Buildable base) {i : Nat} {isFinal : SentPacket → Bool} {packets : List SentPacket}
    (hpackets : ∀ packet ∈ packets, packet.piece ≠ [] ∧ packet.endsFrame = isFinal packet)
    (n : Nat) {pc : PeerConnection} {run : List SentPacket}
    (hpc : ReceivesVideo base.payloadType i pc run) :
    (incomingPackets crypto env n pc (packets.map (SentPacket.bytes base))).map Prod.snd =
      some ((collectAll SentPacket.timestamp isFinal run packets).map fun out =>
        (out.map (frameEvent i)).toList) := by
  induction packets generalizing n pc run with
  | nil => rfl
  | cons packet packets ih =>
      obtain ⟨hpiece, hfinal⟩ := hpackets packet List.mem_cons_self
      obtain ⟨pc', hprocess, hnext⟩ := pcProcessIncomingRtp_collects crypto (henv n).1 (henv n).2
        hb hpc hpiece hfinal
      have hrest := ih (fun p hp => hpackets p (List.mem_cons_of_mem packet hp)) (n + 1) hnext
      obtain ⟨⟨last, events⟩, hincoming, hevents⟩ := Option.map_eq_some_iff.mp hrest
      rw [List.map_cons, incomingPackets, hprocess, Option.bind_some]
      simp only [hincoming, Option.map_some, collectAll, List.map_cons]
      exact congrArg (fun events => some (_ :: events)) hevents

end TinyRtc.FrameAssembly
