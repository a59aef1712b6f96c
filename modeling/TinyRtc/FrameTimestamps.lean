import TinyRtc.IncomingRtp
import TinyRtc.LabelledRuns
import TinyRtc.MediaDelivery
import TinyRtc.Srtp

namespace TinyRtc.FrameTimestamps

open TinyRtc.Common
open TinyRtc.Connection
open TinyRtc.IncomingRtp
open TinyRtc.Jitter
open TinyRtc.LabelledRuns
open TinyRtc.MediaCodec
open TinyRtc.MediaDelivery
open TinyRtc.Packetization
open TinyRtc.Rtp
open TinyRtc.Sdp
open TinyRtc.SecureMedia
open TinyRtc.Srtp

/-- The bytes that the depacketizer has made of a packet, and the packet's timestamp. -/
abbrev Output := UInt32 × List UInt8

/-- A packet that an H264 track has taken: what the depacketizer says about it. -/
structure TrackPacket where
  track : Nat
  timestamp : UInt32
  complete : Bool
  output : List UInt8
  deriving DecidableEq

/-- The datagram as it is behind the decryption. -/
def decrypted (crypto : Crypto) (pc : PeerConnection) (datagram : List UInt8) :
    Option (List UInt8) :=
  match pc.srtpRx with
  | none => some datagram
  | some srtpRx =>
      let result := srtpDecryptPacket crypto srtpRx datagram datagram.length
      if result.error ≠ .ok then none else some (result.packet.take result.len)

/-- The H264 packet that gets past the jitter buffer of its track. -/
def acceptedPlain (env : IncomingEnv) (pc : PeerConnection) (packet : List UInt8) :
    Option TrackPacket := do
  let header ← tinyrtcRtpParseHeader packet
  let i ← matchTrack pc header.payloadType
  let track ← pc.remoteTracks.items[i]?
  let jb ← track.jitterBuffer
  let (err, _) ← tinyrtcJitterBufferAddPacket env.mallocOk jb packet env.now
  if err = .ok ∧ track.codecId = .h264 then
    let (complete, output) := tinyrtcDepacketizeFrame .h264 packet frameBufferSize
    some ⟨i, header.timestamp, complete, output⟩
  else none

def acceptedPacket (crypto : Crypto) (env : IncomingEnv) (pc : PeerConnection)
    (datagram : List UInt8) : Option TrackPacket :=
  (decrypted crypto pc datagram).bind (acceptedPlain env pc)

/-- The outputs of one frame, up to and with a packet. Bytes of another timestamp
discard what has come before. -/
def gather (outputs : List Output) (packet : TrackPacket) : List Output :=
  if packet.output = [] then outputs
  else outputs.filter (fun output => output.1 = packet.timestamp) ++
    [(packet.timestamp, packet.output)]

/-- The bytes of the outputs with a timestamp. -/
def bytesAt (timestamp : UInt32) (outputs : List Output) : List UInt8 :=
  (outputs.filter fun output => output.1 = timestamp).flatMap Prod.snd

/-- The reassembly buffer holds the outputs of one frame, all of one timestamp. -/
structure BuffersOutputs (r : Reassembly) (outputs : List Output) : Prop where
  bytes : r.bytes = outputs.flatMap Prod.snd
  timestamp : ∀ output ∈ outputs, output.1 = r.timestamp
  output_ne_nil : ∀ output ∈ outputs, output.2 ≠ []
  length_le : r.bytes.length ≤ r.capacity

/-- The reassembly is active exactly when there are any. -/
structure HoldsOutputs (r : Reassembly) (outputs : List Output) : Prop extends
    BuffersOutputs r outputs where
  active : r.active = !outputs.isEmpty

theorem growCapacity_ge {needed : Nat} (fuel : Nat) {capacity : Nat}
    (h : needed ≤ capacity * 2 ^ fuel) : needed ≤ growCapacity needed fuel capacity := by
  induction fuel generalizing capacity with
  | zero =>
      rw [growCapacity]
      simpa using h
  | succ fuel ih =>
      rw [growCapacity]
      split_ifs with hsmall
      · refine ih ?_
        rw [Nat.pow_succ] at h
        calc needed ≤ capacity * (2 ^ fuel * 2) := h
          _ = capacity * 2 * 2 ^ fuel := by ring
      · exact Nat.not_lt.mp hsmall

theorem growCapacity_enough (needed : Nat) {capacity : Nat} (hpos : 0 < capacity) :
    needed ≤ growCapacity needed needed capacity := by
  refine growCapacity_ge needed ?_
  calc needed ≤ 1 * 2 ^ needed := by rw [Nat.one_mul]; exact Nat.lt_two_pow_self.le
    _ ≤ capacity * 2 ^ needed := Nat.mul_le_mul_right _ hpos

section

variable {r : Reassembly} {outputs : List Output}

theorem buffers_nil {r : Reassembly} (h : r.bytes = []) : BuffersOutputs r [] := by
  refine ⟨h, by simp, by simp, ?_⟩
  rw [h]
  exact Nat.zero_le _

theorem holds_reset (r : Reassembly) : HoldsOutputs (trackResetReassembly r) [] :=
  ⟨buffers_nil rfl, rfl⟩

theorem holds_zero : HoldsOutputs Reassembly.zero [] :=
  ⟨buffers_nil rfl, rfl⟩

theorem HoldsOutputs.length_pos (h : HoldsOutputs r outputs) (hne : outputs ≠ []) :
    r.bytes.length > 0 := by
  obtain ⟨output, rest, rfl⟩ := List.exists_cons_of_ne_nil hne
  have hpos := List.length_pos_iff.mpr (h.output_ne_nil output List.mem_cons_self)
  rw [h.bytes, List.flatMap_cons, List.length_append]
  omega

theorem trackAppendReassembly_cases {reallocOk : Bool} {data : List UInt8} {r' : Reassembly}
    (hdata : data ≠ []) (h : trackAppendReassembly reallocOk r data = some r') :
    ∃ capacity, r' = { r with bytes := r.bytes ++ data, capacity := capacity } ∧
      r.bytes.length + data.length ≤ capacity := by
  rw [trackAppendReassembly, if_neg (by simpa using hdata)] at h
  by_cases hfits : r.bytes.length + data.length ≤ r.capacity
  · rw [if_pos hfits] at h
    exact ⟨r.capacity, (Option.some.inj h).symm, hfits⟩
  · rw [if_neg hfits] at h
    cases reallocOk with
    | false => cases h
    | true =>
        have hpos : 0 < if r.capacity = 0 then 4096 else r.capacity := by
          split_ifs <;> omega
        exact ⟨_, (Option.some.inj h).symm, growCapacity_enough _ hpos⟩

/-- The buffer grows until the bytes fit, or the bytes are refused. -/
theorem append_holds {reallocOk : Bool} {data : List UInt8} {r' : Reassembly} (hdata : data ≠ [])
    (h : BuffersOutputs r outputs) (hactive : r.active = true)
    (happend : trackAppendReassembly reallocOk r data = some r') :
    HoldsOutputs r' (outputs ++ [(r.timestamp, data)]) := by
  obtain ⟨capacity, rfl, hcapacity⟩ := trackAppendReassembly_cases hdata happend
  refine ⟨⟨by simp [h.bytes], ?_, ?_, by simpa using hcapacity⟩, by simp [hactive]⟩
  · intro output hmem
    rcases List.mem_append.mp hmem with hmem | hmem
    · exact h.timestamp output hmem
    · rw [List.mem_singleton.mp hmem]
  · intro output hmem
    rcases List.mem_append.mp hmem with hmem | hmem
    · exact h.output_ne_nil output hmem
    · rw [List.mem_singleton.mp hmem]
      exact hdata

/-- Outputs of one timestamp are kept as a whole or not at all. -/
theorem HoldsOutputs.filter_eq (h : HoldsOutputs r outputs) (timestamp : UInt32) :
    outputs.filter (fun output => output.1 = timestamp) =
      if r.timestamp = timestamp then outputs else [] := by
  split_ifs with hsame
  · rw [List.filter_eq_self]
    intro output hmem
    exact decide_eq_true ((h.timestamp output hmem).trans hsame)
  · rw [List.filter_eq_nil_iff]
    intro output hmem
    rw [h.timestamp output hmem, decide_eq_false hsame]
    exact Bool.false_ne_true

/-- The append, behind the two tests in front of it. -/
theorem appended_holds (reallocOk : Bool) {appended : Bool} {packet : TrackPacket}
    (ready : Reassembly) {r' : Reassembly} (houtput : packet.output ≠ []) (hactive : ready.active = true)
    (htimestamp : ready.timestamp = packet.timestamp)
    (hbuffers : BuffersOutputs ready (outputs.filter fun output => output.1 = packet.timestamp))
    (hresult : (trackAppendReassembly reallocOk ready packet.output).elim
      (false, trackResetReassembly ready) (fun grown => (true, grown)) = (appended, r')) :
    HoldsOutputs r' (if appended then gather outputs packet else []) := by
  cases happend : trackAppendReassembly reallocOk ready packet.output with
  | none =>
      rw [happend] at hresult
      cases hresult
      exact holds_reset ready
  | some grown =>
      rw [happend] at hresult
      cases hresult
      rw [if_pos rfl, gather, if_neg houtput, ← htimestamp]
      rw [← htimestamp] at hbuffers
      exact append_holds houtput hbuffers hactive happend

/-- The bytes of a packet go behind those of its own timestamp. -/
theorem reassemble_holds {reallocOk : Bool} {packet : TrackPacket} {appended : Bool}
    {r' : Reassembly} (h : HoldsOutputs r outputs) (houtput : packet.output ≠ [])
    (hreassemble : reassemble reallocOk packet.timestamp packet.output r = (appended, r')) :
    HoldsOutputs r' (if appended then gather outputs packet else []) := by
  rw [reassemble] at hreassemble
  by_cases hnil : outputs = []
  · subst hnil
    have hactive : r.active = false := h.active
    simp only [hactive, Bool.false_eq_true, false_and, if_false, Bool.not_false, if_true]
      at hreassemble
    refine appended_holds reallocOk { r with timestamp := packet.timestamp, active := true }
      houtput rfl rfl (buffers_nil h.bytes) ?_
    rw [← hreassemble]
    cases trackAppendReassembly reallocOk _ packet.output with
    | none => rfl
    | some grown => rfl
  · have hactive : r.active = true := by
      rw [h.active]
      simpa using hnil
    have hfilter := h.filter_eq packet.timestamp
    by_cases hsame : r.timestamp = packet.timestamp
    · simp only [hactive, hsame, ne_eq, not_true_eq_false, false_and, and_false, if_false,
        Bool.not_true, Bool.false_eq_true] at hreassemble
      rw [if_pos hsame] at hfilter
      refine appended_holds reallocOk r houtput hactive hsame (hfilter.symm ▸ h.toBuffersOutputs) ?_
      rw [← hreassemble]
      cases trackAppendReassembly reallocOk r packet.output with
      | none => rfl
      | some grown => rfl
    · have hreset : (trackResetReassembly r).active = false := rfl
      simp only [hactive, hsame, ne_eq, not_false_eq_true, h.length_pos hnil, and_self, if_true,
        hreset, Bool.not_false] at hreassemble
      rw [if_neg hsame] at hfilter
      refine appended_holds reallocOk
        { trackResetReassembly r with timestamp := packet.timestamp, active := true }
        houtput rfl rfl ?_ ?_
      · rw [hfilter]
        exact buffers_nil rfl
      · rw [← hreassemble]
        cases trackAppendReassembly reallocOk _ packet.output with
        | none => rfl
        | some grown => rfl

/-- What an H264 packet does to its track: the frame that it completes is what has been
gathered, with its own output. -/
theorem processTrackPacket_holds {reallocOk : Bool} {track track' : Track} {bytes : List UInt8}
    {packet : TrackPacket} {err : TinyrtcError} {frame : Option (List UInt8)}
    (h : HoldsOutputs track.reassembly outputs) (hcodec : track.codecId = .h264)
    (hdepacketize : tinyrtcDepacketizeFrame .h264 bytes frameBufferSize =
      (packet.complete, packet.output))
    (hprocess : processTrackPacket reallocOk track bytes packet.timestamp = (err, track', frame)) :
    HoldsOutputs track'.reassembly
        (if packet.complete = true ∨ err = .memory then [] else gather outputs packet) ∧
      frame = (if packet.complete = true ∧ err ≠ .memory then
        some ((gather outputs packet).flatMap Prod.snd) else none) ∧
      (packet.output = [] → err ≠ .memory) := by
  obtain ⟨appended, reassembly, hfields, hholds, hempty⟩ : ∃ appended reassembly,
      (if packet.output.length > 0 ∧ track.codecId = .h264 then
        reassemble reallocOk packet.timestamp packet.output track.reassembly
      else (true, track.reassembly)) = (appended, reassembly) ∧
      HoldsOutputs reassembly (if appended then gather outputs packet else []) ∧
      (packet.output = [] → appended = true) := by
    by_cases houtput : packet.output = []
    · refine ⟨true, track.reassembly, if_neg (by simp [houtput]), ?_, fun _ => rfl⟩
      rw [if_pos rfl, gather, if_pos houtput]
      exact h
    · refine ⟨_, _, if_pos ⟨List.length_pos_iff.mpr houtput, hcodec⟩, ?_,
        fun hnil => absurd hnil houtput⟩
      exact reassemble_holds h houtput rfl
  rw [processTrackPacket, hcodec, hdepacketize] at hprocess
  rw [hcodec] at hfields
  dsimp only at hprocess
  rw [hfields] at hprocess
  cases appended with
  | false =>
      cases hprocess
      exact ⟨by simpa using hholds, by simp, fun hnil => absurd (hempty hnil) Bool.false_ne_true⟩
  | true =>
      cases hcomplete : packet.complete with
      | false =>
          rw [hcomplete] at hprocess
          cases hprocess
          exact ⟨by simpa using hholds, by simp, fun _ => by decide⟩
      | true =>
          rw [hcomplete] at hprocess
          cases hprocess
          refine ⟨by simpa using holds_reset reassembly, ?_, fun _ => by decide⟩
          have hbytes := hholds.bytes
          rw [if_pos rfl] at hbytes
          simp [hbytes]

end

/-- What of the remote tracks decides about frames. -/
def reassemblies (pc : PeerConnection) : List (CodecId × Reassembly) :=
  pc.remoteTracks.items.map fun track => (track.codecId, track.reassembly)

theorem reassemblies_setRemoteTrack (pc : PeerConnection) (i : Nat) (track : Track) :
    reassemblies (setRemoteTrack pc i track) =
      (reassemblies pc).set i (track.codecId, track.reassembly) := by
  rw [reassemblies, reassemblies, setRemoteTrack]
  exact List.map_set

theorem reassemblies_setRemoteTrack_same {pc : PeerConnection} {i : Nat} {track track' : Track}
    (htrack : pc.remoteTracks.items[i]? = some track) (hcodec : track'.codecId = track.codecId)
    (hreassembly : track'.reassembly = track.reassembly) :
    reassemblies (setRemoteTrack pc i track') = reassemblies pc := by
  obtain ⟨hi, hget⟩ := List.getElem?_eq_some_iff.mp htrack
  have hlen : i < (reassemblies pc).length := by
    rw [reassemblies, List.length_map]
    exact hi
  have hself : (reassemblies pc)[i] = (track.codecId, track.reassembly) := by
    simp only [reassemblies, List.getElem_map, hget]
  rw [reassemblies_setRemoteTrack, hcodec, hreassembly, ← hself, List.set_getElem_self hlen]

/-- The two courses of a packet behind the decryption: it is nothing for an H264 track, or
an H264 track takes it. -/
inductive Course (env : IncomingEnv) (pc : PeerConnection) (accepted : Option TrackPacket) :
    TinyrtcError → PeerConnection → List PcEvent → Prop
  | other {err : TinyrtcError} {pc' : PeerConnection} {events : List PcEvent}
      (hnone : accepted = none) (htracks : reassemblies pc' = reassemblies pc)
      (hevents : ∀ i frame timestamp, .videoFrame i frame timestamp ∈ events →
        ∀ track, pc.remoteTracks.items[i]? = some track → track.codecId ≠ .h264) :
      Course env pc accepted err pc' events
  | taken {packet : TrackPacket} {track track' : Track} {bytes : List UInt8} {err : TinyrtcError}
      {frame : Option (List UInt8)} {jb : Option JitterBuffer} {pc' : PeerConnection}
      {events : List PcEvent} (hsome : accepted = some packet)
      (htrack : pc.remoteTracks.items[packet.track]? = some track)
      (hcodec : track.codecId = .h264)
      (hdepacketize : tinyrtcDepacketizeFrame .h264 bytes frameBufferSize =
        (packet.complete, packet.output))
      (hprocess : processTrackPacket env.reallocOk
        { track with
          jitterBuffer := jb
          packetsReceived := track.packetsReceived + 1 } bytes packet.timestamp =
            (err, track', frame))
      (htracks : reassemblies pc' =
        (reassemblies pc).set packet.track (.h264, track'.reassembly))
      (hevents : events = frame.elim [] fun frame =>
        frameEvents pc.config.observer track.kind packet.track frame packet.timestamp) :
      Course env pc accepted err pc' events

theorem processTrackPacket_keeps {reallocOk : Bool} {track track' : Track} {bytes : List UInt8}
    {timestamp : UInt32} {err : TinyrtcError} {frame : Option (List UInt8)}
    (h : processTrackPacket reallocOk track bytes timestamp = (err, track', frame)) :
    track'.codecId = track.codecId ∧ track'.kind = track.kind ∧
      (track.codecId ≠ .h264 → track'.reassembly = track.reassembly) := by
  rw [processTrackPacket] at h
  dsimp only at h
  by_cases hcodec : track.codecId = .h264
  · split_ifs at h <;> cases h <;> exact ⟨rfl, rfl, fun hne => absurd hcodec hne⟩
  · simp only [hcodec, and_false, if_false] at h
    split_ifs at h <;> cases h <;> exact ⟨rfl, rfl, fun _ => rfl⟩

theorem eq_of_mem_frameEvents {observer : PcObserver} {kind : TrackKind} {track i : Nat}
    {frame frame' : List UInt8} {timestamp timestamp' : UInt32}
    (h : PcEvent.videoFrame i frame' timestamp' ∈ frameEvents observer kind track frame timestamp) :
    i = track ∧ frame' = frame ∧ timestamp' = timestamp ∧ kind = .video ∧
      observer.onVideoFrame = true := by
  cases kind with
  | audio =>
      simp only [frameEvents] at h
      split_ifs at h
      · cases List.mem_singleton.mp h
      · exact absurd h List.not_mem_nil
  | video =>
      simp only [frameEvents] at h
      split_ifs at h with hset
      · cases List.mem_singleton.mp h
        exact ⟨rfl, rfl, rfl, rfl, hset⟩
      · exact absurd h List.not_mem_nil

/-- What becomes of a packet that the jitter buffer of its track has taken in. -/
theorem course_of_added {env : IncomingEnv} {pc : PeerConnection} {packet : List UInt8}
    {header : RtpHeader} {i : Nat} {track track' : Track} {jb jb' : JitterBuffer}
    {err : TinyrtcError} {frame : Option (List UInt8)}
    (hparse : tinyrtcRtpParseHeader packet = some header)
    (hmatch : matchTrack pc header.payloadType = some i)
    (htrack : pc.remoteTracks.items[i]? = some track) (hjb : track.jitterBuffer = some jb)
    (hadd : tinyrtcJitterBufferAddPacket env.mallocOk jb packet env.now = some (.ok, jb'))
    (hprocess : processTrackPacket env.reallocOk
      { track with
        jitterBuffer := some jb'
        packetsReceived := track.packetsReceived + 1 } packet header.timestamp =
          (err, track', frame)) :
    Course env pc (acceptedPlain env pc packet) err (setRemoteTrack pc i track')
      (frame.elim [] fun frame =>
        frameEvents pc.config.observer track'.kind i frame header.timestamp) := by
  obtain ⟨hcodec', hkind', hother⟩ := processTrackPacket_keeps hprocess
  by_cases hcodec : track.codecId = .h264
  · refine @Course.taken _ _ _ ⟨i, header.timestamp,
        (tinyrtcDepacketizeFrame .h264 packet frameBufferSize).1,
        (tinyrtcDepacketizeFrame .h264 packet frameBufferSize).2⟩
      _ _ _ _ _ _ _ _ ?_ htrack hcodec rfl hprocess ?_ ?_
    · simp [acceptedPlain, hparse, hmatch, htrack, hjb, hadd, hcodec]
    · rw [reassemblies_setRemoteTrack, hcodec']
      exact congrArg (fun codec => (reassemblies pc).set i (codec, _)) hcodec
    · rw [hkind']
  · refine .other (by simp [acceptedPlain, hparse, hmatch, htrack, hjb, hcodec])
      (reassemblies_setRemoteTrack_same htrack hcodec' (hother hcodec)) ?_
    intro j frame' timestamp hmem track'' htrack''
    cases frame with
    | none => exact absurd hmem List.not_mem_nil
    | some frame =>
        obtain ⟨rfl, -⟩ := eq_of_mem_frameEvents hmem
        rw [htrack] at htrack''
        cases htrack''
        exact hcodec

theorem processPlainRtp_course {env : IncomingEnv} {pc pc' : PeerConnection}
    {packet : List UInt8} {err : TinyrtcError} {events : List PcEvent}
    (h : processPlainRtp env pc packet = some (err, pc', events)) :
    Course env pc (acceptedPlain env pc packet) err pc' events := by
  rw [processPlainRtp] at h
  cases hparse : tinyrtcRtpParseHeader packet with
  | none =>
      simp only [hparse, Option.some.injEq, Prod.mk.injEq] at h
      obtain ⟨-, rfl, rfl⟩ := h
      exact .other (by simp [acceptedPlain, hparse]) rfl (by simp)
  | some header =>
      cases hmatch : matchTrack pc header.payloadType with
      | none =>
          simp only [hparse, hmatch, Option.some.injEq, Prod.mk.injEq] at h
          obtain ⟨-, rfl, rfl⟩ := h
          exact .other (by simp [acceptedPlain, hparse, hmatch]) rfl (by simp)
      | some i =>
          cases htrack : pc.remoteTracks.items[i]? with
          | none =>
              simp only [hparse, hmatch, htrack, Option.some.injEq, Prod.mk.injEq] at h
              obtain ⟨-, rfl, rfl⟩ := h
              exact .other (by simp [acceptedPlain, hparse, hmatch, htrack]) rfl (by simp)
          | some track =>
              cases hjb : track.jitterBuffer with
              | none =>
                  simp only [hparse, hmatch, htrack, hjb, Option.map_some, Option.some.injEq] at h
                  cases h
                  refine .other (by simp [acceptedPlain, hparse, hmatch, htrack, hjb])
                    (reassemblies_setRemoteTrack_same htrack rfl rfl) (by simp)
              | some jb =>
                  simp only [hparse, hmatch, htrack, hjb, Option.map_map] at h
                  obtain ⟨⟨added, jb'⟩, hadd, hresult⟩ := Option.map_eq_some_iff.mp h
                  simp only [Function.comp_apply] at hresult
                  by_cases hok : added = .ok
                  · rw [if_neg (not_not.mpr hok)] at hresult
                    obtain ⟨err', track', frame, hprocess⟩ : ∃ err' track' frame,
                        processTrackPacket env.reallocOk
                          { track with
                            jitterBuffer := some jb'
                            packetsReceived := track.packetsReceived + 1 } packet header.timestamp =
                              (err', track', frame) := ⟨_, _, _, rfl⟩
                    have hcourse := course_of_added hparse hmatch htrack hjb (hok ▸ hadd) hprocess
                    rw [hprocess] at hresult
                    cases frame <;> cases hresult <;> exact hcourse
                  · rw [if_pos hok] at hresult
                    cases hresult
                    exact .other (by simp [acceptedPlain, hparse, hmatch, htrack, hjb, hadd, hok])
                      (reassemblies_setRemoteTrack_same htrack rfl rfl) (by simp)

theorem pcProcessIncomingRtp_course {crypto : Crypto} {env : IncomingEnv} {pc pc' : PeerConnection}
    {datagram : List UInt8} {err : TinyrtcError} {events : List PcEvent}
    (h : pcProcessIncomingRtp crypto env pc datagram = some (err, pc', events)) :
    Course env pc (acceptedPacket crypto env pc datagram) err pc' events := by
  rw [pcProcessIncomingRtp] at h
  rw [acceptedPacket, decrypted]
  cases hrx : pc.srtpRx with
  | none =>
      rw [hrx] at h
      exact processPlainRtp_course h
  | some srtpRx =>
      simp only [hrx] at h ⊢
      split_ifs at h ⊢ with hok
      · cases h
        exact .other rfl rfl (by simp)
      · cases processPlainRtp_course h with
        | other hnone htracks hevents => exact .other hnone htracks hevents
        | taken hsome htrack hcodec hdepacketize hprocess htracks hevents =>
            exact .taken hsome htrack hcodec hdepacketize hprocess htracks hevents

/-- A datagram, and what the world answers while it is processed. -/
structure Arrival where
  env : IncomingEnv
  datagram : List UInt8

/-- A connection, and beside it what has come so far of the frame of each track. Nothing in
the code reads the outputs. -/
structure Gathering where
  pc : PeerConnection
  outputs : Nat → List Output

/-- The outputs up to and with those of a packet. -/
def outputsWith (accepted : Option TrackPacket) (outputs : Nat → List Output) :
    Nat → List Output :=
  match accepted with
  | none => outputs
  | some packet =>
      Function.update outputs packet.track (gather (outputs packet.track) packet)

/-- The outputs behind a packet. A complete frame is over, and so is one that there is no
memory for. -/
def outputsAfter (accepted : Option TrackPacket) (err : TinyrtcError)
    (outputs : Nat → List Output) : Nat → List Output :=
  match accepted with
  | none => outputs
  | some packet =>
      Function.update outputs packet.track
        (if packet.complete = true ∨ err = .memory then []
        else gather (outputs packet.track) packet)

def GatherStep (crypto : Crypto) (s : Gathering) (label : Arrival × List PcEvent)
    (s' : Gathering) : Prop :=
  ∃ err, pcProcessIncomingRtp crypto label.1.env s.pc label.1.datagram =
      some (err, s'.pc, label.2) ∧
    s'.outputs =
      outputsAfter (acceptedPacket crypto label.1.env s.pc label.1.datagram) err s.outputs

/-- Every frame for an H264 track has bytes, and they are the outputs with its timestamp
since the last frame that was completed or discarded. -/
def FramesProper (crypto : Crypto) (s : Gathering) (arrival : Arrival) (events : List PcEvent) :
    Prop :=
  ∀ i frame timestamp, .videoFrame i frame timestamp ∈ events →
    ∀ track, s.pc.remoteTracks.items[i]? = some track → track.codecId = .h264 →
      frame ≠ [] ∧ frame = bytesAt timestamp
        (outputsWith (acceptedPacket crypto arrival.env s.pc arrival.datagram) s.outputs i)

/-- The datagram completes a frame without a byte of its own, and the track holds none of
its timestamp. -/
def CompletesWithoutBytes (crypto : Crypto) (pc : PeerConnection) (arrival : Arrival) : Prop :=
  ∃ packet track, acceptedPacket crypto arrival.env pc arrival.datagram = some packet ∧
    pc.remoteTracks.items[packet.track]? = some track ∧ track.kind = .video ∧
    pc.config.observer.onVideoFrame = true ∧ packet.complete = true ∧ packet.output = [] ∧
    (track.reassembly.active = true → track.reassembly.timestamp ≠ packet.timestamp)

def HoldsGathered (s : Gathering) : Prop :=
  ∀ i codecId r, (reassemblies s.pc)[i]? = some (codecId, r) → HoldsOutputs r (s.outputs i)

section

variable {crypto : Crypto} {s s' : Gathering} {arrival : Arrival} {events : List PcEvent}

theorem HoldsGathered.track (h : HoldsGathered s) {i : Nat} {track : Track}
    (htrack : s.pc.remoteTracks.items[i]? = some track) :
    HoldsOutputs track.reassembly (s.outputs i) := by
  refine h i track.codecId track.reassembly ?_
  rw [reassemblies, List.getElem?_map, htrack]
  rfl

theorem holdsGathered_step {label : Arrival × List PcEvent} (h : HoldsGathered s)
    (hstep : GatherStep crypto s label s') : HoldsGathered s' := by
  obtain ⟨err, hprocess, houtputs⟩ := hstep
  intro i codecId r hget
  rw [houtputs]
  cases pcProcessIncomingRtp_course hprocess with
  | other hnone htracks =>
      rw [htracks] at hget
      rw [hnone]
      exact h i codecId r hget
  | @taken packet track track' bytes _ frame jb _ _ hsome htrack hcodec hdepacketize hprocess'
      htracks =>
      have htaken := h.track htrack
      obtain ⟨hafter, -, -⟩ := processTrackPacket_holds (by exact htaken) (by exact hcodec)
        hdepacketize hprocess'
      rw [hsome, outputsAfter]
      rw [htracks, List.getElem?_set] at hget
      split_ifs at hget with hi hlt
      · cases hget
        rw [← hi, Function.update_self]
        exact hafter
      · rw [Function.update_of_ne (Ne.symm hi)]
        exact h i codecId r hget

theorem bytesAt_self {outputs : List Output} {timestamp : UInt32}
    (h : ∀ output ∈ outputs, output.1 = timestamp) :
    bytesAt timestamp outputs = outputs.flatMap Prod.snd := by
  rw [bytesAt, List.filter_eq_self.mpr fun output hmem => decide_eq_true (h output hmem)]

/-- What is gathered with an output has its timestamp, and is not empty. -/
theorem gather_output {outputs : List Output} {packet : TrackPacket} (h : packet.output ≠ []) :
    (gather outputs packet).flatMap Prod.snd ≠ [] ∧
      bytesAt packet.timestamp (gather outputs packet) =
        (gather outputs packet).flatMap Prod.snd := by
  rw [gather, if_neg h]
  refine ⟨by simp [h], bytesAt_self ?_⟩
  intro output hmem
  rcases List.mem_append.mp hmem with hmem | hmem
  · simpa using (List.mem_filter.mp hmem).2
  · rw [List.mem_singleton.mp hmem]

/-- Without an output, what has been gathered is there before. -/
theorem gather_nothing_iff {r : Reassembly} {outputs : List Output} (h : HoldsOutputs r outputs)
    {packet : TrackPacket} (hnil : packet.output = []) :
    ((gather outputs packet).flatMap Prod.snd ≠ [] ∧
      (gather outputs packet).flatMap Prod.snd =
        bytesAt packet.timestamp (gather outputs packet)) ↔
      ¬(r.active = true → r.timestamp ≠ packet.timestamp) := by
  rw [gather, if_pos hnil, bytesAt, h.filter_eq packet.timestamp, h.active]
  by_cases houtputs : outputs = []
  · simp [houtputs]
  · have hpos := h.length_pos houtputs
    rw [h.bytes] at hpos
    have hbytes : outputs.flatMap Prod.snd ≠ [] := List.ne_nil_of_length_pos hpos
    by_cases hsame : r.timestamp = packet.timestamp
    · rw [if_pos hsame]
      simp [houtputs, hbytes, hsame]
    · rw [if_neg hsame]
      simp [hbytes, hsame]

theorem framesProper_iff (h : HoldsGathered s) {err : TinyrtcError} {pc' : PeerConnection}
    (hprocess : pcProcessIncomingRtp crypto arrival.env s.pc arrival.datagram =
      some (err, pc', events)) :
    FramesProper crypto s arrival events ↔ ¬CompletesWithoutBytes crypto s.pc arrival := by
  cases pcProcessIncomingRtp_course hprocess with
  | other hnone htracks hevents =>
      refine iff_of_true ?_ ?_
      · intro i frame timestamp hmem track htrack hcodec
        exact absurd hcodec (hevents i frame timestamp hmem track htrack)
      · rintro ⟨packet, track, hsome, -⟩
        rw [hnone] at hsome
        cases hsome
  | @taken packet track track' bytes _ frame jb _ _ hsome htrack hcodec hdepacketize hprocess'
      htracks hevents =>
      have htaken := h.track htrack
      obtain ⟨-, hframe, hempty⟩ := processTrackPacket_holds (by exact htaken) (by exact hcodec)
        hdepacketize hprocess'
      -- the frame for the application, if there is one
      have hproper : FramesProper crypto s arrival events ↔
          (track.kind = .video → s.pc.config.observer.onVideoFrame = true →
            packet.complete = true → err ≠ .memory →
            (gather (s.outputs packet.track) packet).flatMap Prod.snd ≠ [] ∧
              (gather (s.outputs packet.track) packet).flatMap Prod.snd =
                bytesAt packet.timestamp (gather (s.outputs packet.track) packet)) := by
        rw [FramesProper, hevents, hframe, hsome]
        constructor
        · intro hall hkind hset hcomplete herr
          have hone := hall packet.track _ packet.timestamp
            (by
              rw [if_pos ⟨hcomplete, herr⟩, Option.elim_some, hkind, frameEvents, if_pos hset]
              exact List.mem_singleton_self _) track htrack hcodec
          rw [outputsWith, Function.update_self] at hone
          exact hone
        · intro hone i frame timestamp hmem _ _ _
          by_cases hcond : packet.complete = true ∧ err ≠ .memory
          · rw [if_pos hcond, Option.elim_some] at hmem
            obtain ⟨rfl, rfl, rfl, hkind, hset⟩ := eq_of_mem_frameEvents hmem
            rw [outputsWith, Function.update_self]
            exact hone hkind hset hcond.1 hcond.2
          · rw [if_neg hcond] at hmem
            exact absurd hmem List.not_mem_nil
      rw [hproper]
      constructor
      · rintro hone ⟨packet', track'', hsome', htrack', hkind, hset, hcomplete, hnil, hactive⟩
        rw [hsome] at hsome'
        cases hsome'
        rw [htrack] at htrack'
        cases htrack'
        exact (gather_nothing_iff htaken hnil).mp (hone hkind hset hcomplete (hempty hnil)) hactive
      · intro hnot hkind hset hcomplete herr
        by_cases hnil : packet.output = []
        · refine (gather_nothing_iff htaken hnil).mpr fun hactive => hnot ?_
          exact ⟨packet, track, hsome, htrack, hkind, hset, hcomplete, hnil, hactive⟩
        · obtain ⟨hne, hbytes⟩ := @gather_output (s.outputs packet.track) packet hnil
          exact ⟨hne, hbytes.symm⟩

end

/-- One call of `pc_process_incoming_rtp`. -/
def IncomingStep (crypto : Crypto) (pc : PeerConnection) (label : Arrival × List PcEvent)
    (pc' : PeerConnection) : Prop :=
  ∃ err, pcProcessIncomingRtp crypto label.1.env pc label.1.datagram = some (err, pc', label.2)

/-- Datagrams one after the other, each with the callbacks that it raises. -/
def receiveAll (crypto : Crypto) :
    PeerConnection → List Arrival → Option (PeerConnection × List (Arrival × List PcEvent))
  | pc, [] => some (pc, [])
  | pc, arrival :: arrivals =>
      (pcProcessIncomingRtp crypto arrival.env pc arrival.datagram).bind fun (_, pc, events) =>
        (receiveAll crypto pc arrivals).map fun (pc, rest) => (pc, (arrival, events) :: rest)

theorem run_receiveAll {crypto : Crypto} {pc pc' : PeerConnection} {arrivals : List Arrival}
    {labels : List (Arrival × List PcEvent)}
    (h : receiveAll crypto pc arrivals = some (pc', labels)) :
    Run (IncomingStep crypto) pc labels pc' ∧ labels.map Prod.fst = arrivals := by
  induction arrivals generalizing pc labels with
  | nil =>
      cases h
      exact ⟨.nil _, rfl⟩
  | cons arrival arrivals ih =>
      obtain ⟨⟨err, next, events⟩, hprocess, hrest⟩ := Option.bind_eq_some_iff.mp h
      obtain ⟨⟨last, rest⟩, hreceived, hresult⟩ := Option.map_eq_some_iff.mp hrest
      cases hresult
      obtain ⟨hrun, harrivals⟩ := ih hreceived
      exact ⟨.cons ⟨err, hprocess⟩ hrun, congrArg (arrival :: ·) harrivals⟩

/-- The outputs can be kept beside any run. -/
theorem exists_gathering {crypto : Crypto} {pc pc' : PeerConnection}
    {labels : List (Arrival × List PcEvent)} (hrun : Run (IncomingStep crypto) pc labels pc')
    (outputs : Nat → List Output) :
    ∃ outputs', Run (GatherStep crypto) ⟨pc, outputs⟩ labels ⟨pc', outputs'⟩ := by
  induction hrun generalizing outputs with
  | nil pc => exact ⟨outputs, .nil _⟩
  | @cons pc pc' pc'' label labels hstep hrest ih =>
      obtain ⟨err, hprocess⟩ := hstep
      obtain ⟨outputs', hrun⟩ := ih (outputsAfter
        (acceptedPacket crypto label.1.env pc label.1.datagram) err outputs)
      exact ⟨outputs', .cons ⟨err, hprocess, rfl⟩ hrun⟩

theorem holdsGathered_of_run {crypto : Crypto} {pc : PeerConnection}
    (hfresh : ∀ track ∈ pc.remoteTracks.items, track.reassembly = .zero)
    {labels : List (Arrival × List PcEvent)} {s : Gathering}
    (hrun : Run (GatherStep crypto) ⟨pc, fun _ => []⟩ labels s) : HoldsGathered s := by
  refine hrun.invariant (fun _ _ _ h hstep => holdsGathered_step h hstep) ?_
  intro i codecId r hget
  rw [reassemblies, List.getElem?_map] at hget
  obtain ⟨track, htrack, hview⟩ := Option.map_eq_some_iff.mp hget
  cases hview
  rw [hfresh track (List.mem_of_getElem? htrack)]
  exact holds_zero

/-- In every run, a datagram raises a frame without bytes of its timestamp exactly if it
completes a frame without bytes; and the buffers are never overrun. -/
theorem framesProper_of_run (crypto : Crypto) {pc : PeerConnection}
    (hfresh : ∀ track ∈ pc.remoteTracks.items, track.reassembly = .zero)
    {labels : List (Arrival × List PcEvent)} {s s' : Gathering}
    (hrun : Run (GatherStep crypto) ⟨pc, fun _ => []⟩ labels s) {arrival : Arrival}
    {events : List PcEvent} (hstep : GatherStep crypto s (arrival, events) s') :
    (FramesProper crypto s arrival events ↔ ¬CompletesWithoutBytes crypto s.pc arrival) ∧
      ∀ track ∈ s'.pc.remoteTracks.items,
        track.reassembly.bytes.length ≤ track.reassembly.capacity := by
  have hholds := holdsGathered_of_run hfresh hrun
  have hnext := holdsGathered_step hholds hstep
  obtain ⟨err, hprocess, -⟩ := hstep
  refine ⟨framesProper_iff hholds hprocess, ?_⟩
  intro track hmem
  obtain ⟨i, hi⟩ := List.getElem?_of_mem hmem
  exact (hnext.track hi).length_le

/-- The payloads that complete a frame without a byte: a fragment that is not the first,
with nothing behind its header. -/
theorem completes_without_bytes_iff (marker : Bool) (payload : List UInt8) (maxLen : Nat) :
    h264Depacketize marker payload maxLen = (true, []) ↔
      ∃ indicator header, payload = [indicator, header] ∧ indicator &&& 0x1F = 28 ∧
        header &&& 0x80 = 0 ∧ (marker = true ∨ header &&& 0x40 ≠ 0) := by
  match payload with
  | [] => simp [h264Depacketize]
  | [indicator] =>
      simp only [h264Depacketize]
      split_ifs <;> simp
  | indicator :: header :: fragment =>
      by_cases hsingle : indicator &&& 0x1F > 0 ∧ indicator &&& 0x1F < 24
      · refine iff_of_false ?_ ?_
        · simp only [h264Depacketize, if_pos hsingle]
          split_ifs <;> simp
        · rintro ⟨indicator', header', hpayload, htype, -⟩
          cases hpayload
          rw [htype] at hsingle
          exact absurd hsingle (by decide)
      · by_cases htype : indicator &&& 0x1F = 28
        · simp only [h264Depacketize, if_neg hsingle, if_pos htype]
          by_cases hstart : header &&& 0x80 = 0
          · cases fragment with
            | nil => simp [hstart, htype]
            | cons byte fragment =>
                simp only [hstart, bne_self_eq_false, Bool.false_eq_true, if_false]
                split_ifs <;> simp
          · have hbit : ((header &&& 0x80) != 0) = true := bne_iff_ne.mpr hstart
            refine iff_of_false ?_ ?_
            · rw [if_pos hbit]
              split_ifs <;> simp
            · rintro ⟨indicator', header', hpayload, -, hzero, -⟩
              cases hpayload
              exact hstart hzero
        · refine iff_of_false ?_ ?_
          · simp [h264Depacketize, if_neg hsingle, if_neg htype]
          · rintro ⟨indicator', header', hpayload, htype', -⟩
            cases hpayload
            exact htype htype'

/-- A fragment with an end bit and no byte, at a connection with one remote H264 track. -/
def emptyEnd : Arrival :=
  ⟨⟨1, true, true⟩, [0x80, 0x64, 0, 1, 0, 0, 0, 9, 0, 0, 0, 0, 0x7C, 0x45]⟩

theorem sampleReceiver_fresh :
    ∀ track ∈ sampleReceiver.remoteTracks.items, track.reassembly = .zero := by
  intro track hmem
  rw [List.mem_singleton.mp hmem]
  rfl

/-- The frame of this datagram has no bytes at all. -/
theorem frames_not_proper :
    ¬ ∀ (pc : PeerConnection) (labels : List (Arrival × List PcEvent)) (s s' : Gathering)
      (arrival : Arrival) (events : List PcEvent),
      (∀ track ∈ pc.remoteTracks.items, track.reassembly = .zero) →
      Run (GatherStep toyCrypto) ⟨pc, fun _ => []⟩ labels s →
      GatherStep toyCrypto s (arrival, events) s' → FramesProper toyCrypto s arrival events := by
  intro hall
  obtain ⟨⟨err, pc', events⟩, hprocess⟩ : ∃ result, pcProcessIncomingRtp toyCrypto emptyEnd.env
      sampleReceiver emptyEnd.datagram = some result :=
    Option.isSome_iff_exists.mp (by decide +kernel)
  have hproper := hall sampleReceiver [] ⟨sampleReceiver, fun _ => []⟩ ⟨pc', _⟩ emptyEnd events
    sampleReceiver_fresh (.nil _) ⟨err, hprocess, rfl⟩
  have hholds := @holdsGathered_of_run toyCrypto _ sampleReceiver_fresh _ _ (.nil _)
  rw [framesProper_iff hholds hprocess] at hproper
  exact hproper ⟨⟨0, 9, true, []⟩, _, by decide +kernel, rfl, rfl, rfl, rfl, rfl,
    fun hactive => absurd hactive (by decide)⟩

/-- A fragment of a slice, with one byte. -/
def sampleFragment (sequence timestamp header byte : UInt8) : Arrival :=
  ⟨⟨1, true, true⟩, [0x80, 0x64, 0, sequence, 0, 0, 0, timestamp, 0, 0, 0, 0, 0x7C, header, byte]⟩

/-- The start of a frame whose end is lost, and a frame in two fragments behind it. -/
theorem framesProper_sampleFragments : ∃ labels s events s',
    Run (GatherStep toyCrypto) ⟨sampleReceiver, fun _ => []⟩ labels s ∧
      labels.map Prod.fst = [sampleFragment 1 5 0x85 0x11, sampleFragment 3 9 0x85 0x22] ∧
      GatherStep toyCrypto s (sampleFragment 4 9 0x45 0x33, events) s' ∧
      .videoFrame 0 [0x00, 0x00, 0x00, 0x01, 0x65, 0x22, 0x33] 9 ∈ events ∧
      FramesProper toyCrypto s (sampleFragment 4 9 0x45 0x33) events := by
  obtain ⟨⟨pc, labels⟩, hreceived⟩ : ∃ received, receiveAll toyCrypto sampleReceiver
      [sampleFragment 1 5 0x85 0x11, sampleFragment 3 9 0x85 0x22] = some received := ⟨_, rfl⟩
  obtain ⟨err, pc', hprocess⟩ : ∃ err pc', pcProcessIncomingRtp toyCrypto
      (sampleFragment 4 9 0x45 0x33).env pc (sampleFragment 4 9 0x45 0x33).datagram =
        some (err, pc', [.videoFrame 0 [0x00, 0x00, 0x00, 0x01, 0x65, 0x22, 0x33] 9]) := by
    cases hreceived
    exact ⟨_, _, rfl⟩
  have houtput : (acceptedPacket toyCrypto (sampleFragment 4 9 0x45 0x33).env pc
      (sampleFragment 4 9 0x45 0x33).datagram).map TrackPacket.output = some [0x33] := by
    cases hreceived
    decide +kernel
  obtain ⟨hincoming, harrivals⟩ := run_receiveAll hreceived
  obtain ⟨outputs, hrun⟩ := exists_gathering hincoming fun _ => []
  have hstep : GatherStep toyCrypto ⟨pc, outputs⟩ (sampleFragment 4 9 0x45 0x33, _)
    ⟨pc', _⟩ := ⟨err, hprocess, rfl⟩
  refine ⟨labels, _, _, _, hrun, harrivals, hstep, List.mem_singleton_self _, ?_⟩
  apply (framesProper_of_run toyCrypto sampleReceiver_fresh hrun hstep).1.mpr
  rintro ⟨packet, track, haccepted, -, -, -, -, hnil, -⟩
  rw [haccepted, Option.map_some, hnil] at houtput
  cases houtput

end TinyRtc.FrameTimestamps
