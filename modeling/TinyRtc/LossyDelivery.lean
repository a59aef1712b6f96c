import TinyRtc.MediaDelivery

namespace TinyRtc.LossyDelivery

open TinyRtc.AnnexB
open TinyRtc.Chunking
open TinyRtc.Connection
open TinyRtc.FrameAssembly
open TinyRtc.FuaFragments
open TinyRtc.H264RoundTrip
open TinyRtc.IncomingRtp
open TinyRtc.MarkedRuns
open TinyRtc.MediaCodec
open TinyRtc.MediaDelivery
open TinyRtc.MediaSend
open TinyRtc.Packetization
open TinyRtc.Rtp
open TinyRtc.Srtp

/-- What the depacketizer makes of a list of callbacks, end to end. -/
def piecesOf (callbacks : List PacketCallback) : List UInt8 :=
  (callbacks.map (depacketized frameBufferSize)).flatMap Prod.snd

@[simp] theorem piecesOf_cons (callback : PacketCallback) (callbacks : List PacketCallback) :
    piecesOf (callback :: callbacks) =
      (depacketized frameBufferSize callback).2 ++ piecesOf callbacks := by
  simp [piecesOf]

@[simp] theorem piecesOf_append (first second : List PacketCallback) :
    piecesOf (first ++ second) = piecesOf first ++ piecesOf second := by
  simp [piecesOf]

theorem piece_fua (naluHeader : UInt8) (isStart isEnd : Bool) {chunk : List UInt8}
    (hchunk : chunk.length ≤ 1476) :
    (depacketized frameBufferSize (fuaCallback naluHeader true isStart isEnd chunk)).2 =
      fragmentPrefix naluHeader isStart ++ chunk := by
  rw [depacketized_fua _ _ _ _ (by rw [frameBufferSize]; omega)]

section

variable {nal : NalUnit} {first last : List UInt8} {middle : List (List UInt8)}

theorem startCode_not_in_bytes (nal : NalUnit) {before after : List UInt8} :
    nal.bytes ≠ before ++ (StartCode.long.bytes ++ after) := by
  intro h
  refine nal.no_start_code ⟨before ++ [0x00], after, ?_⟩
  rw [NalUnit.bytes] at h
  rw [h]
  simp [StartCode.bytes]

/-- A fragment that is not the last one: the first or one of those between. -/
def IsFragment (nal : NalUnit) (first : List UInt8) (middle : List (List UInt8))
    (callback : PacketCallback) : Prop :=
  callback = fuaCallback nal.header true true false first ∨
    ∃ chunk ∈ middle, callback = fuaCallback nal.header true false false chunk

/-- Behind a first fragment there is none in what makes up the NAL unit. -/
theorem exists_chunks {callbacks : List PacketCallback} {before after : List UInt8}
    (hfirst : first.length ≤ 1476) (hcallbacks : ∀ callback ∈ callbacks,
      IsFragment nal first middle callback)
    (hbytes : nal.bytes = before ++ (piecesOf callbacks ++ after)) :
    ∃ chunks : List (List UInt8), (∀ chunk ∈ chunks, chunk ∈ middle) ∧
      callbacks = chunks.map (fuaCallback nal.header true false false) := by
  induction callbacks generalizing before with
  | nil => exact ⟨[], by simp, rfl⟩
  | cons callback callbacks ih =>
      rw [piecesOf_cons, List.append_assoc] at hbytes
      rcases hcallbacks callback List.mem_cons_self with rfl | ⟨chunk, hchunk, rfl⟩
      · rw [piece_fua _ _ _ hfirst, fragmentPrefix, if_pos rfl, List.append_assoc,
          List.append_assoc] at hbytes
        exact absurd hbytes (startCode_not_in_bytes nal)
      · rw [← List.append_assoc] at hbytes
        obtain ⟨chunks, hmem, hchunks⟩ := ih
          (fun c hc => hcallbacks c (List.mem_cons_of_mem _ hc)) hbytes
        refine ⟨chunk :: chunks, List.forall_mem_cons.mpr ⟨hchunk, hmem⟩, ?_⟩
        rw [hchunks, List.map_cons]

theorem piecesOf_middle (naluHeader : UInt8) {chunks : List (List UInt8)}
    (hchunks : ∀ chunk ∈ chunks, chunk.length ≤ 1476) :
    piecesOf (chunks.map (fuaCallback naluHeader true false false)) = chunks.flatten := by
  induction chunks with
  | nil => rfl
  | cons chunk chunks ih =>
      obtain ⟨hchunk, hrest⟩ := List.forall_mem_cons.mp hchunks
      rw [List.map_cons, piecesOf_cons, piece_fua _ _ _ hchunk, ih hrest]
      rfl

/-- Only the fragments in order make up the NAL unit. -/
theorem fragments_eq (hchunks : IsChunking 1476 (first :: (middle ++ [last])))
    (hflatten : (first :: (middle ++ [last])).flatten = nal.data)
    {init : List PacketCallback} (hinit : ∀ callback ∈ init, IsFragment nal first middle callback)
    (hbytes : piecesOf (init ++ [fuaCallback nal.header true false true last]) =
      StartCode.long.bytes ++ nal.bytes) :
    init ++ [fuaCallback nal.header true false true last] =
      fuaCallbacks nal.header true true (first :: (middle ++ [last])) := by
  have hsizes := hchunks
  rw [← List.cons_append, isChunking_append_singleton_iff, List.forall_mem_cons] at hsizes
  obtain ⟨⟨hfirst, hmiddle⟩, hpos, hlast⟩ := hsizes
  rw [piecesOf_append, piecesOf_cons, piece_fua _ _ _ hlast] at hbytes
  cases init with
  | nil =>
      -- The last fragment alone is too short.
      have hlong := congrArg List.length hflatten
      have hshort := congrArg List.length hbytes
      simp [piecesOf, fragmentPrefix, NalUnit.bytes, StartCode.bytes] at hlong hshort
      omega
  | cons callback init =>
      have hrest : ∀ c ∈ init, IsFragment nal first middle c := fun c hc =>
        hinit c (List.mem_cons_of_mem callback hc)
      rcases hinit callback List.mem_cons_self with rfl | ⟨chunk, hchunk, rfl⟩
      · have hdata : nal.data = first ++ (piecesOf init ++ last) := by
          rw [piecesOf_cons, piece_fua _ _ _ hfirst.le, fragmentPrefix, if_pos rfl, NalUnit.bytes,
            List.append_assoc, List.append_assoc, List.append_assoc, List.append_cancel_left_eq,
            List.singleton_append, List.cons.injEq] at hbytes
          rw [← hbytes.2]
          simp [piecesOf, fragmentPrefix]
        obtain ⟨chunks, hmem, rfl⟩ := exists_chunks hfirst.le hrest
          (show nal.bytes = (nal.header :: first) ++ (piecesOf init ++ last) by
            rw [NalUnit.bytes, hdata, List.cons_append])
        have hlengths : ∀ chunk ∈ chunks, chunk.length = 1476 := fun chunk hchunk =>
          hmiddle chunk (hmem chunk hchunk)
        rw [piecesOf_middle _ fun chunk hchunk => (hlengths chunk hchunk).le] at hdata
        have hcut : IsChunking 1476 (first :: (chunks ++ [last])) := by
          rw [← List.cons_append, isChunking_append_singleton_iff, List.forall_mem_cons]
          exact ⟨⟨hfirst, hlengths⟩, hpos, hlast⟩
        have hsame := hcut.eq_of_flatten_eq (by decide) hchunks (by
          rw [hflatten, hdata]
          simp)
        obtain rfl : chunks = middle := List.append_cancel_right (List.cons.inj hsame).2
        rw [fuaCallbacks_fragmented, List.cons_append]
      · -- The start code at the front would be in a fragment.
        rw [piecesOf_cons, piece_fua _ _ _ (hmiddle chunk hchunk).le, fragmentPrefix,
          if_neg Bool.false_ne_true, List.nil_append, List.append_assoc] at hbytes
        rcases List.append_eq_append_iff.mp hbytes with ⟨rest, hcode, -⟩ | ⟨rest, hcode, -⟩
        · have hlen := congrArg List.length hcode
          rw [List.length_append, hmiddle chunk hchunk] at hlen
          simp [StartCode.bytes] at hlen
          omega
        · obtain ⟨before, after, hinfix⟩ := List.infix_of_mem_flatten
            (List.mem_cons_of_mem first (List.mem_append_left [last] hchunk))
          rw [hflatten, hcode] at hinfix
          have hsplit : nal.bytes =
              (nal.header :: before) ++ (StartCode.long.bytes ++ (rest ++ after)) := by
            rw [NalUnit.bytes, ← hinfix]
            simp
          exact absurd hsplit (startCode_not_in_bytes nal)

end

/-- A video frame of one NAL unit. -/
structure SentFrame where
  code : StartCode
  nal : NalUnit
  timestamp : UInt32

def SentFrame.callbacks (frame : SentFrame) : List PacketCallback :=
  (tinyrtcPacketizeFrame (fun _ => true) .h264 sendMtu
    (accessUnit [(frame.code, frame.nal)])).callbacks

/-- The packets of a stream of frames, numbered one after the other. -/
def sentPackets : (sequence : UInt16) → List SentFrame → List SentPacket
  | _, [] => []
  | sequence, frame :: frames =>
      framePackets sequence frame.timestamp frame.callbacks ++
        sentPackets (sequence + frame.callbacks.length.toUInt16) frames

/-- Every frame that is handed to the application is one that was sent. -/
def DeliversSentFrames (crypto : Crypto) (env : Nat → IncomingEnv) (pc : PeerConnection)
    (track : Nat) (base : RtpHeader) (frames : List SentFrame) (arrivals : List SentPacket) :
    Prop :=
  ∃ events, (incomingPackets crypto env 0 pc (arrivals.map (SentPacket.bytes base))).map Prod.snd =
      some events ∧
    ∀ event ∈ events.flatten, ∃ frame ∈ frames, event =
      .videoFrame track (StartCode.long.bytes ++ frame.nal.bytes) frame.timestamp

/-- Whenever packets of one frame arrive in succession up to the one with the marker,
from the first of them on, they are all that the frame has, in order. -/
def ArriveWhole (frames : List SentFrame) (arrivals : List SentPacket) : Prop :=
  ∀ timestamp before run after, arrivals = before ++ run ++ after →
    IsFinishedRun SentPacket.timestamp SentPacket.marker timestamp run →
    IsRunStart SentPacket.timestamp SentPacket.marker timestamp before →
      ∃ frame ∈ frames, frame.timestamp = timestamp ∧
        run.map SentPacket.callback = frame.callbacks

theorem SentFrame.callbacks_eq (frame : SentFrame) :
    frame.callbacks = (h264PacketizeNalu true frame.nal.bytes 1478 true).callbacks :=
  packetize_accessUnit (fun _ => rfl) (by decide) [(frame.code, frame.nal)]

/-- The packets of a frame, and of no other, carry its callbacks under its
timestamp. -/
theorem exists_frame_of_mem {sequence : UInt16} {frames : List SentFrame} {packet : SentPacket}
    (h : packet ∈ sentPackets sequence frames) :
    ∃ frame ∈ frames, packet.timestamp = frame.timestamp ∧ packet.callback ∈ frame.callbacks := by
  induction frames generalizing sequence with
  | nil => cases h
  | cons frame frames ih =>
      rcases List.mem_append.mp h with h | h
      · refine ⟨frame, List.mem_cons_self, timestamp_of_mem_framePackets h, ?_⟩
        rw [← map_callback_framePackets sequence frame.timestamp frame.callbacks]
        exact List.mem_map_of_mem h
      · obtain ⟨other, hother, hpacket⟩ := ih h
        exact ⟨other, List.mem_cons_of_mem frame hother, hpacket⟩

theorem callbacks_cases (frame : SentFrame) :
    frame.callbacks = [⟨frame.nal.bytes, true⟩] ∧ frame.nal.bytes.length ≤ 1478 ∨
      ∃ first middle last, IsChunking 1476 (first :: (middle ++ [last])) ∧
        (first :: (middle ++ [last])).flatten = frame.nal.data ∧
        frame.callbacks = fuaCallbacks frame.nal.header true true (first :: (middle ++ [last])) := by
  rw [frame.callbacks_eq]
  by_cases hfits : frame.nal.bytes.length ≤ 1478
  · exact .inl ⟨packetizeNalu_single frame.nal hfits true, hfits⟩
  · obtain ⟨first, next, rest, hchunks, hflatten, hcallbacks⟩ :=
      packetizeNalu_fragmented frame.nal (by decide) (Nat.not_le.mp hfits) true
    rcases List.eq_nil_or_concat (next :: rest) with hnil | ⟨middle, last, hsplit⟩
    · cases hnil
    · rw [List.concat_eq_append] at hsplit
      rw [hsplit] at hchunks hflatten hcallbacks
      exact .inr ⟨first, middle, last, hchunks, hflatten, hcallbacks⟩

theorem marker_fua (naluHeader : UInt8) (isStart isEnd : Bool) (chunk : List UInt8) :
    (fuaCallback naluHeader true isStart isEnd chunk).marker = isEnd :=
  Bool.true_and isEnd

/-- Only the packets of a frame in order make up its bytes. -/
theorem callbacks_eq_of_pieces (frame : SentFrame) {init : List PacketCallback}
    {final : PacketCallback}
    (hinit : ∀ callback ∈ init, callback ∈ frame.callbacks ∧ callback.marker = false)
    (hfinal : final ∈ frame.callbacks) (hmarker : final.marker = true)
    (hbytes : piecesOf (init ++ [final]) = StartCode.long.bytes ++ frame.nal.bytes) :
    init ++ [final] = frame.callbacks := by
  rcases callbacks_cases frame with
    ⟨hcallbacks, -⟩ | ⟨first, middle, last, hchunks, hflatten, hcallbacks⟩
  · rw [hcallbacks] at hinit hfinal ⊢
    have hnil : init = [] := by
      apply List.eq_nil_iff_forall_not_mem.mpr
      intro callback hcallback
      obtain ⟨hmem, hmarker⟩ := hinit callback hcallback
      rw [List.mem_singleton.mp hmem] at hmarker
      cases hmarker
    rw [hnil, List.mem_singleton.mp hfinal, List.nil_append]
  · rw [hcallbacks, fuaCallbacks_fragmented] at hinit hfinal
    have hlast : final = fuaCallback frame.nal.header true false true last := by
      rcases List.mem_cons.mp hfinal with rfl | hfinal
      · rw [marker_fua] at hmarker
        cases hmarker
      · rcases List.mem_append.mp hfinal with hfinal | hfinal
        · obtain ⟨chunk, -, rfl⟩ := List.mem_map.mp hfinal
          rw [marker_fua] at hmarker
          cases hmarker
        · exact List.mem_singleton.mp hfinal
    have hfragments : ∀ callback ∈ init, IsFragment frame.nal first middle callback := by
      intro callback hcallback
      obtain ⟨hmem, hmarker⟩ := hinit callback hcallback
      rcases List.mem_cons.mp hmem with rfl | hmem
      · exact .inl rfl
      · rcases List.mem_append.mp hmem with hmem | hmem
        · obtain ⟨chunk, hchunk, rfl⟩ := List.mem_map.mp hmem
          exact .inr ⟨chunk, hchunk, rfl⟩
        · rw [List.mem_singleton.mp hmem, marker_fua] at hmarker
          cases hmarker
    rw [hlast] at hbytes ⊢
    rw [hcallbacks]
    exact fragments_eq hchunks hflatten hfragments hbytes

/-- The depacketizer sees the end of a frame where the marker is. -/
theorem SentFrame.endsFrame_eq_marker (frame : SentFrame) {callback : PacketCallback}
    (h : callback ∈ frame.callbacks) :
    (depacketized frameBufferSize callback).1 = callback.marker := by
  rcases callbacks_cases frame with
    ⟨hcallbacks, hfits⟩ | ⟨first, middle, last, hchunks, hflatten, hcallbacks⟩
  · rw [hcallbacks] at h
    rw [List.mem_singleton.mp h, depacketized_single _ _ (by rw [frameBufferSize]; omega)]
  · have hitems : ∀ chunk ∈ first :: (middle ++ [last]), ∀ isStart isEnd,
        (depacketized frameBufferSize
          (fuaCallback frame.nal.header true isStart isEnd chunk)).1 = isEnd := by
      intro chunk hchunk isStart isEnd
      have hlen := hchunks.length_le_of_mem hchunk
      rw [depacketized_fua _ _ _ _ (by rw [frameBufferSize]; omega)]
    rw [hcallbacks, fuaCallbacks_fragmented] at h
    rcases List.mem_cons.mp h with rfl | h
    · rw [hitems first List.mem_cons_self, marker_fua]
    · rcases List.mem_append.mp h with h | h
      · obtain ⟨chunk, hchunk, rfl⟩ := List.mem_map.mp h
        rw [hitems chunk (by simp [hchunk]), marker_fua]
      · rw [List.mem_singleton.mp h, hitems last (by simp), marker_fua]

theorem sentPackets_received {sequence : UInt16} {frames : List SentFrame} {packet : SentPacket}
    (h : packet ∈ sentPackets sequence frames) :
    packet.piece ≠ [] ∧ packet.endsFrame = packet.marker := by
  obtain ⟨frame, -, -, hcallback⟩ := exists_frame_of_mem h
  refine ⟨?_, frame.endsFrame_eq_marker hcallback⟩
  rw [frame.callbacks_eq] at hcallback
  exact depacketized_nalu_ne_nil frame.nal (by decide) true (by decide) _ hcallback

theorem piecesOf_callbacks (frame : SentFrame) :
    piecesOf frame.callbacks = StartCode.long.bytes ++ frame.nal.bytes := by
  rw [piecesOf, frame.callbacks_eq]
  exact depacketized_nalu frame.nal (by decide) true (by decide)

section

variable (crypto : Crypto) {env : Nat → IncomingEnv} {pc : PeerConnection} {track : Nat}
  {base : RtpHeader} {sequence : UInt16} {frames : List SentFrame} {arrivals : List SentPacket}

/-- Whatever the network does to the packets, every frame that comes out is one that
was sent exactly when packets that arrive in succession are whole frames. -/
theorem deliversSentFrames_iff
    (henv : ∀ n, (env n).mallocOk = true ∧ (env n).reallocOk = true) (hb : Buildable base)
    (hpc : ReceivesVideo base.payloadType track pc [])
    (hframes : (frames.map SentFrame.timestamp).Nodup)
    (harrivals : ∀ packet ∈ arrivals, packet ∈ sentPackets sequence frames) :
    DeliversSentFrames crypto env pc track base frames arrivals ↔
      ArriveWhole frames arrivals := by
  have hevents := incomingPackets_collects crypto henv hb
    (fun packet hpacket => sentPackets_received (harrivals packet hpacket)) 0 hpc
  rw [DeliversSentFrames, hevents]
  constructor
  · rintro ⟨events, hsome, hsent⟩ timestamp before run after hsplit hrun hstart
    cases hsome
    have hmem := (mem_collectAll_iff arrivals run).mpr
      ⟨timestamp, before, after, hsplit, hrun, hstart⟩
    obtain ⟨frame, hframe, hevent⟩ := hsent (frameEvent track run)
      (List.mem_flatten.mpr ⟨[frameEvent track run], List.mem_map.mpr ⟨_, hmem, rfl⟩, by simp⟩)
    rw [frameEvent_eq track hrun.ne_nil hrun.label_eq, PcEvent.videoFrame.injEq] at hevent
    obtain ⟨-, hbytes, htimestamp⟩ := hevent
    have hcallback : ∀ packet ∈ run, packet.callback ∈ frame.callbacks := by
      intro packet hpacket
      have harrival : packet ∈ arrivals := by
        rw [hsplit]
        simp [hpacket]
      obtain ⟨other, hother, hsame, hcallback⟩ := exists_frame_of_mem (harrivals packet harrival)
      rw [hrun.label_eq packet hpacket, htimestamp] at hsame
      rw [List.inj_on_of_nodup_map hframes hframe hother hsame]
      exact hcallback
    refine ⟨frame, hframe, htimestamp.symm, ?_⟩
    obtain ⟨init, final, rfl, hinit, -, hfinal⟩ := hrun
    rw [List.map_append, List.map_singleton] at hbytes ⊢
    refine callbacks_eq_of_pieces frame ?_ (hcallback final (by simp)) hfinal hbytes
    intro callback hmem
    obtain ⟨packet, hpacket, rfl⟩ := List.mem_map.mp hmem
    exact ⟨hcallback packet (by simp [hpacket]), (hinit packet hpacket).2⟩
  · intro hwhole
    refine ⟨_, rfl, ?_⟩
    intro event hevent
    obtain ⟨events, hevents, hevent⟩ := List.mem_flatten.mp hevent
    obtain ⟨out, hout, rfl⟩ := List.mem_map.mp hevents
    obtain ⟨run, rfl, rfl⟩ := Option.map_eq_some_iff.mp (Option.mem_toList.mp hevent)
    obtain ⟨timestamp, before, after, hsplit, hrun, hstart⟩ :=
      (mem_collectAll_iff arrivals run).mp hout
    obtain ⟨frame, hframe, htimestamp, hcallbacks⟩ :=
      hwhole timestamp before run after hsplit hrun hstart
    refine ⟨frame, hframe, ?_⟩
    rw [frameEvent_eq track hrun.ne_nil hrun.label_eq, hcallbacks, ← htimestamp]
    exact congrArg (fun bytes => PcEvent.videoFrame track bytes frame.timestamp)
      (piecesOf_callbacks frame)

end

/-- It is enough to look at the runs that the arrivals complete. -/
theorem arriveWhole_of_collectAll {frames : List SentFrame} {arrivals : List SentPacket}
    (h : ∀ out ∈ collectAll SentPacket.timestamp SentPacket.marker [] arrivals, ∀ run ∈ out,
      ∃ frame ∈ frames, (∀ packet ∈ run, packet.timestamp = frame.timestamp) ∧
        run.map SentPacket.callback = frame.callbacks) :
    ArriveWhole frames arrivals := by
  intro timestamp before run after hsplit hrun hstart
  have hmem := (mem_collectAll_iff arrivals run).mpr ⟨timestamp, before, after, hsplit, hrun, hstart⟩
  obtain ⟨frame, hframe, hsame, hcallbacks⟩ := h _ hmem run rfl
  obtain ⟨packet, hpacket⟩ := List.exists_mem_of_ne_nil run hrun.ne_nil
  exact ⟨frame, hframe, (hsame packet hpacket).symm.trans (hrun.label_eq packet hpacket), hcallbacks⟩

def sampleFrame : SentFrame :=
  ⟨.long, sliceOfLength 1478, 9000⟩

/-- Two fragments and two small frames. -/
def sampleFrames : List SentFrame :=
  [sampleFrame, ⟨.short, slice, 12000⟩, ⟨.long, parameterSet, 15000⟩]

/-- The second frame overtakes the first one and comes again, and the third one is lost. -/
theorem deliversSentFrames_sampleReceiver :
    DeliversSentFrames toyCrypto (fun _ => ⟨1, true, true⟩) sampleReceiver 0 sampleHeader
      sampleFrames
      (((sentPackets 0 sampleFrames).drop 2).take 1 ++ (sentPackets 0 sampleFrames).take 3) := by
  have harrivals : ∀ packet ∈ ((sentPackets 0 sampleFrames).drop 2).take 1 ++
      (sentPackets 0 sampleFrames).take 3, packet ∈ sentPackets 0 sampleFrames := by
    intro packet hmem
    rcases List.mem_append.mp hmem with hmem | hmem
    · exact List.mem_of_mem_drop (List.mem_of_mem_take hmem)
    · exact List.mem_of_mem_take hmem
  exact (deliversSentFrames_iff toyCrypto (fun _ => ⟨rfl, rfl⟩) sampleHeader_buildable
    sampleReceiver_receivesVideo (by decide) harrivals).mpr
      (arriveWhole_of_collectAll (by decide +kernel))

/-- Without its first fragment, the frame comes out as what is left. -/
theorem deliversSentFrames_fails :
    ¬ DeliversSentFrames toyCrypto (fun _ => ⟨1, true, true⟩) sampleReceiver 0 sampleHeader
      [sampleFrame] ((sentPackets 0 [sampleFrame]).drop 1) := by
  have hpackets : ((sentPackets 0 [sampleFrame]).drop 1).map (SentPacket.bytes sampleHeader) =
      [[0x80, 0xE4, 0, 1, 0, 0, 0x23, 0x28, 0, 0, 0, 0, 0x7C, 0x45, 0xFF, 0xFF]] := by
    decide +kernel
  rw [DeliversSentFrames, hpackets]
  rintro ⟨events, hevents, hsent⟩
  have hdelivered : some [[PcEvent.videoFrame 0 [0xFF, 0xFF] 9000]] = some events := hevents
  cases hdelivered
  obtain ⟨frame, hframe, hevent⟩ := hsent (.videoFrame 0 [0xFF, 0xFF] 9000) (by simp)
  rw [List.mem_singleton.mp hframe, PcEvent.videoFrame.injEq] at hevent
  exact absurd hevent.2.1 (by decide +kernel)

end TinyRtc.LossyDelivery
