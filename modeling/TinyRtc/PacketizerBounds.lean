import TinyRtc.DelimitedNalus
import TinyRtc.GenericChunks
import TinyRtc.SendSteps

namespace TinyRtc.PacketizerBounds

open TinyRtc.Chunking
open TinyRtc.Connection
open TinyRtc.DelimitedNalus
open TinyRtc.FrameNalus
open TinyRtc.FuaFragments
open TinyRtc.FueledLoops
open TinyRtc.GenericChunks
open TinyRtc.MediaCodec
open TinyRtc.MediaSend
open TinyRtc.Packetization
open TinyRtc.SendSteps
open TinyRtc.Srtp

/-- The payload of a packet is neither empty nor too long, and every packet is counted. -/
structure Bounded (maxPayload : Nat) (packetized : Packetized) : Prop where
  length_pos : ∀ callback ∈ packetized.callbacks, 0 < callback.payload.length
  length_le : ∀ callback ∈ packetized.callbacks, callback.payload.length ≤ maxPayload
  packets_eq : packetized.packets = packetized.callbacks.length

theorem Bounded.none {maxPayload : Nat} : Bounded maxPayload .none :=
  ⟨fun _ hmem => absurd hmem List.not_mem_nil, fun _ hmem => absurd hmem List.not_mem_nil, rfl⟩

theorem Bounded.append {maxPayload : Nat} {first second : Packetized}
    (hfirst : Bounded maxPayload first) (hsecond : Bounded maxPayload second) :
    Bounded maxPayload (first.append second) := by
  refine ⟨?_, ?_, ?_⟩
  · intro callback hmem
    rcases List.mem_append.mp hmem with hmem | hmem
    · exact hfirst.length_pos callback hmem
    · exact hsecond.length_pos callback hmem
  · intro callback hmem
    rcases List.mem_append.mp hmem with hmem | hmem
    · exact hfirst.length_le callback hmem
    · exact hsecond.length_le callback hmem
  · rw [Packetized.append, List.length_append, hfirst.packets_eq, hsecond.packets_eq]

theorem Bounded.singleton {maxPayload : Nat} {callback : PacketCallback}
    (hpos : 0 < callback.payload.length) (hle : callback.payload.length ≤ maxPayload) :
    Bounded maxPayload ⟨[callback], 1⟩ := by
  refine ⟨?_, ?_, rfl⟩
  · intro callback' hmem
    rw [List.mem_singleton.mp hmem]
    exact hpos
  · intro callback' hmem
    rw [List.mem_singleton.mp hmem]
    exact hle

theorem fuaLoop_bounded {fragmentPayload : Nat} (naluHeader : UInt8) (isLastNalu : Bool)
    (fuel : Nat) (isStart : Bool) (remaining : List UInt8) :
    Bounded (fragmentPayload + 2)
      (fuaLoop fragmentPayload naluHeader isLastNalu fuel isStart remaining) := by
  induction fuel generalizing isStart remaining with
  | zero => exact .none
  | succ fuel ih =>
      rw [fuaLoop]
      split_ifs
      · exact .none
      · refine Bounded.append (.singleton ?_ ?_) (ih _ _)
        · exact Nat.succ_pos _
        · simp only [List.length_cons, List.length_take]
          omega

theorem h264PacketizeNalu_bounded (mallocOk : Bool) (nalu : List UInt8) (maxPayload : Nat)
    (isLastNalu : Bool) :
    Bounded maxPayload (h264PacketizeNalu mallocOk nalu maxPayload isLastNalu) := by
  cases nalu with
  | nil => exact .none
  | cons naluHeader naluData =>
      rw [h264PacketizeNalu]
      split_ifs with hfits hsmall
      · exact .singleton (Nat.succ_pos _) hfits
      · exact .none
      · exact .none
      · have hmax : maxPayload - 2 + 2 = maxPayload := by omega
        exact hmax ▸ fuaLoop_bounded naluHeader isLastNalu _ true naluData

theorem h264Loop_bounded (malloc : Nat → Bool) (maxPayload fuel offset : Nat)
    (rest : List UInt8) : Bounded maxPayload (h264Loop malloc maxPayload fuel offset rest) := by
  induction fuel generalizing offset rest with
  | zero => exact .none
  | succ fuel ih =>
      rw [h264Loop]
      dsimp only
      split_ifs
      · exact .none
      · exact ih _ _
      · exact h264PacketizeNalu_bounded _ _ _ _
      · exact (h264PacketizeNalu_bounded _ _ _ _).append (ih _ _)

theorem genericLoop_bounded (maxPayload : Nat) (hmax : 0 < maxPayload) (fuel : Nat)
    (rest : List UInt8) : Bounded maxPayload (genericLoop maxPayload fuel rest) := by
  induction fuel generalizing rest with
  | zero => exact .none
  | succ fuel ih =>
      rw [genericLoop]
      dsimp only
      split_ifs with hnil
      · exact .none
      · refine Bounded.append (.singleton ?_ ?_) (ih _)
        · rw [List.length_take]
          omega
        · rw [List.length_take]
          omega
      · refine Bounded.append (.singleton ?_ ?_) (ih _)
        · rw [List.length_take]
          omega
        · rw [List.length_take]
          omega

theorem packetizeFrame_bounded (malloc : Nat → Bool) (codecId : CodecId) {mtu : UInt32}
    (hmtu : 20 ≤ mtu) (frame : List UInt8) :
    Bounded (mtu.toNat - 12) (tinyrtcPacketizeFrame malloc codecId mtu frame) := by
  have hmtu' : 20 ≤ mtu.toNat := UInt32.le_iff_toNat_le.mp hmtu
  have hgeneric := genericLoop_bounded (mtu.toNat - 12) (by omega) frame.length frame
  rw [tinyrtcPacketizeFrame, if_neg (UInt32.not_lt.mpr hmtu)]
  cases codecId with
  | h264 =>
      dsimp only
      split_ifs
      · exact h264Loop_bounded _ _ _ _ _
      · exact h264PacketizeNalu_bounded _ _ _ _
  | _ => exact hgeneric

def isFuA (callback : PacketCallback) : Bool :=
  callback.payload.getD 0 0 &&& 0x1F == 28

def startBit (callback : PacketCallback) : Bool :=
  callback.payload.getD 1 0 &&& 0x80 != 0

def endBit (callback : PacketCallback) : Bool :=
  callback.payload.getD 1 0 &&& 0x40 != 0

/-- The packets are the FU-A fragments of a NAL unit. -/
structure IsFragmented (nalu : List UInt8) (callbacks : List PacketCallback) : Prop where
  two_le : 2 ≤ callbacks.length
  isFuA : ∀ callback ∈ callbacks, isFuA callback = true
  startBits : callbacks.map startBit = true :: List.replicate (callbacks.length - 1) false
  endBits : callbacks.map endBit = List.replicate (callbacks.length - 1) false ++ [true]
  data_eq : callbacks.flatMap (fun callback => callback.payload.drop 2) = nalu.tail

theorem fuaCallback_fields (naluHeader : UInt8) (isLastNalu isStart isEnd : Bool)
    (chunk : List UInt8) :
    isFuA (fuaCallback naluHeader isLastNalu isStart isEnd chunk) = true ∧
      startBit (fuaCallback naluHeader isLastNalu isStart isEnd chunk) = isStart ∧
      endBit (fuaCallback naluHeader isLastNalu isStart isEnd chunk) = isEnd := by
  obtain ⟨hstart, hend, -⟩ := fuHeader_fields naluHeader isStart isEnd
  exact ⟨beq_iff_eq.mpr (fuIndicator_type naluHeader), hstart, hend⟩

theorem fuaCallbacks_length (naluHeader : UInt8) (isLastNalu isStart : Bool)
    (chunks : List (List UInt8)) :
    (fuaCallbacks naluHeader isLastNalu isStart chunks).length = chunks.length := by
  match chunks with
  | [] => rfl
  | [last] => rfl
  | chunk :: next :: rest =>
      rw [fuaCallbacks, List.length_cons, fuaCallbacks_length _ _ _ (next :: rest),
        List.length_cons (a := chunk)]

theorem fuaCallbacks_isFuA (naluHeader : UInt8) (isLastNalu isStart : Bool)
    (chunks : List (List UInt8)) :
    ∀ callback ∈ fuaCallbacks naluHeader isLastNalu isStart chunks, isFuA callback = true := by
  match chunks with
  | [] => exact fun _ hmem => absurd hmem List.not_mem_nil
  | [last] =>
      rw [fuaCallbacks, List.forall_mem_singleton]
      exact (fuaCallback_fields ..).1
  | chunk :: next :: rest =>
      rw [fuaCallbacks, List.forall_mem_cons]
      exact ⟨(fuaCallback_fields ..).1, fuaCallbacks_isFuA _ _ _ (next :: rest)⟩

theorem fuaCallbacks_startBits (naluHeader : UInt8) (isLastNalu isStart : Bool)
    {chunks : List (List UInt8)} (hne : chunks ≠ []) :
    (fuaCallbacks naluHeader isLastNalu isStart chunks).map startBit =
      isStart :: List.replicate (chunks.length - 1) false := by
  match chunks with
  | [] => exact absurd rfl hne
  | [last] =>
      rw [fuaCallbacks, List.map_singleton, (fuaCallback_fields ..).2.1]
      rfl
  | chunk :: next :: rest =>
      rw [fuaCallbacks, List.map_cons, (fuaCallback_fields ..).2.1,
        fuaCallbacks_startBits _ _ _ (List.cons_ne_nil next rest)]
      rfl

theorem fuaCallbacks_endBits (naluHeader : UInt8) (isLastNalu isStart : Bool)
    {chunks : List (List UInt8)} (hne : chunks ≠ []) :
    (fuaCallbacks naluHeader isLastNalu isStart chunks).map endBit =
      List.replicate (chunks.length - 1) false ++ [true] := by
  match chunks with
  | [] => exact absurd rfl hne
  | [last] =>
      rw [fuaCallbacks, List.map_singleton, (fuaCallback_fields ..).2.2]
      rfl
  | chunk :: next :: rest =>
      rw [fuaCallbacks, List.map_cons, (fuaCallback_fields ..).2.2,
        fuaCallbacks_endBits _ _ _ (List.cons_ne_nil next rest)]
      rfl

theorem fuaCallbacks_data (naluHeader : UInt8) (isLastNalu isStart : Bool)
    (chunks : List (List UInt8)) :
    (fuaCallbacks naluHeader isLastNalu isStart chunks).flatMap
      (fun callback => callback.payload.drop 2) = chunks.flatten := by
  match chunks with
  | [] => rfl
  | [last] => simp [fuaCallbacks, fuaCallback]
  | chunk :: next :: rest =>
      rw [fuaCallbacks, List.flatMap_cons, fuaCallbacks_data _ _ _ (next :: rest)]
      rfl

/-- A NAL unit that does not fit is fragmented. -/
theorem packetizeNalu_isFragmented {malloc : Nat → Bool} {maxPayload : Nat} (hmax : 2 < maxPayload)
    {nalu : Nalu} (hlong : maxPayload < nalu.bytes.length) (hmalloc : malloc nalu.offset = true) :
    IsFragmented nalu.bytes (packetizeNalu malloc maxPayload nalu).callbacks := by
  obtain ⟨offset, bytes, reachesEnd⟩ := nalu
  obtain ⟨header, data, hbytes⟩ := List.exists_cons_of_ne_nil
    (List.ne_nil_of_length_pos (Nat.zero_lt_of_lt hlong))
  dsimp only at hbytes hmalloc
  subst hbytes
  obtain ⟨chunk, next, rest, -, hflatten, hcallbacks⟩ :=
    h264PacketizeNalu_fragmented header data hmax hlong reachesEnd
  have hlength := fuaCallbacks_length header reachesEnd true (chunk :: next :: rest)
  rw [packetizeNalu, hmalloc, hcallbacks]
  refine ⟨?_, fuaCallbacks_isFuA _ _ _ _, ?_, ?_, ?_⟩
  · rw [hlength]
    exact Nat.le_add_left 2 _
  · rw [hlength]
    exact fuaCallbacks_startBits _ _ _ (List.cons_ne_nil _ _)
  · rw [hlength]
    exact fuaCallbacks_endBits _ _ _ (List.cons_ne_nil _ _)
  · rw [fuaCallbacks_data, hflatten]
    rfl

theorem fuaLoop_usesUp {fragmentPayload : Nat} (hpos : 0 < fragmentPayload) (naluHeader : UInt8)
    (isLastNalu : Bool) :
    UsesUp (fun s : Bool × List UInt8 => s.2.length)
      fun fuel s => fuaLoop fragmentPayload naluHeader isLastNalu fuel s.1 s.2 where
  ended fuel s hnil := by
    cases fuel with
    | zero => rfl
    | succ fuel => rw [fuaLoop, fuaLoop, if_pos hnil]
  turn fuel fuel' s hne hagree := by
    rw [fuaLoop, fuaLoop]
    dsimp only
    rw [hagree (_, _) (by dsimp only; rw [List.length_drop]; omega)]

/-- The loops of the packetizer end within as many turns as there are bytes left: more
fuel changes nothing. -/
structure LoopsTerminate (malloc : Nat → Bool) (maxPayload : Nat) : Prop where
  naluLoop : ∀ fuel offset rest, rest.length ≤ fuel →
    h264Loop malloc maxPayload fuel offset rest = h264Loop malloc maxPayload rest.length offset rest
  fragmentLoop : ∀ naluHeader isLastNalu isStart fuel remaining, remaining.length ≤ fuel →
    fuaLoop (maxPayload - 2) naluHeader isLastNalu fuel isStart remaining =
      fuaLoop (maxPayload - 2) naluHeader isLastNalu remaining.length isStart remaining
  chunkLoop : ∀ fuel rest, rest.length ≤ fuel →
    genericLoop maxPayload fuel rest = genericLoop maxPayload rest.length rest

theorem loopsTerminate (malloc : Nat → Bool) {maxPayload : Nat} (hmax : 2 < maxPayload) :
    LoopsTerminate malloc maxPayload :=
  ⟨fun _ offset rest hfuel =>
      (h264Loop_usesUp malloc maxPayload).eq_of_le (offset, rest) hfuel le_rfl,
    fun naluHeader isLastNalu isStart _ remaining hfuel =>
      (fuaLoop_usesUp (by omega) naluHeader isLastNalu).eq_of_le (isStart, remaining) hfuel le_rfl,
    fun _ rest hfuel => (genericLoop_usesUp (by omega)).eq_of_le rest hfuel le_rfl⟩

/-- Header, payload and tag fit into the buffer of `packetize_send_callback`, so that
`srtp_encrypt_packet` succeeds. -/
structure FitsBuffer (callback : PacketCallback) : Prop where
  length_le : ∀ track timestamp sequence,
    (plainPacket track timestamp sequence callback).length = headerLen + callback.payload.length ∧
      (plainPacket track timestamp sequence callback).length + srtpAuthTagLen ≤ rtpBufferSize
  encrypts : ∀ crypto srtp track timestamp sequence, ∃ packet srtp',
    Encrypts crypto srtp (plainPacket track timestamp sequence callback) packet srtp'

theorem fitsBuffer_of_length {callback : PacketCallback}
    (h : headerLen + callback.payload.length + srtpAuthTagLen ≤ rtpBufferSize) :
    FitsBuffer callback := by
  have hlength : ∀ track timestamp sequence,
      (plainPacket track timestamp sequence callback).length =
        headerLen + callback.payload.length := by
    intro track timestamp sequence
    rw [plainPacket, List.length_append, sentHeader_length]
  refine ⟨fun track timestamp sequence => ⟨hlength .., by rw [hlength]; exact h⟩, ?_⟩
  intro crypto srtp track timestamp sequence
  obtain ⟨result, hresult, hok, -⟩ := @srtpEncryptPacket_of_fits crypto srtp
    (plainPacket track timestamp sequence callback ++
      List.replicate (rtpBufferSize - (plainPacket track timestamp sequence callback).length) 0x00)
    (plainPacket track timestamp sequence callback).length rtpBufferSize
    (by rw [hlength]; exact Nat.le_add_right _ _) (by rw [hlength]; exact h)
  exact ⟨_, _, result, hresult, hok, rfl, rfl⟩

/-- With the packet size of the functions that send a frame. -/
theorem sendMtu_fitsBuffer (malloc : Nat → Bool) (codecId : CodecId) (frame : List UInt8) :
    ∀ callback ∈ (tinyrtcPacketizeFrame malloc codecId sendMtu frame).callbacks,
      FitsBuffer callback := by
  intro callback hmem
  have hle := (@packetizeFrame_bounded malloc codecId sendMtu (by decide) frame).length_le
    callback hmem
  have hmtu : sendMtu.toNat - 12 = 1478 := rfl
  apply fitsBuffer_of_length
  rw [headerLen, srtpAuthTagLen, rtpBufferSize]
  omega

section

variable {crypto : Crypto} {pc : PeerConnection} {track : Track} {timestamp : UInt32}

theorem packetizeSendCallback_isSome {callback : PacketCallback} (h : FitsBuffer callback)
    (sent : Bool) (s : SendState) :
    (packetizeSendCallback crypto pc track timestamp sent s callback).isSome = true := by
  rw [packetizeSendCallback]
  dsimp only
  by_cases hready : (!pcIsSecureMediaReady pc) = true
  · rw [if_pos hready]
    rfl
  · rw [if_neg hready, Option.isSome_map]
    cases s.srtp with
    | none => rfl
    | some srtp =>
        obtain ⟨packet, srtp', result, hresult, -⟩ :=
          h.encrypts crypto srtp track timestamp s.sequence
        rw [plainPacket] at hresult
        dsimp only
        rw [hresult]
        rfl

theorem sendCallbacks_isSome {callbacks : List PacketCallback}
    (h : ∀ callback ∈ callbacks, FitsBuffer callback) (sent : Nat → Bool) (i : Nat)
    (s : SendState) :
    (sendCallbacks crypto pc track timestamp sent i callbacks s).isSome = true := by
  induction callbacks generalizing i s with
  | nil => rfl
  | cons callback callbacks ih =>
      rw [List.forall_mem_cons] at h
      obtain ⟨s', hs'⟩ := Option.isSome_iff_exists.mp
        (@packetizeSendCallback_isSome crypto pc track timestamp
          _ h.1 (sent i) s)
      rw [sendCallbacks, hs', Option.bind_some]
      exact ih h.2 (i + 1) s'

/-- A frame of any size can be sent on any track. -/
theorem trackSendFrame_isSome (env : SendEnv) (place : Nat) (frame : List UInt8) :
    (trackSendFrame crypto env pc place frame timestamp).isSome = true := by
  rw [trackSendFrame]
  cases pc.localTracks.items[place]? with
  | none => rfl
  | some sender =>
      dsimp only
      split_ifs
      · rfl
      · rfl
      · rw [Option.isSome_map]
        exact sendCallbacks_isSome (sendMtu_fitsBuffer env.malloc sender.codecId frame) _ _ _

end

/-- The packets a NAL unit goes out in: it fits into one, it is fragmented, or the buffer for
its fragments cannot be allocated and there are none. -/
inductive SentAs (malloc : Nat → Bool) (maxPayload : Nat) (nalu : Nalu) :
    List PacketCallback → Prop
  | whole : nalu.bytes.length ≤ maxPayload → SentAs malloc maxPayload nalu
      [⟨nalu.bytes, nalu.reachesEnd⟩]
  | fragmented {callbacks : List PacketCallback} : maxPayload < nalu.bytes.length →
      malloc nalu.offset = true → IsFragmented nalu.bytes callbacks →
      SentAs malloc maxPayload nalu callbacks
  | unsent : maxPayload < nalu.bytes.length → malloc nalu.offset = false →
      SentAs malloc maxPayload nalu []

theorem packetizeNalu_sentAs (malloc : Nat → Bool) {maxPayload : Nat} (hmax : 2 < maxPayload)
    {nalu : Nalu} (hne : nalu.bytes ≠ []) :
    SentAs malloc maxPayload nalu (packetizeNalu malloc maxPayload nalu).callbacks := by
  rcases Nat.lt_or_ge maxPayload nalu.bytes.length with hlong | hshort
  · cases hmalloc : malloc nalu.offset with
    | true => exact .fragmented hlong hmalloc (packetizeNalu_isFragmented hmax hlong hmalloc)
    | false =>
        have hunsent : ¬ Sent malloc maxPayload nalu := by
          rintro (hfits | hok)
          · exact Nat.not_le_of_lt hlong hfits
          · exact Bool.false_ne_true (hmalloc.symm.trans hok)
        rw [packetizeNalu_unsent hunsent]
        exact .unsent hlong hmalloc
  · obtain ⟨header, data, hbytes⟩ := List.exists_cons_of_ne_nil hne
    have hwhole : (packetizeNalu malloc maxPayload nalu).callbacks =
        [⟨nalu.bytes, nalu.reachesEnd⟩] := by
      rw [packetizeNalu, hbytes, h264PacketizeNalu, if_pos (by rwa [← hbytes])]
    rw [hwhole]
    exact .whole hshort

/-- The packets of a frame are those of the NAL units its start codes delimit, each once and
in their order. -/
def SendsNalus (malloc : Nat → Bool) (maxPayload : Nat) (frame : List UInt8)
    (callbacks : List PacketCallback) : Prop :=
  ∃ parts : List (Nalu × List PacketCallback),
    (∀ nalu, nalu ∈ parts.map Prod.fst ↔ DelimitedNalu frame nalu) ∧
      (parts.map Prod.fst).Pairwise (fun first second => first.offset < second.offset) ∧
      (∀ part ∈ parts, SentAs malloc maxPayload part.1 part.2) ∧
      callbacks = parts.flatMap Prod.snd

theorem packetizeFrame_sendsNalus (malloc : Nat → Bool) {mtu : UInt32} (hmtu : 20 ≤ mtu)
    (frame : List UInt8) :
    SendsNalus malloc (mtu.toNat - 12) frame
      (tinyrtcPacketizeFrame malloc .h264 mtu frame).callbacks := by
  have hmtu' : 20 ≤ mtu.toNat := UInt32.le_iff_toNat_le.mp hmtu
  have hfst : ((frameNalus frame).map fun nalu =>
      (nalu, (packetizeNalu malloc (mtu.toNat - 12) nalu).callbacks)).map Prod.fst =
        frameNalus frame := by
    rw [List.map_map]
    exact List.map_id _
  refine ⟨(frameNalus frame).map fun nalu =>
    (nalu, (packetizeNalu malloc (mtu.toNat - 12) nalu).callbacks), ?_, ?_, ?_, ?_⟩
  · rw [hfst]
    exact mem_frameNalus_iff frame
  · rw [hfst]
    exact frameNalus_pairwise frame
  · rw [List.forall_mem_map]
    exact fun nalu hmem => packetizeNalu_sentAs malloc (by omega)
      (frameNalus_bytes_ne_nil frame nalu hmem)
  · rw [List.flatMap_map]
    exact (packetize_eq_nalus malloc hmtu frame).1

/-- What the packetizer guarantees for one frame. -/
structure KeepsBounds (malloc : Nat → Bool) (codecId : CodecId) (mtu : UInt32)
    (frame : List UInt8) : Prop where
  terminates : LoopsTerminate malloc (mtu.toNat - 12)
  bounded : Bounded (mtu.toNat - 12) (tinyrtcPacketizeFrame malloc codecId mtu frame)
  generic : codecId ≠ .h264 →
    (tinyrtcPacketizeFrame malloc codecId mtu frame).callbacks.flatMap
      PacketCallback.payload = frame
  nalus : codecId = .h264 → SendsNalus malloc (mtu.toNat - 12) frame
    (tinyrtcPacketizeFrame malloc codecId mtu frame).callbacks
  fits : mtu = sendMtu → ∀ callback ∈ (tinyrtcPacketizeFrame malloc codecId mtu frame).callbacks,
    FitsBuffer callback

theorem packetizeFrame_keepsBounds (malloc : Nat → Bool) (codecId : CodecId) {mtu : UInt32}
    (hmtu : 20 ≤ mtu) (frame : List UInt8) : KeepsBounds malloc codecId mtu frame := by
  have hmtu' : 20 ≤ mtu.toNat := UInt32.le_iff_toNat_le.mp hmtu
  refine ⟨loopsTerminate malloc (by omega), packetizeFrame_bounded malloc codecId hmtu frame,
    ?_, ?_, ?_⟩
  · intro hcodec
    obtain ⟨chunks, -, hflatten, hpacketized⟩ := packetize_generic malloc hcodec hmtu frame
    rw [hpacketized, ← hflatten, List.flatMap_def, chunkCallbacks_payloads]
  · rintro rfl
    exact packetizeFrame_sendsNalus malloc hmtu frame
  · rintro rfl
    exact sendMtu_fitsBuffer malloc codecId frame

/-- A parameter set, and behind it a slice that goes out in fragments. -/
theorem sendMtu_keepsBounds :
    (20 : UInt32) ≤ sendMtu ∧ KeepsBounds (fun _ => true) .h264 sendMtu
      ([0x00, 0x00, 0x00, 0x01, 0x67, 0x42] ++ [0x00, 0x00, 0x01] ++ List.replicate 2000 0x65) :=
  ⟨by decide, packetizeFrame_keepsBounds _ _ (by decide) _⟩

end TinyRtc.PacketizerBounds
