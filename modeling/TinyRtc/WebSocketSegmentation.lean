import TinyRtc.WebSocket

namespace TinyRtc.WebSocketSegmentation

open TinyRtc.BigEndian
open TinyRtc.Common
open TinyRtc.PolledStream
open TinyRtc.Signaling
open TinyRtc.WebSocket

/-- A frame of the server that fits in `recv_buf`. A server does not mask its frames, but
the source takes a masked one too. -/
structure ServerFrame where
  fin : Bool
  opcode : Fin 16
  mask : Option (Bytes 4)
  payload : List UInt8
  payload_le : payload.length ≤ sigMaxRecvBuf

def ServerFrame.opcodeByte (frame : ServerFrame) : UInt8 :=
  frame.opcode.val.toUInt8

def ServerFrame.lengthBits (frame : ServerFrame) : UInt8 :=
  if frame.payload.length ≤ 125 then frame.payload.length.toUInt8 else 126

def ServerFrame.header (frame : ServerFrame) : List UInt8 :=
  [(if frame.fin then 0x80 else 0x00) ||| frame.opcodeByte,
    (if frame.mask.isSome then 0x80 else 0x00) ||| frame.lengthBits]

def ServerFrame.extendedLength (frame : ServerFrame) : List UInt8 :=
  if frame.payload.length ≤ 125 then [] else write16 frame.payload.length.toUInt16

def ServerFrame.maskKey (frame : ServerFrame) : List UInt8 :=
  match frame.mask with
  | none => []
  | some mask => List.ofFn mask

def ServerFrame.sentPayload (frame : ServerFrame) : List UInt8 :=
  match frame.mask with
  | none => frame.payload
  | some mask => wsMask mask frame.payload

/-- The bytes of a frame, its length in the shortest form. -/
def ServerFrame.encode (frame : ServerFrame) : List UInt8 :=
  frame.header ++ frame.extendedLength ++ frame.maskKey ++ frame.sentPayload

theorem opcode_of_header (fin : Bool) (opcode : Fin 16) :
    (((if fin then 0x80 else 0x00) ||| opcode.val.toUInt8 : UInt8) &&& 0x80 != 0) = fin ∧
      ((if fin then 0x80 else 0x00) ||| opcode.val.toUInt8 : UInt8) &&& 0x0F =
        opcode.val.toUInt8 := by
  revert fin opcode
  decide

theorem length_of_header (masked : Bool) (length : Fin 128) :
    (((if masked then 0x80 else 0x00) ||| length.val.toUInt8 : UInt8) &&& 0x80 != 0) = masked ∧
      ((if masked then 0x80 else 0x00) ||| length.val.toUInt8 : UInt8) &&& 0x7F =
        length.val.toUInt8 := by
  revert masked length
  decide

theorem lengthBits_eq (frame : ServerFrame) :
    ∃ length : Fin 128, frame.lengthBits = length.val.toUInt8 := by
  rw [ServerFrame.lengthBits]
  split
  · exact ⟨⟨frame.payload.length, by omega⟩, rfl⟩
  · exact ⟨126, rfl⟩

theorem wsMask_wsMask (mask : Bytes 4) (data : List UInt8) :
    wsMask mask (wsMask mask data) = data := by
  rw [wsMask, wsMask, List.mapIdx_mapIdx]
  apply List.ext_getElem?
  intro i
  rw [List.getElem?_mapIdx]
  cases data[i]? with
  | none => rfl
  | some byte =>
      rw [Option.map_some, Function.comp_apply, UInt8.xor_assoc, UInt8.xor_self, UInt8.xor_zero]

theorem extendedLength_length (frame : ServerFrame) :
    frame.extendedLength.length = wsBytesNeeded frame.lengthBits := by
  rw [ServerFrame.extendedLength, ServerFrame.lengthBits]
  split
  · next hshort =>
    have hbits : ∀ n : Fin 126, wsBytesNeeded n.val.toUInt8 = 0 := by decide
    exact (hbits ⟨frame.payload.length, by omega⟩).symm
  · rfl

theorem wsPayloadLength_eq (frame : ServerFrame) :
    wsPayloadLength frame.lengthBits frame.extendedLength = frame.payload.length := by
  have hle := frame.payload_le
  rw [wsPayloadLength, ← extendedLength_length, ServerFrame.extendedLength, ServerFrame.lengthBits]
  by_cases hshort : frame.payload.length ≤ 125
  · have hnone : ¬ ([] : List UInt8).length > 0 := Nat.lt_irrefl 0
    rw [if_pos hshort, if_pos hshort, if_neg hnone]
    change frame.payload.length % 256 = _
    omega
  · have hextended : (write16 frame.payload.length.toUInt16).length > 0 := Nat.zero_lt_two
    rw [if_neg hshort, if_pos hextended]
    generalize hword : frame.payload.length.toUInt16 = word
    change (0 * 256 + (word >>> 8).toUInt8.toNat) * 256 + word.toUInt8.toNat = _
    rw [Nat.zero_mul, Nat.zero_add, ← toNat_read16, read16_write16, ← hword]
    change frame.payload.length % 65536 = _
    rw [sigMaxRecvBuf] at hle
    omega

theorem maskKey_length (frame : ServerFrame) :
    frame.maskKey.length = if frame.mask.isSome then 4 else 0 := by
  rw [ServerFrame.maskKey]
  cases frame.mask with
  | none => rfl
  | some mask => exact List.length_ofFn

theorem sentPayload_length (frame : ServerFrame) :
    frame.sentPayload.length = frame.payload.length := by
  rw [ServerFrame.sentPayload]
  cases frame.mask with
  | none => rfl
  | some mask => exact List.length_mapIdx

theorem wsUnmask_sentPayload (frame : ServerFrame) :
    wsUnmask frame.mask.isSome frame.maskKey frame.sentPayload = frame.payload := by
  rw [wsUnmask, ServerFrame.maskKey, ServerFrame.sentPayload]
  cases frame.mask with
  | none => rfl
  | some mask =>
      have hkey : (fun i : Fin 4 => (List.ofFn mask).getD i 0) = mask := by
        funext i
        rw [List.getD_eq_getElem?_getD, List.getElem?_ofFn, dif_pos i.isLt]
        rfl
      change wsMask (fun i : Fin 4 => (List.ofFn mask).getD i 0) (wsMask mask frame.payload) = _
      rw [hkey, wsMask_wsMask]

theorem sigReadBytes_items {host : SignalingHost} {bytes : List UInt8} {n : Nat}
    (hn : bytes.length = n) (rest : List (Poll UInt8))
    (next : List UInt8 → List (Poll UInt8) → Option (ReadFrame × List (Poll UInt8))) :
    sigReadBytes host n (bytes.map .item ++ rest) next = next bytes rest := by
  rw [sigReadBytes, ← hn, pollN_items]

theorem sigReadWsFrame_encode (host : SignalingHost) (frame : ServerFrame)
    (rest : List (Poll UInt8)) :
    sigReadWsFrame host (frame.encode.map .item ++ rest) =
      (sigHandleFrame host frame.fin frame.opcodeByte frame.payload).map fun read =>
        (read, rest) := by
  obtain ⟨hfin, hopcode⟩ := opcode_of_header frame.fin frame.opcode
  obtain ⟨length, hlength⟩ := lengthBits_eq frame
  obtain ⟨hmasked, hbits⟩ := length_of_header frame.mask.isSome length
  rw [← hlength] at hmasked hbits
  have hfirst : frame.header.getD 0 0 =
      (if frame.fin then 0x80 else 0x00) ||| frame.opcode.val.toUInt8 := rfl
  have hsecond : frame.header.getD 1 0 =
      (if frame.mask.isSome then 0x80 else 0x00) ||| frame.lengthBits := rfl
  have hheader : frame.header.length = 2 := rfl
  have hle := frame.payload_le
  rw [ServerFrame.encode, List.map_append, List.map_append, List.map_append, List.append_assoc,
    List.append_assoc, List.append_assoc, sigReadWsFrame, sigReadBytes_items hheader]
  dsimp only
  rw [hfirst, hsecond, hfin, hopcode, hmasked, hbits,
    sigReadBytes_items (extendedLength_length frame), sigReadBytes_items (maskKey_length frame),
    wsPayloadLength_eq, if_neg (by omega), sigReadBytes_items (sentPayload_length frame),
    wsUnmask_sentPayload]
  rfl

def isConnected (host : SignalingHost) : Bool :=
  host.client.state = .connected

/-- What handling one frame puts out, and the host that it leaves. -/
def handleFrame (host : SignalingHost) (frame : ServerFrame) :
    Option (List SignalingEvent × SignalingHost) :=
  (sigHandleFrame host frame.fin frame.opcodeByte frame.payload).map fun read =>
    (read.events,
      if read.ok then read.host
      else { read.host with client := { read.host.client with state := .disconnected } })

theorem tinyrtcSignalingProcess_handlesUnits :
    HandlesUnits tinyrtcSignalingProcess ServerFrame.encode isConnected handleFrame where
  encode_ne_nil frame := List.cons_ne_nil _ _
  idle host recv h := by
    have hstate : host.client.state ≠ .connected := of_decide_eq_false h
    rw [tinyrtcSignalingProcess, if_pos hstate]
  empty host h := by
    have hstate : host.client.state = .connected := of_decide_eq_true h
    rw [tinyrtcSignalingProcess, if_neg (not_not_intro hstate)]
    rfl
  wait host rest h := by
    have hstate : host.client.state = .connected := of_decide_eq_true h
    rw [tinyrtcSignalingProcess, if_neg (not_not_intro hstate)]
    rfl
  unit host frame rest h := by
    have hstate : host.client.state = .connected := of_decide_eq_true h
    rw [tinyrtcSignalingProcess, if_neg (not_not_intro hstate), sigReadWsFrame_encode,
      handleFrame, Option.map_map, Option.map_map]
    rfl

/-- Where the transport makes the client wait between frames only, the same messages and
pongs come out as when the whole stream can be read at once, and the same state. -/
theorem segmentation_delivers {frames : List ServerFrame} {recv : List (Poll UInt8)}
    (hwaits : WaitsBetween ServerFrame.encode frames recv) {n m : Nat} (hn : recv.length ≤ n)
    (hm : (frames.flatMap ServerFrame.encode).length ≤ m) (host : SignalingHost) :
    delivered tinyrtcSignalingProcess n host recv =
      delivered tinyrtcSignalingProcess m host
        ((frames.flatMap ServerFrame.encode).map .item) :=
  tinyrtcSignalingProcess_handlesUnits.delivered_congr hwaits hn hm host

def connectedHost : SignalingHost :=
  ⟨⟨.connected, none⟩, [], []⟩

def sampleFrame : ServerFrame :=
  ⟨true, 1, none, [0x41], by decide⟩

/-- A masked ping. -/
def samplePing : ServerFrame :=
  ⟨true, 9, some fun i => i.val.toUInt8, [0x42, 0x43], by decide⟩

/-- A connected client, and a transport that takes its next frame. -/
def answeringHost : SignalingHost :=
  ⟨⟨.connected, none⟩, [⟨fun _ => 7, [.written 100]⟩], []⟩

theorem segmentation_delivers_samplePing :
    delivered tinyrtcSignalingProcess 13 answeringHost
        (sampleFrame.encode.map .item ++ .notYet :: .notYet :: samplePing.encode.map .item) =
      delivered tinyrtcSignalingProcess 11 answeringHost
        ((sampleFrame.encode ++ samplePing.encode).map .item) ∧
      (delivered tinyrtcSignalingProcess 11 answeringHost
        ((sampleFrame.encode ++ samplePing.encode).map .item)).map Prod.fst =
          some [.message [0x41], .pong [0x42, 0x43]
            (wsFrame wsOpcodePong (fun _ => 7) [0x42, 0x43])] := by
  have hwaits : WaitsBetween ServerFrame.encode [sampleFrame, samplePing]
      (sampleFrame.encode.map .item ++ .notYet :: .notYet :: (samplePing.encode.map .item ++ [])) :=
    .unit sampleFrame (.wait (.wait (.unit samplePing .nil)))
  exact ⟨segmentation_delivers hwaits (by decide) (by decide) answeringHost, by decide +kernel⟩

/-- A wait behind the first byte of the frame, and the message is lost. -/
theorem segmentation_loses_sampleFrame :
    itemsOf [.item 0x81, .notYet, .item 0x01, .item 0x41] = sampleFrame.encode ∧
      (delivered tinyrtcSignalingProcess 3 connectedHost
        (sampleFrame.encode.map .item)).map Prod.fst = some [.message [0x41]] ∧
      ∀ n, (delivered tinyrtcSignalingProcess n connectedHost
        [.item 0x81, .notYet, .item 0x01, .item 0x41]).map Prod.fst = some [] := by
  refine ⟨rfl, by decide, ?_⟩
  -- The second call takes the rest for the header of a frame of 65 bytes.
  have hfirst : tinyrtcSignalingProcess connectedHost
      [.item 0x81, .notYet, .item 0x01, .item 0x41] =
        some ⟨[], connectedHost, [.item 0x01, .item 0x41]⟩ := rfl
  have hsecond : tinyrtcSignalingProcess connectedHost [.item 0x01, .item 0x41] =
      some ⟨[], connectedHost, []⟩ := rfl
  have hrest := delivered_of_still
    (tinyrtcSignalingProcess_handlesUnits.empty connectedHost rfl)
  intro n
  rcases n with _ | _ | n
  · rfl
  · rfl
  · rw [delivered_succ, hfirst, Option.bind_some, delivered_succ, hsecond, Option.bind_some, hrest]
    rfl

end TinyRtc.WebSocketSegmentation
