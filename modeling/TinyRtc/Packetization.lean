import TinyRtc.MediaCodec
import TinyRtc.Rtp

namespace TinyRtc.Packetization

open TinyRtc.Rtp
open TinyRtc.MediaCodec

/-- One invocation of `tinyrtc_packet_callback_t`. -/
structure PacketCallback where
  payload : List UInt8
  marker : Bool
  deriving DecidableEq, Repr

/-- The callback invocations of a packetizer in order, and the packet count that
it returns. -/
structure Packetized where
  callbacks : List PacketCallback
  packets : Nat
  deriving DecidableEq, Repr

/-- Nothing sent, and 0 returned. -/
def Packetized.none : Packetized :=
  ⟨[], 0⟩

/-- The work of one part of a frame followed by that of the next. -/
def Packetized.append (first second : Packetized) : Packetized :=
  ⟨first.callbacks ++ second.callbacks, first.packets + second.packets⟩

@[simp] theorem Packetized.callbacks_none : Packetized.none.callbacks = [] := rfl

@[simp] theorem Packetized.callbacks_append (first second : Packetized) :
    (first.append second).callbacks = first.callbacks ++ second.callbacks := rfl

/-- The length of the Annex-B start code at the front of `data`, or 0. -/
def h264StartCodeLen (data : List UInt8) : Nat :=
  if data.take 4 = [0x00, 0x00, 0x00, 0x01] then 4
  else if data.take 3 = [0x00, 0x00, 0x01] then 3
  else 0

/-- The offset of the first start code in `data`, or its length. -/
def h264FindStartCode : List UInt8 → Nat
  | [] => 0
  | byte :: rest =>
      if h264StartCodeLen (byte :: rest) ≠ 0 then 0 else h264FindStartCode rest + 1

/-- The first payload byte of every FU-A fragment of a NAL unit. -/
def fuIndicator (naluHeader : UInt8) : UInt8 :=
  (naluHeader &&& 0xE0) ||| 28

/-- The second payload byte of a FU-A fragment. -/
def fuHeader (naluHeader : UInt8) (isStart isEnd : Bool) : UInt8 :=
  (if isStart then 0x80 else 0x00) ||| (if isEnd then 0x40 else 0x00) ||| (naluHeader &&& 0x1F)

/-- The FU-A loop of `h264_packetize_nalu` on the bytes that remain. Every turn
takes at least one byte off, so their number is enough fuel. -/
def fuaLoop (fragmentPayload : Nat) (naluHeader : UInt8) (isLastNalu : Bool) :
    (fuel : Nat) → (isStart : Bool) → (remaining : List UInt8) → Packetized
  | 0, _, _ => .none
  | fuel + 1, isStart, remaining =>
      if remaining.length = 0 then .none
      else
        let chunk := min remaining.length fragmentPayload
        let isEnd := decide (chunk = remaining.length)
        let callback : PacketCallback :=
          { payload := fuIndicator naluHeader :: fuHeader naluHeader isStart isEnd ::
              remaining.take chunk
            marker := isLastNalu && isEnd }
        Packetized.append ⟨[callback], 1⟩
          (fuaLoop fragmentPayload naluHeader isLastNalu fuel false (remaining.drop chunk))

/-- `mallocOk` says whether the fragment buffer can be allocated. -/
def h264PacketizeNalu (mallocOk : Bool) (nalu : List UInt8) (maxPayload : Nat)
    (isLastNalu : Bool) : Packetized :=
  match nalu with
  | [] => .none
  | naluHeader :: naluData =>
      if nalu.length ≤ maxPayload then ⟨[⟨nalu, isLastNalu⟩], 1⟩
      else if maxPayload ≤ 2 ∨ nalu.length ≤ 1 then .none
      else if !mallocOk then .none
      else fuaLoop (maxPayload - 2) naluHeader isLastNalu naluData.length true naluData

/-- The NAL unit loop of `tinyrtc_packetize_frame` on the bytes of the frame from
`offset` on. Every turn takes at least one byte off. `malloc` says whether the
allocation made for the NAL unit at an offset succeeds. -/
def h264Loop (malloc : Nat → Bool) (maxPayload : Nat) :
    (fuel offset : Nat) → (rest : List UInt8) → Packetized
  | 0, _, _ => .none
  | fuel + 1, offset, rest =>
      if rest.length = 0 then .none
      else
        let naluLen := h264FindStartCode rest
        let nextStartCode := h264StartCodeLen (rest.drop naluLen)
        let next := h264Loop malloc maxPayload fuel (offset + naluLen + nextStartCode)
          (rest.drop (naluLen + nextStartCode))
        if naluLen = 0 then next
        else if naluLen = rest.length then
          h264PacketizeNalu (malloc offset) (rest.take naluLen) maxPayload true
        else
          (h264PacketizeNalu (malloc offset) (rest.take naluLen) maxPayload false).append next

/-- The loop of `tinyrtc_packetize_frame` for the other codecs. -/
def genericLoop (maxPayload : Nat) : (fuel : Nat) → (rest : List UInt8) → Packetized
  | 0, _ => .none
  | fuel + 1, rest =>
      if rest.length = 0 then .none
      else
        let chunkLen := if rest.length > maxPayload then maxPayload else rest.length
        Packetized.append ⟨[⟨rest.take chunkLen, decide (chunkLen = rest.length)⟩], 1⟩
          (genericLoop maxPayload fuel (rest.drop chunkLen))

def tinyrtcPacketizeFrame (malloc : Nat → Bool) (codecId : CodecId) (mtu : UInt32)
    (frame : List UInt8) : Packetized :=
  if mtu < 20 then .none
  else
    let maxPayload := mtu.toNat - 12
    match codecId with
    | .h264 =>
        let initialStartCode := h264StartCodeLen frame
        if initialStartCode ≠ 0 then
          h264Loop malloc maxPayload frame.length initialStartCode (frame.drop initialStartCode)
        else h264PacketizeNalu (malloc 0) frame maxPayload true
    | _ => genericLoop maxPayload frame.length frame

/-- The part of `tinyrtc_depacketize_frame` for an H264 payload: its result and
the bytes in the frame buffer, of which there are `frame_len`. -/
def h264Depacketize (marker : Bool) (payload : List UInt8) (maxLen : Nat) :
    Bool × List UInt8 :=
  match payload with
  | [] => (false, [])
  | indicator :: afterIndicator =>
      let naluType := indicator &&& 0x1F
      if naluType > 0 ∧ naluType < 24 then
        if payload.length + 4 > maxLen then (false, [])
        else (marker, 0x00 :: 0x00 :: 0x00 :: 0x01 :: payload)
      else if naluType = 28 then
        match afterIndicator with
        | [] => (false, [])
        | header :: fragment =>
            let isStart := (header &&& 0x80) != 0
            let isEnd := (header &&& 0x40) != 0
            if isStart then
              if fragment.length + 5 > maxLen then (false, [])
              else
                (marker || isEnd,
                  0x00 :: 0x00 :: 0x00 :: 0x01 ::
                    ((indicator &&& 0xE0) ||| (header &&& 0x1F)) :: fragment)
            else if fragment.length > maxLen then (false, [])
            else (marker || isEnd, fragment)
      else (false, [])

/-- Whether the source reports a complete frame, and the bytes it leaves in the
frame buffer. -/
def tinyrtcDepacketizeFrame (codecId : CodecId) (packet : List UInt8) (maxLen : Nat) :
    Bool × List UInt8 :=
  match tinyrtcRtpParseHeader packet with
  | none => (false, [])
  | some header =>
      match tinyrtcRtpGetPayload packet header with
      | none => (false, [])
      | some offset =>
          let payload := packet.drop offset
          match codecId with
          | .h264 => h264Depacketize header.marker payload maxLen
          | _ => if payload.length > maxLen then (false, []) else (header.marker, payload)

/-- The capacity of the packet buffer on the send path. -/
def rtpBufferSize : Nat :=
  1500

/-- The packets for a list of callbacks: callback `i` is put behind `header i`
with the callback's own marker. -/
def rtpPackets (header : Nat → RtpHeader) (callbacks : List PacketCallback) :
    List (List UInt8) :=
  callbacks.mapIdx fun i callback =>
    tinyrtcRtpBuildHeader { header i with marker := callback.marker } rtpBufferSize ++
      callback.payload

/-- Behind a built header, the depacketizer sees the payload as it was handed to
the callback. -/
theorem depacketize_build {header : RtpHeader} (hb : Buildable header) {headerMax : Nat}
    (hmax : 12 + 4 * header.csrc.length ≤ headerMax) (payload : List UInt8) (maxLen : Nat) :
    tinyrtcDepacketizeFrame .h264 (tinyrtcRtpBuildHeader header headerMax ++ payload) maxLen =
      h264Depacketize header.marker payload maxLen := by
  rw [tinyrtcDepacketizeFrame, parse_build hb hmax]
  simp only [getPayload_build hb hmax, List.drop_left]

end TinyRtc.Packetization
