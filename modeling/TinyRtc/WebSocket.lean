import TinyRtc.PolledStream
import TinyRtc.Signaling

namespace TinyRtc.WebSocket

open TinyRtc.Common
open TinyRtc.PolledStream
open TinyRtc.Signaling

/-- What the receiving side hands on: a message to `sig_process_message`, or the payload of
a pong with the bytes that the transport takes of it. -/
inductive SignalingEvent where
  | message (data : List UInt8)
  | pong (data wire : List UInt8)
  deriving DecidableEq

/-- The client and what it is given while it runs: masks and answers to the writes of the
frames that it will send, and the answers to its allocations. -/
structure SignalingHost where
  client : SignalingClient
  frames : List FrameEnv
  allocations : List Bool

/-- `message_buf`, allocated when there is none. -/
def sigOpenMessage (host : SignalingHost) : Option (List UInt8) × SignalingHost :=
  match host.client.messageBuf with
  | some buf => (some buf, host)
  | none =>
      let host' := { host with allocations := host.allocations.tail }
      if host.allocations.headD true then
        (some [], { host' with client := { host.client with messageBuf := some [] } })
      else (none, host')

/-- A fragment is appended, `none` when it does not fit in `message_cap`. -/
def sigAppendFragment (host : SignalingHost) (buf data : List UInt8) : Option SignalingHost :=
  if buf.length + data.length > sigMaxRecvBuf then none
  else some { host with client := { host.client with messageBuf := some (buf ++ data) } }

/-- What a call of `sig_read_ws_frame` leaves behind: `ok` for the source's 0, which is all
that it returns but -1. -/
structure ReadFrame where
  ok : Bool
  events : List SignalingEvent
  host : SignalingHost

/-- The cases of the opcode, once the payload has been read and unmasked. `none` as long as
the transport has not answered often enough to the writes of a pong. -/
def sigHandleFrame (host : SignalingHost) (fin : Bool) (opcode : UInt8) (data : List UInt8) :
    Option ReadFrame :=
  if opcode = wsOpcodeText ∨ opcode = wsOpcodeBinary then
    if !fin then
      match sigOpenMessage host with
      | (none, host) => some ⟨false, [], host⟩
      | (some buf, host) =>
          match sigAppendFragment host buf data with
          | none => some ⟨false, [], host⟩
          | some host => some ⟨true, [], host⟩
    else some ⟨true, [.message data], host⟩
  else if opcode = wsOpcodeContinue then
    match host.client.messageBuf with
    | none => some ⟨false, [], host⟩
    | some buf =>
        match sigAppendFragment host buf data with
        | none => some ⟨false, [], host⟩
        | some appended =>
            if fin then
              some ⟨true, [.message (buf ++ data)],
                { host with client := { host.client with messageBuf := none } }⟩
            else some ⟨true, [], appended⟩
  else if opcode = wsOpcodeClose then
    some ⟨false, [], { host with client := { host.client with state := .disconnected } }⟩
  else if opcode = wsOpcodePing then
    match host.frames with
    | [] => none
    | env :: frames =>
        -- The result of the pong is not looked at.
        (sigSendWsFrame env host.client wsOpcodePong data).map fun sent =>
          ⟨true, [.pong data sent.wire], { host with client := sent.sig, frames := frames }⟩
  else some ⟨true, [], host⟩

/-- The loops that read one byte at a time. When nothing can be read yet the source returns
0, and the bytes of the frame that it has read are lost. -/
def sigReadBytes (host : SignalingHost) (n : Nat) (recv : List (Poll UInt8))
    (next : List UInt8 → List (Poll UInt8) → Option (ReadFrame × List (Poll UInt8))) :
    Option (ReadFrame × List (Poll UInt8)) :=
  match pollN n recv with
  | (.read bytes, recv) => next bytes recv
  | (.notYet, recv) => some (⟨true, [], host⟩, recv)
  | (.failed, recv) => some (⟨false, [], host⟩, recv)

def wsBytesNeeded (payloadLen : UInt8) : Nat :=
  if payloadLen = 126 then 2 else if payloadLen = 127 then 8 else 0

def wsPayloadLength (payloadLen : UInt8) (extLen : List UInt8) : Nat :=
  if wsBytesNeeded payloadLen > 0 then
    extLen.foldl (fun len byte => len * 256 + byte.toNat) 0
  else payloadLen.toNat

def wsUnmask (masked : Bool) (maskKey data : List UInt8) : List UInt8 :=
  if masked then wsMask (fun i => maskKey.getD i 0) data else data

/-- `recv_len` is 0 at the start of every call, since a path that leaves it otherwise ends the
connection, so the payload stands at the front of `recv_buf`. -/
def sigReadWsFrame (host : SignalingHost) (recv : List (Poll UInt8)) :
    Option (ReadFrame × List (Poll UInt8)) :=
  sigReadBytes host 2 recv fun hdr recv =>
    let fin := hdr.getD 0 0 &&& 0x80 != 0
    let opcode := hdr.getD 0 0 &&& 0x0F
    let masked := hdr.getD 1 0 &&& 0x80 != 0
    let payloadLen := hdr.getD 1 0 &&& 0x7F
    sigReadBytes host (wsBytesNeeded payloadLen) recv fun extLen recv =>
      let len := wsPayloadLength payloadLen extLen
      sigReadBytes host (if masked then 4 else 0) recv fun maskKey recv =>
        if len > sigMaxRecvBuf then some (⟨false, [], host⟩, recv)
        else
          sigReadBytes host len recv fun data recv =>
            (sigHandleFrame host fin opcode (wsUnmask masked maskKey data)).map fun frame =>
              (frame, recv)

/-- The loop of the source makes one turn, since no frame is ever counted, and the result of
the call is 0. -/
def tinyrtcSignalingProcess (host : SignalingHost) (recv : List (Poll UInt8)) :
    Option (Turn UInt8 SignalingEvent SignalingHost) :=
  if host.client.state ≠ .connected then some ⟨[], host, recv⟩
  else
    (sigReadWsFrame host recv).map fun (frame, recv) =>
      ⟨frame.events,
        if frame.ok then frame.host
        else { frame.host with client := { frame.host.client with state := .disconnected } },
        recv⟩

end TinyRtc.WebSocket
