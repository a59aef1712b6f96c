import TinyRtc.BigEndian
import TinyRtc.Common
import TinyRtc.CString

namespace TinyRtc.Signaling

open TinyRtc.BigEndian
open TinyRtc.Common
open TinyRtc.CString

/-- `tinyrtc_signaling_state_t`. -/
inductive SignalingState where
  | disconnected
  | connecting
  | connected
  | error
  deriving DecidableEq, Repr

/-- `struct tinyrtc_signaling`, less the transport and the fields that nothing
reads. `messageBuf` holds the bytes in use of `message_buf`. `recv_len` is left out:
it is 0 when a frame starts, and every path that leaves it otherwise ends the
connection. -/
structure SignalingClient where
  state : SignalingState
  messageBuf : Option (List UInt8)
  deriving DecidableEq

/-- `SIG_MAX_RECV_BUF`. -/
def sigMaxRecvBuf : Nat := 8192

/-- `SIG_MAX_SEND_BUF`. -/
def sigMaxSendBuf : Nat := 8192

def wsOpcodeContinue : UInt8 := 0x00

def wsOpcodeText : UInt8 := 0x01

def wsOpcodeBinary : UInt8 := 0x02

def wsOpcodeClose : UInt8 := 0x08

def wsOpcodePing : UInt8 := 0x09

def wsOpcodePong : UInt8 := 0x0A

/-- What one call of the transport answers to bytes that are written. -/
inductive WriteResult where
  | written (n : Nat)
  | want
  | failed
  deriving DecidableEq

/-- The loop of `sig_send_ws_frame` that writes: whether it comes to its end, and what
has been written. `none` as long as the transport has not answered often enough. -/
def sigWriteLoop : List WriteResult → (remaining : List UInt8) → Option (Bool × List UInt8)
  | _, [] => some (true, [])
  | [], _ :: _ => none
  | .want :: results, byte :: remaining => sigWriteLoop results (byte :: remaining)
  | .failed :: _, _ :: _ => some (false, [])
  | .written n :: results, byte :: remaining =>
      (sigWriteLoop results ((byte :: remaining).drop n)).map fun (ok, sent) =>
        (ok, (byte :: remaining).take n ++ sent)

def wsMask (mask : Bytes 4) (data : List UInt8) : List UInt8 :=
  data.mapIdx fun i byte => byte ^^^ mask (Fin.ofNat 4 i)

/-- The frame that `sig_send_ws_frame` puts together, header, mask and payload. -/
def wsFrame (opcode : UInt8) (mask : Bytes 4) (data : List UInt8) : List UInt8 :=
  let len := data.length
  let header :=
    (0x80 ||| opcode) ::
      (if len ≤ 125 then [len.toUInt8 ||| 0x80]
      else if len ≤ 0xFFFF then (126 ||| 0x80) :: write16 len.toUInt16
      else (127 ||| 0x80) :: write64 len.toUInt64)
  header ++ List.ofFn mask ++ wsMask mask data

structure FrameEnv where
  mask : Bytes 4
  writes : List WriteResult

/-- What sending a frame leaves behind: whether it returns 0, and the bytes that the
transport has taken. -/
structure SentFrame where
  ok : Bool
  sig : SignalingClient
  wire : List UInt8

def sigSendWsFrame (env : FrameEnv) (sig : SignalingClient) (opcode : UInt8)
    (data : List UInt8) : Option SentFrame :=
  if sig.state ≠ .connected then some ⟨false, sig, []⟩
  else
    let frame := wsFrame opcode env.mask data
    if frame.length > sigMaxSendBuf then some ⟨false, sig, []⟩
    else
      (sigWriteLoop env.writes frame).map fun (ok, wire) =>
        ⟨ok, if ok then sig else { sig with state := .error }, wire⟩

/-- The cases of `sig_json_escape`: what stands for a character, two bytes for the
special ones. -/
def sigEscape (c : UInt8) : List UInt8 :=
  if c = 0x22 then [0x5C, 0x22]
  else if c = 0x5C then [0x5C, 0x5C]
  else if c = 0x0A then [0x5C, 0x6E]
  else if c = 0x0D then [0x5C, 0x72]
  else if c = 0x09 then [0x5C, 0x74]
  else [c]

/-- The loop of `sig_json_escape`. A special character that does not fit is left out
and the loop goes on. -/
def sigJsonEscapeLoop (outputSize : Nat) : (input output : List UInt8) → List UInt8
  | [], output => output
  | c :: input, output =>
      if output.length < outputSize - 1 then
        if (sigEscape c).length = 2 ∧ output.length + 2 ≥ outputSize then
          sigJsonEscapeLoop outputSize input output
        else sigJsonEscapeLoop outputSize input (output ++ sigEscape c)
      else output

def sigJsonEscape (input : List UInt8) (outputSize : Nat) : List UInt8 :=
  sigJsonEscapeLoop outputSize input []

def descriptionJson (type escapedSdp : List UInt8) : List UInt8 :=
  ascii "\x7b\"type\": \"" ++ type ++ ascii "\", \"sdp\": \x7b\"type\": \"" ++ type ++
    ascii "\", \"sdp\": \"" ++ escapedSdp ++ ascii "\"\x7d\x7d"

/-- What sending a description leaves behind, and the text that is handed to
`sig_send_ws_frame`, if it comes to that. -/
structure SentDescription where
  error : TinyrtcError
  sig : SignalingClient
  handed : Option (List UInt8)

/-- The common body of the two functions that send a description. -/
def sendDescription (type : List UInt8) (env : FrameEnv) (sig : SignalingClient)
    (sdp : List UInt8) : Option SentDescription :=
  if sig.state ≠ .connected then some ⟨.invalidArg, sig, none⟩
  else
    let escapedSdp := sigJsonEscape sdp 4096
    let json := descriptionJson type escapedSdp
    if json.length ≥ 8192 then some ⟨.memory, sig, none⟩
    else
      (sigSendWsFrame env sig wsOpcodeText json).map fun sent =>
        ⟨if sent.ok then .ok else .network, sent.sig, some json⟩

def tinyrtcSignalingSendOffer (env : FrameEnv) (sig : SignalingClient) (sdp : List UInt8) :
    Option SentDescription :=
  sendDescription (ascii "offer") env sig sdp

def tinyrtcSignalingSendAnswer (env : FrameEnv) (sig : SignalingClient) (sdp : List UInt8) :
    Option SentDescription :=
  sendDescription (ascii "answer") env sig sdp

/-- The loops that go over spaces and tabs. -/
def skipBlanks (text : List UInt8) : List UInt8 :=
  text.dropWhile fun c => c == 0x20 || c == 0x09

/-- The loop for `end`: the text up to the first quotation mark with no backslash in front
of it. `prev` is the byte in front, `none` at `value`. -/
def sigQuotedText : (prev : Option UInt8) → (text : List UInt8) → Option (List UInt8)
  | _, [] => none
  | prev, c :: text =>
      if c = 0x22 ∧ prev ≠ some 0x5C then some []
      else (sigQuotedText (some c) text).map (c :: ·)

/-- The loop that takes the escapes out. -/
def sigUnescape : List UInt8 → List UInt8
  | [] => []
  | [c] => [c]
  | c :: d :: rest =>
      if c = 0x5C then
        if d = 0x72 then 0x0D :: sigUnescape rest
        else if d = 0x6E then 0x0A :: sigUnescape rest
        else if d = 0x74 then 0x09 :: sigUnescape rest
        else if d = 0x22 ∨ d = 0x5C ∨ d = 0x2F then d :: sigUnescape rest
        else c :: sigUnescape (d :: rest)
      else c :: sigUnescape (d :: rest)

/-- `allocated` is whether there is memory for the result. -/
def sigExtractJsonStringField (json fieldName : List UInt8) (allocated : Bool) :
    Option (List UInt8) :=
  let pattern := (ascii "\"" ++ fieldName ++ ascii "\"").take 63
  (strstr pattern json).bind fun found =>
    (strchr (found.drop pattern.length) 0x3A).bind fun value =>
      match skipBlanks (value.drop 1) with
      | [] => none
      | c :: value =>
          if c ≠ 0x22 then none
          else
            (sigQuotedText none value).bind fun raw =>
              if allocated then some (sigUnescape raw) else none

def sigExtractSdpValue (json : List UInt8) (allocated : Bool) : Option (List UInt8) :=
  (strstr (ascii "\"sdp\"") json).bind fun found =>
    (strchr (found.drop 5) 0x3A).bind fun value =>
      let value := skipBlanks (value.drop 1)
      match value with
      | [] => none
      | c :: _ =>
          if c = 0x22 then sigExtractJsonStringField found (ascii "sdp") allocated
          else if c = 0x7B then sigExtractJsonStringField value (ascii "sdp") allocated
          else none

end TinyRtc.Signaling
