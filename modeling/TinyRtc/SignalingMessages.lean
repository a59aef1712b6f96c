import TinyRtc.FormattedScan
import TinyRtc.Sdp
import TinyRtc.Signaling

namespace TinyRtc.SignalingMessages

open TinyRtc.Common
open TinyRtc.CString
open TinyRtc.Decimal
open TinyRtc.FormattedScan
open TinyRtc.Sdp
open TinyRtc.Signaling

/-- `tinyrtc_signal_event_type_t`. A variable that nothing has been assigned to may also hold
a number that is none of the enumerators'. -/
inductive SignalEventType where
  | offer
  | answer
  | iceCandidate
  | peerJoin
  | peerLeave
  | other (value : Int32)
  deriving DecidableEq

/-- The union of `tinyrtc_signal_event_t`, `null` where its pointer is. -/
inductive SignalData where
  | null
  | sdp (text : List UInt8)
  | candidate (candidate : IceCandidate)
  deriving DecidableEq

/-- `tinyrtc_signal_event_t`, less the sender, which is always the same. -/
structure SignalEvent where
  type : SignalEventType
  data : SignalData
  deriving DecidableEq

/-- The answers to the allocations that a message takes, whether there is a callback, and
what stands in `event_type` when nothing has been assigned to it. -/
structure MessageEnv where
  jsonOk : Bool
  stringOk : Bool
  candidateOk : Bool
  copiesOk : Bool
  hasCallback : Bool
  unsetType : SignalEventType

/-- `"%31s %*d %31s %31s %127s %15s typ %31s"`. -/
def candidateFormat : List Directive :=
  [.word 31, .blank, .skipNumber, .blank, .word 31, .blank, .word 31, .blank, .word 127, .blank,
    .word 15, .blank, .literal 0x74, .literal 0x79, .literal 0x70, .blank, .word 31]

/-- The part of `sig_extract_candidate_value` behind the search for the string. -/
def candidateOfString (env : MessageEnv) (candidateStr : List UInt8) : Option IceCandidate :=
  let cursor :=
    if candidateStr.take 10 = ascii "candidate:" then candidateStr.drop 10 else candidateStr
  match sscanf candidateFormat cursor with
  | [foundation, protocol, prioStr, ip, portStr, type] =>
      let priority := (strtoull prioStr).getD 0
      let port := atoi portStr
      if port ≤ 0 then none
      else if !env.candidateOk then none
      else if !env.copiesOk then none
      else
        some
          { foundation := foundation
            priority := priority.toUInt32
            ip := ip
            port := port.toUInt32.toUInt16
            type := type
            protocol := protocol
            isIpv6 := ip.contains 0x3A }
  | _ => none

def sigExtractCandidateValue (env : MessageEnv) (json : List UInt8) : Option IceCandidate :=
  (strstr (ascii "\"candidate\"") json).bind fun found =>
    (strchr (found.drop 11) 0x3A).bind fun value =>
      let value := skipBlanks (value.drop 1)
      let candidateStr :=
        match value with
        | [] => none
        | c :: _ =>
            if c = 0x22 then sigExtractJsonStringField found (ascii "candidate") env.stringOk
            else if c = 0x7B then sigExtractJsonStringField value (ascii "candidate") env.stringOk
            else none
      candidateStr.bind (candidateOfString env)

/-- The comparisons of the text at the type's value, `none` for those that return without a
callback. -/
def eventTypeOf (env : MessageEnv) (typeText : List UInt8) : Option SignalEventType :=
  if typeText.take 6 = ascii "joined" then none
  else if typeText.take 11 = ascii "peer-joined" then some .peerJoin
  else if typeText.take 9 = ascii "peer-left" then some .peerLeave
  else if typeText.take 5 = ascii "offer" then some .offer
  else if typeText.take 6 = ascii "answer" then some .answer
  else if typeText.take 13 = ascii "ice-candidate" then some .iceCandidate
  else if typeText.take 5 = ascii "error" then none
  else some env.unsetType

def eventData (env : MessageEnv) (json : List UInt8) : SignalEventType → SignalData
  | .offer | .answer => ((sigExtractSdpValue json env.stringOk).map .sdp).getD .null
  | .iceCandidate => ((sigExtractCandidateValue env json).map .candidate).getD .null
  | .peerJoin | .peerLeave | .other _ => .null

/-- The events that `sig_process_message` calls the callback with. -/
def sigProcessMessage (env : MessageEnv) (data : List UInt8) : List SignalEvent :=
  if !env.jsonOk then []
  else
    let json := data.takeWhile (· != 0x00)
    match (strstr (ascii "\"type\"") json).bind fun found => strchr (found.drop 6) 0x3A with
    | none => []
    | some typePtr =>
        match eventTypeOf env (typePtr.dropWhile fun c => c == 0x3A || c == 0x20 || c == 0x22) with
        | none => []
        | some type => if env.hasCallback then [⟨type, eventData env json type⟩] else []

/-- A `tinyrtc_ice_candidate_t` that is handed in, `none` for the strings that are `NULL`. -/
structure CandidateArg where
  foundation : Option (List UInt8)
  priority : UInt32
  ip : Option (List UInt8)
  port : UInt16
  type : Option (List UInt8)
  protocol : Option (List UInt8)

def argOfCandidate (candidate : IceCandidate) : CandidateArg where
  foundation := some candidate.foundation
  priority := candidate.priority
  ip := some candidate.ip
  port := candidate.port
  type := some candidate.type
  protocol := some candidate.protocol

/-- The text that `snprintf` writes if there is room for it. -/
def candidateJson (candidate : CandidateArg) : List UInt8 :=
  ascii "\x7b\"type\": \"ice-candidate\", \"candidate\": \x7b\"candidate\": \"candidate:" ++
    candidate.foundation.getD (ascii "tiny") ++ ascii " 1 " ++
    candidate.protocol.getD (ascii "udp") ++ ascii " " ++
    decimal candidate.priority.toNat ++ ascii " " ++
    candidate.ip.getD (ascii "0.0.0.0") ++ ascii " " ++
    decimal candidate.port.toNat ++ ascii " typ " ++
    candidate.type.getD (ascii "host") ++
    ascii "\", \"sdpMid\": \"0\", \"sdpMLineIndex\": 0\x7d\x7d"

/-- `SentDescription` says of a candidate too what sending it leaves behind. -/
def tinyrtcSignalingSendCandidate (env : FrameEnv) (sig : SignalingClient)
    (candidate : Option CandidateArg) : Option SentDescription :=
  match candidate with
  | none => some ⟨.invalidArg, sig, none⟩
  | some candidate =>
      if sig.state ≠ .connected then some ⟨.invalidArg, sig, none⟩
      else
        let json := candidateJson candidate
        if json.length ≥ 2048 then some ⟨.memory, sig, none⟩
        else
          (sigSendWsFrame env sig wsOpcodeText json).map fun sent =>
            ⟨if sent.ok then .ok else .network, sent.sig, some json⟩

end TinyRtc.SignalingMessages
