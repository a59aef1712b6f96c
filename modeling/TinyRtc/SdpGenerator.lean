import TinyRtc.Decimal
import TinyRtc.Sdp

namespace TinyRtc.SdpGenerator

open TinyRtc.Common
open TinyRtc.CString
open TinyRtc.Decimal
open TinyRtc.MediaCodec
open TinyRtc.Sdp

/-- A string, or the text written in its place when it is empty. -/
def orDefault {cap : Nat} (s : CStr cap) (default : List UInt8) : List UInt8 :=
  if s.bytes = [] then default else s.bytes

/-- A line that is written only when the string it carries is not empty. -/
def optionalLine {cap : Nat} (s : CStr cap) (line : List UInt8) : List (List UInt8) :=
  if s.bytes = [] then [] else [line]

def space : List UInt8 :=
  [0x20]

def originLine (session : SdpSession) : List UInt8 :=
  ascii "o=" ++ orDefault session.username (ascii "-") ++ space ++
    decimal session.sessionId.toNat ++ space ++ decimal session.sessionVersion.toNat ++ space ++
    orDefault session.networkType (ascii "IN") ++ space ++
    orDefault session.addressType (ascii "IP4") ++ space ++
    orDefault session.unicastAddress (ascii "0.0.0.0")

/-- The `a=group:BUNDLE` line, written when every media has a mid. -/
def groupLine (session : SdpSession) : List (List UInt8) :=
  if session.media.items ≠ [] ∧ ∀ media ∈ session.media.items, media.mid.bytes ≠ [] then
    [ascii "a=group:BUNDLE" ++ session.media.items.flatMap fun media => space ++ media.mid.bytes]
  else []

/-- The lines before the media descriptions. -/
def sessionLines (session : SdpSession) : List (List UInt8) :=
  [ascii "v=" ++ decimalInt session.version.toInt,
    originLine session,
    ascii "s=" ++ orDefault session.sessionName (ascii "-"),
    ascii "t=" ++ decimal session.startTime.toNat ++ space ++ decimal session.stopTime.toNat] ++
  optionalLine session.iceUfrag (ascii "a=ice-ufrag:" ++ session.iceUfrag.bytes) ++
  optionalLine session.icePwd (ascii "a=ice-pwd:" ++ session.icePwd.bytes) ++
  optionalLine session.fingerprint
    (ascii "a=fingerprint:" ++ session.fingerprintType.bytes ++ space ++
      session.fingerprint.bytes) ++
  optionalLine session.dtlsSetup (ascii "a=setup:" ++ session.dtlsSetup.bytes) ++
  groupLine session ++
  [ascii "a=ice-options:trickle"]

def mediaName : TrackKind → List UInt8
  | .audio => ascii "audio"
  | .video => ascii "video"

/-- What follows the clock rate of an `a=rtpmap` line. -/
def channelSuffix (media : SdpMedia) : List UInt8 :=
  if media.kind = .audio ∧ 1 < media.channels then
    ascii "/" ++ decimalInt media.channels.toInt
  else if media.kind = .audio then ascii "/1"
  else []

def directionLine (media : SdpMedia) : List UInt8 :=
  if media.directionSend ∧ media.directionRecv then ascii "a=sendrecv"
  else if media.directionSend ∧ ¬ media.directionRecv then ascii "a=sendonly"
  else if ¬ media.directionSend ∧ media.directionRecv then ascii "a=recvonly"
  else ascii "a=inactive"

/-- The lines of one media description. -/
def mediaLines (media : SdpMedia) : List (List UInt8) :=
  [ascii "m=" ++ mediaName media.kind ++ space ++ decimalInt media.port.toInt ++
      ascii " UDP/TLS/RTP/SAVPF " ++ decimalInt media.payloadType.toInt,
    ascii "a=rtpmap:" ++ decimalInt media.payloadType.toInt ++ space ++
      tinyrtcCodecGetName media.codecId ++ ascii "/" ++ decimal media.clockRate.toNat ++
      channelSuffix media] ++
  optionalLine media.mid (ascii "a=mid:" ++ media.mid.bytes) ++
  [ascii "a=rtcp-mux", directionLine media]

def candidateLine (cand : SdpCandidate) : List UInt8 :=
  ascii "a=candidate:" ++ cand.foundation.bytes ++ ascii " 1 " ++ cand.protocol.bytes ++ space ++
    decimal cand.priority.toNat ++ space ++ cand.ip.bytes ++ space ++
    decimal cand.port.toNat ++ ascii " typ " ++ cand.type.bytes

/-- The lines of the session description, each written by one `SDP_APPEND_LINE`
(the group line in pieces). -/
def sdpLines (session : SdpSession) : List (List UInt8) :=
  sessionLines session ++ session.media.items.flatMap mediaLines ++
    session.candidates.items.map candidateLine

def crlf : List UInt8 :=
  [0x0D, 0x0A]

/-- The text that the `snprintf` calls write when none of them is cut short. -/
def sdpText (session : SdpSession) : List UInt8 :=
  (sdpLines session).flatMap fun line => line ++ crlf

/-- `estimated_size`, the size of the text buffer. -/
def estimatedSize : Nat :=
  8 * 1024

/-- `none` stands for a text that does not fit: a `snprintf` is cut short, and
what follows it is written past the end of the buffer. -/
def sdpGenerate (mallocOk : Bool) (session : SdpSession) :
    Option (Except TinyrtcError (List UInt8)) :=
  if !mallocOk then some (.error .memory)
  else if (sdpText session).length < estimatedSize then some (.ok (sdpText session))
  else none

end TinyRtc.SdpGenerator
