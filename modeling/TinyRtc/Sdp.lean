import TinyRtc.Common
import TinyRtc.MediaCodec
import TinyRtc.SlotArray

namespace TinyRtc.Sdp

open TinyRtc.Common
open TinyRtc.CString
open TinyRtc.MediaCodec
open TinyRtc.SlotArray

/-- `SDP_MAX_MEDIA`. -/
def sdpMaxMedia : Nat := 2

/-- `tinyrtc_track_kind_t`. -/
inductive TrackKind where
  | audio
  | video
  deriving DecidableEq, Repr

/-- `sdp_media_t`. -/
@[ext]
structure SdpMedia where
  kind : TrackKind
  port : Int32
  payloadType : Int32
  codecId : CodecId
  clockRate : UInt32
  channels : Int32
  mid : CStr 16
  directionSend : Bool
  directionRecv : Bool
  deriving DecidableEq

/-- The zero-filled `sdp_media_t`. -/
def SdpMedia.zero : SdpMedia :=
  ⟨.audio, 0, 0, .h264, 0, 0, .empty, false, false⟩

/-- `sdp_candidate_t`. -/
@[ext]
structure SdpCandidate where
  foundation : CStr 32
  priority : UInt32
  ip : CStr 64
  port : UInt16
  type : CStr 32
  protocol : CStr 16
  isIpv6 : Bool
  deriving DecidableEq

/-- `sdp_session_t`. -/
@[ext]
structure SdpSession where
  version : Int32
  username : CStr 256
  sessionId : UInt64
  sessionVersion : UInt64
  networkType : CStr 16
  addressType : CStr 16
  unicastAddress : CStr 64
  sessionName : CStr 256
  startTime : UInt64
  stopTime : UInt64
  iceUfrag : CStr 64
  icePwd : CStr 128
  fingerprint : CStr 128
  fingerprintType : CStr 16
  media : Slots SdpMedia sdpMaxMedia
  candidates : Slots SdpCandidate tinyrtcMaxCandidates
  dtlsSetup : CStr 16
  deriving DecidableEq

/-- `sdp_session_init`: the zero-filled session. -/
def sdpSessionInit : SdpSession :=
  { version := 0
    username := .empty
    sessionId := 0
    sessionVersion := 0
    networkType := .empty
    addressType := .empty
    unicastAddress := .empty
    sessionName := .empty
    startTime := 0
    stopTime := 0
    iceUfrag := .empty
    icePwd := .empty
    fingerprint := .empty
    fingerprintType := .empty
    media := .empty
    candidates := .empty
    dtlsSetup := .empty }

/-- `tinyrtc_track_config_t`. -/
structure TrackConfig where
  kind : TrackKind
  mid : List UInt8
  codecId : CodecId
  payloadType : Int32
  clockRate : UInt32
  channels : Int32
  deriving DecidableEq

/-- `tinyrtc_ice_candidate_t`, with its strings. -/
structure IceCandidate where
  foundation : List UInt8
  priority : UInt32
  ip : List UInt8
  port : UInt16
  type : List UInt8
  protocol : List UInt8
  isIpv6 : Bool
  deriving DecidableEq

/-- The entry that `sdp_add_media` writes. -/
def sdpMediaOfConfig (config : TrackConfig) : SdpMedia :=
  { kind := config.kind
    port := 9
    payloadType :=
      if config.payloadType ≠ 0 then config.payloadType
      else tinyrtcCodecGetDefaultPayload config.codecId
    codecId := config.codecId
    clockRate :=
      if config.clockRate ≠ 0 then config.clockRate
      else tinyrtcCodecGetClockRate config.codecId
    channels :=
      if config.channels ≠ 0 then config.channels
      else tinyrtcCodecGetChannels config.codecId
    mid := CStr.strncpy config.mid
    directionSend := true
    directionRecv := true }

/-- `none` is the source's -1, which leaves the session as it was. -/
def sdpAddMedia (session : SdpSession) (config : TrackConfig) : Option SdpSession :=
  (session.media.push? (sdpMediaOfConfig config)).map fun media => { session with media := media }

/-- The entry that `sdp_add_candidate` writes. -/
def sdpCandidateOfIce (candidate : IceCandidate) : SdpCandidate :=
  { foundation := CStr.strncpy candidate.foundation
    priority := candidate.priority
    ip := CStr.strncpy candidate.ip
    port := candidate.port
    type := CStr.strncpy candidate.type
    protocol := CStr.strncpy candidate.protocol
    isIpv6 := candidate.isIpv6 }

/-- `none` is the source's -1, which leaves the session as it was. -/
def sdpAddCandidate (session : SdpSession) (candidate : IceCandidate) : Option SdpSession :=
  (session.candidates.push? (sdpCandidateOfIce candidate)).map fun candidates =>
    { session with candidates := candidates }

end TinyRtc.Sdp
