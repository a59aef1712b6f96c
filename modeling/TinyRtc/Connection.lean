import TinyRtc.Dtls
import TinyRtc.Jitter

namespace TinyRtc.Connection

open TinyRtc.Common
open TinyRtc.CString
open TinyRtc.Dtls
open TinyRtc.Ice
open TinyRtc.Inet
open TinyRtc.Jitter
open TinyRtc.MediaCodec
open TinyRtc.Sdp
open TinyRtc.SlotArray
open TinyRtc.Srtp

/-- `tinyrtc_pc_state_t`. -/
inductive PcState where
  | new
  | connecting
  | connected
  | disconnected
  | failed
  | closed
  deriving DecidableEq, Repr

/-- The callbacks of `tinyrtc_pc_observer_t` that the source calls: whether each
of them is set. -/
structure PcObserver where
  onIceCandidate : Bool
  onConnectionStateChange : Bool
  onTrackAdded : Bool
  onAudioFrame : Bool
  onVideoFrame : Bool

/-- `tinyrtc_pc_config_t`, less the fields that nothing reads. -/
structure PcConfig where
  stunServer : Option (List UInt8)
  observer : PcObserver
  isInitiator : Bool

/-- The reassembly fields of a track: the bytes in use of the buffer, and its
capacity, which is 0 as long as there is no buffer. -/
structure Reassembly where
  bytes : List UInt8
  capacity : Nat
  timestamp : UInt32
  active : Bool

def Reassembly.zero : Reassembly :=
  ⟨[], 0, 0, false⟩

/-- `struct tinyrtc_track`, less the back pointer. A local track has no jitter
buffer. -/
structure Track where
  kind : TrackKind
  codecId : CodecId
  mid : CStr 16
  payloadType : Int32
  clockRate : UInt32
  isLocal : Bool
  nextSequence : UInt16
  jitterBuffer : Option JitterBuffer
  reassembly : Reassembly
  framesSent : UInt64
  bytesSent : UInt64
  packetsReceived : UInt64
  framesReceived : UInt64

/-- `struct tinyrtc_peer_connection`, less the context, the mutex and the fields
that nothing reads. -/
structure PeerConnection where
  config : PcConfig
  state : PcState
  localTracks : Slots Track sdpMaxMedia
  remoteTracks : Slots Track sdpMaxMedia
  localSdp : SdpSession
  remoteSdp : SdpSession
  ice : Option IceSession
  dtls : Option DtlsContext
  srtpInitialized : Bool
  srtp : Option SrtpContext
  srtpRx : Option SrtpContext

/-- What a peer connection hands to the application or the network. A track is
named by its place in its table, and `accepted` says whether `sendto` took the
packet. -/
inductive PcEvent where
  | ice (output : IceOutput)
  | connectionStateChange (state : PcState)
  | trackAdded (track : Nat)
  | audioFrame (track : Nat) (frame : List UInt8) (timestamp : UInt32)
  | videoFrame (track : Nat) (frame : List UInt8) (timestamp : UInt32)
  | rtp (dest : SockAddr) (packet : List UInt8) (accepted : Bool)

/-- `tinyrtc_peer_connection_create` when its allocations succeed. -/
def tinyrtcPeerConnectionCreate (config : PcConfig) : PeerConnection :=
  { config := config
    state := .new
    localTracks := .empty
    remoteTracks := .empty
    localSdp := sdpSessionInit
    remoteSdp := sdpSessionInit
    ice := none
    dtls := none
    srtpInitialized := false
    srtp := none
    srtpRx := none }

/-- What the ICE session reads through its back pointer. -/
def PeerConnection.icePeer (pc : PeerConnection) : IcePeer where
  localUfrag := pc.localSdp.iceUfrag
  localPwd := pc.localSdp.icePwd
  remoteUfrag := pc.remoteSdp.iceUfrag
  remotePwd := pc.remoteSdp.icePwd
  isInitiator := pc.config.isInitiator
  onIceCandidate := pc.config.observer.onIceCandidate

def tinyrtcPeerConnectionClose (pc : PeerConnection) : PeerConnection × List PcEvent :=
  ({ pc with state := .closed },
    if pc.config.observer.onConnectionStateChange then [.connectionStateChange .closed] else [])

/-- The track that `tinyrtc_peer_connection_add_track` fills in. -/
def localTrackOfConfig (config : TrackConfig) : Track where
  kind := config.kind
  codecId := config.codecId
  mid := CStr.strncpy config.mid
  payloadType :=
    if config.payloadType ≠ 0 then config.payloadType
    else tinyrtcCodecGetDefaultPayload config.codecId
  clockRate :=
    if config.clockRate ≠ 0 then config.clockRate
    else tinyrtcCodecGetClockRate config.codecId
  isLocal := true
  nextSequence := 0
  jitterBuffer := none
  reassembly := .zero
  framesSent := 0
  bytesSent := 0
  packetsReceived := 0
  framesReceived := 0

/-- `none` is the source's `NULL`, which leaves the connection as it was. -/
def tinyrtcPeerConnectionAddTrack (callocOk : Bool) (pc : PeerConnection) (config : TrackConfig) :
    Option PeerConnection :=
  if !callocOk then none
  else
    (pc.localTracks.push? (localTrackOfConfig config)).map fun tracks =>
      { pc with localTracks := tracks }

def tinyrtcPeerConnectionRemoveTrack (pc : PeerConnection) (track : Nat) :
    TinyrtcError × PeerConnection :=
  if track < pc.localTracks.count then
    (.ok,
      { pc with
        localTracks :=
          ⟨pc.localTracks.items.eraseIdx track,
            Nat.le_trans (List.length_eraseIdx_le _ _) pc.localTracks.length_le⟩ })
  else (.notFound, pc)

def pcIsSecureMediaReady (pc : PeerConnection) : Bool :=
  match pc.ice with
  | none => false
  | some ice =>
      if ice.socket = none ∨ iceIsConnected ice = false then false else pc.srtpInitialized

end TinyRtc.Connection
