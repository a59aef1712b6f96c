import TinyRtc.IncomingRtp
import TinyRtc.MediaSend
import TinyRtc.Negotiation

namespace TinyRtc.ProcessEvents

open TinyRtc.Common
open TinyRtc.Connection
open TinyRtc.Dtls
open TinyRtc.Ice
open TinyRtc.IncomingRtp
open TinyRtc.Inet
open TinyRtc.MediaSend
open TinyRtc.Negotiation
open TinyRtc.Sdp
open TinyRtc.SdpParser
open TinyRtc.Srtp

/-- The allocations of `pc_initialize_srtp_after_dtls`. -/
structure SrtpSetupEnv where
  callocOk : Bool
  sendOk : Bool
  receiveOk : Bool

/-- `hostOrder` gives the bytes of a 32-bit counter in memory. -/
def pcInitializeSrtpAfterDtls (crypto : Crypto) (hostOrder : UInt32 → List UInt8)
    (env : SrtpSetupEnv) (pc : PeerConnection) : TinyrtcError × PeerConnection :=
  match pc.dtls with
  | none => (.invalidState, pc)
  | some dtls =>
      match dtlsDeriveSrtpKeys crypto hostOrder env.callocOk dtls with
      | .error err => (err, pc)
      | .ok keys =>
          let client := srtpInit keys.clientKey keys.clientSalt
          let server := srtpInit keys.serverKey keys.serverSalt
          if !env.sendOk || !env.receiveOk then (.memory, pc)
          else
            (.ok,
              { pc with
                srtp := some (if pc.config.isInitiator then client else server)
                srtpRx := some (if pc.config.isInitiator then server else client)
                srtpInitialized := true })

/-- What one round of `tinyrtc_process_events` finds for a connection: the
datagram that is ready on its socket, the clock, the answers of mbedTLS to the
handshake steps in the order in which the round may take them, and the
allocations. -/
structure EventInput where
  datagram : Option Datagram
  now : UInt64
  checkClock : Nat → UInt64
  incoming : IncomingEnv
  firstHandshake : HandshakeEnv
  secondHandshake : HandshakeEnv
  certificate : Option (List UInt8)
  startHandshake : HandshakeEnv
  pollHandshake : HandshakeEnv
  srtpSetup : SrtpSetupEnv

/-- The handling of a datagram: ICE sees it first, and what is not STUN goes to
DTLS or to the media. -/
def processDatagram (crypto : Crypto) (input : EventInput) (pc : PeerConnection)
    (ice : IceSession) (datagram : Datagram) : Option (PeerConnection × List PcEvent) :=
  let (isMedia, ice, outputs) := iceProcessPacket crypto pc.icePeer ice datagram
  let pc := { pc with ice := some ice }
  let events := outputs.map .ice
  if !isMedia then some (pc, events)
  else
    match pc.dtls with
    | some dtls =>
        if !pc.srtpInitialized && iceIsConnected ice then
          let (_, dtls) := dtlsProcessData dtls input.firstHandshake input.secondHandshake
            datagram.bytes.length
          some ({ pc with dtls := some dtls }, events)
        else
          (pcProcessIncomingRtp crypto input.incoming pc datagram.bytes).map
            fun (_, pc, media) => (pc, events ++ media)
    | none =>
        (pcProcessIncomingRtp crypto input.incoming pc datagram.bytes).map
          fun (_, pc, media) => (pc, events ++ media)

/-- The connection becomes connected with its ICE session, and its DTLS handshake
is started. -/
def notifyConnected (crypto : Crypto) (input : EventInput) (pc : PeerConnection)
    (ice : IceSession) : PeerConnection × List PcEvent :=
  if pc.state ≠ .connected ∧ iceIsConnected ice = true then
    let pc := { pc with state := .connected }
    let dtls :=
      if pc.dtls.isNone then dtlsInit crypto (pcDtlsRole pc) input.certificate else pc.dtls
    let dtls := dtls.map fun dtls => (dtlsStart dtls input.startHandshake ice).2
    ({ pc with dtls := dtls },
      if pc.config.observer.onConnectionStateChange then [.connectionStateChange pc.state] else [])
  else (pc, [])

/-- The last part of a round: the handshake goes on, and its end installs the SRTP
contexts. -/
def pollDtls (crypto : Crypto) (hostOrder : UInt32 → List UInt8) (input : EventInput)
    (pc : PeerConnection) (ice : IceSession) : PeerConnection :=
  match pc.dtls with
  | none => pc
  | some dtls =>
      if !pc.srtpInitialized && iceIsConnected ice then
        let (_, dtls) := dtlsPollHandshake dtls input.pollHandshake
        let pc := { pc with dtls := some dtls }
        if dtlsIsHandshakeComplete dtls then
          (pcInitializeSrtpAfterDtls crypto hostOrder input.srtpSetup pc).2
        else pc
      else pc

/-- The turn of the loop in `tinyrtc_process_events` for one connection, which
touches no other one. -/
def tinyrtcProcessEvents (crypto : Crypto) (hostOrder : UInt32 → List UInt8) (input : EventInput)
    (pc : PeerConnection) : Option (PeerConnection × List PcEvent) :=
  match pc.ice with
  | none => some (pc, [])
  | some ice =>
      if ice.socket = none then some (pc, [])
      else
        let received :=
          match input.datagram with
          | none => some (pc, [])
          | some datagram =>
              if datagram.bytes.length = 0 then some (pc, [])
              else processDatagram crypto input pc ice datagram
        received.map fun (pc, received) =>
          match pc.ice with
          | none => (pc, received)
          | some ice =>
              let (ice, outputs) := iceCheckConnectivity crypto pc.icePeer ice input.now
                input.checkClock
              let pc := { pc with ice := some ice }
              let (pc, notified) := notifyConnected crypto input pc ice
              (pollDtls crypto hostOrder input pc ice, received ++ outputs.map .ice ++ notified)

/-- The calls of the public API on a connection, and the rounds of
`tinyrtc_process_events`, each with what the world answers to it. -/
inductive PcCall where
  | addTrack (callocOk : Bool) (config : TrackConfig)
  | removeTrack (track : Nat)
  | createOffer (env : DescriptionEnv)
  | setRemoteDescription (locals : Locals) (trackOk : Nat → Bool) (sdp : List UInt8)
  | createAnswer (env : DescriptionEnv)
  | addIceCandidate (candidate : IceCandidate)
  | close
  | sendAudioFrame (env : SendEnv) (track : Nat) (frame : List UInt8) (timestamp : UInt32)
  | sendVideoFrame (env : SendEnv) (track : Nat) (frame : List UInt8) (timestamp : UInt32)
  | processEvents (input : EventInput)

/-- What a call leaves behind, less its result. `none` when its behaviour is
undefined. -/
def pcCall (crypto : Crypto) (hostOrder : UInt32 → List UInt8) (pc : PeerConnection) :
    PcCall → Option (PeerConnection × List PcEvent)
  | .addTrack callocOk config =>
      some ((tinyrtcPeerConnectionAddTrack callocOk pc config).getD pc, [])
  | .removeTrack track => some ((tinyrtcPeerConnectionRemoveTrack pc track).2, [])
  | .createOffer env => (tinyrtcPeerConnectionCreateOffer crypto env pc).map Prod.snd
  | .setRemoteDescription locals trackOk sdp =>
      (tinyrtcPeerConnectionSetRemoteDescription locals trackOk pc sdp).map Prod.snd
  | .createAnswer env => (tinyrtcPeerConnectionCreateAnswer crypto env pc).map Prod.snd
  | .addIceCandidate candidate =>
      some ((tinyrtcPeerConnectionAddIceCandidate pc candidate).2, [])
  | .close => some (tinyrtcPeerConnectionClose pc)
  | .sendAudioFrame env track frame timestamp =>
      (tinyrtcTrackSendAudioFrame crypto env pc track frame timestamp).map Prod.snd
  | .sendVideoFrame env track frame timestamp =>
      (tinyrtcTrackSendVideoFrame crypto env pc track frame timestamp).map Prod.snd
  | .processEvents input => tinyrtcProcessEvents crypto hostOrder input pc

/-- One call of a run, with the events it raises. -/
def PcStep (crypto : Crypto) (hostOrder : UInt32 → List UInt8) (pc : PeerConnection)
    (call : PcCall × List PcEvent) (pc' : PeerConnection) : Prop :=
  pcCall crypto hostOrder pc call.1 = some (pc', call.2)

end TinyRtc.ProcessEvents
