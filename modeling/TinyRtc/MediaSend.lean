import TinyRtc.Connection
import TinyRtc.Packetization

namespace TinyRtc.MediaSend

open TinyRtc.Common
open TinyRtc.Connection
open TinyRtc.Ice
open TinyRtc.Inet
open TinyRtc.Packetization
open TinyRtc.Rtp
open TinyRtc.SlotArray
open TinyRtc.Srtp

/-- `TINYRTC_SEND_MTU - TINYRTC_SRTP_AUTH_TAG_RESERVED`. -/
def sendMtu : UInt32 := 1500 - 10

/-- The header that `packetize_send_callback` writes. -/
def sentHeader (track : Track) (sequence : UInt16) (timestamp : UInt32) (marker : Bool) :
    RtpHeader where
  version := 2
  padding := false
  extension := false
  csrcCount := 0
  marker := marker
  payloadType := track.payloadType.toUInt32.toUInt8
  sequence := sequence
  timestamp := timestamp
  ssrc := 0
  csrc := []

/-- What the callbacks of one frame share: `packetize_context_t`, the send
context, the track's sequence number, and the packets handed to `sendto`. -/
structure SendState where
  sequence : UInt16
  srtp : Option SrtpContext
  nextSequence : UInt16
  events : List PcEvent

/-- The remote candidate of the selected pair. -/
def selectedRemote (pc : PeerConnection) : Option IceCandidateInternal :=
  pc.ice.bind fun ice =>
    (ice.selectedPair.bind fun i => ice.checkPairs.items[i]?).map ice.remoteOf

/-- One call of `packetize_send_callback`. `sent` is the result of `sendto`. The
bytes of the buffer behind the packet never leave it, so they are zeros here. -/
def packetizeSendCallback (crypto : Crypto) (pc : PeerConnection) (track : Track)
    (timestamp : UInt32) (sent : Bool) (s : SendState) (callback : PacketCallback) :
    Option SendState :=
  let header := sentHeader track s.sequence timestamp callback.marker
  let s := { s with sequence := s.sequence + 1 }
  let packet := tinyrtcRtpBuildHeader header rtpBufferSize ++ callback.payload
  if !pcIsSecureMediaReady pc then some s
  else
    let buffer := packet ++ List.replicate (rtpBufferSize - packet.length) 0x00
    let encrypted : Option (TinyrtcError × Option SrtpContext × List UInt8) :=
      match s.srtp with
      | none => some (.ok, none, packet)
      | some srtp =>
          (srtpEncryptPacket crypto srtp buffer packet.length rtpBufferSize).map fun result =>
            (result.error, some result.srtp, result.packet.take result.len)
    encrypted.map fun (err, srtp, packet) =>
      let s := { s with srtp := srtp }
      if err ≠ .ok then s
      else
        match selectedRemote pc with
        | none => s
        | some remote =>
            match inetPton remote.ip.bytes with
            | none => s
            | some addr =>
                { s with
                  nextSequence := if sent then s.sequence else s.nextSequence
                  events := s.events ++ [.rtp ⟨addr, remote.port⟩ packet sent] }

/-- The callbacks of a frame in order; `sent i` is the result of `sendto` for
packet `i`. -/
def sendCallbacks (crypto : Crypto) (pc : PeerConnection) (track : Track) (timestamp : UInt32)
    (sent : Nat → Bool) : (i : Nat) → List PacketCallback → SendState → Option SendState
  | _, [], s => some s
  | i, callback :: callbacks, s =>
      (packetizeSendCallback crypto pc track timestamp (sent i) s callback).bind
        (sendCallbacks crypto pc track timestamp sent (i + 1) callbacks)

/-- What the world answers to the packets of one frame. -/
structure SendEnv where
  malloc : Nat → Bool
  sent : Nat → Bool

/-- The common body of the two functions that send a frame. -/
def trackSendFrame (crypto : Crypto) (env : SendEnv) (pc : PeerConnection) (track : Nat)
    (frame : List UInt8) (timestamp : UInt32) :
    Option (TinyrtcError × PeerConnection × List PcEvent) :=
  match pc.localTracks.items[track]? with
  | none => some (.invalidArg, pc, [])
  | some sender =>
      if !sender.isLocal then some (.invalidState, pc, [])
      else if !pcIsSecureMediaReady pc then some (.invalidState, pc, [])
      else
        let packets := tinyrtcPacketizeFrame env.malloc sender.codecId sendMtu frame
        (sendCallbacks crypto pc sender timestamp env.sent 0 packets.callbacks
          ⟨sender.nextSequence, pc.srtp, sender.nextSequence, []⟩).map fun s =>
          let sender :=
            { sender with
              nextSequence := s.nextSequence
              framesSent := sender.framesSent + 1
              bytesSent := sender.bytesSent + frame.length.toUInt64 }
          let pc :=
            { pc with
              srtp := s.srtp
              localTracks := pc.localTracks.mapItems (fun tracks => tracks.set track sender)
                fun _ => List.length_set }
          (.ok, pc, s.events)

def tinyrtcTrackSendAudioFrame (crypto : Crypto) (env : SendEnv) (pc : PeerConnection)
    (track : Nat) (frame : List UInt8) (timestamp : UInt32) :
    Option (TinyrtcError × PeerConnection × List PcEvent) :=
  trackSendFrame crypto env pc track frame timestamp

def tinyrtcTrackSendVideoFrame (crypto : Crypto) (env : SendEnv) (pc : PeerConnection)
    (track : Nat) (frame : List UInt8) (timestamp : UInt32) :
    Option (TinyrtcError × PeerConnection × List PcEvent) :=
  trackSendFrame crypto env pc track frame timestamp

end TinyRtc.MediaSend
