import TinyRtc.Connection
import TinyRtc.Packetization

namespace TinyRtc.IncomingRtp

open TinyRtc.Common
open TinyRtc.Connection
open TinyRtc.Jitter
open TinyRtc.MediaCodec
open TinyRtc.Packetization
open TinyRtc.Rtp
open TinyRtc.Sdp
open TinyRtc.SlotArray
open TinyRtc.Srtp

/-- The capacity of the frame buffer of `pc_process_incoming_rtp`. -/
def frameBufferSize : Nat := 4096

/-- What the world answers while a packet is processed. -/
structure IncomingEnv where
  now : UInt64
  mallocOk : Bool
  reallocOk : Bool

def trackResetReassembly (r : Reassembly) : Reassembly :=
  { r with bytes := [], timestamp := 0, active := false }

/-- The loop that doubles a capacity up to what is needed, which takes fewer turns
than that has bytes. -/
def growCapacity (needed : Nat) : (fuel capacity : Nat) → Nat
  | 0, capacity => capacity
  | fuel + 1, capacity =>
      if capacity < needed then growCapacity needed fuel (capacity * 2) else capacity

/-- `none` is the source's `false`, which leaves the track as it was. -/
def trackAppendReassembly (reallocOk : Bool) (r : Reassembly) (data : List UInt8) :
    Option Reassembly :=
  if data.length = 0 then some r
  else if r.bytes.length + data.length ≤ r.capacity then
    some { r with bytes := r.bytes ++ data }
  else if !reallocOk then none
  else
    let needed := r.bytes.length + data.length
    let capacity := if r.capacity = 0 then 4096 else r.capacity
    some { r with bytes := r.bytes ++ data, capacity := growCapacity needed needed capacity }

/-- The reassembly of an H264 track for the bytes of one packet, of which there is
at least one. On failure the fields are reset. -/
def reassemble (reallocOk : Bool) (timestamp : UInt32) (frame : List UInt8) (r : Reassembly) :
    Bool × Reassembly :=
  let r :=
    if r.active ∧ r.timestamp ≠ timestamp ∧ r.bytes.length > 0 then trackResetReassembly r else r
  let r := if !r.active then { r with timestamp := timestamp, active := true } else r
  match trackAppendReassembly reallocOk r frame with
  | none => (false, trackResetReassembly r)
  | some r => (true, r)

/-- The part of `pc_process_incoming_rtp` behind the jitter buffer, on the matched
track: the result, the track, and the frame that is complete. -/
def processTrackPacket (reallocOk : Bool) (track : Track) (packet : List UInt8)
    (timestamp : UInt32) : TinyrtcError × Track × Option (List UInt8) :=
  let (frameComplete, frame) := tinyrtcDepacketizeFrame track.codecId packet frameBufferSize
  let (appended, reassembly) :=
    if frame.length > 0 ∧ track.codecId = .h264 then
      reassemble reallocOk timestamp frame track.reassembly
    else (true, track.reassembly)
  if !appended then (.memory, { track with reassembly := reassembly }, none)
  else if !frameComplete then (.ok, { track with reassembly := reassembly }, none)
  else if track.codecId = .h264 then
    (.ok,
      { track with
        reassembly := trackResetReassembly reassembly
        framesReceived := track.framesReceived + 1 }, some reassembly.bytes)
  else
    (.ok,
      { track with
        reassembly := reassembly
        framesReceived := track.framesReceived + 1 }, some frame)

/-- The callback for a complete frame, if the application has set it. -/
def frameEvents (observer : PcObserver) (kind : TrackKind) (track : Nat) (frame : List UInt8)
    (timestamp : UInt32) : List PcEvent :=
  match kind with
  | .audio => if observer.onAudioFrame then [.audioFrame track frame timestamp] else []
  | .video => if observer.onVideoFrame then [.videoFrame track frame timestamp] else []

/-- A change to one remote track. -/
def setRemoteTrack (pc : PeerConnection) (i : Nat) (track : Track) : PeerConnection :=
  { pc with
    remoteTracks := pc.remoteTracks.mapItems (fun tracks => tracks.set i track)
      fun _ => List.length_set }

/-- The first remote track with the payload type. -/
def matchTrack (pc : PeerConnection) (payloadType : UInt8) : Option Nat :=
  pc.remoteTracks.items.findIdx? fun track => track.payloadType == payloadType.toUInt32.toInt32

/-- The part of `pc_process_incoming_rtp` behind the decryption. `none` when the
jitter buffer has no slots. -/
def processPlainRtp (env : IncomingEnv) (pc : PeerConnection) (packet : List UInt8) :
    Option (TinyrtcError × PeerConnection × List PcEvent) :=
  match tinyrtcRtpParseHeader packet with
  | none => some (.error, pc, [])
  | some header =>
      match matchTrack pc header.payloadType with
      | none => some (.notFound, pc, [])
      | some i =>
          match pc.remoteTracks.items[i]? with
          | none => some (.notFound, pc, [])
          | some track =>
              let added : Option (TinyrtcError × Option JitterBuffer) :=
                match track.jitterBuffer with
                | none => some (.invalidArg, none)
                | some jb =>
                    (tinyrtcJitterBufferAddPacket env.mallocOk jb packet env.now).map
                      fun (err, jb) => (err, some jb)
              added.map fun (err, jb) =>
                let track :=
                  { track with
                    jitterBuffer := jb
                    packetsReceived := track.packetsReceived + 1 }
                if err ≠ .ok then (err, setRemoteTrack pc i track, [])
                else
                  let (err, track, frame) :=
                    processTrackPacket env.reallocOk track packet header.timestamp
                  (err, setRemoteTrack pc i track,
                    match frame with
                    | none => []
                    | some frame =>
                        frameEvents pc.config.observer track.kind i frame header.timestamp)

def pcProcessIncomingRtp (crypto : Crypto) (env : IncomingEnv) (pc : PeerConnection)
    (packet : List UInt8) : Option (TinyrtcError × PeerConnection × List PcEvent) :=
  match pc.srtpRx with
  | none => processPlainRtp env pc packet
  | some srtpRx =>
      let result := srtpDecryptPacket crypto srtpRx packet packet.length
      let pc := { pc with srtpRx := some result.srtp }
      if result.error ≠ .ok then some (result.error, pc, [])
      else processPlainRtp env pc (result.packet.take result.len)

end TinyRtc.IncomingRtp
