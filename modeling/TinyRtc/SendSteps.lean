import Mathlib.Logic.Relation
import TinyRtc.MediaSend

namespace TinyRtc.SendSteps

open TinyRtc.Common
open TinyRtc.Connection
open TinyRtc.Ice
open TinyRtc.Inet
open TinyRtc.MediaSend
open TinyRtc.Packetization
open TinyRtc.Rtp
open TinyRtc.Srtp

theorem payloadType_bits : ∀ payloadType : UInt8,
    payloadType &&& 0x7F < 128 ∧ (payloadType &&& 0x7F) &&& 0x7F = payloadType &&& 0x7F := by
  decide +kernel

section

variable (track : Track) (sequence : UInt16) (timestamp : UInt32) (marker : Bool)

theorem build_sentHeader :
    ∃ header, Buildable header ∧ header.csrc = [] ∧
      header.payloadType = track.payloadType.toUInt32.toUInt8 &&& 0x7F ∧
      tinyrtcRtpBuildHeader (sentHeader track sequence timestamp marker) rtpBufferSize =
        tinyrtcRtpBuildHeader header rtpBufferSize := by
  obtain ⟨hlt, hmask⟩ := payloadType_bits track.payloadType.toUInt32.toUInt8
  refine ⟨{ sentHeader track sequence timestamp marker with
      payloadType := track.payloadType.toUInt32.toUInt8 &&& 0x7F },
    ⟨rfl, rfl, rfl, (by decide : (0 : UInt8) < 16), hlt⟩, rfl, rfl, ?_⟩
  rw [tinyrtcRtpBuildHeader, tinyrtcRtpBuildHeader]
  simp only [sentHeader, hmask]
  rfl

theorem sentHeader_length :
    (tinyrtcRtpBuildHeader (sentHeader track sequence timestamp marker) rtpBufferSize).length =
      headerLen := by
  obtain ⟨header, hb, hcsrc, -, hbuild⟩ := build_sentHeader track sequence timestamp marker
  rw [hbuild, build_length hb]
  · rw [hcsrc]
    rfl
  · rw [hcsrc]
    decide

end

/-- The packet as it is before it is encrypted. -/
def plainPacket (track : Track) (timestamp : UInt32) (sequence : UInt16)
    (callback : PacketCallback) : List UInt8 :=
  tinyrtcRtpBuildHeader (sentHeader track sequence timestamp callback.marker) rtpBufferSize ++
    callback.payload

/-- `packet` is what a successful `srtp_encrypt_packet` makes of `plain` in the buffer of
a callback, and `srtp'` is the context behind it. -/
def Encrypts (crypto : Crypto) (srtp : SrtpContext) (plain packet : List UInt8)
    (srtp' : SrtpContext) : Prop :=
  ∃ result, srtpEncryptPacket crypto srtp
      (plain ++ List.replicate (rtpBufferSize - plain.length) 0x00) plain.length rtpBufferSize =
        some result ∧
    result.error = .ok ∧ packet = result.packet.take result.len ∧ srtp' = result.srtp

/-- What goes out for `plain`: without a context it goes out as it is. -/
def GoesOut (crypto : Crypto) (plain packet : List UInt8) :
    (srtp srtp' : Option SrtpContext) → Prop
  | none, srtp' => packet = plain ∧ srtp' = none
  | some srtp, srtp' => ∃ next, Encrypts crypto srtp plain packet next ∧ srtp' = some next

/-- One more packet has been made ready with the send context. -/
def ContextStep (crypto : Crypto) (srtp srtp' : Option SrtpContext) : Prop :=
  ∃ plain packet, GoesOut crypto plain packet srtp srtp'

/-- The courses of a call of `packetize_send_callback`: it gives up, or it hands a packet
to `sendto`. -/
inductive CallbackStep (crypto : Crypto) (pc : PeerConnection) (track : Track)
    (timestamp : UInt32) (sent : Bool) (callback : PacketCallback) (s : SendState) :
    SendState → Prop
  | failed {srtp : Option SrtpContext} (hsrtp : Relation.ReflGen (ContextStep crypto) s.srtp srtp) :
      CallbackStep crypto pc track timestamp sent callback s
        ⟨s.sequence + 1, srtp, s.nextSequence, s.events⟩
  | handed {srtp : Option SrtpContext} {remote : IceCandidateInternal} {addr : UInt32}
      {packet : List UInt8} (hready : pcIsSecureMediaReady pc = true)
      (hremote : selectedRemote pc = some remote) (haddr : inetPton remote.ip.bytes = some addr)
      (hpacket : GoesOut crypto (plainPacket track timestamp s.sequence callback) packet s.srtp
        srtp) :
      CallbackStep crypto pc track timestamp sent callback s
        ⟨s.sequence + 1, srtp, if sent then s.sequence + 1 else s.nextSequence,
          s.events ++ [.rtp ⟨addr, remote.port⟩ packet sent]⟩

section

variable {crypto : Crypto} {pc : PeerConnection} {track : Track} {timestamp : UInt32}

theorem srtpEncryptPacket_header {srtp : SrtpContext} {header payload rest : List UInt8}
    {result : SrtpResult} {len maxLen : Nat} (hheader : header.length = headerLen)
    (h : srtpEncryptPacket crypto srtp (header ++ payload ++ rest) len maxLen = some result)
    (hok : result.error = .ok) : ∃ tail, result.packet.take result.len = header ++ tail := by
  rw [srtpEncryptPacket] at h
  split at h
  · cases h
    cases hok
  · split at h
    · cases h
    · next hlen =>
      cases h
      dsimp only
      have htake : (header ++ payload ++ rest).take headerLen = header := by
        rw [List.append_assoc, ← hheader, List.take_left]
      rw [htake, List.append_assoc, List.append_assoc, List.take_append,
        List.take_of_length_le (by omega)]
      exact ⟨_, rfl⟩

/-- The header leaves in the clear. -/
theorem GoesOut.header {sequence : UInt16} {callback : PacketCallback} {packet : List UInt8}
    {srtp srtp' : Option SrtpContext}
    (h : GoesOut crypto (plainPacket track timestamp sequence callback) packet srtp srtp') :
    ∃ tail, packet =
      tinyrtcRtpBuildHeader (sentHeader track sequence timestamp callback.marker) rtpBufferSize ++
        tail := by
  cases srtp with
  | none => exact ⟨_, h.1⟩
  | some context =>
      obtain ⟨next, ⟨result, hresult, hok, rfl, -⟩, -⟩ := h
      rw [plainPacket] at hresult
      exact srtpEncryptPacket_header (sentHeader_length _ _ _ _) hresult hok

theorem packetizeSendCallback_step {sent : Bool} {callback : PacketCallback} {s s' : SendState}
    (h : packetizeSendCallback crypto pc track timestamp sent s callback = some s') :
    CallbackStep crypto pc track timestamp sent callback s s' := by
  rw [packetizeSendCallback] at h
  dsimp only at h
  split at h
  · cases h
    exact .failed .refl
  · next hready =>
    have hready : pcIsSecureMediaReady pc = true := by simpa using hready
    obtain ⟨⟨err, srtp, packet⟩, hencrypted, hresult⟩ := Option.map_eq_some_iff.mp h
    have hcourse : (err ≠ .ok ∧ srtp = s.srtp) ∨ (err = .ok ∧
        GoesOut crypto (plainPacket track timestamp s.sequence callback) packet s.srtp srtp) := by
      split at hencrypted
      · next hnone =>
        cases hencrypted
        rw [hnone]
        exact .inr ⟨rfl, rfl, rfl⟩
      · next context hcontext =>
        obtain ⟨result, hresult', heq⟩ := Option.map_eq_some_iff.mp hencrypted
        cases heq
        rw [hcontext]
        by_cases hok : result.error = .ok
        · exact .inr ⟨hok, result.srtp, ⟨result, hresult', hok, rfl, rfl⟩, rfl⟩
        · refine .inl ⟨hok, ?_⟩
          rw [srtpEncryptPacket] at hresult'
          split at hresult'
          · cases hresult'
            rfl
          · split at hresult'
            · cases hresult'
            · cases hresult'
              exact absurd rfl hok
    dsimp only at hresult
    rcases hcourse with ⟨herr, rfl⟩ | ⟨rfl, hout⟩
    · rw [if_pos herr] at hresult
      cases hresult
      exact .failed .refl
    · rw [if_neg (not_not.mpr rfl)] at hresult
      have hstep : ContextStep crypto s.srtp srtp := ⟨_, _, hout⟩
      split at hresult
      · cases hresult
        exact .failed (.single hstep)
      · next remote hremote =>
        split at hresult
        · cases hresult
          exact .failed (.single hstep)
        · next addr haddr =>
          cases hresult
          exact .handed hready hremote haddr hout

end

/-- The connection behind a frame of the track at a place. -/
def afterSend (pc : PeerConnection) (place : Nat) (track : Track) (frame : List UInt8)
    (s : SendState) : PeerConnection :=
  { pc with
    srtp := s.srtp
    localTracks := pc.localTracks.mapItems (fun tracks => tracks.set place
        { track with
          nextSequence := s.nextSequence
          framesSent := track.framesSent + 1
          bytesSent := track.bytesSent + frame.length.toUInt64 })
      fun _ => List.length_set }

/-- A send call is refused, or packetizes the frame. -/
inductive SendCourse (crypto : Crypto) (env : SendEnv) (pc : PeerConnection) (place : Nat)
    (frame : List UInt8) (timestamp : UInt32) :
    TinyrtcError → PeerConnection → List PcEvent → Prop
  | refused {err : TinyrtcError}
      (hrefused : ∀ track, pc.localTracks.items[place]? = some track → track.isLocal = true →
        pcIsSecureMediaReady pc = false) :
      SendCourse crypto env pc place frame timestamp err pc []
  | sent {track : Track} {s : SendState} (htrack : pc.localTracks.items[place]? = some track)
      (hlocal : track.isLocal = true) (hready : pcIsSecureMediaReady pc = true)
      (hsends : sendCallbacks crypto pc track timestamp env.sent 0
        (tinyrtcPacketizeFrame env.malloc track.codecId sendMtu frame).callbacks
        ⟨track.nextSequence, pc.srtp, track.nextSequence, []⟩ = some s) :
      SendCourse crypto env pc place frame timestamp .ok (afterSend pc place track frame s) s.events

theorem trackSendFrame_course {crypto : Crypto} {env : SendEnv} {pc pc' : PeerConnection}
    {place : Nat} {frame : List UInt8} {timestamp : UInt32} {err : TinyrtcError}
    {events : List PcEvent}
    (h : trackSendFrame crypto env pc place frame timestamp = some (err, pc', events)) :
    SendCourse crypto env pc place frame timestamp err pc' events := by
  rw [trackSendFrame] at h
  cases htrack : pc.localTracks.items[place]? with
  | none =>
      rw [htrack] at h
      cases h
      refine .refused fun track hsome => ?_
      cases htrack.symm.trans hsome
  | some track =>
      rw [htrack] at h
      dsimp only at h
      split at h
      · next hremote =>
        cases h
        refine .refused fun track' hsome hlocal => ?_
        cases htrack.symm.trans hsome
        rw [hlocal] at hremote
        cases hremote
      · next hlocal =>
        split at h
        · next hunready =>
          cases h
          exact .refused fun _ _ _ => by simpa using hunready
        · next hready =>
          obtain ⟨s, hsends, hresult⟩ := Option.map_eq_some_iff.mp h
          cases hresult
          exact .sent htrack (by simpa using hlocal) (by simpa using hready) hsends

end TinyRtc.SendSteps
