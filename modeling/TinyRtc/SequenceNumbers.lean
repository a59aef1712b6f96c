import TinyRtc.NegotiatedPayload
import TinyRtc.SerialNumbers
import TinyRtc.SrtpKeystream

namespace TinyRtc.SequenceNumbers

open TinyRtc.BigEndian
open TinyRtc.CallEffects
open TinyRtc.Common
open TinyRtc.Connection
open TinyRtc.LabelledRuns
open TinyRtc.LocalTracks
open TinyRtc.MediaSend
open TinyRtc.NegotiatedPayload
open TinyRtc.Packetization
open TinyRtc.ProcessEvents
open TinyRtc.Rtp
open TinyRtc.SecureMedia
open TinyRtc.SendSteps
open TinyRtc.SerialNumbers
open TinyRtc.Srtp
open TinyRtc.SrtpKeystream

def packetTimestamp (packet : List UInt8) : UInt32 :=
  read32 (packet.getD 4 0) (packet.getD 5 0) (packet.getD 6 0) (packet.getD 7 0)

/-- The media packets that the network has taken. -/
def transmissions (events : List PcEvent) : List (List UInt8) :=
  events.filterMap fun
    | .rtp _ packet true => some packet
    | _ => none

/-- What became of a call of `packetize_send_callback`: the packet if it was transmitted,
nothing if the attempt has failed. -/
def attempt (s s' : SendState) : Option (List UInt8) :=
  (transmissions (s'.events.drop s.events.length)).head?

/-- What became of the callbacks of a frame, in order. -/
def attempts (crypto : Crypto) (pc : PeerConnection) (track : Track) (timestamp : UInt32)
    (sent : Nat → Bool) : (i : Nat) → List PacketCallback → SendState →
      List (Option (List UInt8))
  | _, [], _ => []
  | i, callback :: callbacks, s =>
      match packetizeSendCallback crypto pc track timestamp (sent i) s callback with
      | none => []
      | some s' => attempt s s' :: attempts crypto pc track timestamp sent (i + 1) callbacks s'

/-- The attempts to send a frame, which is refused as a whole before the first one if the
track cannot send. -/
def frameAttempts (crypto : Crypto) (env : SendEnv) (pc : PeerConnection) (place : Nat)
    (frame : List UInt8) (timestamp : UInt32) : List (Option (List UInt8)) :=
  match pc.localTracks.items[place]? with
  | none => []
  | some sender =>
      if !sender.isLocal then []
      else if !pcIsSecureMediaReady pc then []
      else
        attempts crypto pc sender timestamp env.sent 0
          (tinyrtcPacketizeFrame env.malloc sender.codecId sendMtu frame).callbacks
          ⟨sender.nextSequence, pc.srtp, sender.nextSequence, []⟩

section

variable {crypto : Crypto} {pc pc' : PeerConnection} {track : Track} {timestamp : UInt32}

theorem header_fields (sequence : UInt16) (marker : Bool) (tail : List UInt8) :
    packetSequence (tinyrtcRtpBuildHeader (sentHeader track sequence timestamp marker)
        rtpBufferSize ++ tail) = sequence ∧
      packetTimestamp (tinyrtcRtpBuildHeader (sentHeader track sequence timestamp marker)
        rtpBufferSize ++ tail) = timestamp := by
  have hext : (sentHeader track sequence timestamp marker).extension = false := rfl
  have hcsrc : (sentHeader track sequence timestamp marker).csrc = [] := rfl
  rw [tinyrtcRtpBuildHeader, hext, hcsrc, if_neg Bool.false_ne_true, if_neg (by decide)]
  exact ⟨read16_write16 sequence, read32_write32 timestamp⟩

theorem transmissions_append (first second : List PcEvent) :
    transmissions (first ++ second) = transmissions first ++ transmissions second :=
  List.filterMap_append

/-- An attempt fails, or it transmits a packet with the number of the frame's counter, which
the track takes over. -/
theorem attempt_cases {sent : Bool} {callback : PacketCallback} {s s' : SendState}
    (h : packetizeSendCallback crypto pc track timestamp sent s callback = some s') :
    s'.sequence = s.sequence + 1 ∧
      transmissions s'.events = transmissions s.events ++ (attempt s s').toList ∧
      ((attempt s s' = none ∧ s'.nextSequence = s.nextSequence) ∨
        ∃ packet, attempt s s' = some packet ∧ packetSequence packet = s.sequence ∧
          packetTimestamp packet = timestamp ∧ s'.nextSequence = s.sequence + 1) := by
  have hnothing : ∀ srtp, attempt s ⟨s.sequence + 1, srtp, s.nextSequence, s.events⟩ = none := by
    intro srtp
    rw [attempt, List.drop_length]
    rfl
  have hpacket : ∀ srtp nextSequence dest packet, attempt s
      ⟨s.sequence + 1, srtp, nextSequence, s.events ++ [.rtp dest packet sent]⟩ =
        if sent then some packet else none := by
    intro srtp nextSequence dest packet
    rw [attempt, List.drop_left]
    cases sent <;> rfl
  cases packetizeSendCallback_step h with
  | failed => exact ⟨rfl, by simp [hnothing], .inl ⟨hnothing _, rfl⟩⟩
  | handed hready hremote haddr hout =>
      obtain ⟨tail, rfl⟩ := hout.header
      obtain ⟨hsequence, htimestamp⟩ :=
        @header_fields track timestamp s.sequence callback.marker tail
      rw [hpacket, transmissions_append]
      cases sent with
      | false => exact ⟨rfl, rfl, .inl ⟨rfl, rfl⟩⟩
      | true => exact ⟨rfl, rfl, .inr ⟨_, rfl, hsequence, htimestamp, rfl⟩⟩

/-- The counter of the frame is as far past the track's as attempts have failed since the
last transmission. -/
theorem attempts_numbered {sent : Nat → Bool} {i : Nat} {callbacks : List PacketCallback}
    {s s' : SendState} {failed : Nat}
    (h : sendCallbacks crypto pc track timestamp sent i callbacks s = some s')
    (hfailed : s.sequence = s.nextSequence + failed.toUInt16) :
    Numbered packetSequence s.nextSequence failed
        (attempts crypto pc track timestamp sent i callbacks s) ∧
      s'.nextSequence = numberAfter packetSequence s.nextSequence
        (attempts crypto pc track timestamp sent i callbacks s) := by
  induction callbacks generalizing i s failed with
  | nil =>
      cases h
      exact ⟨trivial, rfl⟩
  | cons callback callbacks ih =>
      obtain ⟨next, hnext, hrest⟩ := Option.bind_eq_some_iff.mp h
      obtain ⟨hsequence, -, hattempt⟩ := attempt_cases hnext
      rw [attempts, hnext]
      dsimp only
      rcases hattempt with ⟨hnone, hsame⟩ | ⟨packet, hsome, hnumber, -, hcommitted⟩
      · have hlater : next.sequence = next.nextSequence + (failed + 1).toUInt16 := by
          rw [hsequence, hfailed, hsame, UInt16.add_assoc]
          congr 1
          exact (UInt16.ofNat_add failed 1).symm
        obtain ⟨hnumbered, hafter⟩ := ih hrest hlater
        rw [hsame] at hnumbered hafter
        rw [hnone]
        exact ⟨hnumbered, hafter⟩
      · have hlater : next.sequence = next.nextSequence + (0 : Nat).toUInt16 := by
          rw [hsequence, hcommitted]
          exact (UInt16.add_zero _).symm
        obtain ⟨hnumbered, hafter⟩ := ih hrest hlater
        have hnextNumber : next.nextSequence = packetSequence packet + 1 := by
          rw [hcommitted, hnumber]
        rw [hnextNumber] at hnumbered hafter
        rw [hsome]
        exact ⟨⟨⟨failed, le_rfl, hnumber.trans hfailed⟩, hnumbered⟩, hafter⟩

/-- One attempt for every packet of the frame, all with its timestamp, and what was
transmitted is what the network has taken. -/
theorem attempts_events {sent : Nat → Bool} {i : Nat} {callbacks : List PacketCallback}
    {s s' : SendState} (h : sendCallbacks crypto pc track timestamp sent i callbacks s = some s') :
    (attempts crypto pc track timestamp sent i callbacks s).length = callbacks.length ∧
      (∀ packet, some packet ∈ attempts crypto pc track timestamp sent i callbacks s →
        packetTimestamp packet = timestamp) ∧
      transmissions s'.events = transmissions s.events ++
        (attempts crypto pc track timestamp sent i callbacks s).filterMap id := by
  induction callbacks generalizing i s with
  | nil =>
      cases h
      exact ⟨rfl, fun _ hmem => absurd hmem List.not_mem_nil, (List.append_nil _).symm⟩
  | cons callback callbacks ih =>
      obtain ⟨next, hnext, hrest⟩ := Option.bind_eq_some_iff.mp h
      obtain ⟨-, hevents, hattempt⟩ := attempt_cases hnext
      obtain ⟨hlength, htimestamps, htransmitted⟩ := ih hrest
      rw [attempts, hnext]
      dsimp only
      refine ⟨by rw [List.length_cons, hlength, List.length_cons], ?_, ?_⟩
      · intro packet hmem
        rcases List.mem_cons.mp hmem with hmem | hmem
        · rcases hattempt with ⟨hnone, -⟩ | ⟨packet', hsome, -, htimestamp, -⟩
          · rw [hnone] at hmem
            cases hmem
          · rw [hsome] at hmem
            cases hmem
            exact htimestamp
        · exact htimestamps packet hmem
      · rw [htransmitted, hevents, List.append_assoc]
        cases attempt s next <;> rfl

/-- What a send call did with its frame. -/
structure SentFrame where
  timestamp : UInt32
  attempts : List (Option (List UInt8))

/-- The frame that a call sends on the track at `place`, if it sends one there. -/
def sentFrames (crypto : Crypto) (pc : PeerConnection) (place : Nat) : PcCall → List SentFrame
  | .sendAudioFrame env track frame timestamp | .sendVideoFrame env track frame timestamp =>
      if track = place then [⟨timestamp, frameAttempts crypto env pc place frame timestamp⟩] else []
  | _ => []

/-- The numbers of a frame go on from the track's, and the track's go on from the frame's. -/
theorem frameAttempts_of_refused {env : SendEnv} {place : Nat} {frame : List UInt8}
    (hrefused : ∀ track, pc.localTracks.items[place]? = some track → track.isLocal = true →
      pcIsSecureMediaReady pc = false) :
    frameAttempts crypto env pc place frame timestamp = [] := by
  rw [frameAttempts]
  cases htrack : pc.localTracks.items[place]? with
  | none => rfl
  | some track =>
      cases hlocal : track.isLocal with
      | false => simp [hlocal]
      | true => simp [hlocal, hrefused track htrack hlocal]

theorem frameAttempts_of_sent {env : SendEnv} {place : Nat} {frame : List UInt8}
    (htrack : pc.localTracks.items[place]? = some track) (hlocal : track.isLocal = true)
    (hready : pcIsSecureMediaReady pc = true) :
    frameAttempts crypto env pc place frame timestamp =
      attempts crypto pc track timestamp env.sent 0
        (tinyrtcPacketizeFrame env.malloc track.codecId sendMtu frame).callbacks
        ⟨track.nextSequence, pc.srtp, track.nextSequence, []⟩ := by
  rw [frameAttempts, htrack]
  simp [hlocal, hready]

theorem trackSendFrame_numbered {env : SendEnv} {place : Nat} {frame : List UInt8}
    {err : TinyrtcError} {events : List PcEvent}
    (h : trackSendFrame crypto env pc place frame timestamp = some (err, pc', events))
    (htrack : pc.localTracks.items[place]? = some track) :
    Numbered packetSequence track.nextSequence 0
        (frameAttempts crypto env pc place frame timestamp) ∧
      ∃ track', pc'.localTracks.items[place]? = some track' ∧
        track'.nextSequence = numberAfter packetSequence track.nextSequence
          (frameAttempts crypto env pc place frame timestamp) := by
  cases trackSendFrame_course h with
  | refused hrefused =>
      rw [frameAttempts_of_refused hrefused]
      exact ⟨trivial, track, htrack, rfl⟩
  | sent htrack' hlocal hready hsends =>
      cases htrack.symm.trans htrack'
      rw [frameAttempts_of_sent htrack hlocal hready]
      have hstart : track.nextSequence = track.nextSequence + (0 : Nat).toUInt16 :=
        (UInt16.add_zero _).symm
      obtain ⟨hnumbered, hafter⟩ := attempts_numbered hsends hstart
      exact ⟨hnumbered, _, List.getElem?_set_self (List.getElem?_eq_some_iff.mp htrack).1, hafter⟩

theorem frameAttempts_events {env : SendEnv} {place : Nat} {frame : List UInt8}
    {err : TinyrtcError} {events : List PcEvent}
    (h : trackSendFrame crypto env pc place frame timestamp = some (err, pc', events)) :
    (∀ packet, some packet ∈ frameAttempts crypto env pc place frame timestamp →
        packetTimestamp packet = timestamp) ∧
      transmissions events = (frameAttempts crypto env pc place frame timestamp).filterMap id := by
  cases trackSendFrame_course h with
  | refused hrefused =>
      rw [frameAttempts_of_refused hrefused]
      exact ⟨fun _ hmem => absurd hmem List.not_mem_nil, rfl⟩
  | sent htrack hlocal hready hsends =>
      rw [frameAttempts_of_sent htrack hlocal hready]
      obtain ⟨-, htimestamps, htransmitted⟩ := attempts_events hsends
      exact ⟨htimestamps, htransmitted⟩

variable {hostOrder : UInt32 → List UInt8}

/-- A send call on a track, in the two functions' common form. -/
theorem sendsOn_step {call : PcCall} {events : List PcEvent} {place : Nat}
    (h : PcStep crypto hostOrder pc (call, events) pc') (hsends : SendsOn place call) :
    ∃ env frame timestamp err, placeAfterCall place call = some place ∧
      sentFrames crypto pc place call =
        [⟨timestamp, frameAttempts crypto env pc place frame timestamp⟩] ∧
      trackSendFrame crypto env pc place frame timestamp = some (err, pc', events) := by
  cases call with
  | sendAudioFrame env track frame timestamp =>
      obtain ⟨⟨err, result⟩, hsend, rfl⟩ := Option.map_eq_some_iff.mp h
      cases hsends
      exact ⟨env, frame, timestamp, err, rfl, if_pos rfl, hsend⟩
  | sendVideoFrame env track frame timestamp =>
      obtain ⟨⟨err, result⟩, hsend, rfl⟩ := Option.map_eq_some_iff.mp h
      cases hsends
      exact ⟨env, frame, timestamp, err, rfl, if_pos rfl, hsend⟩
  | _ => exact hsends.elim

theorem sentFrames_of_not_sendsOn {call : PcCall} {place : Nat} (h : ¬ SendsOn place call) :
    sentFrames crypto pc place call = [] := by
  cases call with
  | sendAudioFrame env track frame timestamp => exact if_neg h
  | sendVideoFrame env track frame timestamp => exact if_neg h
  | _ => rfl

/-- What a send call transmits are the packets of its attempts. -/
theorem sentFrames_transmissions {call : PcCall} {events : List PcEvent} {place : Nat}
    (h : PcStep crypto hostOrder pc (call, events) pc') (hsends : SendsOn place call) :
    transmissions events =
      ((sentFrames crypto pc place call).flatMap SentFrame.attempts).filterMap id := by
  obtain ⟨env, frame, timestamp, err, -, hframes, hsend⟩ := sendsOn_step h hsends
  rw [hframes, (frameAttempts_events hsend).2, List.flatMap_cons, List.flatMap_nil, List.append_nil]

end

/-- A run of calls with the frames that it sends on one track, wherever the track moves to
in its table. -/
inductive TrackRun (crypto : Crypto) (hostOrder : UInt32 → List UInt8) :
    PeerConnection → Nat → List SentFrame → PeerConnection → Nat → Prop
  | nil (pc : PeerConnection) (place : Nat) : TrackRun crypto hostOrder pc place [] pc place
  | cons {pc pc' pc'' : PeerConnection} {place place' place'' : Nat} {call : PcCall}
      {events : List PcEvent} {frames : List SentFrame}
      (hstep : PcStep crypto hostOrder pc (call, events) pc')
      (hplace : placeAfterCall place call = some place')
      (hrest : TrackRun crypto hostOrder pc' place' frames pc'' place'') :
      TrackRun crypto hostOrder pc place (sentFrames crypto pc place call ++ frames) pc'' place''

section

variable {crypto : Crypto} {hostOrder : UInt32 → List UInt8} {pc pc' : PeerConnection}
  {place place' : Nat} {track : Track}

/-- Every run in which the track is not removed is one of its runs. -/
theorem exists_trackRun {history : List (PcCall × List PcEvent)}
    (hrun : Run (PcStep crypto hostOrder) pc history pc')
    (hplace : placeAfter place (history.map Prod.fst) = some place') :
    ∃ frames, TrackRun crypto hostOrder pc place frames pc' place' := by
  induction hrun generalizing place with
  | nil pc =>
      cases hplace
      exact ⟨[], .nil pc _⟩
  | @cons pc _ _ call _ hstep _ ih =>
      obtain ⟨next, hnext, hrest⟩ := Option.bind_eq_some_iff.mp hplace
      obtain ⟨frames, hframes⟩ := ih hrest
      exact ⟨_, .cons hstep hnext hframes⟩

theorem trackStep_numbered {call : PcCall} {events : List PcEvent}
    (hstep : PcStep crypto hostOrder pc (call, events) pc')
    (hplace : placeAfterCall place call = some place')
    (htrack : pc.localTracks.items[place]? = some track) :
    Numbered packetSequence track.nextSequence 0
        ((sentFrames crypto pc place call).flatMap SentFrame.attempts) ∧
      ∃ track', pc'.localTracks.items[place']? = some track' ∧
        track'.nextSequence = numberAfter packetSequence track.nextSequence
          ((sentFrames crypto pc place call).flatMap SentFrame.attempts) := by
  by_cases hsends : SendsOn place call
  · obtain ⟨env, frame, timestamp, err, hstays, hframes, hsend⟩ := sendsOn_step hstep hsends
    rw [hstays] at hplace
    cases hplace
    rw [hframes, List.flatMap_cons, List.flatMap_nil, List.append_nil]
    exact trackSendFrame_numbered hsend htrack
  · rw [sentFrames_of_not_sendsOn hsends]
    exact ⟨trivial, track, otherTrack_step hstep htrack hplace hsends, rfl⟩

theorem trackRun_numbered {frames : List SentFrame}
    (hrun : TrackRun crypto hostOrder pc place frames pc' place')
    (htrack : pc.localTracks.items[place]? = some track) :
    Numbered packetSequence track.nextSequence 0 (frames.flatMap SentFrame.attempts) := by
  induction hrun generalizing track with
  | nil pc place => trivial
  | cons hstep hplace _ ih =>
      obtain ⟨hnumbered, track', htrack', hafter⟩ := trackStep_numbered hstep hplace htrack
      rw [List.flatMap_append]
      exact hnumbered.append (hafter ▸ ih htrack')

theorem trackRun_timestamps {frames : List SentFrame}
    (hrun : TrackRun crypto hostOrder pc place frames pc' place') :
    ∀ frame ∈ frames, ∀ packet, some packet ∈ frame.attempts →
      packetTimestamp packet = frame.timestamp := by
  induction hrun with
  | nil pc place => exact fun _ hmem => absurd hmem List.not_mem_nil
  | @cons pc _ _ place _ _ call events frames hstep hplace _ ih =>
      intro frame hmem
      rcases List.mem_append.mp hmem with hmem | hmem
      · by_cases hsends : SendsOn place call
        · obtain ⟨env, bytes, timestamp, err, -, hframes, hsend⟩ := sendsOn_step hstep hsends
          rw [hframes, List.mem_singleton] at hmem
          rw [hmem]
          exact (frameAttempts_events hsend).1
        · rw [sentFrames_of_not_sendsOn hsends] at hmem
          cases hmem
      · exact ih frame hmem

/-- From one transmitted packet of a track to its next one the sequence number advances by
one, and by at most one more for every failed attempt between them. -/
theorem sequence_advances {frames : List SentFrame}
    (hrun : TrackRun crypto hostOrder pc place frames pc' place')
    (htrack : pc.localTracks.items[place]? = some track) :
    (∀ front back p q n, frames.flatMap SentFrame.attempts =
        front ++ some p :: (List.replicate n none ++ some q :: back) →
      ∃ d, 1 ≤ d ∧ d ≤ 1 + n ∧ packetSequence q = packetSequence p + d.toUInt16) ∧
    (∀ frame ∈ frames, ∀ packet, some packet ∈ frame.attempts →
      packetTimestamp packet = frame.timestamp) := by
  refine ⟨?_, trackRun_timestamps hrun⟩
  intro front back p q n hsplit
  have hnumbered := trackRun_numbered hrun htrack
  rw [hsplit] at hnumbered
  exact hnumbered.gap

end

/-- The calls of a list one after the other. -/
def trackCalls (crypto : Crypto) (hostOrder : UInt32 → List UInt8) (pc : PeerConnection)
    (place : Nat) : List PcCall → Option (List SentFrame × PeerConnection × Nat)
  | [] => some ([], pc, place)
  | call :: calls =>
      (pcCall crypto hostOrder pc call).bind fun (pc', _) =>
        (placeAfterCall place call).bind fun place' =>
          (trackCalls crypto hostOrder pc' place' calls).map fun (frames, reached) =>
            (sentFrames crypto pc place call ++ frames, reached)

theorem trackRun_trackCalls {crypto : Crypto} {hostOrder : UInt32 → List UInt8}
    {pc pc' : PeerConnection} {place place' : Nat} {calls : List PcCall} {frames : List SentFrame}
    (h : trackCalls crypto hostOrder pc place calls = some (frames, pc', place')) :
    TrackRun crypto hostOrder pc place frames pc' place' := by
  induction calls generalizing pc place frames with
  | nil =>
      cases h
      exact .nil _ _
  | cons call calls ih =>
      obtain ⟨⟨next, events⟩, hcall, h⟩ := Option.bind_eq_some_iff.mp h
      obtain ⟨nextPlace, hplace, h⟩ := Option.bind_eq_some_iff.mp h
      obtain ⟨⟨rest, reached⟩, hrest, hresult⟩ := Option.map_eq_some_iff.mp h
      cases hresult
      exact .cons hcall hplace (ih hrest)

/-- Of three frames with one packet each, the second is lost. -/
def sampleSends : List PcCall :=
  [.sendVideoFrame ⟨fun _ => true, fun _ => true⟩ 0 probeFrame 1000,
    .sendVideoFrame ⟨fun _ => true, fun _ => false⟩ 0 probeFrame 2000,
    .sendVideoFrame ⟨fun _ => true, fun _ => true⟩ 0 probeFrame 3000]

/-- The connection is set up and has a track, and the frames are sent. -/
def checkSampleSends (q : List (Option (List UInt8)) → Bool) : Bool :=
  (pcCalls toyCrypto write32 (fun _ _ => True) (tinyrtcPeerConnectionCreate sampleConfig)
    (.addTrack true (sampleVideoTrack 96) :: sampleSetup ++ sampleConnect [])).any fun reached =>
      reached.2.localTracks.items[0]?.isSome &&
        (trackCalls toyCrypto write32 reached.2 0 sampleSends).any fun sends =>
          q (sends.1.flatMap SentFrame.attempts)

theorem sequence_advances_sampleSends :
    ∃ pc frames pc' place p q, TrackRun toyCrypto write32 pc 0 frames pc' place ∧
      frames.flatMap SentFrame.attempts = [some p, none, some q] ∧
      ∃ d, 1 ≤ d ∧ d ≤ 2 ∧ packetSequence q = packetSequence p + d.toUInt16 := by
  have hsends : checkSampleSends (fun attempts => attempts.map Option.isSome = [true, false, true]) =
      true := by
    decide +kernel
  rw [checkSampleSends, Option.any_eq_true] at hsends
  obtain ⟨⟨history, pc⟩, -, hsends⟩ := hsends
  rw [Bool.and_eq_true, Option.any_eq_true] at hsends
  obtain ⟨htrack, ⟨frames, pc', place⟩, hcalls, hshape⟩ := hsends
  obtain ⟨track, htrack⟩ := Option.isSome_iff_exists.mp htrack
  have hrun := trackRun_trackCalls hcalls
  obtain ⟨p, q, hattempts⟩ : ∃ p q, frames.flatMap SentFrame.attempts = [some p, none, some q] := by
    obtain ⟨first, rest, hfirst, hp, hrest⟩ := List.map_eq_cons_iff.mp (of_decide_eq_true hshape)
    obtain ⟨second, last, rfl, hnone, hlast⟩ := List.map_eq_cons_iff.mp hrest
    obtain ⟨third, nothing, rfl, hq, hnothing⟩ := List.map_eq_cons_iff.mp hlast
    obtain ⟨p, rfl⟩ := Option.isSome_iff_exists.mp hp
    obtain rfl := Option.not_isSome_iff_eq_none.mp (Bool.eq_false_iff.mp hnone)
    obtain ⟨q, rfl⟩ := Option.isSome_iff_exists.mp hq
    obtain rfl := List.map_eq_nil_iff.mp hnothing
    exact ⟨p, q, hfirst⟩
  exact ⟨pc, frames, pc', place, p, q, hrun, hattempts,
    (sequence_advances hrun htrack).1 [] [] p q 1 hattempts⟩

end TinyRtc.SequenceNumbers
