import TinyRtc.WebSocketSegmentation

namespace TinyRtc.SignalingDrain

open TinyRtc.PolledStream
open TinyRtc.Signaling
open TinyRtc.WebSocket
open TinyRtc.WebSocketSegmentation

/-- The result of `sig_read_ws_frame`. No path of it returns a positive number. -/
def readResult (frame : ReadFrame) : Int :=
  if frame.ok then 0 else -1

/-- What a call of `tinyrtc_signaling_process` returns, and what it leaves behind. -/
structure Processed where
  eventsProcessed : Nat
  turn : Turn UInt8 SignalingEvent SignalingHost

/-- The loop of `tinyrtc_signaling_process`. `none` as long as it has not come to its end. -/
def processLoop : (fuel : Nat) → (eventsProcessed : Nat) → (out : List SignalingEvent) →
    SignalingHost → List (Poll UInt8) → Option Processed
  | 0, _, _, _, _ => none
  | fuel + 1, eventsProcessed, out, host, recv =>
      (sigReadWsFrame host recv).bind fun (frame, recv) =>
        let out := out ++ frame.events
        if readResult frame < 0 then
          let client := { frame.host.client with state := .disconnected }
          some ⟨eventsProcessed, out, { frame.host with client := client }, recv⟩
        else if readResult frame = 0 then some ⟨eventsProcessed, out, frame.host, recv⟩
        else processLoop fuel (eventsProcessed + 1) out frame.host recv

/-- `tinyrtc_signaling_process` with its loop and its count. -/
def signalingProcess (fuel : Nat) (host : SignalingHost) (recv : List (Poll UInt8)) :
    Option Processed :=
  if host.client.state ≠ .connected then some ⟨0, [], host, recv⟩
  else processLoop fuel 0 [] host recv

/-- The loop ends in its first turn, whatever is read. -/
theorem processLoop_succ (fuel eventsProcessed : Nat) (out : List SignalingEvent)
    (host : SignalingHost) (recv : List (Poll UInt8)) :
    processLoop (fuel + 1) eventsProcessed out host recv =
      (sigReadWsFrame host recv).map fun (frame, recv) =>
        ⟨eventsProcessed, out ++ frame.events,
          if frame.ok then frame.host
          else { frame.host with client := { frame.host.client with state := .disconnected } },
          recv⟩ := by
  rw [processLoop]
  cases sigReadWsFrame host recv with
  | none => rfl
  | some read =>
      obtain ⟨⟨ok, events, host⟩, recv⟩ := read
      cases ok with
      | true => rfl
      | false => rfl

/-- One call reads at most one frame and returns 0. -/
theorem signalingProcess_succ (fuel : Nat) (host : SignalingHost) (recv : List (Poll UInt8)) :
    signalingProcess (fuel + 1) host recv =
      (tinyrtcSignalingProcess host recv).map fun turn => ⟨0, turn⟩ := by
  rw [signalingProcess, tinyrtcSignalingProcess]
  split
  · rfl
  · rw [processLoop_succ, Option.map_map]
    rfl

theorem eventsProcessed_eq_zero {fuel : Nat} {host : SignalingHost} {recv : List (Poll UInt8)}
    {processed : Processed} (h : signalingProcess fuel host recv = some processed) :
    processed.eventsProcessed = 0 := by
  cases fuel with
  | zero =>
      rw [signalingProcess] at h
      split at h
      · cases h
        rfl
      · cases h
  | succ fuel =>
      rw [signalingProcess_succ, Option.map_eq_some_iff] at h
      obtain ⟨turn, -, rfl⟩ := h
      rfl

/-- The frames that can be read, and then nothing for `waits` polls. -/
def readable (frames : List ServerFrame) (waits : Nat) : List (Poll UInt8) :=
  (frames.flatMap ServerFrame.encode).map .item ++ List.replicate waits .notYet

/-- One call handles all of the frames in their order and returns their number. -/
def DrainsInput (host : SignalingHost) (frames : List ServerFrame) (waits : Nat) : Prop :=
  ∃ fuel processed, signalingProcess fuel host (readable frames waits) = some processed ∧
    processed.eventsProcessed = frames.length ∧
    handleAll isConnected handleFrame host frames =
      some (processed.turn.out, processed.turn.state)

theorem not_drainsInput {frames : List ServerFrame} (h : frames ≠ []) (host : SignalingHost)
    (waits : Nat) : ¬ DrainsInput host frames waits := by
  rintro ⟨fuel, processed, hprocess, hcount, -⟩
  rw [eventsProcessed_eq_zero hprocess] at hcount
  exact h (List.length_eq_zero_iff.mp hcount.symm)

/-- A call drains the input exactly when there is nothing in it. -/
theorem drainsInput_iff {host : SignalingHost} (hconnected : host.client.state = .connected)
    (frames : List ServerFrame) (waits : Nat) : DrainsInput host frames waits ↔ frames = [] := by
  constructor
  · intro hdrains
    by_contra hne
    exact not_drainsInput hne host waits hdrains
  · rintro rfl
    have hactive : isConnected host = true := decide_eq_true hconnected
    obtain ⟨rest, hrest⟩ : ∃ rest, tinyrtcSignalingProcess host (readable [] waits) =
        some ⟨[], host, rest⟩ := by
      cases waits with
      | zero => exact ⟨[], tinyrtcSignalingProcess_handlesUnits.empty host hactive⟩
      | succ waits => exact ⟨_, tinyrtcSignalingProcess_handlesUnits.wait host _ hactive⟩
    refine ⟨1, ⟨0, [], host, rest⟩, ?_, rfl, rfl⟩
    rw [signalingProcess_succ, hrest]
    rfl

theorem drainsInput_nothing : DrainsInput connectedHost [] 2 :=
  (drainsInput_iff rfl [] 2).mpr rfl

/-- Two messages can be read: the first one is handled, and the result is 0. -/
theorem drainsInput_fails :
    (signalingProcess 1 connectedHost (readable [sampleFrame, sampleFrame] 0)).map
        (fun processed => (processed.eventsProcessed, processed.turn.out)) =
      some (0, [.message [0x41]]) ∧
    ¬ DrainsInput connectedHost [sampleFrame, sampleFrame] 0 :=
  ⟨by decide, not_drainsInput (List.cons_ne_nil _ _) _ _⟩

end TinyRtc.SignalingDrain
