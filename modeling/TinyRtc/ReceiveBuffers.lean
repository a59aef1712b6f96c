import TinyRtc.TracedPrograms
import TinyRtc.WebSocket

namespace TinyRtc.ReceiveBuffers

open TinyRtc.PolledStream
open TinyRtc.Signaling
open TinyRtc.TracedPrograms
open TinyRtc.WebSocket

/-- What can be seen of the receive buffers: `recv_len` where the read of a frame starts, the
place of a byte of `recv_buf` that is written, and `message_len` and `message_cap` where one of
them has been set. -/
inductive BufferEvent where
  | frameStart (recvLen : Nat)
  | recvWrite (index : Nat)
  | messageFill (len cap : Nat)

/-- `SignalingHost` with the buffers as the source has them: the memory from `recv_buf` on, and
the bytes that have been written to the block at `message_buf`. -/
structure BufferedHost where
  state : SignalingState
  recvBuf : Nat → UInt8
  recvLen : Nat
  messageBuf : Option (List UInt8)
  messageLen : Nat
  messageCap : Nat
  frames : List FrameEnv
  allocations : List Bool

/-- `ReadFrame`. -/
structure BufferedFrame where
  ok : Bool
  events : List SignalingEvent
  host : BufferedHost

/-- The first `len` bytes at `recv_buf`. -/
def BufferedHost.received (host : BufferedHost) (len : Nat) : List UInt8 :=
  (List.range len).map host.recvBuf

/-- `memcpy` to a place in the block. -/
def copyAt (buf : List UInt8) (place : Nat) (data : List UInt8) : List UInt8 :=
  buf.take place ++ data ++ buf.drop (place + data.length)

def sigReadBytesBuffered (host : BufferedHost) (n : Nat) (recv : List (Poll UInt8))
    (next : List UInt8 → List (Poll UInt8) →
      Traced BufferEvent (BufferedFrame × List (Poll UInt8))) :
    Traced BufferEvent (BufferedFrame × List (Poll UInt8)) :=
  match pollN n recv with
  | (.read bytes, recv) => next bytes recv
  | (.notYet, recv) => pure (⟨true, [], host⟩, recv)
  | (.failed, recv) => pure (⟨false, [], host⟩, recv)

/-- The loop for the payload, `remaining` turns before its end. The answer is that of the poll
which has ended it. -/
def sigReadPayload : (remaining i : Nat) → BufferedHost → List (Poll UInt8) →
    Traced BufferEvent (Poll PUnit × BufferedHost × List (Poll UInt8))
  | 0, _, host, recv => pure (.item ⟨⟩, host, recv)
  | remaining + 1, i, host, recv => do
      record [.recvWrite (host.recvLen + i)]
      match poll recv with
      | (.item byte, recv) =>
          sigReadPayload remaining (i + 1)
            { host with recvBuf := Function.update host.recvBuf (host.recvLen + i) byte } recv
      | (.notYet, recv) => pure (.notYet, host, recv)
      | (.failed, recv) => pure (.failed, host, recv)

/-- One turn of the loop that takes the mask off. -/
def sigUnmaskByte (maskKey : List UInt8) (len : Nat) (host : BufferedHost) (i : Nat) :
    Traced BufferEvent BufferedHost := do
  let place := host.recvLen - len + i
  record [.recvWrite place]
  pure { host with
    recvBuf := Function.update host.recvBuf place
      (host.recvBuf place ^^^ maskKey.getD (i % 4) 0) }

def sigUnmaskPayload (masked : Bool) (maskKey : List UInt8) (len : Nat) (host : BufferedHost) :
    Traced BufferEvent BufferedHost :=
  if masked then (List.range len).foldlM (sigUnmaskByte maskKey len) host else pure host

def sigOpenMessageBuffered (host : BufferedHost) :
    Traced BufferEvent (Option (List UInt8) × BufferedHost) :=
  match host.messageBuf with
  | some buf => pure (some buf, host)
  | none => do
      let opened := { host with
        messageCap := sigMaxRecvBuf
        allocations := host.allocations.tail }
      record [.messageFill opened.messageLen opened.messageCap]
      if host.allocations.headD true then do
        record [.messageFill 0 opened.messageCap]
        pure (some [], { opened with messageBuf := some [], messageLen := 0 })
      else pure (none, opened)

def sigAppendFragmentBuffered (host : BufferedHost) (buf : List UInt8) (len : Nat) :
    Traced BufferEvent (Option BufferedHost) :=
  if host.messageLen + len > host.messageCap then pure none
  else do
    record [.messageFill (host.messageLen + len) host.messageCap]
    pure (some { host with
      messageBuf := some (copyAt buf host.messageLen (host.received len))
      messageLen := host.messageLen + len
      recvLen := 0 })

def sigHandleFrameBuffered (host : BufferedHost) (fin : Bool) (opcode : UInt8) (len : Nat) :
    Traced BufferEvent BufferedFrame :=
  if opcode = wsOpcodeText ∨ opcode = wsOpcodeBinary then
    if !fin then do
      match ← sigOpenMessageBuffered host with
      | (none, host) => pure ⟨false, [], host⟩
      | (some buf, host) =>
          match ← sigAppendFragmentBuffered host buf len with
          | none => pure ⟨false, [], host⟩
          | some host => pure ⟨true, [], host⟩
    else pure ⟨true, [.message (host.received len)], { host with recvLen := 0 }⟩
  else if opcode = wsOpcodeContinue then
    match host.messageBuf with
    | none => pure ⟨false, [], host⟩
    | some buf => do
        match ← sigAppendFragmentBuffered host buf len with
        | none => pure ⟨false, [], host⟩
        | some appended =>
            if fin then do
              record [.messageFill 0 appended.messageCap, .messageFill 0 0]
              pure ⟨true, [.message ((appended.messageBuf.getD []).take appended.messageLen)],
                { appended with messageBuf := none, messageLen := 0, messageCap := 0 }⟩
            else pure ⟨true, [], appended⟩
  else if opcode = wsOpcodeClose then pure ⟨false, [], { host with state := .disconnected }⟩
  else if opcode = wsOpcodePing then
    match host.frames with
    | [] => ofOption none
    | env :: frames => do
        let sent ← ofOption
          (sigSendWsFrame env ⟨host.state, none⟩ wsOpcodePong (host.received len))
        pure ⟨true, [.pong (host.received len) sent.wire],
          { host with state := sent.sig.state, frames := frames, recvLen := 0 }⟩
  else pure ⟨true, [], { host with recvLen := 0 }⟩

/-- The rest of a frame, its header aside. -/
def sigTakePayload (host : BufferedHost) (fin : Bool) (opcode : UInt8) (masked : Bool)
    (maskKey : List UInt8) (len : Nat) (recv : List (Poll UInt8)) :
    Traced BufferEvent (BufferedFrame × List (Poll UInt8)) := do
  match ← sigReadPayload len 0 host recv with
  | (.notYet, host, recv) => pure (⟨true, [], host⟩, recv)
  | (.failed, host, recv) => pure (⟨false, [], host⟩, recv)
  | (.item _, host, recv) =>
      let host ← sigUnmaskPayload masked maskKey len { host with recvLen := host.recvLen + len }
      let frame ← sigHandleFrameBuffered host fin opcode len
      pure (frame, recv)

def sigReadWsFrameBuffered (host : BufferedHost) (recv : List (Poll UInt8)) :
    Traced BufferEvent (BufferedFrame × List (Poll UInt8)) := do
  record [.frameStart host.recvLen]
  sigReadBytesBuffered host 2 recv fun hdr recv =>
    let fin := hdr.getD 0 0 &&& 0x80 != 0
    let opcode := hdr.getD 0 0 &&& 0x0F
    let masked := hdr.getD 1 0 &&& 0x80 != 0
    let payloadLen := hdr.getD 1 0 &&& 0x7F
    sigReadBytesBuffered host (wsBytesNeeded payloadLen) recv fun extLen recv =>
      let len := wsPayloadLength payloadLen extLen
      sigReadBytesBuffered host (if masked then 4 else 0) recv fun maskKey recv =>
        if len > sigMaxRecvBuf then pure (⟨false, [], host⟩, recv)
        else sigTakePayload host fin opcode masked maskKey len recv

def tinyrtcSignalingProcessBuffered (host : BufferedHost) (recv : List (Poll UInt8)) :
    Traced BufferEvent (Turn UInt8 SignalingEvent BufferedHost) :=
  if host.state ≠ .connected then pure ⟨[], host, recv⟩
  else do
    let (frame, recv) ← sigReadWsFrameBuffered host recv
    pure ⟨frame.events,
      if frame.ok then frame.host else { frame.host with state := .disconnected }, recv⟩

/-- A number of calls in a row, none of them made by the callback. -/
def processCalls : Nat → BufferedHost → List (Poll UInt8) →
    Traced BufferEvent (Turn UInt8 SignalingEvent BufferedHost)
  | 0, host, recv => pure ⟨[], host, recv⟩
  | n + 1, host, recv => do
      let turn ← tinyrtcSignalingProcessBuffered host recv
      let last ← processCalls n turn.state turn.rest
      pure { last with out := turn.out ++ last.out }

/-- A client as `tinyrtc_signaling_create` returns it. -/
def createdHost (frames : List FrameEnv) (allocations : List Bool) : BufferedHost where
  state := .connected
  recvBuf _ := 0
  recvLen := 0
  messageBuf := none
  messageLen := 0
  messageCap := 0
  frames := frames
  allocations := allocations

def InBounds : BufferEvent → Prop
  | .frameStart recvLen => recvLen = 0
  | .recvWrite index => index < sigMaxRecvBuf
  | .messageFill len cap => len ≤ cap

/-- `message_buf` is as long as it is said to be, and not longer than the block. -/
structure MessageSound (host : BufferedHost) : Prop where
  fits : host.messageLen ≤ host.messageCap
  closed : host.messageBuf = none → host.messageLen = 0
  opened : ∀ buf, host.messageBuf = some buf →
    buf.length = host.messageLen ∧ host.messageCap = sigMaxRecvBuf

/-- What holds between two calls: only a client that is no longer connected may have left
something in `recv_buf`. -/
structure BuffersSound (host : BufferedHost) : Prop where
  message : MessageSound host
  empty : host.state = .connected → host.recvLen = 0

theorem MessageSound.of_eq {host host' : BufferedHost} (h : MessageSound host)
    (hbuf : host'.messageBuf = host.messageBuf) (hlen : host'.messageLen = host.messageLen)
    (hcap : host'.messageCap = host.messageCap) : MessageSound host' := by
  refine ⟨?_, ?_, ?_⟩
  · rw [hlen, hcap]
    exact h.fits
  · rw [hbuf, hlen]
    exact h.closed
  · rw [hbuf, hlen, hcap]
    exact h.opened

theorem buffersSound_createdHost (frames : List FrameEnv) (allocations : List Bool) :
    BuffersSound (createdHost frames allocations) :=
  ⟨⟨Nat.le_refl 0, fun _ => rfl, fun _ h => by cases h⟩, fun _ => rfl⟩

theorem copyAt_length (buf data : List UInt8) : copyAt buf buf.length data = buf ++ data := by
  rw [copyAt, List.take_length, List.drop_eq_nil_of_le (Nat.le_add_right _ _), List.append_nil]

/-- A frame that is done with leaves nothing in `recv_buf`, unless the call ends the
connection. -/
structure FrameSound (frame : BufferedFrame) : Prop where
  message : MessageSound frame.host
  empty : frame.ok = true → frame.host.recvLen = 0

theorem sigReadBytesBuffered_meets {host : BufferedHost} (hmessage : MessageSound host)
    (hempty : host.recvLen = 0) (n : Nat) (recv : List (Poll UInt8))
    {next : List UInt8 → List (Poll UInt8) →
      Traced BufferEvent (BufferedFrame × List (Poll UInt8))}
    (hnext : ∀ bytes recv, Meets InBounds (fun read => FrameSound read.1) (next bytes recv)) :
    Meets InBounds (fun read => FrameSound read.1) (sigReadBytesBuffered host n recv next) := by
  rw [sigReadBytesBuffered]
  split
  · exact hnext _ _
  · exact .pure ⟨hmessage, fun _ => hempty⟩
  · exact .pure ⟨hmessage, fun hok => absurd hok Bool.false_ne_true⟩

/-- The two loops that write `recv_buf` change nothing else. -/
structure SameFill (host host' : BufferedHost) : Prop where
  state : host'.state = host.state
  recvLen : host'.recvLen = host.recvLen
  messageBuf : host'.messageBuf = host.messageBuf
  messageLen : host'.messageLen = host.messageLen
  messageCap : host'.messageCap = host.messageCap

theorem SameFill.write (host : BufferedHost) (recvBuf : Nat → UInt8) :
    SameFill host { host with recvBuf := recvBuf } :=
  ⟨rfl, rfl, rfl, rfl, rfl⟩

theorem SameFill.refl (host : BufferedHost) : SameFill host host :=
  .write host host.recvBuf

theorem SameFill.trans {host host' host'' : BufferedHost} (hfirst : SameFill host host')
    (hsecond : SameFill host' host'') : SameFill host host'' :=
  ⟨hsecond.state.trans hfirst.state, hsecond.recvLen.trans hfirst.recvLen,
    hsecond.messageBuf.trans hfirst.messageBuf, hsecond.messageLen.trans hfirst.messageLen,
    hsecond.messageCap.trans hfirst.messageCap⟩

theorem SameFill.message {host host' : BufferedHost} (h : SameFill host host')
    (hmessage : MessageSound host) : MessageSound host' :=
  hmessage.of_eq h.messageBuf h.messageLen h.messageCap

theorem sigReadPayload_meets (remaining : Nat) {i : Nat} {host : BufferedHost}
    (hroom : host.recvLen + i + remaining ≤ sigMaxRecvBuf) (recv : List (Poll UInt8)) :
    Meets InBounds (fun read => SameFill host read.2.1) (sigReadPayload remaining i host recv) := by
  induction remaining generalizing i host recv with
  | zero => exact .pure (.refl host)
  | succ remaining ih =>
      rw [sigReadPayload]
      have hplace : ∀ event ∈ [BufferEvent.recvWrite (host.recvLen + i)], InBounds event := by
        intro event hevent
        rw [List.mem_singleton.mp hevent, InBounds]
        omega
      refine .record_bind hplace ?_
      split
      · refine (ih (i := i + 1) (by simpa only [Nat.add_assoc, Nat.add_comm 1] using hroom)
          _).mono ?_
        intro read hread
        exact (SameFill.write host _).trans hread
      · exact .pure (.refl host)
      · exact .pure (.refl host)

theorem sigUnmaskPayload_meets (masked : Bool) (maskKey : List UInt8) {len : Nat}
    {host : BufferedHost} (hfilled : host.recvLen = len) (hroom : len ≤ sigMaxRecvBuf) :
    Meets InBounds (SameFill host) (sigUnmaskPayload masked maskKey len host) := by
  rw [sigUnmaskPayload]
  split
  swap
  · exact .pure (.refl host)
  refine .foldlM ?_ (.refl host)
  intro i hi host' hsame
  have hlen : host'.recvLen - len + i < sigMaxRecvBuf := by
    rw [hsame.recvLen, hfilled, Nat.sub_self, Nat.zero_add]
    exact Nat.lt_of_lt_of_le (List.mem_range.mp hi) hroom
  rw [sigUnmaskByte]
  refine .record_bind ?_ (.pure (hsame.trans (.write host' _)))
  intro event hevent
  rw [List.mem_singleton.mp hevent]
  exact hlen

theorem sigOpenMessage_meets {host : BufferedHost} (hmessage : MessageSound host) :
    Meets InBounds
      (fun opened => MessageSound opened.2 ∧ ∀ buf, opened.1 = some buf →
        opened.2.messageBuf = some buf)
      (sigOpenMessageBuffered host) := by
  rw [sigOpenMessageBuffered]
  split
  · next buf hbuf =>
    refine .pure ⟨hmessage, ?_⟩
    rintro buf' hbuf'
    cases hbuf'
    exact hbuf
  · next hnone =>
    have hzero := hmessage.closed hnone
    have hopened : ∀ event ∈ [BufferEvent.messageFill host.messageLen sigMaxRecvBuf],
        InBounds event := by
      intro event hevent
      rw [List.mem_singleton.mp hevent, InBounds, hzero]
      exact Nat.zero_le _
    refine .record_bind hopened ?_
    split
    · refine .record_bind ?_ (.pure ⟨?_, ?_⟩)
      · intro event hevent
        rw [List.mem_singleton.mp hevent]
        exact Nat.zero_le _
      · refine ⟨Nat.zero_le _, by simp, ?_⟩
        rintro buf hbuf
        cases hbuf
        exact ⟨rfl, rfl⟩
      · exact fun buf hbuf => hbuf
    · refine .pure ⟨⟨?_, fun _ => hzero, fun buf hbuf => ?_⟩, fun buf hbuf => by cases hbuf⟩
      · rw [hzero]
        exact Nat.zero_le _
      · rw [hnone] at hbuf
        cases hbuf

theorem received_length (host : BufferedHost) (len : Nat) : (host.received len).length = len := by
  rw [BufferedHost.received, List.length_map, List.length_range]

theorem sigAppendFragment_meets {host : BufferedHost} (hmessage : MessageSound host)
    {buf : List UInt8} (hbuf : host.messageBuf = some buf) (len : Nat) :
    Meets InBounds
      (fun appended => ∀ host', appended = some host' → MessageSound host' ∧ host'.recvLen = 0)
      (sigAppendFragmentBuffered host buf len) := by
  obtain ⟨hlength, hcap⟩ := hmessage.opened buf hbuf
  rw [sigAppendFragmentBuffered]
  split
  · exact .pure fun host' hnone => by cases hnone
  · next hfits =>
    have hle : host.messageLen + len ≤ host.messageCap := Nat.not_lt.mp hfits
    refine .record_bind ?_ (.pure ?_)
    · intro event hevent
      rw [List.mem_singleton.mp hevent]
      exact hle
    · rintro host' hsome
      cases hsome
      refine ⟨⟨hle, by simp, ?_⟩, rfl⟩
      rintro buf' hbuf'
      cases hbuf'
      refine ⟨?_, hcap⟩
      dsimp only
      rw [← hlength, copyAt_length, List.length_append, received_length]

/-- One case for each opcode. -/
theorem sigHandleFrame_meets {host : BufferedHost} (hmessage : MessageSound host) (fin : Bool)
    (opcode : UInt8) (len : Nat) :
    Meets InBounds FrameSound (sigHandleFrameBuffered host fin opcode len) := by
  have hdone : ∀ events, FrameSound ⟨true, events, { host with recvLen := 0 }⟩ :=
    fun events => ⟨hmessage.of_eq rfl rfl rfl, fun _ => rfl⟩
  have hfailed : ∀ {host' : BufferedHost}, MessageSound host' → FrameSound ⟨false, [], host'⟩ :=
    fun h => ⟨h, fun hok => absurd hok Bool.false_ne_true⟩
  rw [sigHandleFrameBuffered]
  split
  · split
    · refine .bind (sigOpenMessage_meets hmessage) fun opened hopened => ?_
      obtain ⟨hopened, hbuf⟩ := hopened
      split
      · exact .pure (hfailed hopened)
      · refine .bind (sigAppendFragment_meets hopened (hbuf _ rfl) len) fun appended happended => ?_
        split
        · exact .pure (hfailed hopened)
        · obtain ⟨hsound, hempty⟩ := happended _ rfl
          exact .pure ⟨hsound, fun _ => hempty⟩
    · exact .pure (hdone _)
  · split
    · split
      · exact .pure (hfailed hmessage)
      · next buf hbuf =>
        refine .bind (sigAppendFragment_meets hmessage hbuf len) fun appended happended => ?_
        split
        · exact .pure (hfailed hmessage)
        · obtain ⟨hsound, hempty⟩ := happended _ rfl
          split
          · refine .record_bind ?_ (.pure ⟨?_, ?_⟩)
            · intro event hevent
              simp only [List.mem_cons, List.not_mem_nil, or_false] at hevent
              rcases hevent with rfl | rfl <;> exact Nat.zero_le _
            · exact ⟨Nat.le_refl 0, fun _ => rfl, fun _ h => by cases h⟩
            · exact fun _ => hempty
          · exact .pure ⟨hsound, fun _ => hempty⟩
    · split
      · exact .pure (hfailed (hmessage.of_eq rfl rfl rfl))
      · split
        · split
          · exact .ofOption fun _ h => by cases h
          · refine .bind (Meets.ofOption (Q := fun _ => True) fun _ _ => trivial) fun sent _ => ?_
            exact .pure ⟨hmessage.of_eq rfl rfl rfl, fun _ => rfl⟩
        · exact .pure (hdone [])

theorem sigTakePayload_meets {host : BufferedHost} (hmessage : MessageSound host)
    (hempty : host.recvLen = 0) (fin : Bool) (opcode : UInt8) (masked : Bool)
    (maskKey : List UInt8) {len : Nat} (hroom : len ≤ sigMaxRecvBuf) (recv : List (Poll UInt8)) :
    Meets InBounds (fun read => FrameSound read.1)
      (sigTakePayload host fin opcode masked maskKey len recv) := by
  rw [sigTakePayload]
  refine .bind (sigReadPayload_meets len (by rwa [hempty, Nat.zero_add]) recv) fun read hsame => ?_
  split
  · exact .pure ⟨hsame.message hmessage, fun _ => hsame.recvLen.trans hempty⟩
  · exact .pure ⟨hsame.message hmessage, fun hok => absurd hok Bool.false_ne_true⟩
  · next _ filled recv =>
    refine .bind (sigUnmaskPayload_meets masked maskKey ?_ hroom) fun unmasked hunmasked => ?_
    · dsimp only
      rw [hsame.recvLen, hempty, Nat.zero_add]
    · have hmessage' := hunmasked.message ((hsame.message hmessage).of_eq rfl rfl rfl)
      refine .bind (sigHandleFrame_meets hmessage' fin opcode len) fun frame hframe => ?_
      exact .pure hframe

theorem sigReadWsFrame_meets {host : BufferedHost} (hmessage : MessageSound host)
    (hempty : host.recvLen = 0) (recv : List (Poll UInt8)) :
    Meets InBounds (fun read => FrameSound read.1) (sigReadWsFrameBuffered host recv) := by
  rw [sigReadWsFrameBuffered]
  refine .record_bind ?_ ?_
  · intro event hevent
    rw [List.mem_singleton.mp hevent]
    exact hempty
  refine sigReadBytesBuffered_meets hmessage hempty _ _ fun hdr recv => ?_
  refine sigReadBytesBuffered_meets hmessage hempty _ _ fun extLen recv => ?_
  refine sigReadBytesBuffered_meets hmessage hempty _ _ fun maskKey recv => ?_
  split
  · exact .pure ⟨hmessage, fun hok => absurd hok Bool.false_ne_true⟩
  · next hfits =>
    exact sigTakePayload_meets hmessage hempty _ _ _ _ (Nat.not_lt.mp hfits) recv

theorem tinyrtcSignalingProcess_meets {host : BufferedHost} (hsound : BuffersSound host)
    (recv : List (Poll UInt8)) :
    Meets InBounds (fun turn => BuffersSound turn.state)
      (tinyrtcSignalingProcessBuffered host recv) := by
  rw [tinyrtcSignalingProcessBuffered]
  split
  · exact .pure hsound
  · next hconnected =>
    have hempty := hsound.empty (not_not.mp hconnected)
    refine .bind (sigReadWsFrame_meets hsound.message hempty recv) fun read hread => .pure ?_
    dsimp only
    split
    · next hok => exact ⟨hread.message, fun _ => hread.empty hok⟩
    · exact ⟨hread.message.of_eq rfl rfl rfl, by simp⟩

theorem processCalls_meets (n : Nat) {host : BufferedHost} (hsound : BuffersSound host)
    (recv : List (Poll UInt8)) :
    Meets InBounds (fun turn => BuffersSound turn.state) (processCalls n host recv) := by
  induction n generalizing host recv with
  | zero => exact .pure hsound
  | succ n ih =>
      rw [processCalls]
      refine .bind (tinyrtcSignalingProcess_meets hsound recv) fun turn hturn => ?_
      exact .bind (ih hturn turn.rest) fun last hlast => .pure hlast

/-- Whatever the server sends, and whatever the transport and the allocator answer. -/
theorem processCalls_inBounds (frames : List FrameEnv) (allocations : List Bool) (n : Nat)
    (recv : List (Poll UInt8)) :
    (∀ event ∈ (processCalls n (createdHost frames allocations) recv).trace, InBounds event) ∧
      ∀ turn, (processCalls n (createdHost frames allocations) recv).result = some turn →
        turn.state.messageLen ≤ turn.state.messageCap ∧
          (turn.state.state = .connected → turn.state.recvLen = 0) := by
  have hmeets := processCalls_meets n (buffersSound_createdHost frames allocations) recv
  refine ⟨hmeets.trace, fun turn hturn => ?_⟩
  have hsound := hmeets.result turn hturn
  exact ⟨hsound.message.fits, hsound.empty⟩

end TinyRtc.ReceiveBuffers
