import TinyRtc.ReceiveBuffers

namespace TinyRtc.BufferRefinement

open TinyRtc.PolledStream
open TinyRtc.ReceiveBuffers
open TinyRtc.Signaling
open TinyRtc.TracedPrograms
open TinyRtc.WebSocket

/-- The host without the buffers: as long as they are sound, nothing else of them is read. -/
def toHost (host : BufferedHost) : SignalingHost where
  client := ⟨host.state, host.messageBuf⟩
  frames := host.frames
  allocations := host.allocations

def toFrame (frame : BufferedFrame) : ReadFrame :=
  ⟨frame.ok, frame.events, toHost frame.host⟩

def toRead (read : BufferedFrame × List (Poll UInt8)) : ReadFrame × List (Poll UInt8) :=
  (toFrame read.1, read.2)

def toTurn (turn : Turn UInt8 SignalingEvent BufferedHost) :
    Turn UInt8 SignalingEvent SignalingHost :=
  ⟨turn.out, toHost turn.state, turn.rest⟩

/-- A read that goes on as its model does. -/
theorem sigReadBytesBuffered_refines {host : BufferedHost} {n : Nat} {recv : List (Poll UInt8)}
    {next : List UInt8 → List (Poll UInt8) →
      Traced BufferEvent (BufferedFrame × List (Poll UInt8))}
    {next' : List UInt8 → List (Poll UInt8) → Option (ReadFrame × List (Poll UInt8))}
    (h : ∀ bytes recv, (next bytes recv).result.map toRead = next' bytes recv) :
    (sigReadBytesBuffered host n recv next).result.map toRead =
      sigReadBytes (toHost host) n recv next' := by
  rcases hpoll : pollN n recv with ⟨bytes | _ | _, recv'⟩
  · rw [sigReadBytesBuffered, sigReadBytes, hpoll]
    exact h bytes recv'
  · rw [sigReadBytesBuffered, sigReadBytes, hpoll]
    rfl
  · rw [sigReadBytesBuffered, sigReadBytes, hpoll]
    rfl

/-- What the loop for the payload leaves behind, told from the polls. -/
def payloadResult (host : BufferedHost) (recvBuf : Nat → UInt8) :
    Outcome UInt8 × List (Poll UInt8) → Poll PUnit × BufferedHost × List (Poll UInt8)
  | (.read _, recv) => (.item ⟨⟩, { host with recvBuf := recvBuf }, recv)
  | (.notYet, recv) => (.notYet, { host with recvBuf := recvBuf }, recv)
  | (.failed, recv) => (.failed, { host with recvBuf := recvBuf }, recv)

theorem sigReadPayload_result (n i : Nat) (host : BufferedHost) (recv : List (Poll UInt8)) :
    ∃ recvBuf, (∀ k < host.recvLen + i, recvBuf k = host.recvBuf k) ∧
      (sigReadPayload n i host recv).result =
        some (payloadResult host recvBuf (pollN n recv)) ∧
      ∀ bytes recv', pollN n recv = (.read bytes, recv') →
        (List.range n).map (fun k => recvBuf (host.recvLen + i + k)) = bytes := by
  induction n generalizing i host recv with
  | zero =>
      refine ⟨host.recvBuf, fun _ _ => rfl, rfl, ?_⟩
      intro bytes recv' hread
      cases hread
      rfl
  | succ n ih =>
      rw [sigReadPayload, result_bind, result_record, Option.bind_some, pollN]
      rcases poll recv with ⟨byte | _ | _, rest⟩
      · obtain ⟨recvBuf, hkeep, hresult, hread⟩ := ih (i + 1)
          { host with recvBuf := Function.update host.recvBuf (host.recvLen + i) byte } rest
        dsimp only at hkeep hread
        refine ⟨recvBuf, ?_, ?_, ?_⟩
        · intro k hk
          rw [hkeep k (by omega)]
          exact Function.update_of_ne (Nat.ne_of_lt hk) _ _
        · dsimp only
          rw [hresult]
          rcases pollN n rest with ⟨items | _ | _, rest'⟩ <;> rfl
        · intro bytes recv' hbytes
          dsimp only at hbytes
          rcases hpoll : pollN n rest with ⟨items | _ | _, rest'⟩
          · rw [hpoll] at hbytes
            cases hbytes
            rw [← hread items _ hpoll, List.range_succ_eq_map, List.map_cons, List.map_map,
              hkeep _ (by omega), Nat.add_zero, Function.update_self]
            congr 1
            refine List.map_congr_left fun k _ => congrArg recvBuf ?_
            omega
          · rw [hpoll] at hbytes
            cases hbytes
          · rw [hpoll] at hbytes
            cases hbytes
      · refine ⟨host.recvBuf, fun _ _ => rfl, rfl, ?_⟩
        intro bytes recv' hbytes
        cases hbytes
      · refine ⟨host.recvBuf, fun _ _ => rfl, rfl, ?_⟩
        intro bytes recv' hbytes
        cases hbytes

/-- The bytes that one more turn has unmasked. -/
theorem foldl_unmask (maskKey : List UInt8) {len : Nat} {host : BufferedHost}
    (hfilled : host.recvLen = len) (n : Nat) :
    (List.range n).foldl (fun (host : BufferedHost) i =>
        { host with
          recvBuf := Function.update host.recvBuf (host.recvLen - len + i)
            (host.recvBuf (host.recvLen - len + i) ^^^ maskKey.getD (i % 4) 0) }) host =
      { host with
        recvBuf := fun k =>
          if k < n then host.recvBuf k ^^^ maskKey.getD (k % 4) 0 else host.recvBuf k } := by
  induction n with
  | zero => rfl
  | succ n ih =>
      rw [List.range_succ, List.foldl_append, ih, List.foldl_cons, List.foldl_nil]
      dsimp only
      rw [hfilled, Nat.sub_self, Nat.zero_add, if_neg (Nat.lt_irrefl n)]
      congr 1
      funext k
      rcases Nat.lt_trichotomy k n with hlt | rfl | hgt
      · rw [Function.update_of_ne (Nat.ne_of_lt hlt), if_pos hlt, if_pos (Nat.lt_succ_of_lt hlt)]
      · rw [Function.update_self, if_pos (Nat.lt_succ_self k)]
      · rw [Function.update_of_ne (Nat.ne_of_gt hgt), if_neg (by omega), if_neg (by omega)]

theorem sigUnmaskPayload_result (masked : Bool) (maskKey : List UInt8) (len : Nat)
    (host : BufferedHost) (hfilled : host.recvLen = len) :
    ∃ recvBuf, (sigUnmaskPayload masked maskKey len host).result =
        some { host with recvBuf := recvBuf } ∧
      (List.range len).map recvBuf = wsUnmask masked maskKey (host.received len) := by
  rw [sigUnmaskPayload, wsUnmask]
  split
  · refine ⟨_, (result_foldlM (fun _ _ => rfl) _ _).trans
      (congrArg some (foldl_unmask maskKey hfilled len)), ?_⟩
    apply List.ext_getElem
    · simp [wsMask, BufferedHost.received]
    · intro k hk _
      rw [List.length_map, List.length_range] at hk
      simp [wsMask, BufferedHost.received, hk, Fin.ofNat]
  · exact ⟨host.recvBuf, rfl, rfl⟩

theorem sigOpenMessage_refines (host : BufferedHost) :
    ∃ opened, (sigOpenMessageBuffered host).result = some opened ∧
      (opened.1, toHost opened.2) = sigOpenMessage (toHost host) ∧
      opened.2.recvBuf = host.recvBuf := by
  rw [sigOpenMessageBuffered, sigOpenMessage, toHost]
  cases hbuf : host.messageBuf with
  | some buf =>
      refine ⟨_, rfl, ?_, rfl⟩
      rw [toHost, hbuf]
  | none =>
      dsimp only
      rw [result_bind, result_record, Option.bind_some]
      cases host.allocations.headD true <;> exact ⟨_, rfl, rfl, rfl⟩

theorem sigAppendFragment_refines {host : BufferedHost} (hmessage : MessageSound host)
    {buf : List UInt8} (hbuf : host.messageBuf = some buf) (len : Nat) :
    ∃ appended, (sigAppendFragmentBuffered host buf len).result = some appended ∧
      appended.map toHost = sigAppendFragment (toHost host) buf (host.received len) ∧
      ∀ host', appended = some host' → host' = { host with
        messageBuf := some (buf ++ host.received len)
        messageLen := (buf ++ host.received len).length
        recvLen := 0 } := by
  obtain ⟨hlength, hcap⟩ := hmessage.opened buf hbuf
  rw [sigAppendFragmentBuffered, sigAppendFragment, received_length, hcap, ← hlength, copyAt_length]
  split
  · exact ⟨none, rfl, rfl, fun _ hnone => by cases hnone⟩
  · refine ⟨_, rfl, rfl, ?_⟩
    rintro host' hsome
    cases hsome
    rw [List.length_append, received_length]

/-- Sending a frame does not look at the message. -/
theorem sigSendWsFrame_messageBuf (env : FrameEnv) (state : SignalingState)
    (messageBuf : Option (List UInt8)) (opcode : UInt8) (data : List UInt8) :
    sigSendWsFrame env ⟨state, messageBuf⟩ opcode data =
      (sigSendWsFrame env ⟨state, none⟩ opcode data).map fun sent =>
        { sent with sig := ⟨sent.sig.state, messageBuf⟩ } := by
  rw [sigSendWsFrame, sigSendWsFrame]
  split
  · rfl
  · dsimp only
    split
    · rfl
    · rw [Option.map_map]
      congr 1
      funext written
      obtain ⟨ok, wire⟩ := written
      cases ok <;> rfl

theorem sigHandleFrame_refines {host : BufferedHost} (hmessage : MessageSound host) (fin : Bool)
    (opcode : UInt8) (len : Nat) :
    (sigHandleFrameBuffered host fin opcode len).result.map toFrame =
      sigHandleFrame (toHost host) fin opcode (host.received len) := by
  have hclient : (toHost host).client.messageBuf = host.messageBuf := rfl
  rw [sigHandleFrameBuffered, sigHandleFrame]
  by_cases hdata : opcode = wsOpcodeText ∨ opcode = wsOpcodeBinary
  · rw [if_pos hdata, if_pos hdata]
    cases fin with
    | true => rfl
    | false =>
        obtain ⟨⟨buf, opened⟩, hopened, hrefines, hrecv⟩ := sigOpenMessage_refines host
        obtain ⟨hsound, hbuf⟩ := (sigOpenMessage_meets hmessage).result _ hopened
        have hreceived : opened.received len = host.received len := by
          rw [BufferedHost.received, hrecv, BufferedHost.received]
        rw [Bool.not_false, if_pos rfl, if_pos rfl, result_bind, hopened, Option.bind_some,
          ← hrefines]
        cases buf with
        | none => rfl
        | some buf =>
            obtain ⟨appended, hresult, happended, -⟩ :=
              sigAppendFragment_refines hsound (hbuf buf rfl) len
            dsimp only
            rw [result_bind, hresult, Option.bind_some, ← hreceived, ← happended]
            cases appended <;> rfl
  · rw [if_neg hdata, if_neg hdata]
    by_cases hcontinue : opcode = wsOpcodeContinue
    · rw [if_pos hcontinue, if_pos hcontinue, hclient]
      cases hbuf : host.messageBuf with
      | none => rfl
      | some buf =>
          obtain ⟨appended, hresult, happended, hsome⟩ :=
            sigAppendFragment_refines hmessage hbuf len
          dsimp only
          rw [result_bind, hresult, Option.bind_some, ← happended]
          cases appended with
          | none => rfl
          | some appended =>
              obtain rfl := hsome appended rfl
              cases fin with
              | false => rfl
              | true =>
                  dsimp only [Option.map_some]
                  rw [if_pos rfl, if_pos rfl, result_bind, result_record, Option.bind_some,
                    Option.getD_some, List.take_length]
                  rfl
    · rw [if_neg hcontinue, if_neg hcontinue]
      by_cases hclose : opcode = wsOpcodeClose
      · rw [if_pos hclose, if_pos hclose]
        rfl
      · rw [if_neg hclose, if_neg hclose]
        by_cases hping : opcode = wsOpcodePing
        · rw [if_pos hping, if_pos hping]
          have hframes : (toHost host).frames = host.frames := rfl
          rw [hframes]
          cases host.frames with
          | nil => rfl
          | cons env frames =>
              dsimp only [toHost]
              rw [result_bind, result_ofOption,
                sigSendWsFrame_messageBuf env host.state host.messageBuf, Option.map_map]
              cases sigSendWsFrame env ⟨host.state, none⟩ wsOpcodePong (host.received len) <;> rfl
        · rw [if_neg hping, if_neg hping]
          rfl

theorem sigTakePayload_refines {host : BufferedHost} (hmessage : MessageSound host)
    (hempty : host.recvLen = 0) (fin : Bool) (opcode : UInt8) (masked : Bool)
    (maskKey : List UInt8) (len : Nat) (recv : List (Poll UInt8)) :
    (sigTakePayload host fin opcode masked maskKey len recv).result.map toRead =
      sigReadBytes (toHost host) len recv fun data recv =>
        (sigHandleFrame (toHost host) fin opcode (wsUnmask masked maskKey data)).map fun frame =>
          (frame, recv) := by
  obtain ⟨recvBuf, -, hresult, hread⟩ := sigReadPayload_result len 0 host recv
  rw [sigTakePayload, result_bind, hresult, Option.bind_some, sigReadBytes]
  rcases hpoll : pollN len recv with ⟨bytes | _ | _, recv'⟩
  · obtain ⟨recvBuf', hunmasked, hdata⟩ := sigUnmaskPayload_result masked maskKey len
      { host with recvBuf := recvBuf, recvLen := host.recvLen + len } (by rw [hempty, Nat.zero_add])
    have hsound : MessageSound { host with
      recvBuf := recvBuf'
      recvLen := host.recvLen + len } := hmessage.of_eq rfl rfl rfl
    have hhandled := sigHandleFrame_refines hsound fin opcode len
    have hbytes : (List.range len).map recvBuf = bytes := by
      rw [← hread bytes recv' hpoll]
      refine List.map_congr_left fun k _ => congrArg recvBuf ?_
      rw [hempty, Nat.zero_add]
    dsimp only [BufferedHost.received] at hdata hhandled
    rw [hbytes] at hdata
    rw [hdata] at hhandled
    dsimp only [payloadResult]
    rw [result_bind, hunmasked, Option.bind_some, result_bind]
    refine Eq.trans ?_ (congrArg (Option.map fun frame => (frame, recv')) hhandled)
    generalize (sigHandleFrameBuffered _ fin opcode len).result = handled
    cases handled <;> rfl
  · rfl
  · rfl

theorem sigReadWsFrame_refines {host : BufferedHost} (hmessage : MessageSound host)
    (hempty : host.recvLen = 0) (recv : List (Poll UInt8)) :
    (sigReadWsFrameBuffered host recv).result.map toRead = sigReadWsFrame (toHost host) recv := by
  rw [sigReadWsFrameBuffered, sigReadWsFrame, result_bind, result_record, Option.bind_some]
  refine sigReadBytesBuffered_refines fun hdr recv => ?_
  refine sigReadBytesBuffered_refines fun extLen recv => ?_
  refine sigReadBytesBuffered_refines fun maskKey recv => ?_
  by_cases hlong : wsPayloadLength (hdr.getD 1 0 &&& 0x7F) extLen > sigMaxRecvBuf
  · rw [if_pos hlong, if_pos hlong]
    rfl
  · rw [if_neg hlong, if_neg hlong]
    exact sigTakePayload_refines hmessage hempty _ _ _ _ _ recv

theorem tinyrtcSignalingProcess_refines {host : BufferedHost} (hsound : BuffersSound host)
    (recv : List (Poll UInt8)) :
    (tinyrtcSignalingProcessBuffered host recv).result.map toTurn =
      tinyrtcSignalingProcess (toHost host) recv := by
  have hstate : (toHost host).client.state = host.state := rfl
  rw [tinyrtcSignalingProcessBuffered, tinyrtcSignalingProcess, hstate]
  by_cases hconnected : host.state ≠ .connected
  · rw [if_pos hconnected, if_pos hconnected]
    rfl
  · rw [if_neg hconnected, if_neg hconnected, result_bind,
      ← sigReadWsFrame_refines hsound.message (hsound.empty (not_not.mp hconnected))]
    rcases (sigReadWsFrameBuffered host recv).result with _ | ⟨⟨ok, events, read⟩, rest⟩
    · rfl
    · cases ok <;> rfl

theorem processCalls_refines (n : Nat) {host : BufferedHost} (hsound : BuffersSound host)
    (recv : List (Poll UInt8)) :
    (processCalls n host recv).result.map toTurn =
      calls tinyrtcSignalingProcess n (toHost host) recv := by
  induction n generalizing host recv with
  | zero => rfl
  | succ n ih =>
      rw [processCalls, calls, ← tinyrtcSignalingProcess_refines hsound, result_bind]
      cases hturn : (tinyrtcSignalingProcessBuffered host recv).result with
      | none => rfl
      | some turn =>
          have hnext := (tinyrtcSignalingProcess_meets hsound recv).result turn hturn
          have hlast := ih hnext turn.rest
          rw [Option.bind_some, Option.map_some, Option.bind_some, result_bind]
          dsimp only [toTurn]
          rw [← hlast]
          cases (processCalls n turn.state turn.rest).result <;> rfl

end TinyRtc.BufferRefinement
