import TinyRtc.WebSocketFrames

namespace TinyRtc.WebSocketFragments

open TinyRtc.Common
open TinyRtc.PolledStream
open TinyRtc.Signaling
open TinyRtc.WebSocket
open TinyRtc.WebSocketFrames
open TinyRtc.WebSocketSegmentation

def IsControl (frame : ServerFrame) : Prop :=
  frame.opcodeByte = wsOpcodePing ∨ frame.opcodeByte = wsOpcodePong

/-- What follows the first fragment of a message, up to its last one, and the payloads of
the fragments in it. -/
inductive Continues : List ServerFrame → List UInt8 → Prop
  | control {frame : ServerFrame} {frames : List ServerFrame} {data : List UInt8} :
      IsControl frame → Continues frames data → Continues (frame :: frames) data
  | fragment {frame : ServerFrame} {frames : List ServerFrame} {data : List UInt8} :
      frame.opcodeByte = wsOpcodeContinue → frame.fin = false → Continues frames data →
        Continues (frame :: frames) (frame.payload ++ data)
  | last {frame : ServerFrame} :
      frame.opcodeByte = wsOpcodeContinue → frame.fin = true → Continues [frame] frame.payload

/-- The frames of a message that is sent in two fragments or more. -/
inductive Fragmented : List ServerFrame → List UInt8 → Prop
  | first {frame : ServerFrame} {frames : List ServerFrame} {data : List UInt8} :
      frame.opcodeByte = wsOpcodeText ∨ frame.opcodeByte = wsOpcodeBinary → frame.fin = false →
        Continues frames data → Fragmented (frame :: frames) (frame.payload ++ data)

/-- One message after the other, each of them fragmented and not too long. -/
inductive Conversation : List ServerFrame → List (List UInt8) → Prop
  | nil : Conversation [] []
  | control {frame : ServerFrame} {frames : List ServerFrame} {messages : List (List UInt8)} :
      IsControl frame → Conversation frames messages → Conversation (frame :: frames) messages
  | message {message rest : List ServerFrame} {data : List UInt8}
      {messages : List (List UInt8)} :
      Fragmented message data → data.length ≤ sigMaxRecvBuf → Conversation rest messages →
        Conversation (message ++ rest) (data :: messages)

structure Accepts (env : FrameEnv) : Prop where
  not_failed : .failed ∉ env.writes
  total : sigMaxSendBuf ≤ writtenTotal env.writes

theorem sigSendWsFrame_of_accepts {env : FrameEnv} (haccepts : Accepts env) {sig : SignalingClient}
    (hconnected : sig.state = .connected) (opcode : UInt8) (data : List UInt8) :
    ∃ ok wire, sigSendWsFrame env sig opcode data = some ⟨ok, sig, wire⟩ := by
  rw [sigSendWsFrame, if_neg (not_not.mpr hconnected)]
  dsimp only
  split
  · exact ⟨_, _, rfl⟩
  · next hfits =>
    rw [sigWriteLoop_of_total haccepts.not_failed ((Nat.not_lt.mp hfits).trans haccepts.total)]
    exact ⟨_, _, rfl⟩

def pingCount (frames : List ServerFrame) : Nat :=
  frames.countP fun frame => frame.opcodeByte = wsOpcodePing

/-- A connected client with the fragments `buf`, and an environment that suffices for a
number of pings. -/
structure Ready (host : SignalingHost) (buf : Option (List UInt8)) (pings : Nat) : Prop where
  client : host.client = ⟨.connected, buf⟩
  accepts : ∀ env ∈ host.frames, Accepts env
  enough : pings ≤ host.frames.length
  allocates : ∀ ok ∈ host.allocations, ok = true

theorem Ready.connected {host : SignalingHost} {buf : Option (List UInt8)} {pings : Nat}
    (h : Ready host buf pings) : host.client.state = .connected := by
  rw [h.client]

theorem Ready.headD {host : SignalingHost} {buf : Option (List UInt8)} {pings : Nat}
    (h : Ready host buf pings) : host.allocations.headD true = true := by
  cases hallocations : host.allocations with
  | nil => rfl
  | cons ok allocations =>
      apply h.allocates ok
      rw [hallocations]
      exact List.mem_cons_self

def messagesOf : List SignalingEvent → List (List UInt8)
  | [] => []
  | .message data :: events => data :: messagesOf events
  | .pong _ _ :: events => messagesOf events

theorem messagesOf_append (first second : List SignalingEvent) :
    messagesOf (first ++ second) = messagesOf first ++ messagesOf second := by
  induction first with
  | nil => rfl
  | cons event first ih =>
      cases event with
      | message data =>
          rw [List.cons_append, messagesOf, messagesOf, ih]
          rfl
      | pong data wire =>
          rw [List.cons_append, messagesOf, messagesOf, ih]

/-- The frames hand on these messages and leave this host. -/
def HandsOn (host : SignalingHost) (frames : List ServerFrame) (messages : List (List UInt8))
    (host' : SignalingHost) : Prop :=
  ∃ events, handleAll isConnected handleFrame host frames = some (events, host') ∧
    messagesOf events = messages

theorem HandsOn.nil (host : SignalingHost) : HandsOn host [] [] host :=
  ⟨[], rfl, rfl⟩

theorem HandsOn.append {host host' host'' : SignalingHost} {first second : List ServerFrame}
    {messages messages' : List (List UInt8)} (hfirst : HandsOn host first messages host')
    (hsecond : HandsOn host' second messages' host'') :
    HandsOn host (first ++ second) (messages ++ messages') host'' := by
  obtain ⟨events, hevents, rfl⟩ := hfirst
  obtain ⟨events', hevents', rfl⟩ := hsecond
  refine ⟨events ++ events', ?_, messagesOf_append events events'⟩
  rw [handleAll_append, hevents, Option.bind_some, hevents']
  rfl

theorem HandsOn.singleton {host : SignalingHost} {buf : Option (List UInt8)} {pings : Nat}
    (hready : Ready host buf pings) {frame : ServerFrame} {read : ReadFrame}
    (hread : sigHandleFrame host frame.fin frame.opcodeByte frame.payload = some read)
    (hok : read.ok = true) : HandsOn host [frame] (messagesOf read.events) read.host := by
  have hactive : isConnected host = true := decide_eq_true hready.connected
  refine ⟨read.events, ?_, rfl⟩
  rw [handleAll, if_pos hactive, handleFrame, hread, Option.map_some, Option.bind_some, hok,
    if_pos rfl, handleAll, Option.map_some, List.append_nil]

section

variable {host : SignalingHost} {buf : List UInt8} {frame : ServerFrame} {pings : Nat}

theorem handsOn_control {buf : Option (List UInt8)} {frames : List ServerFrame}
    (hcontrol : IsControl frame) (h : Ready host buf (pingCount (frame :: frames) + pings)) :
    ∃ host', HandsOn host [frame] [] host' ∧ Ready host' buf (pingCount frames + pings) := by
  have henough := h.enough
  rcases hcontrol with hping | hpong
  · rw [pingCount, List.countP_cons_of_pos (by simpa using hping)] at henough
    obtain ⟨client, envs, allocations⟩ := host
    cases envs with
    | nil =>
        rw [List.length_nil] at henough
        omega
    | cons env envs =>
        obtain ⟨ok, wire, hsent⟩ := sigSendWsFrame_of_accepts
          (h.accepts env List.mem_cons_self) h.connected wsOpcodePong frame.payload
        have hread : sigHandleFrame ⟨client, env :: envs, allocations⟩ frame.fin frame.opcodeByte
            frame.payload =
              some ⟨true, [.pong frame.payload wire], ⟨client, envs, allocations⟩⟩ := by
          rw [hping, sigHandleFrame, if_neg (by decide), if_neg (by decide), if_neg (by decide),
            if_pos rfl]
          dsimp only
          rw [hsent]
          rfl
        refine ⟨_, .singleton h hread rfl, h.client, ?_, ?_, h.allocates⟩
        · exact fun env' henv' => h.accepts env' (List.mem_cons_of_mem _ henv')
        · rw [List.length_cons, Nat.add_right_comm] at henough
          exact Nat.le_of_succ_le_succ henough
  · have hread : sigHandleFrame host frame.fin frame.opcodeByte frame.payload =
        some ⟨true, [], host⟩ := by
      rw [hpong, sigHandleFrame, if_neg (by decide), if_neg (by decide), if_neg (by decide),
        if_neg (by decide)]
    refine ⟨_, .singleton h hread rfl, h.client, h.accepts, ?_, h.allocates⟩
    rwa [pingCount, List.countP_cons_of_neg (by rw [hpong]; decide)] at henough

theorem handsOn_first (hopcode : frame.opcodeByte = wsOpcodeText ∨ frame.opcodeByte = wsOpcodeBinary)
    (hfin : frame.fin = false) (h : Ready host none pings) :
    ∃ host', HandsOn host [frame] [] host' ∧ Ready host' (some frame.payload) pings := by
  have hopen : sigOpenMessage host =
      (some [], { host with allocations := host.allocations.tail, client := ⟨.connected, some []⟩ }) := by
    rw [sigOpenMessage]
    simp only [h.client, h.headD, if_true]
  have hread : sigHandleFrame host frame.fin frame.opcodeByte frame.payload =
      some ⟨true, [], { host with
        allocations := host.allocations.tail
        client := ⟨.connected, some frame.payload⟩ }⟩ := by
    rw [sigHandleFrame, if_pos hopcode, hfin, hopen]
    simp only [Bool.not_false, if_true, sigAppendFragment]
    rw [if_neg]
    · rfl
    · exact Nat.not_lt.mpr (by simpa using frame.payload_le)
  refine ⟨_, .singleton h hread rfl, rfl, h.accepts, h.enough, ?_⟩
  exact fun ok hok => h.allocates ok (List.mem_of_mem_tail hok)

theorem sigHandleFrame_continue (hopcode : frame.opcodeByte = wsOpcodeContinue)
    (h : Ready host (some buf) pings) (hfits : buf.length + frame.payload.length ≤ sigMaxRecvBuf) :
    sigHandleFrame host frame.fin frame.opcodeByte frame.payload =
      if frame.fin then
        some ⟨true, [.message (buf ++ frame.payload)], { host with client := ⟨.connected, none⟩ }⟩
      else some ⟨true, [], { host with client := ⟨.connected, some (buf ++ frame.payload)⟩ }⟩ := by
  rw [hopcode, sigHandleFrame, if_neg (by decide), if_pos rfl]
  simp only [h.client, sigAppendFragment]
  rw [if_neg (Nat.not_lt.mpr hfits)]

theorem handsOn_fragment (hopcode : frame.opcodeByte = wsOpcodeContinue) (hfin : frame.fin = false)
    (h : Ready host (some buf) pings)
    (hfits : buf.length + frame.payload.length ≤ sigMaxRecvBuf) :
    ∃ host', HandsOn host [frame] [] host' ∧ Ready host' (some (buf ++ frame.payload)) pings := by
  have hread := sigHandleFrame_continue hopcode h hfits
  rw [if_neg (by rw [hfin]; exact Bool.false_ne_true)] at hread
  exact ⟨_, .singleton h hread rfl, rfl, h.accepts, h.enough, h.allocates⟩

theorem handsOn_last (hopcode : frame.opcodeByte = wsOpcodeContinue) (hfin : frame.fin = true)
    (h : Ready host (some buf) pings)
    (hfits : buf.length + frame.payload.length ≤ sigMaxRecvBuf) :
    ∃ host', HandsOn host [frame] [buf ++ frame.payload] host' ∧ Ready host' none pings := by
  have hread := sigHandleFrame_continue hopcode h hfits
  rw [if_pos hfin] at hread
  exact ⟨_, .singleton h hread rfl, rfl, h.accepts, h.enough, h.allocates⟩

end

theorem pingCount_of_data {frame : ServerFrame} (h : frame.opcodeByte ≠ wsOpcodePing)
    (frames : List ServerFrame) : pingCount (frame :: frames) = pingCount frames :=
  List.countP_cons_of_neg (by simpa using h)

theorem Continues.handsOn {frames : List ServerFrame} {data : List UInt8}
    (hframes : Continues frames data) {host : SignalingHost} {buf : List UInt8} {pings : Nat}
    (h : Ready host (some buf) (pingCount frames + pings))
    (hfits : buf.length + data.length ≤ sigMaxRecvBuf) :
    ∃ host', HandsOn host frames [buf ++ data] host' ∧ Ready host' none pings := by
  induction hframes generalizing host buf with
  | control hcontrol _ ih =>
      obtain ⟨host₁, hfirst, hready₁⟩ := handsOn_control hcontrol h
      obtain ⟨host₂, hrest, hready₂⟩ := ih hready₁ hfits
      exact ⟨host₂, hfirst.append hrest, hready₂⟩
  | @fragment frame frames data hopcode hfin _ ih =>
      rw [List.length_append] at hfits
      rw [pingCount_of_data (by rw [hopcode]; decide)] at h
      obtain ⟨host₁, hfirst, hready₁⟩ := handsOn_fragment hopcode hfin h (by omega)
      obtain ⟨host₂, hrest, hready₂⟩ := ih hready₁ (by rw [List.length_append]; omega)
      rw [List.append_assoc] at hrest
      exact ⟨host₂, hfirst.append hrest, hready₂⟩
  | @last frame hopcode hfin =>
      rw [pingCount_of_data (by rw [hopcode]; decide)] at h
      obtain ⟨host', hlast, hready⟩ := handsOn_last hopcode hfin h hfits
      refine ⟨host', hlast, hready.client, hready.accepts, ?_, hready.allocates⟩
      exact (Nat.le_add_left _ _).trans hready.enough

theorem Fragmented.handsOn {frames : List ServerFrame} {data : List UInt8}
    (hframes : Fragmented frames data) {host : SignalingHost} {pings : Nat}
    (h : Ready host none (pingCount frames + pings)) (hfits : data.length ≤ sigMaxRecvBuf) :
    ∃ host', HandsOn host frames [data] host' ∧ Ready host' none pings := by
  obtain ⟨hopcode, hfin, hrest⟩ := hframes
  rename_i frame frames data
  have hnot : frame.opcodeByte ≠ wsOpcodePing := by
    rcases hopcode with heq | heq <;> rw [heq] <;> decide
  rw [pingCount_of_data hnot] at h
  obtain ⟨host₁, hfirst, hready₁⟩ := handsOn_first hopcode hfin h
  rw [List.length_append] at hfits
  obtain ⟨host₂, hrest, hready₂⟩ := hrest.handsOn hready₁ hfits
  exact ⟨host₂, hfirst.append hrest, hready₂⟩

theorem Conversation.handsOn {frames : List ServerFrame} {messages : List (List UInt8)}
    (hframes : Conversation frames messages) {host : SignalingHost}
    (h : Ready host none (pingCount frames)) :
    ∃ host', HandsOn host frames messages host' ∧ Ready host' none 0 := by
  induction hframes generalizing host with
  | nil => exact ⟨host, .nil host, h⟩
  | control hcontrol _ ih =>
      obtain ⟨host₁, hfirst, hready₁⟩ := @handsOn_control _ _ 0 _ _ hcontrol h
      obtain ⟨host₂, hrest, hready₂⟩ := ih hready₁
      exact ⟨host₂, hfirst.append hrest, hready₂⟩
  | message hmessage hfits _ ih =>
      rw [pingCount, List.countP_append] at h
      obtain ⟨host₁, hfirst, hready₁⟩ := hmessage.handsOn h hfits
      obtain ⟨host₂, hrest, hready₂⟩ := ih hready₁
      exact ⟨host₂, hfirst.append hrest, hready₂⟩

/-- Every message is handed on once, whole and in order, and no fragment is left. -/
theorem conversation_delivers {frames : List ServerFrame} {messages : List (List UInt8)}
    (hframes : Conversation frames messages) {recv : List (Poll UInt8)}
    (hwaits : WaitsBetween ServerFrame.encode frames recv) {n : Nat} (hn : recv.length ≤ n)
    {host : SignalingHost} (hclient : host.client = ⟨.connected, none⟩)
    (haccepts : ∀ env ∈ host.frames, Accepts env) (henough : pingCount frames ≤ host.frames.length)
    (hallocates : ∀ ok ∈ host.allocations, ok = true) :
    ∃ events host', delivered tinyrtcSignalingProcess n host recv = some (events, host') ∧
      messagesOf events = messages ∧ host'.client = ⟨.connected, none⟩ := by
  obtain ⟨host', ⟨events, hevents, hmessages⟩, hready⟩ :=
    hframes.handsOn ⟨hclient, haccepts, henough, hallocates⟩
  refine ⟨events, host', ?_, hmessages, hready.client⟩
  rw [tinyrtcSignalingProcess_handlesUnits.delivered_eq hwaits hn, hevents]

def fragmentFrame (fin : Bool) (opcode : Fin 16) (byte : UInt8) : ServerFrame :=
  ⟨fin, opcode, none, [byte], Nat.le_of_ble_eq_true rfl⟩

def pongEnv : FrameEnv :=
  ⟨fun _ => 0, [.written 8192]⟩

theorem conversation_delivers_ping :
    ∃ events host', delivered tinyrtcSignalingProcess 9 ⟨⟨.connected, none⟩, [pongEnv], []⟩
        (([fragmentFrame false 1 0x41, fragmentFrame true 9 0x00,
          fragmentFrame true 0 0x42].flatMap ServerFrame.encode).map .item) =
            some (events, host') ∧
      messagesOf events = [[0x41, 0x42]] ∧ host'.client = ⟨.connected, none⟩ := by
  have hframes : Conversation [fragmentFrame false 1 0x41, fragmentFrame true 9 0x00,
      fragmentFrame true 0 0x42] [[0x41, 0x42]] :=
    .message (.first (.inl rfl) rfl (.control (.inl rfl) (.last rfl rfl))) (by decide) .nil
  refine conversation_delivers hframes (waitsBetween_flatMap _ _) (by decide) rfl ?_ (by decide) ?_
  · intro env henv
    rw [List.mem_singleton.mp henv]
    exact ⟨by decide, by decide⟩
  · exact fun ok hok => absurd hok List.not_mem_nil

end TinyRtc.WebSocketFragments
