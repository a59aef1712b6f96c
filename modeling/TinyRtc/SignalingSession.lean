import TinyRtc.FramedStreams
import TinyRtc.SignalingCreate
import TinyRtc.SignalingMessages

namespace TinyRtc.SignalingSession

open TinyRtc.Common
open TinyRtc.CString
open TinyRtc.FramedStreams
open TinyRtc.LabelledRuns
open TinyRtc.PolledStream
open TinyRtc.Signaling
open TinyRtc.SignalingCreate
open TinyRtc.SignalingMessages
open TinyRtc.SignalingUrl
open TinyRtc.WebSocket
open TinyRtc.WebSocketFragments
open TinyRtc.WebSocketFrames
open TinyRtc.WebSocketHandshake
open TinyRtc.WebSocketSegmentation

/-- A call of the interface, with what the transport and the allocator answer while it runs. -/
inductive SignalingCall where
  | sendOffer (env : FrameEnv) (sdp : List UInt8)
  | sendAnswer (env : FrameEnv) (sdp : List UInt8)
  | sendCandidate (env : FrameEnv) (candidate : Option CandidateArg)
  | process (frames : List FrameEnv) (allocations : List Bool) (recv : List (Poll UInt8))
  | connect
  | disconnect

/-- What a call leaves behind: the bytes that the transport has taken, the text that it says it has
sent, and what it has handed on. -/
structure SignalingTurn where
  wire : List UInt8
  text : Option (List UInt8)
  events : List SignalingEvent

/-- The bytes that a pong puts on the wire. -/
def pongWire : SignalingEvent → List UInt8
  | .message _ => []
  | .pong _ wire => wire

/-- A call that sends a text: its bytes are those of `sig_send_ws_frame` for the text. -/
def sendCall (env : FrameEnv) (client : SignalingClient) (sent : Option SentDescription) :
    Option (SignalingTurn × SignalingClient) :=
  sent.bind fun sent =>
    match sent.handed with
    | none => some (⟨[], none, []⟩, sent.sig)
    | some json =>
        (sigSendWsFrame env client wsOpcodeText json).map fun frame =>
          (⟨frame.wire, if sent.error = .ok then some json else none, []⟩, sent.sig)

def signalingCall (client : SignalingClient) :
    SignalingCall → Option (SignalingTurn × SignalingClient)
  | .sendOffer env sdp => sendCall env client (tinyrtcSignalingSendOffer env client sdp)
  | .sendAnswer env sdp => sendCall env client (tinyrtcSignalingSendAnswer env client sdp)
  | .sendCandidate env candidate =>
      sendCall env client (tinyrtcSignalingSendCandidate env client candidate)
  | .process frames allocations recv =>
      (tinyrtcSignalingProcess ⟨client, frames, allocations⟩ recv).map fun turn =>
        (⟨turn.out.flatMap pongWire, none, turn.out⟩, turn.state.client)
  -- Only the creation connects.
  | .connect => some (⟨[], none, []⟩, client)
  | .disconnect => some (⟨[], none, []⟩, { client with state := .disconnected })

/-- The bytes that the transport takes of the close frame. -/
def tinyrtcSignalingDestroy (env : FrameEnv) (client : SignalingClient) : Option (List UInt8) :=
  if client.state = .connected then
    (sigSendWsFrame env client wsOpcodeClose []).map SentFrame.wire
  else some []

def CallStep (client : SignalingClient) (turn : SignalingTurn) (client' : SignalingClient) : Prop :=
  ∃ call, signalingCall client call = some (turn, client')

/-- A frame that `sig_send_ws_frame` does not refuse. -/
structure ClientFrame where
  opcode : UInt8
  opcode_lt : opcode < 16
  mask : Bytes 4
  payload : List UInt8
  fits : wsHeaderLength payload.length + payload.length ≤ sigMaxSendBuf

def ClientFrame.encode (frame : ClientFrame) : List UInt8 :=
  wsFrame frame.opcode frame.mask frame.payload

/-- What a frame says. -/
def ClientFrame.content (frame : ClientFrame) : UInt8 × List UInt8 :=
  (frame.opcode, frame.payload)

/-- The frame as the other end reads it. -/
def ClientFrame.received (frame : ClientFrame) : ServerFrame :=
  sentFrame frame.opcode frame.opcode_lt frame.mask frame.payload frame.fits

/-- A pong that the transport has taken as a whole. -/
def wholePong : SignalingEvent → Option (UInt8 × List UInt8)
  | .message _ => none
  | .pong data wire =>
      if wire.length = wsHeaderLength data.length + data.length then some (wsOpcodePong, data)
      else none

/-- The messages that a call has sent: its text, if it says so, and its pong. -/
def SignalingTurn.sent (turn : SignalingTurn) : List (UInt8 × List UInt8) :=
  (turn.text.map fun text => (wsOpcodeText, text)).toList ++ turn.events.filterMap wholePong

theorem sigWriteLoop_cases {results : List WriteResult} {remaining sent : List UInt8} {ok : Bool}
    (h : sigWriteLoop results remaining = some (ok, sent)) :
    (ok = true ∧ sent = remaining) ∨ (ok = false ∧ sent <+: remaining ∧ sent ≠ remaining) := by
  induction results generalizing remaining ok sent with
  | nil =>
      cases remaining with
      | nil =>
          cases h
          exact .inl ⟨rfl, rfl⟩
      | cons byte remaining => cases h
  | cons result results ih =>
      cases remaining with
      | nil =>
          cases h
          exact .inl ⟨rfl, rfl⟩
      | cons byte remaining =>
          cases result with
          | want => exact ih h
          | failed =>
              cases h
              exact .inr ⟨rfl, List.nil_prefix, (List.cons_ne_nil _ _).symm⟩
          | written n =>
              obtain ⟨⟨ok', rest⟩, hrest, hsent⟩ := Option.map_eq_some_iff.mp h
              cases hsent
              rcases ih hrest with ⟨rfl, rfl⟩ | ⟨rfl, hprefix, hne⟩
              · exact .inl ⟨rfl, List.take_append_drop n _⟩
              · refine .inr ⟨rfl, ?_, fun heq => hne ?_⟩
                · have hfront := (List.prefix_append_right_inj
                    ((byte :: remaining).take n)).mpr hprefix
                  rwa [List.take_append_drop] at hfront
                · exact List.append_cancel_left
                    (heq.trans (List.take_append_drop n (byte :: remaining)).symm)

theorem sigSendWsFrame_of_not_connected {sig : SignalingClient} (h : sig.state ≠ .connected)
    (env : FrameEnv) (opcode : UInt8) (data : List UInt8) :
    sigSendWsFrame env sig opcode data = some ⟨false, sig, []⟩ := by
  rw [sigSendWsFrame, if_pos h]

/-- A frame is sent whole and said to be, or it is refused, or the client is stopped with the front
of it on the wire. -/
theorem sigSendWsFrame_cases {env : FrameEnv} {sig : SignalingClient}
    (hsig : sig.state = .connected) {opcode : UInt8} (hopcode : opcode < 16)
    {data : List UInt8} {sent : SentFrame} (h : sigSendWsFrame env sig opcode data = some sent) :
    (∃ hfits, sent = ⟨true, sig, (ClientFrame.mk opcode hopcode env.mask data hfits).encode⟩) ∨
      sent = ⟨false, sig, []⟩ ∨
      ∃ hfits torn, sent = ⟨false, { sig with state := .error }, torn⟩ ∧
        torn <+: (ClientFrame.mk opcode hopcode env.mask data hfits).encode ∧
        torn ≠ (ClientFrame.mk opcode hopcode env.mask data hfits).encode := by
  rw [sigSendWsFrame, if_neg (not_not.mpr hsig)] at h
  dsimp only at h
  split at h
  · cases h
    exact .inr (.inl rfl)
  · next hlength =>
    rw [wsFrame_length, Nat.not_lt] at hlength
    obtain ⟨⟨ok, wire⟩, hwrite, rfl⟩ := Option.map_eq_some_iff.mp h
    rcases sigWriteLoop_cases hwrite with ⟨rfl, rfl⟩ | ⟨rfl, hprefix, hne⟩
    · exact .inl ⟨hlength, rfl⟩
    · exact .inr (.inr ⟨hlength, wire, rfl, hprefix, hne⟩)

/-- What sending a frame writes, and what it says of it. -/
theorem sigSendWsFrame_written {env : FrameEnv} {sig : SignalingClient}
    (hsig : sig.state = .connected) {opcode : UInt8} (hopcode : opcode < 16)
    {data : List UInt8} {sent : SentFrame} (h : sigSendWsFrame env sig opcode data = some sent) :
    ∃ units torn,
      Written ClientFrame.encode sent.wire units torn ∧
        units.map ClientFrame.content = (if sent.ok then [(opcode, data)] else []) ∧
        (sent.sig.state = .connected → torn = []) := by
  rcases sigSendWsFrame_cases hsig hopcode h with
    ⟨hfits, rfl⟩ | rfl | ⟨hfits, torn, rfl, hprefix, hne⟩
  · exact ⟨[⟨opcode, hopcode, env.mask, data, hfits⟩], [], .unit _, rfl, fun _ => rfl⟩
  · exact ⟨[], [], .nil, rfl, fun _ => rfl⟩
  · refine ⟨[], torn, .front hprefix hne, rfl, fun herror => ?_⟩
    cases herror

theorem sigSendWsFrame_length_iff {env : FrameEnv} {sig : SignalingClient}
    (hsig : sig.state = .connected) {opcode : UInt8} (hopcode : opcode < 16) {data : List UInt8}
    {sent : SentFrame} (h : sigSendWsFrame env sig opcode data = some sent) :
    sent.wire.length = wsHeaderLength data.length + data.length ↔ sent.ok = true := by
  rcases sigSendWsFrame_cases hsig hopcode h with
    ⟨hfits, rfl⟩ | rfl | ⟨hfits, torn, rfl, hprefix, hne⟩
  · exact iff_of_true (wsFrame_length _ _ _) rfl
  · refine iff_of_false (fun hlength => ?_) Bool.false_ne_true
    have hheader : 6 ≤ wsHeaderLength data.length := by
      rw [wsHeaderLength]
      split
      · decide
      · split <;> decide
    rw [List.length_nil] at hlength
    omega
  · refine iff_of_false (fun hlength => hne ?_) Bool.false_ne_true
    exact hprefix.eq_of_length (hlength.trans (wsFrame_length _ _ _).symm)

/-- What reading a frame writes: nothing, or a pong. -/
def WritesPong (read : ReadFrame) : Prop :=
  ∃ units torn, Written ClientFrame.encode (read.events.flatMap pongWire) units torn ∧
    units.map ClientFrame.content = read.events.filterMap wholePong ∧
      (read.host.client.state = .connected → torn = [])

theorem writesPong_nil (ok : Bool) (host : SignalingHost) : WritesPong ⟨ok, [], host⟩ :=
  ⟨[], [], .nil, rfl, fun _ => rfl⟩

theorem writesPong_message (data : List UInt8) (host : SignalingHost) :
    WritesPong ⟨true, [.message data], host⟩ :=
  ⟨[], [], .nil, rfl, fun _ => rfl⟩

theorem sigHandleFrame_writesPong {host : SignalingHost} (hhost : host.client.state = .connected)
    {fin : Bool} {opcode : UInt8} {data : List UInt8} {read : ReadFrame}
    (h : sigHandleFrame host fin opcode data = some read) : WritesPong read := by
  rw [sigHandleFrame] at h
  split at h
  · split at h
    · split at h
      · cases h
        exact writesPong_nil _ _
      · split at h
        · cases h
          exact writesPong_nil _ _
        · cases h
          exact writesPong_nil _ _
    · cases h
      exact writesPong_message _ _
  · split at h
    · split at h
      · cases h
        exact writesPong_nil _ _
      · split at h
        · cases h
          exact writesPong_nil _ _
        · split at h
          · cases h
            exact writesPong_message _ _
          · cases h
            exact writesPong_nil _ _
    · split at h
      · cases h
        exact writesPong_nil _ _
      · split at h
        · split at h
          · cases h
          · obtain ⟨sent, hsent, rfl⟩ := Option.map_eq_some_iff.mp h
            obtain ⟨units, torn, hwritten, hunits, htorn⟩ :=
              sigSendWsFrame_written hhost (by decide) hsent
            refine ⟨units, torn, ?_, ?_, htorn⟩
            · rwa [List.flatMap_singleton]
            · have hlength := sigSendWsFrame_length_iff hhost (by decide) hsent
              rw [hunits, List.filterMap_cons, wholePong, List.filterMap_nil]
              by_cases hok : sent.ok = true
              · rw [if_pos hok, if_pos (hlength.mpr hok)]
              · rw [if_neg hok, if_neg fun hwhole => hok (hlength.mp hwhole)]
        · cases h
          exact writesPong_nil _ _

theorem sigReadBytes_cases {host : SignalingHost} {n : Nat} {recv : List (Poll UInt8)}
    {next : List UInt8 → List (Poll UInt8) → Option (ReadFrame × List (Poll UInt8))}
    {result : ReadFrame × List (Poll UInt8)} (h : sigReadBytes host n recv next = some result) :
    (∃ ok, result.1 = ⟨ok, [], host⟩) ∨ ∃ bytes recv', next bytes recv' = some result := by
  rw [sigReadBytes] at h
  split at h
  · exact .inr ⟨_, _, h⟩
  · cases h
    exact .inl ⟨true, rfl⟩
  · cases h
    exact .inl ⟨false, rfl⟩

theorem sigReadWsFrame_writesPong {host : SignalingHost} (hhost : host.client.state = .connected)
    {recv : List (Poll UInt8)} {result : ReadFrame × List (Poll UInt8)}
    (h : sigReadWsFrame host recv = some result) : WritesPong result.1 := by
  have hstopped : (∃ ok, result.1 = ⟨ok, [], host⟩) → WritesPong result.1 := by
    rintro ⟨ok, hresult⟩
    rw [hresult]
    exact writesPong_nil ok host
  rcases sigReadBytes_cases h with hstop | ⟨hdr, recv₁, h⟩
  · exact hstopped hstop
  rcases sigReadBytes_cases h with hstop | ⟨extLen, recv₂, h⟩
  · exact hstopped hstop
  rcases sigReadBytes_cases h with hstop | ⟨maskKey, recv₃, h⟩
  · exact hstopped hstop
  split at h
  · cases h
    exact writesPong_nil _ _
  rcases sigReadBytes_cases h with hstop | ⟨data, recv₄, h⟩
  · exact hstopped hstop
  obtain ⟨read, hread, rfl⟩ := Option.map_eq_some_iff.mp h
  exact sigHandleFrame_writesPong hhost hread

/-- What a call writes, and what it says of it. -/
def WritesTurn (turn : SignalingTurn) (client' : SignalingClient) : Prop :=
  ∃ units torn, Written ClientFrame.encode turn.wire units torn ∧
    units.map ClientFrame.content = turn.sent ∧ (client'.state = .connected → torn = [])

theorem writesTurn_nil (client' : SignalingClient) : WritesTurn ⟨[], none, []⟩ client' :=
  ⟨[], [], .nil, rfl, fun _ => rfl⟩

theorem sentError_eq_ok_iff (ok : Bool) :
    (if ok then TinyrtcError.ok else TinyrtcError.network) = .ok ↔ ok = true := by
  revert ok
  decide

/-- What is known of every description that is sent: where there is a text, it has been handed to
`sig_send_ws_frame`, and the error is the one that this gives. -/
def Describes (env : FrameEnv) (client : SignalingClient) (sent : SentDescription) : Prop :=
  (sent.handed = none ∧ sent.sig = client) ∨
    ∃ json frame, sent.handed = some json ∧
      sigSendWsFrame env client wsOpcodeText json = some frame ∧ sent.sig = frame.sig ∧
      (sent.error = .ok ↔ frame.ok = true)

theorem sendDescription_describes {type : List UInt8} {env : FrameEnv} {client : SignalingClient}
    {sdp : List UInt8} {sent : SentDescription}
    (h : sendDescription type env client sdp = some sent) : Describes env client sent := by
  rw [sendDescription] at h
  split at h
  · cases h
    exact .inl ⟨rfl, rfl⟩
  · dsimp only at h
    split at h
    · cases h
      exact .inl ⟨rfl, rfl⟩
    · obtain ⟨frame, hframe, rfl⟩ := Option.map_eq_some_iff.mp h
      exact .inr ⟨_, frame, rfl, hframe, rfl, sentError_eq_ok_iff frame.ok⟩

theorem sendCandidate_describes {env : FrameEnv} {client : SignalingClient}
    {candidate : Option CandidateArg} {sent : SentDescription}
    (h : tinyrtcSignalingSendCandidate env client candidate = some sent) :
    Describes env client sent := by
  cases candidate with
  | none =>
      cases h
      exact .inl ⟨rfl, rfl⟩
  | some candidate =>
      rw [tinyrtcSignalingSendCandidate] at h
      split at h
      · cases h
        exact .inl ⟨rfl, rfl⟩
      · dsimp only at h
        split at h
        · cases h
          exact .inl ⟨rfl, rfl⟩
        · obtain ⟨frame, hframe, rfl⟩ := Option.map_eq_some_iff.mp h
          exact .inr ⟨_, frame, rfl, hframe, rfl, sentError_eq_ok_iff frame.ok⟩

/-- A call that sends. -/
theorem sendCall_writes {env : FrameEnv} {client client' : SignalingClient}
    (hclient : client.state = .connected) {described : Option SentDescription}
    (hdescribed : ∀ sent, described = some sent → Describes env client sent)
    {turn : SignalingTurn} (h : sendCall env client described = some (turn, client')) :
    WritesTurn turn client' := by
  obtain ⟨sent, hsent, h⟩ := Option.bind_eq_some_iff.mp h
  rcases hdescribed sent hsent with ⟨hhanded, hsig⟩ | ⟨json, frame, hhanded, hframe, hsig, herror⟩
  · rw [hhanded] at h
    cases h
    exact writesTurn_nil _
  · rw [hhanded] at h
    dsimp only at h
    rw [hframe] at h
    cases h
    obtain ⟨units, torn, hwritten, hunits, htorn⟩ :=
      sigSendWsFrame_written hclient (by decide) hframe
    refine ⟨units, torn, hwritten, ?_, ?_⟩
    · rw [hunits, SignalingTurn.sent]
      by_cases hok : frame.ok = true
      · rw [if_pos hok, if_pos (herror.mpr hok)]
        rfl
      · rw [if_neg hok, if_neg fun hsentOk => hok (herror.mp hsentOk)]
        rfl
    · rwa [hsig]

theorem sendCall_idle {env : FrameEnv} {client client' : SignalingClient}
    (hclient : client.state ≠ .connected) {described : Option SentDescription}
    (hdescribed : ∀ sent, described = some sent → Describes env client sent)
    {turn : SignalingTurn} (h : sendCall env client described = some (turn, client')) :
    turn.wire = [] ∧ turn.sent = [] ∧ client'.state ≠ .connected := by
  obtain ⟨sent, hsent, h⟩ := Option.bind_eq_some_iff.mp h
  rcases hdescribed sent hsent with ⟨hhanded, hsig⟩ | ⟨json, frame, hhanded, hframe, hsig, herror⟩
  · rw [hhanded] at h
    cases h
    rw [hsig]
    exact ⟨rfl, rfl, hclient⟩
  · rw [sigSendWsFrame_of_not_connected hclient] at hframe
    cases hframe
    rw [hhanded] at h
    dsimp only at h
    rw [sigSendWsFrame_of_not_connected hclient, Option.map_some,
      if_neg fun hok => Bool.false_ne_true (herror.mp hok)] at h
    cases h
    rw [hsig]
    exact ⟨rfl, rfl, hclient⟩

theorem process_writes {client client' : SignalingClient} (hclient : client.state = .connected)
    {frames : List FrameEnv} {allocations : List Bool} {recv : List (Poll UInt8)}
    {turn : SignalingTurn}
    (h : signalingCall client (.process frames allocations recv) = some (turn, client')) :
    WritesTurn turn client' := by
  obtain ⟨processed, hprocessed, hturn⟩ := Option.map_eq_some_iff.mp h
  rw [tinyrtcSignalingProcess, if_neg (not_not.mpr hclient)] at hprocessed
  obtain ⟨⟨read, rest⟩, hread, rfl⟩ := Option.map_eq_some_iff.mp hprocessed
  cases hturn
  obtain ⟨units, torn, hwritten, hunits, htorn⟩ :=
    @sigReadWsFrame_writesPong ⟨client, frames, allocations⟩ hclient _ _ hread
  refine ⟨units, torn, hwritten, hunits, fun hconnected => htorn ?_⟩
  dsimp only at hconnected
  split at hconnected
  · exact hconnected
  · cases hconnected

theorem process_idle {client client' : SignalingClient} (hclient : client.state ≠ .connected)
    {frames : List FrameEnv} {allocations : List Bool} {recv : List (Poll UInt8)}
    {turn : SignalingTurn}
    (h : signalingCall client (.process frames allocations recv) = some (turn, client')) :
    turn.wire = [] ∧ turn.sent = [] ∧ client'.state ≠ .connected := by
  rw [signalingCall, tinyrtcSignalingProcess, if_pos hclient] at h
  cases h
  exact ⟨rfl, rfl, hclient⟩

/-- Nothing is written behind a frame that is torn, and nothing by a client that is not
connected. -/
theorem callStep_stopsWhenTorn :
    StopsWhenTorn CallStep (fun client => client.state = .connected) SignalingTurn.wire
      SignalingTurn.sent ClientFrame.encode ClientFrame.content where
  idle := by
    rintro client turn client' ⟨call, h⟩ hclient
    cases call with
    | sendOffer env sdp => exact sendCall_idle hclient (fun _ => sendDescription_describes) h
    | sendAnswer env sdp => exact sendCall_idle hclient (fun _ => sendDescription_describes) h
    | sendCandidate env candidate =>
        exact sendCall_idle hclient (fun _ => sendCandidate_describes) h
    | process frames allocations recv => exact process_idle hclient h
    | connect =>
        cases h
        exact ⟨rfl, rfl, hclient⟩
    | disconnect =>
        cases h
        exact ⟨rfl, rfl, fun hconnected => by cases hconnected⟩
  writes := by
    rintro client turn client' ⟨call, h⟩ hclient
    cases call with
    | sendOffer env sdp => exact sendCall_writes hclient (fun _ => sendDescription_describes) h
    | sendAnswer env sdp => exact sendCall_writes hclient (fun _ => sendDescription_describes) h
    | sendCandidate env candidate =>
        exact sendCall_writes hclient (fun _ => sendCandidate_describes) h
    | process frames allocations recv => exact process_writes hclient h
    | connect =>
        cases h
        exact writesTurn_nil _
    | disconnect =>
        cases h
        exact writesTurn_nil _

theorem pollN_short {n : Nat} {items : List UInt8} (h : items.length < n) :
    pollN n (items.map .item) = (.notYet, []) := by
  induction items generalizing n with
  | nil =>
      obtain ⟨n, rfl⟩ := Nat.exists_eq_add_one_of_ne_zero (Nat.ne_zero_of_lt h)
      rfl
  | cons a items ih =>
      obtain ⟨n, rfl⟩ := Nat.exists_eq_add_one_of_ne_zero (Nat.ne_zero_of_lt h)
      rw [List.map_cons, pollN, poll]
      dsimp only
      rw [ih (by simpa using h)]

theorem sigReadBytes_short {host : SignalingHost} {n : Nat} {bytes : List UInt8}
    (h : bytes.length < n)
    (next : List UInt8 → List (Poll UInt8) → Option (ReadFrame × List (Poll UInt8))) :
    sigReadBytes host n (bytes.map .item) next = some (⟨true, [], host⟩, []) := by
  rw [sigReadBytes, pollN_short h]

/-- The front of a part and what follows it: too short for the part, or the part and the front of
what follows. -/
theorem sigReadBytes_front {host : SignalingHost} {n : Nat} {front part behind : List UInt8}
    (hn : part.length = n) (h : front <+: part ++ behind) (hne : front ≠ part ++ behind)
    (next : List UInt8 → List (Poll UInt8) → Option (ReadFrame × List (Poll UInt8)))
    (hnext : ∀ front', front' <+: behind → front' ≠ behind →
      next part (front'.map .item) = some (⟨true, [], host⟩, [])) :
    sigReadBytes host n (front.map .item) next = some (⟨true, [], host⟩, []) := by
  rcases front_cases h hne with hshort | ⟨front', rfl, hprefix, hne'⟩
  · exact sigReadBytes_short (hn ▸ hshort) next
  · rw [List.map_append, sigReadBytes_items hn, hnext front' hprefix hne']

/-- The front of a frame is read and forgotten. -/
theorem sigReadWsFrame_front (host : SignalingHost) (frame : ServerFrame) {front : List UInt8}
    (h : front <+: frame.encode) (hne : front ≠ frame.encode) :
    sigReadWsFrame host (front.map .item) = some (⟨true, [], host⟩, []) := by
  obtain ⟨hfin, hopcode⟩ := opcode_of_header frame.fin frame.opcode
  obtain ⟨length, hlength⟩ := lengthBits_eq frame
  obtain ⟨hmasked, hbits⟩ := length_of_header frame.mask.isSome length
  rw [← hlength] at hmasked hbits
  have hsecond : frame.header.getD 1 0 =
      (if frame.mask.isSome then 0x80 else 0x00) ||| frame.lengthBits := rfl
  have hle := frame.payload_le
  rw [ServerFrame.encode, List.append_assoc, List.append_assoc] at h hne
  refine sigReadBytes_front rfl h hne _ fun front hfront hne => ?_
  dsimp only
  rw [hsecond, hmasked, hbits]
  refine sigReadBytes_front (extendedLength_length frame) hfront hne _ fun front hfront hne => ?_
  refine sigReadBytes_front (maskKey_length frame) hfront hne _ fun front hfront hne => ?_
  rw [wsPayloadLength_eq, if_neg (by omega)]
  rw [← List.append_nil frame.sentPayload] at hfront hne
  refine sigReadBytes_front (sentPayload_length frame) hfront hne _ fun front hfront hne => ?_
  exact absurd (List.prefix_nil.mp hfront) hne

def textOf (content : UInt8 × List UInt8) : Option (List UInt8) :=
  if content.1 = wsOpcodeText then some content.2 else none

theorem opcode_of_sent {turn : SignalingTurn} {content : UInt8 × List UInt8}
    (h : content ∈ turn.sent) : content.1 = wsOpcodeText ∨ content.1 = wsOpcodePong := by
  rcases List.mem_append.mp h with htext | hpong
  · obtain ⟨text, -, rfl⟩ := Option.map_eq_some_iff.mp (Option.mem_toList.mp htext)
    exact .inl rfl
  · obtain ⟨event, -, hwhole⟩ := List.mem_filterMap.mp hpong
    cases event with
    | message data => cases hwhole
    | pong data wire =>
        rw [wholePong] at hwhole
        split at hwhole
        · cases hwhole
          exact .inr rfl
        · cases hwhole

theorem textOf_wholePong (events : List SignalingEvent) :
    (events.filterMap wholePong).filterMap textOf = [] := by
  refine List.filterMap_eq_nil_iff.mpr fun content hcontent => ?_
  obtain ⟨event, -, hwhole⟩ := List.mem_filterMap.mp hcontent
  cases event with
  | message data => cases hwhole
  | pong data wire =>
      rw [wholePong] at hwhole
      split at hwhole
      · cases hwhole
        rfl
      · cases hwhole

theorem textOf_sent (turns : List SignalingTurn) :
    (turns.flatMap SignalingTurn.sent).filterMap textOf = turns.filterMap SignalingTurn.text := by
  induction turns with
  | nil => rfl
  | cons turn turns ih =>
      rw [List.flatMap_cons, List.filterMap_append, ih, SignalingTurn.sent, List.filterMap_append,
        textOf_wholePong, List.append_nil]
      cases htext : turn.text with
      | none => rw [List.filterMap_cons_none htext]; rfl
      | some text => rw [List.filterMap_cons_some htext]; rfl

theorem handleFrame_received (server : SignalingHost) {frame : ClientFrame}
    (h : frame.opcode = wsOpcodeText ∨ frame.opcode = wsOpcodePong) :
    handleFrame server frame.received =
      some ((textOf frame.content).toList.map .message, server) := by
  have hopcode : frame.received.opcodeByte = frame.opcode := sentFrame_opcodeByte
  rw [handleFrame, hopcode, textOf, ClientFrame.content]
  rcases h with htext | hpong
  · rw [htext]
    rfl
  · rw [hpong]
    rfl

theorem handleAll_received {server : SignalingHost} (hserver : server.client.state = .connected)
    {units : List ClientFrame}
    (h : ∀ frame ∈ units, frame.opcode = wsOpcodeText ∨ frame.opcode = wsOpcodePong) :
    handleAll isConnected handleFrame server (units.map ClientFrame.received) =
      some (((units.map ClientFrame.content).filterMap textOf).map .message, server) := by
  have hactive : isConnected server = true := decide_eq_true hserver
  induction units with
  | nil => rfl
  | cons frame units ih =>
      obtain ⟨hframe, hunits⟩ := List.forall_mem_cons.mp h
      rw [List.map_cons, handleAll, if_pos hactive, handleFrame_received server hframe,
        Option.bind_some, ih hunits, List.map_cons]
      cases htext : textOf frame.content with
      | none => rw [List.filterMap_cons_none htext]; rfl
      | some text => rw [List.filterMap_cons_some htext]; rfl

theorem received_encode (units : List ClientFrame) :
    (units.map ClientFrame.received).flatMap ServerFrame.encode =
      units.flatMap ClientFrame.encode := by
  rw [List.flatMap_map]
  exact List.flatMap_congr fun frame _ => sentFrame_encode

/-- The other end reads the texts of the frames that are whole. -/
theorem written_read {wire torn : List UInt8} {units : List ClientFrame}
    (hwritten : Written ClientFrame.encode wire units torn)
    (hunits : ∀ frame ∈ units, frame.opcode = wsOpcodeText ∨ frame.opcode = wsOpcodePong)
    {server : SignalingHost} (hserver : server.client.state = .connected) {m : Nat}
    (hm : wire.length < m) :
    delivered tinyrtcSignalingProcess m server (wire.map .item) =
      some (((units.map ClientFrame.content).filterMap textOf).map .message, server) := by
  have htorn : ∀ host, isConnected host = true →
      tinyrtcSignalingProcess host (torn.map .item) = some ⟨[], host, []⟩ := by
    intro host hactive
    rcases hwritten.torn with rfl | ⟨frame, hprefix, hne⟩
    · exact tinyrtcSignalingProcess_handlesUnits.empty host hactive
    · have hencode : frame.received.encode = frame.encode := sentFrame_encode
      rw [← hencode] at hprefix hne
      rw [tinyrtcSignalingProcess, if_neg (not_not.mpr (of_decide_eq_true hactive)),
        sigReadWsFrame_front host frame.received hprefix hne]
      rfl
  rw [hwritten.eq, List.length_append] at hm
  rw [← handleAll_received hserver hunits, hwritten.eq, List.map_append, ← received_encode]
  refine delivered_torn tinyrtcSignalingProcess_handlesUnits htorn _ ?_ server
  rw [received_encode]
  omega

/-- A client that is destroyed closes behind its last frame, if that one is whole. -/
theorem destroy_closes {client : SignalingClient} {wire torn : List UInt8}
    {units : List ClientFrame} (hwritten : Written ClientFrame.encode wire units torn)
    (htorn : client.state = .connected → torn = []) {env : FrameEnv} {last : List UInt8}
    (h : tinyrtcSignalingDestroy env client = some last) : ∃ units' torn',
      Written ClientFrame.encode (wire ++ last) (units ++ units') torn' ∧
        units'.map ClientFrame.content <+: [(wsOpcodeClose, [])] := by
  rw [tinyrtcSignalingDestroy] at h
  split at h
  · next hclient =>
    obtain ⟨sent, hsent, rfl⟩ := Option.map_eq_some_iff.mp h
    obtain ⟨units', torn', hlast, hcontent, -⟩ :=
      sigSendWsFrame_written hclient (by decide) hsent
    cases htorn hclient
    refine ⟨units', torn', hwritten.append hlast, ?_⟩
    rw [hcontent]
    split
    · exact List.prefix_rfl
    · exact List.nil_prefix
  · cases h
    refine ⟨[], torn, ?_, List.nil_prefix⟩
    rwa [List.append_nil, List.append_nil]

/-- A client that has been created: what stands on the wire is the request and the join message. -/
theorem create_writes {sha1 : List UInt8 → Bytes 20} {env : CreateEnv} {hasContext : Bool}
    {config : SignalingConfig} {hasCallback : Bool} {created : Created}
    (h : tinyrtcSignalingCreate sha1 env hasContext (some config) hasCallback = some created)
    {client : SignalingClient} (hclient : created.client = some client) :
    client.state = .connected ∧ ∃ url n frame,
      sigParseUrl ((config.url.getD []).take 255) 128 = some url ∧
        env.upgrade.written = .written n ∧
        created.wire = (handshakeRequest (ascii "/") url.host (clientKey env.upgrade)).take n ++
          ClientFrame.encode frame ∧
        frame.content = (wsOpcodeText, joinJson ((config.roomId.getD []).take 127)) := by
  have hnull : some (⟨none, [], env.recv⟩ : Created) = some created → False := by
    intro hcreated
    cases hcreated
    cases hclient
  rw [tinyrtcSignalingCreate] at h
  split at h
  · exact (hnull h).elim
  split at h
  · exact (hnull h).elim
  split at h
  · exact (hnull h).elim
  split at h
  · exact (hnull h).elim
  next url hurl =>
  split at h
  · exact (hnull h).elim
  obtain ⟨ok, -, h⟩ := Option.bind_eq_some_iff.mp h
  split at h
  · exact (hnull h).elim
  obtain ⟨upgraded, hupgraded, h⟩ := Option.bind_eq_some_iff.mp h
  split at h
  · cases h
    cases hclient
  next hok =>
  obtain ⟨n, hwritten, hwire⟩ := handshake_ok_wire hupgraded (by simpa using hok)
  obtain ⟨sent, hsent, rfl⟩ := Option.map_eq_some_iff.mp h
  have hlength : (joinJson ((config.roomId.getD []).take 127)).length ≤ 511 := by
    rw [joinJson_length, List.length_take]
    omega
  rw [List.take_of_length_le hlength] at hsent
  rcases sigSendWsFrame_cases rfl (by decide) hsent with
    ⟨hfits, rfl⟩ | rfl | ⟨hfits, torn, rfl, -, -⟩
  · cases hclient
    exact ⟨rfl, url, n, _, hurl, hwritten, congrArg (· ++ _) hwire, rfl⟩
  · cases hclient
  · cases hclient

/-- A whole session, whatever is called in whatever order and however the transport behaves. The
wire holds the request, the join message and then, in order, one frame for each text that a call
says it has sent and for each ping that has been answered; a frame that is torn is the last one,
and its client is not connected any more. Who reads the frames gets exactly these texts. -/
theorem session_wire (sha1 : List UInt8 → Bytes 20) {env : CreateEnv} {hasContext : Bool}
    {config : SignalingConfig} {hasCallback : Bool} {created : Created}
    (hcreate : tinyrtcSignalingCreate sha1 env hasContext (some config) hasCallback = some created)
    {client client' : SignalingClient} (hclient : created.client = some client)
    {turns : List SignalingTurn} (hrun : Run CallStep client turns client') :
    ∃ url n frames units torn,
      sigParseUrl ((config.url.getD []).take 255) 128 = some url ∧
        env.upgrade.written = .written n ∧
        created.wire ++ turns.flatMap SignalingTurn.wire =
          (handshakeRequest (ascii "/") url.host (clientKey env.upgrade)).take n ++ frames ∧
        Written ClientFrame.encode frames units torn ∧
        units.map ClientFrame.content =
          (wsOpcodeText, joinJson ((config.roomId.getD []).take 127)) ::
            turns.flatMap SignalingTurn.sent ∧
        (client'.state = .connected → torn = []) ∧
        ∀ server : SignalingHost, server.client.state = .connected → ∀ m, frames.length < m →
          delivered tinyrtcSignalingProcess m server (frames.map .item) =
            some ((joinJson ((config.roomId.getD []).take 127) ::
              turns.filterMap SignalingTurn.text).map .message, server) := by
  obtain ⟨hconnected, url, n, frame, hurl, hwritten, hwire, hjoin⟩ := create_writes hcreate hclient
  obtain ⟨units, torn, hunits, hcontent, htorn⟩ := callStep_stopsWhenTorn.run hrun hconnected
  have hall := (Written.unit frame).append hunits
  have hcontents : ([frame] ++ units).map ClientFrame.content =
      (wsOpcodeText, joinJson ((config.roomId.getD []).take 127)) ::
        turns.flatMap SignalingTurn.sent := by
    rw [List.singleton_append, List.map_cons, hjoin, hcontent]
  refine ⟨url, n, _, _, torn, hurl, hwritten, ?_, hall, hcontents, htorn, ?_⟩
  · rw [hwire, List.append_assoc]
  · intro server hserver m hm
    have hopcodes : ∀ unit ∈ [frame] ++ units,
        unit.opcode = wsOpcodeText ∨ unit.opcode = wsOpcodePong := by
      intro unit hunit
      have hmem := List.mem_map_of_mem (f := ClientFrame.content) hunit
      rw [hcontents] at hmem
      rcases List.mem_cons.mp hmem with hfirst | hmem
      · exact .inl (congrArg Prod.fst hfirst)
      · obtain ⟨turn, -, hsent⟩ := List.mem_flatMap.mp hmem
        exact opcode_of_sent hsent
    rw [written_read hall hopcodes hserver hm, hcontents, ← textOf_sent]
    rfl

def sampleOffer : List UInt8 :=
  descriptionJson (ascii "offer") (ascii "v=0")

def sampleTurn : SignalingTurn :=
  ⟨wsFrame wsOpcodeText (fun _ => 0) sampleOffer, some sampleOffer, []⟩

theorem session_wire_sample :
    ∃ url n frames units torn,
      sigParseUrl (ascii "ws://host:8080/") 128 = some url ∧
        WriteResult.written 200 = .written n ∧
        (handshakeRequest (ascii "/") (ascii "host") (clientKey sampleUpgrade)).take 200 ++
            wsFrame wsOpcodeText (fun _ => 0) (joinJson (ascii "room")) ++
            [sampleTurn].flatMap SignalingTurn.wire =
          (handshakeRequest (ascii "/") url.host (clientKey sampleUpgrade)).take n ++ frames ∧
        Written ClientFrame.encode frames units torn ∧
        units.map ClientFrame.content =
          (wsOpcodeText, joinJson (ascii "room")) :: [sampleTurn].flatMap SignalingTurn.sent ∧
        (SignalingState.connected = .connected → torn = []) ∧
        ∀ server : SignalingHost, server.client.state = .connected → ∀ m, frames.length < m →
          delivered tinyrtcSignalingProcess m server (frames.map .item) =
            some ((joinJson (ascii "room") ::
              [sampleTurn].filterMap SignalingTurn.text).map .message, server) := by
  have hcreate : tinyrtcSignalingCreate sampleSha1 sampleCreateEnv true (some sampleConfig) true =
      some ⟨some ⟨.connected, none⟩,
        (handshakeRequest (ascii "/") (ascii "host") (clientKey sampleUpgrade)).take 200 ++
          wsFrame wsOpcodeText (fun _ => 0) (joinJson (ascii "room")), [.item 0x81]⟩ := by
    have hopen := @openSession_answered sampleSha1 sampleCreateEnv (ascii "host") (ascii "room")
      (Nat.le_of_lt_succ sampleHost.length_lt) (by decide) 200 rfl _ _ sampleAnswers
      ⟨by decide, by decide⟩
    have hkey : AnswersKey sampleAnswer (acceptKey sampleSha1 (clientKey sampleCreateEnv.upgrade)) :=
      sampleAnswer_answersKey
    rw [if_pos hkey] at hopen
    exact (create_reaches sampleSha1 sampleHost sampleBehind rfl (by decide) sampleReaches).trans
      hopen
  have hstep : CallStep ⟨.connected, none⟩ sampleTurn ⟨.connected, none⟩ :=
    ⟨.sendOffer pongEnv (ascii "v=0"), rfl⟩
  exact session_wire sampleSha1 hcreate rfl (.singleton hstep)

end TinyRtc.SignalingSession
