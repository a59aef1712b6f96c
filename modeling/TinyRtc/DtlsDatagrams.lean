import TinyRtc.OnePlaceMailboxes
import TinyRtc.SecureSession

namespace TinyRtc.DtlsDatagrams

open TinyRtc.Common
open TinyRtc.Dtls
open TinyRtc.Ice
open TinyRtc.Inet
open TinyRtc.LabelledRuns
open TinyRtc.OnePlaceMailboxes
open TinyRtc.SecureSession
open TinyRtc.Srtp

/-- What `dtls_bio_send` returns. -/
inductive BioSent where
  | badInput
  | wantWrite
  | sent (count : Nat)
  deriving DecidableEq, Repr

/-- What `mbedtls_ssl_handshake` does with the two callbacks until it returns. A receiving
callback that gives nothing returns `MBEDTLS_ERR_SSL_WANT_READ`. -/
inductive Handshake where
  | returns (answer : HandshakeAnswer)
  | receives (room : Nat) (next : Option (List UInt8) → Handshake)
  | sends (message : List UInt8) (next : BioSent → Handshake)

/-- `dtls_context_t` with the datagram that waits in it, empty if none does. -/
structure DtlsIo where
  dtls : DtlsContext
  pending : List UInt8

/-- A call of `mbedtls_ssl_handshake` and the calls by which a server recovers; the ICE session
that the context points to, as it is then; and the answers of `sendto`. -/
structure HandshakeCall where
  handshake : Handshake
  sessionResetOk : Bool
  transportIdOk : Bool
  ice : IceSession
  sendto : Nat → Option Nat

/-- What a function comes to: its result, what it leaves behind, what has happened to the waiting
datagram, and what was sent. -/
structure IoResult (ρ : Type) where
  result : ρ
  io : DtlsIo
  events : List (MailEvent UInt8)
  sent : List (SockAddr × List UInt8)

/-- The address of the selected pair's remote candidate, if `inet_pton` can read it. -/
def selectedAddress (ice : IceSession) : Option SockAddr :=
  (ice.selectedPair.bind fun i => ice.checkPairs.items[i]?).bind fun pair =>
    (inetPton (ice.remoteOf pair).ip.bytes).map fun addr => ⟨addr, (ice.remoteOf pair).port⟩

def dtlsBioSend (dtls : DtlsContext) (ice : IceSession) (sendto : Option Nat)
    (message : List UInt8) : BioSent × List (SockAddr × List UInt8) :=
  if (dtls.transport.bind fun ice => ice.socket) = none then (.badInput, [])
  else
    match selectedAddress ice with
    | none => (.badInput, [])
    | some remoteAddr =>
        match sendto with
        | none => (.wantWrite, [])
        | some sent => (.sent sent, [(remoteAddr, message)])

def dtlsBioRecv (pending : List UInt8) (len : Nat) : Option (List UInt8) × List UInt8 :=
  if pending = [] then (none, pending)
  else (some (pending.take len), [])

/-- The handshake with its callbacks; `n` counts the messages that it has sent. -/
def runHandshake (dtls : DtlsContext) (call : HandshakeCall) :
    Handshake → (n : Nat) → (pending : List UInt8) →
      HandshakeAnswer × List UInt8 × List (MailEvent UInt8) × List (SockAddr × List UInt8)
  | .returns answer, _, pending => (answer, pending, [], [])
  | .receives room next, n, pending =>
      match dtlsBioRecv pending room with
      | (none, pending) => runHandshake dtls call (next none) n pending
      | (some bytes, pending) =>
          let (answer, pending, events, sent) :=
            runHandshake dtls call (next (some bytes)) n pending
          (answer, pending, .read room bytes :: events, sent)
  | .sends message next, n, pending =>
      let (result, packets) := dtlsBioSend dtls call.ice (call.sendto n) message
      let (answer, pending, events, sent) := runHandshake dtls call (next result) (n + 1) pending
      (answer, pending, events, packets ++ sent)

def dtlsContinueHandshakeWithBio (io : DtlsIo) (call : HandshakeCall) : IoResult HandshakeResult :=
  if io.dtls.handshakeComplete then ⟨.done, io, [], []⟩
  else
    let (answer, pending, events, sent) := runHandshake io.dtls call call.handshake 0 io.pending
    { result := answer.result
      io :=
        { dtls :=
            { io.dtls with
              isOver := answer.isOver
              peerCertificate := answer.peerCertificate
              handshakeComplete := answer.result == .done
              masterSecret := answer.exportedSecret <|> io.dtls.masterSecret }
          pending := pending }
      events := events
      sent := sent }

def dtlsConfigureRuntimeIoWithBio (io : DtlsIo) (transportIdOk : Bool) : IoResult TinyrtcError :=
  match io.dtls.transport with
  | none => ⟨.invalidArg, io, [], []⟩
  | some ice =>
      if ice.socket = none ∨ ice.selectedPair = none then ⟨.invalidArg, io, [], []⟩
      else
        ⟨if io.dtls.role = .server ∧ transportIdOk = false then .error else .ok,
          { io with pending := [] }, [.cleared], []⟩

def dtlsHandleHandshakeResultWithBio (io : DtlsIo) (call : HandshakeCall)
    (result : HandshakeResult) : IoResult TinyrtcError :=
  match result with
  | .done | .wantRead | .wantWrite | .peerCloseNotify => ⟨.ok, io, [], []⟩
  | .helloVerifyRequired =>
      if io.dtls.role = .server then
        if !call.sessionResetOk then ⟨.error, io, [], []⟩
        else
          let io :=
            { io with
              dtls :=
                { io.dtls with
                  isOver := false
                  peerCertificate := none
                  handshakeComplete := false } }
          let configured := dtlsConfigureRuntimeIoWithBio io call.transportIdOk
          { configured with result := if configured.result ≠ .ok then .error else .ok }
      else ⟨.ok, io, [], []⟩
  | .failed => ⟨.error, io, [], []⟩

/-- One function behind another, whose events and packets come first. -/
def IoResult.followedBy {ρ ρ' : Type} (first : IoResult ρ) (second : IoResult ρ') : IoResult ρ' :=
  { second with
    events := first.events ++ second.events
    sent := first.sent ++ second.sent }

/-- `memcpy` into the context, and its length. -/
def holdDatagram (io : DtlsIo) (data : List UInt8) : IoResult Unit :=
  ⟨(), { io with pending := data }, [.delivered data], []⟩

def dtlsProcessDataWithBio (io : DtlsIo) (data : List UInt8) (first second : HandshakeCall) :
    IoResult TinyrtcError :=
  if data.length > 2048 then ⟨.error, io, [], []⟩
  else
    let held := holdDatagram io data
    let continued := held.followedBy (dtlsContinueHandshakeWithBio held.io first)
    if continued.result = .helloVerifyRequired ∧ continued.io.dtls.role = .server then
      let handled :=
        continued.followedBy (dtlsHandleHandshakeResultWithBio continued.io first continued.result)
      if handled.result ≠ .ok then handled
      else
        let held := handled.followedBy (holdDatagram handled.io data)
        let continued := held.followedBy (dtlsContinueHandshakeWithBio held.io second)
        continued.followedBy (dtlsHandleHandshakeResultWithBio continued.io second continued.result)
    else continued.followedBy (dtlsHandleHandshakeResultWithBio continued.io first continued.result)

def dtlsPollHandshakeWithBio (io : DtlsIo) (call : HandshakeCall) : IoResult TinyrtcError :=
  let continued := dtlsContinueHandshakeWithBio io call
  continued.followedBy (dtlsHandleHandshakeResultWithBio continued.io call continued.result)

def dtlsStartWithBio (io : DtlsIo) (call : HandshakeCall) : IoResult TinyrtcError :=
  if call.ice.socket = none ∨ call.ice.selectedPair = none then ⟨.invalidArg, io, [], []⟩
  else
    let io := { io with dtls := { io.dtls with transport := some call.ice } }
    let configured := dtlsConfigureRuntimeIoWithBio io call.transportIdOk
    if configured.result ≠ .ok then { configured with result := .error }
    else
      let continued := configured.followedBy (dtlsContinueHandshakeWithBio configured.io call)
      { continued with
        result :=
          if continued.result = .done ∨ continued.result = .wantRead ∨
              continued.result = .wantWrite then .ok
          else .error }

/-- A call of a function of the module, with what mbedTLS does in it. -/
inductive DtlsCall where
  | start (call : HandshakeCall)
  | processData (data : List UInt8) (first second : HandshakeCall)
  | pollHandshake (call : HandshakeCall)

def DtlsCall.run (io : DtlsIo) : DtlsCall → IoResult TinyrtcError
  | .start call => dtlsStartWithBio io call
  | .processData data first second => dtlsProcessDataWithBio io data first second
  | .pollHandshake call => dtlsPollHandshakeWithBio io call

/-- The ICE sessions as they are when the call's handshakes run. -/
def DtlsCall.sessions : DtlsCall → List IceSession
  | .start call => [call.ice]
  | .processData _ first second => [first.ice, second.ice]
  | .pollHandshake call => [call.ice]

inductive IoStep : DtlsIo → DtlsCall × IoResult TinyrtcError → DtlsIo → Prop
  | run (io : DtlsIo) (call : DtlsCall) : IoStep io (call, call.run io) (call.run io).io

/-- The same calls where mbedTLS answers without its callbacks. -/
inductive DtlsStep : DtlsContext → DtlsCall × TinyrtcError → DtlsContext → Prop
  | start (dtls : DtlsContext) (call : HandshakeCall) (env : HandshakeEnv) :
      DtlsStep dtls (.start call, (dtlsStart dtls env call.ice).1) (dtlsStart dtls env call.ice).2
  | processData (dtls : DtlsContext) (data : List UInt8) (first second : HandshakeCall)
      (firstEnv secondEnv : HandshakeEnv) :
      DtlsStep dtls
        (.processData data first second,
          (dtlsProcessData dtls firstEnv secondEnv data.length).1)
        (dtlsProcessData dtls firstEnv secondEnv data.length).2
  | pollHandshake (dtls : DtlsContext) (call : HandshakeCall) (env : HandshakeEnv) :
      DtlsStep dtls (.pollHandshake call, (dtlsPollHandshake dtls env).1)
        (dtlsPollHandshake dtls env).2

/-- A function does this to the waiting datagram and to the network: datagrams were handed in, and
what was sent went to the selected pair of one of the sessions. -/
structure Does {ρ : Type} (handed : List (List UInt8)) (sessions : List IceSession) (io : DtlsIo)
    (done : IoResult ρ) : Prop where
  mail : Run MailStep io.pending done.events done.io.pending
  handed_eq : deliveries done.events = handed
  sent : ∀ packet ∈ done.sent, ∃ ice ∈ sessions, selectedAddress ice = some packet.1

theorem Does.nothing {ρ : Type} (sessions : List IceSession) {io io' : DtlsIo}
    (h : io'.pending = io.pending) (result : ρ) : Does [] sessions io ⟨result, io', [], []⟩ where
  mail := h ▸ .nil _
  handed_eq := rfl
  sent _ hpacket := absurd hpacket List.not_mem_nil

theorem Does.followedBy {ρ ρ' : Type} {handed handed' : List (List UInt8)}
    {sessions : List IceSession} {io : DtlsIo} {first : IoResult ρ} {second : IoResult ρ'}
    (hfirst : Does handed sessions io first) (hsecond : Does handed' sessions first.io second) :
    Does (handed ++ handed') sessions io (first.followedBy second) where
  mail := hfirst.mail.append hsecond.mail
  handed_eq := by
    change deliveries (first.events ++ second.events) = _
    rw [deliveries_append, hfirst.handed_eq, hsecond.handed_eq]
  sent packet hpacket := (List.mem_append.mp hpacket).elim (hfirst.sent packet)
    (hsecond.sent packet)

theorem Does.of_mem {ρ : Type} {handed : List (List UInt8)} {ice : IceSession}
    {sessions : List IceSession} {io : DtlsIo} {done : IoResult ρ}
    (h : Does handed [ice] io done) (hice : ice ∈ sessions) : Does handed sessions io done where
  mail := h.mail
  handed_eq := h.handed_eq
  sent packet hpacket := by
    obtain ⟨ice', hice', hselected⟩ := h.sent packet hpacket
    exact ⟨ice, hice, List.mem_singleton.mp hice' ▸ hselected⟩

theorem dtlsBioSend_sent {dtls : DtlsContext} {ice : IceSession} {sendto : Option Nat}
    {message : List UInt8} {packet : SockAddr × List UInt8}
    (h : packet ∈ (dtlsBioSend dtls ice sendto message).2) :
    selectedAddress ice = some packet.1 := by
  rw [dtlsBioSend] at h
  split at h
  · cases h
  · split at h
    · cases h
    · next remoteAddr hselected =>
      split at h
      · cases h
      · rw [List.mem_singleton.mp h]
        exact hselected

/-- A handshake reads the waiting datagram once, or leaves it. -/
theorem does_runHandshake (dtls : DtlsContext) (call : HandshakeCall) (handshake : Handshake)
    (n : Nat) (pending : List UInt8) :
    Run MailStep pending (runHandshake dtls call handshake n pending).2.2.1
        (runHandshake dtls call handshake n pending).2.1 ∧
      deliveries (runHandshake dtls call handshake n pending).2.2.1 = [] ∧
      ∀ packet ∈ (runHandshake dtls call handshake n pending).2.2.2,
        selectedAddress call.ice = some packet.1 := by
  induction handshake generalizing n pending with
  | returns answer => exact ⟨.nil _, rfl, fun _ hpacket => absurd hpacket List.not_mem_nil⟩
  | receives room next ih =>
      rw [runHandshake, dtlsBioRecv]
      split
      · next hnone =>
        split at hnone
        · cases hnone
          exact ih none n pending
        · cases hnone
      · next hsome =>
        split at hsome
        · cases hsome
        · next hheld =>
          cases hsome
          obtain ⟨hmail, hhanded, hsent⟩ := ih (some (pending.take room)) n []
          exact ⟨.cons (.read room hheld) hmail, hhanded, hsent⟩
  | sends message next ih =>
      rw [runHandshake]
      obtain ⟨hmail, hhanded, hsent⟩ :=
        ih (dtlsBioSend dtls call.ice (call.sendto n) message).1 (n + 1) pending
      refine ⟨hmail, hhanded, fun packet hpacket => ?_⟩
      rcases List.mem_append.mp hpacket with hnow | hlater
      · exact dtlsBioSend_sent hnow
      · exact hsent packet hlater

section

variable (io : DtlsIo) (call : HandshakeCall)

theorem does_continueHandshake : Does [] [call.ice] io (dtlsContinueHandshakeWithBio io call) := by
  rw [dtlsContinueHandshakeWithBio]
  split
  · exact .nothing _ rfl _
  · obtain ⟨hmail, hhanded, hsent⟩ := does_runHandshake io.dtls call call.handshake 0 io.pending
    exact ⟨hmail, hhanded, fun packet hpacket =>
      ⟨call.ice, List.mem_singleton_self _, hsent packet hpacket⟩⟩

theorem does_configureRuntimeIo (sessions : List IceSession) (transportIdOk : Bool) :
    Does [] sessions io (dtlsConfigureRuntimeIoWithBio io transportIdOk) := by
  rw [dtlsConfigureRuntimeIoWithBio]
  split
  · exact .nothing _ rfl _
  · split
    · exact .nothing _ rfl _
    · exact ⟨.singleton (.cleared _), rfl, fun _ hpacket => absurd hpacket List.not_mem_nil⟩

theorem does_handleHandshakeResult (sessions : List IceSession) (result : HandshakeResult) :
    Does [] sessions io (dtlsHandleHandshakeResultWithBio io call result) := by
  rw [dtlsHandleHandshakeResultWithBio.eq_def]
  split
  · exact .nothing _ rfl _
  · exact .nothing _ rfl _
  · exact .nothing _ rfl _
  · exact .nothing _ rfl _
  · split
    · split
      · exact .nothing _ rfl _
      · have hconfigured := does_configureRuntimeIo
          { io with
            dtls :=
              { io.dtls with
                isOver := false
                peerCertificate := none
                handshakeComplete := false } } sessions call.transportIdOk
        exact ⟨hconfigured.mail, hconfigured.handed_eq, hconfigured.sent⟩
    · exact .nothing _ rfl _
  · exact .nothing _ rfl _

theorem does_pollHandshake : Does [] [call.ice] io (dtlsPollHandshakeWithBio io call) :=
  (does_continueHandshake io call).followedBy (does_handleHandshakeResult _ call _ _)

theorem does_start : Does [] [call.ice] io (dtlsStartWithBio io call) := by
  rw [dtlsStartWithBio]
  split
  · exact .nothing _ rfl _
  · have hconfigured := does_configureRuntimeIo
      { io with dtls := { io.dtls with transport := some call.ice } } [call.ice] call.transportIdOk
    dsimp only
    split
    · exact ⟨hconfigured.mail, hconfigured.handed_eq, hconfigured.sent⟩
    · have hcontinued := hconfigured.followedBy (does_continueHandshake _ call)
      exact ⟨hcontinued.mail, hcontinued.handed_eq, hcontinued.sent⟩

theorem does_holdDatagram (sessions : List IceSession) (data : List UInt8) :
    Does [data] sessions io (holdDatagram io data) :=
  ⟨.singleton (.delivered _ _), rfl, fun _ hpacket => absurd hpacket List.not_mem_nil⟩

end

/-- What mbedTLS comes to when it is run so, as the model without its callbacks takes it. -/
def HandshakeCall.env (call : HandshakeCall) (io : DtlsIo) : HandshakeEnv :=
  ⟨(runHandshake io.dtls call call.handshake 0 io.pending).1, call.sessionResetOk,
    call.transportIdOk⟩

section

variable (io : DtlsIo) (call : HandshakeCall)

theorem erase_continueHandshake :
    ((dtlsContinueHandshakeWithBio io call).result,
        (dtlsContinueHandshakeWithBio io call).io.dtls) =
      dtlsContinueHandshake io.dtls (call.env io).answer := by
  rw [dtlsContinueHandshakeWithBio, dtlsContinueHandshake]
  split <;> rfl

theorem erase_configureRuntimeIo (transportIdOk : Bool) :
    (dtlsConfigureRuntimeIoWithBio io transportIdOk).result =
        dtlsConfigureRuntimeIo io.dtls transportIdOk ∧
      (dtlsConfigureRuntimeIoWithBio io transportIdOk).io.dtls = io.dtls := by
  rw [dtlsConfigureRuntimeIoWithBio, dtlsConfigureRuntimeIo]
  cases io.dtls.transport with
  | none => exact ⟨rfl, rfl⟩
  | some ice =>
      dsimp only
      split <;> exact ⟨rfl, rfl⟩

theorem erase_handleHandshakeResult {env : HandshakeEnv}
    (hreset : env.sessionResetOk = call.sessionResetOk)
    (htransport : env.transportIdOk = call.transportIdOk) (result : HandshakeResult) :
    ((dtlsHandleHandshakeResultWithBio io call result).result,
        (dtlsHandleHandshakeResultWithBio io call result).io.dtls) =
      dtlsHandleHandshakeResult io.dtls env result := by
  cases result with
  | helloVerifyRequired =>
      rw [dtlsHandleHandshakeResultWithBio, dtlsHandleHandshakeResult, hreset, htransport]
      split
      · split
        · rfl
        · obtain ⟨hresult, hdtls⟩ := erase_configureRuntimeIo
            { io with
              dtls :=
                { io.dtls with
                  isOver := false
                  peerCertificate := none
                  handshakeComplete := false } } call.transportIdOk
          dsimp only
          rw [hresult, hdtls]
          split <;> rfl
      · rfl
  | _ => rfl

theorem erase_pollHandshake :
    ((dtlsPollHandshakeWithBio io call).result, (dtlsPollHandshakeWithBio io call).io.dtls) =
      dtlsPollHandshake io.dtls (call.env io) := by
  rw [dtlsPollHandshake, ← erase_continueHandshake]
  exact erase_handleHandshakeResult _ call rfl rfl _

theorem erase_start :
    ∃ env, ((dtlsStartWithBio io call).result, (dtlsStartWithBio io call).io.dtls) =
      dtlsStart io.dtls env call.ice := by
  let started : DtlsIo := { io with dtls := { io.dtls with transport := some call.ice } }
  let configured := dtlsConfigureRuntimeIoWithBio started call.transportIdOk
  let continued := dtlsContinueHandshakeWithBio configured.io call
  obtain ⟨hresult, hdtls⟩ := erase_configureRuntimeIo started call.transportIdOk
  have hcontinued : (continued.result, continued.io.dtls) =
      dtlsContinueHandshake started.dtls (call.env configured.io).answer := by
    rw [erase_continueHandshake, hdtls]
  refine ⟨call.env configured.io, ?_⟩
  have hstart : dtlsStart io.dtls (call.env configured.io) call.ice =
      if call.ice.socket = none ∨ call.ice.selectedPair = none then (.invalidArg, io.dtls)
      else if configured.result ≠ .ok then (.error, started.dtls)
      else
        (if continued.result = .done ∨ continued.result = .wantRead ∨
            continued.result = .wantWrite then .ok else .error, continued.io.dtls) := by
    rw [hresult]
    rw [dtlsStart]
    dsimp only
    rw [← hcontinued]
    rfl
  rw [hstart, dtlsStartWithBio]
  split
  · rfl
  · change (IoResult.result (if configured.result ≠ .ok then _ else _),
      (IoResult.io (if configured.result ≠ .ok then _ else _)).dtls) = _
    split
    · rw [← hdtls]
    · rfl

/-- The first half of the function is the one that polls, and so is the second. -/
theorem erase_processData (data : List UInt8) (first second : HandshakeCall) :
    ∃ firstEnv secondEnv, ((dtlsProcessDataWithBio io data first second).result,
        (dtlsProcessDataWithBio io data first second).io.dtls) =
      dtlsProcessData io.dtls firstEnv secondEnv data.length := by
  let held := (holdDatagram io data).io
  let continued := dtlsContinueHandshakeWithBio held first
  let handled := dtlsPollHandshakeWithBio held first
  let heldAgain := (holdDatagram handled.io data).io
  let again := dtlsPollHandshakeWithBio heldAgain second
  have hcontinued : (continued.result, continued.io.dtls) =
      dtlsContinueHandshake io.dtls (first.env held).answer := erase_continueHandshake held first
  have hhandled : (handled.result, handled.io.dtls) =
      dtlsPollHandshake io.dtls (first.env held) := erase_pollHandshake held first
  have hagain : (again.result, again.io.dtls) =
      dtlsPollHandshake handled.io.dtls (second.env heldAgain) :=
    erase_pollHandshake heldAgain second
  have hprocess : dtlsProcessData io.dtls (first.env held) (second.env heldAgain) data.length =
      if data.length > 2048 then (.error, io.dtls)
      else if continued.result = .helloVerifyRequired ∧ continued.io.dtls.role = .server then
        if handled.result ≠ .ok then (handled.result, handled.io.dtls)
        else (again.result, again.io.dtls)
      else (handled.result, handled.io.dtls) := by
    rw [dtlsPollHandshake, ← hcontinued] at hhandled
    dsimp only at hhandled
    rw [hagain, dtlsPollHandshake, dtlsProcessData]
    dsimp only
    rw [← hcontinued]
    dsimp only
    rw [← hhandled]
  refine ⟨first.env held, second.env heldAgain, ?_⟩
  rw [hprocess, dtlsProcessDataWithBio]
  split
  · rfl
  · dsimp only
    split
    · next hverify =>
      have hverify : continued.result = .helloVerifyRequired ∧ continued.io.dtls.role = .server :=
        hverify
      rw [if_pos hverify]
      split
      · next herror =>
        have herror : handled.result ≠ .ok := herror
        rw [if_pos herror]
        rfl
      · next hok =>
        have hok : ¬handled.result ≠ .ok := hok
        rw [if_neg hok]
        rfl
    · next hverify =>
      have hverify :
          ¬(continued.result = .helloVerifyRequired ∧ continued.io.dtls.role = .server) := hverify
      rw [if_neg hverify]
      rfl

end

/-- The first handshake asks a server for a verified hello, and the session starts over. -/
def StartsOver (io : DtlsIo) (data : List UInt8) (first : HandshakeCall) : Prop :=
  let continued := dtlsContinueHandshakeWithBio (holdDatagram io data).io first
  (continued.result = .helloVerifyRequired ∧ continued.io.dtls.role = .server) ∧
    (dtlsHandleHandshakeResultWithBio continued.io first continued.result).result = .ok

instance (io : DtlsIo) (data : List UInt8) (first : HandshakeCall) :
    Decidable (StartsOver io data first) :=
  inferInstanceAs (Decidable ((_ ∧ _) ∧ _))

/-- The datagrams that a call puts into the context. A server that starts over puts the same
datagram there again. -/
def handedOver (io : DtlsIo) : DtlsCall → List (List UInt8)
  | .processData data first _ =>
      if data.length > 2048 then []
      else if StartsOver io data first then [data, data]
      else [data]
  | _ => []

/-- Those of one call after the other. -/
def handedOverAll : DtlsIo → List DtlsCall → List (List UInt8)
  | _, [] => []
  | io, call :: calls => handedOver io call ++ handedOverAll (call.run io).io calls

theorem does_processData (io : DtlsIo) (data : List UInt8) (first second : HandshakeCall) :
    Does (handedOver io (.processData data first second)) [first.ice, second.ice] io
      (dtlsProcessDataWithBio io data first second) := by
  let held := holdDatagram io data
  let continued := held.followedBy (dtlsContinueHandshakeWithBio held.io first)
  let handled :=
    continued.followedBy (dtlsHandleHandshakeResultWithBio continued.io first continued.result)
  let heldAgain := handled.followedBy (holdDatagram handled.io data)
  have hcontinued : Does [data] [first.ice, second.ice] io continued :=
    (does_holdDatagram io _ data).followedBy
      ((does_continueHandshake held.io first).of_mem List.mem_cons_self)
  have hhandled : Does [data] [first.ice, second.ice] io handled :=
    hcontinued.followedBy (does_handleHandshakeResult _ first _ _)
  have hunverified : ¬(continued.result = .helloVerifyRequired ∧
      continued.io.dtls.role = .server) → ¬StartsOver io data first :=
    fun hverify hover => hverify hover.1
  have hfailed : handled.result ≠ .ok → ¬StartsOver io data first :=
    fun herror hover => herror hover.2
  rw [handedOver, dtlsProcessDataWithBio]
  by_cases hlong : data.length > 2048
  · rw [if_pos hlong, if_pos hlong]
    exact .nothing _ rfl _
  · rw [if_neg hlong, if_neg hlong]
    dsimp only
    by_cases hverify : continued.result = .helloVerifyRequired ∧ continued.io.dtls.role = .server
    · rw [if_pos hverify]
      by_cases hok : handled.result = .ok
      · have hover : StartsOver io data first := ⟨hverify, hok⟩
        rw [if_pos hover, if_neg (not_not.mpr hok)]
        have hagain : Does ([data] ++ [data]) [first.ice, second.ice] io heldAgain :=
          hhandled.followedBy (does_holdDatagram handled.io _ data)
        have hread := hagain.followedBy ((does_continueHandshake heldAgain.io second).of_mem
          (List.mem_cons_of_mem _ (List.mem_singleton_self _)))
        exact hread.followedBy (does_handleHandshakeResult _ second _ _)
      · rw [if_neg (hfailed hok), if_pos hok]
        exact hhandled
    · rw [if_neg (hunverified hverify), if_neg hverify]
      exact hhandled

theorem does_run (io : DtlsIo) (call : DtlsCall) :
    Does (handedOver io call) call.sessions io (call.run io) := by
  cases call with
  | start call => exact does_start io call
  | processData data first second => exact does_processData io data first second
  | pollHandshake call => exact does_pollHandshake io call

theorem IoStep.erase {io io' : DtlsIo} {label : DtlsCall × IoResult TinyrtcError}
    (h : IoStep io label io') : DtlsStep io.dtls (label.1, label.2.result) io'.dtls := by
  cases h with
  | run call =>
      cases call with
      | start call =>
          obtain ⟨env, herase⟩ := erase_start io call
          have hstep := DtlsStep.start io.dtls call env
          rwa [← herase] at hstep
      | processData data first second =>
          obtain ⟨firstEnv, secondEnv, herase⟩ := erase_processData io data first second
          have hstep := DtlsStep.processData io.dtls data first second firstEnv secondEnv
          rwa [← herase] at hstep
      | pollHandshake call =>
          have hstep := DtlsStep.pollHandshake io.dtls call (call.env io)
          rwa [← erase_pollHandshake] at hstep

/-- What the handshakes of a run have read, with the room that they had for it. -/
def readBy (labels : List (DtlsCall × IoResult TinyrtcError)) : List (Nat × List UInt8) :=
  labels.flatMap fun label => reads label.2.events

theorem run_reader {io io' : DtlsIo} {labels : List (DtlsCall × IoResult TinyrtcError)}
    (hrun : Run IoStep io labels io') {past : List (MailEvent UInt8)}
    (hreader : Reader past io.pending) :
    Reader (past ++ labels.flatMap fun label => label.2.events) io'.pending ∧
      deliveries (labels.flatMap fun label => label.2.events) =
        handedOverAll io (labels.map Prod.fst) ∧
      ∀ label ∈ labels, ∀ packet ∈ label.2.sent,
        ∃ ice ∈ label.1.sessions, selectedAddress ice = some packet.1 := by
  induction hrun generalizing past with
  | nil io =>
      refine ⟨?_, rfl, fun _ hlabel => absurd hlabel List.not_mem_nil⟩
      rw [List.flatMap_nil, List.append_nil]
      exact hreader
  | @cons io io' io'' label labels hstep hrest ih =>
      cases hstep with
      | run call =>
          have hdoes := does_run io call
          obtain ⟨hlater, hhandedLater, hsentLater⟩ := ih (hreader.run hdoes.mail)
          refine ⟨?_, ?_, List.forall_mem_cons.mpr ⟨hdoes.sent, hsentLater⟩⟩
          · rw [List.flatMap_cons, ← List.append_assoc]
            exact hlater
          · rw [List.flatMap_cons, List.map_cons, deliveries_append, hdoes.handed_eq, hhandedLater,
              handedOverAll]

theorem run_erase {io io' : DtlsIo} {labels : List (DtlsCall × IoResult TinyrtcError)}
    (hrun : Run IoStep io labels io') :
    Run DtlsStep io.dtls (labels.map fun label => (label.1, label.2.result)) io'.dtls := by
  induction hrun with
  | nil io => exact .nil _
  | cons hstep _ ih => exact .cons hstep.erase ih

/-- Without its callbacks, a run from where no datagram waits, as in a new context, is a run of the
model that the rest uses. What its handshakes read are datagrams that were handed over, each cut to
the room there was, in order and none of them again, unless the server has started over with it;
and all they send goes to the selected pair's remote candidate. -/
theorem handshake_reads {dtls : DtlsContext} {io : DtlsIo}
    {labels : List (DtlsCall × IoResult TinyrtcError)} (hrun : Run IoStep ⟨dtls, []⟩ labels io) :
    Run DtlsStep dtls (labels.map fun label => (label.1, label.2.result)) io.dtls ∧
      (∃ datagrams, List.Forall₂ Gives (readBy labels) datagrams ∧
        datagrams.Sublist (handedOverAll ⟨dtls, []⟩ (labels.map Prod.fst))) ∧
      ∀ label ∈ labels, ∀ packet ∈ label.2.sent,
        ∃ ice ∈ label.1.sessions, selectedAddress ice = some packet.1 := by
  obtain ⟨hreader, hhanded, hsent⟩ := run_reader hrun reader_empty
  obtain ⟨datagrams, hreads, hsublist, -⟩ := hreader
  refine ⟨run_erase hrun, ⟨datagrams, ?_, hhanded ▸ hsublist⟩, hsent⟩
  rw [List.nil_append, reads_flatMap] at hreads
  exact hreads

def sampleStart : DtlsCall :=
  .start ⟨.returns ⟨.wantRead, false, none, none⟩, true, true, linkedIce, some⟩

/-- A server's first hello, which it answers with a cookie, and starts over. -/
def sampleHello : DtlsCall :=
  let cookie : Handshake := .receives 16384 fun _ => .sends [0x17] fun _ =>
    .returns ⟨.helloVerifyRequired, false, none, none⟩
  let waits : Handshake := .receives 16384 fun _ => .returns ⟨.wantRead, false, none, none⟩
  .processData [0x16] ⟨cookie, true, true, linkedIce, some⟩ ⟨waits, true, true, linkedIce, some⟩

theorem handshake_reads_sampleHello :
    ∃ dtls labels io, Run IoStep ⟨dtls, []⟩ labels io ∧
      readBy labels = [(16384, [0x16]), (16384, [0x16])] ∧
      handedOverAll ⟨dtls, []⟩ (labels.map Prod.fst) = [[0x16], [0x16]] ∧
      ∃ datagrams, List.Forall₂ Gives (readBy labels) datagrams ∧
        datagrams.Sublist (handedOverAll ⟨dtls, []⟩ (labels.map Prod.fst)) := by
  obtain ⟨dtls, hinit⟩ : ∃ dtls, dtlsInit toyCrypto .server (some [0x30]) = some dtls := ⟨_, rfl⟩
  have hrun := Run.cons (IoStep.run ⟨dtls, []⟩ sampleStart)
    (.singleton (IoStep.run (sampleStart.run ⟨dtls, []⟩).io sampleHello))
  refine ⟨dtls, _, _, hrun, ?_, ?_, (handshake_reads hrun).2.1⟩
  · cases hinit
    decide +kernel
  · cases hinit
    decide +kernel

end TinyRtc.DtlsDatagrams
