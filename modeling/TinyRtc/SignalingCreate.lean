import TinyRtc.SignalingUrl
import TinyRtc.WebSocketFragments
import TinyRtc.WebSocketHandshake

namespace TinyRtc.SignalingCreate

open TinyRtc.Common
open TinyRtc.CString
open TinyRtc.HeaderLines
open TinyRtc.PolledStream
open TinyRtc.Signaling
open TinyRtc.SignalingUrl
open TinyRtc.TerminatedReads
open TinyRtc.WebSocketFragments
open TinyRtc.WebSocketFrames
open TinyRtc.WebSocketHandshake

/-- `tinyrtc_signaling_config_t`, less the fields that are stored and never read. -/
structure SignalingConfig where
  url : Option (List UInt8)
  roomId : Option (List UInt8)
  disableCertVerify : Bool

/-- What creating a client finds: the answers of the allocator, of the random numbers and of the
network, whether some file of CA certificates can be read, and the environments of the opening
handshake and of the join message. -/
structure CreateEnv where
  allocated : Bool
  seeded : Bool
  caReadable : Bool
  connects : (host : List UInt8) → (port : UInt16) → Bool
  tlsConfigured : Bool
  tlsSetUp : Bool
  tlsHandshake : (verifies : Bool) → List (Poll Unit)
  upgrade : UpgradeEnv
  recv : List (Poll UInt8)
  join : FrameEnv

/-- What the creation leaves behind: the client, `none` for `NULL`, the bytes that the transport
has taken, and what it has still to answer. -/
structure Created where
  client : Option SignalingClient
  wire : List UInt8
  rest : List (Poll UInt8)
  deriving DecidableEq

/-- The loop around `mbedtls_ssl_handshake`. -/
def tlsHandshakeLoop : List (Poll Unit) → Option Bool
  | [] => none
  | .notYet :: answers => tlsHandshakeLoop answers
  | .item _ :: _ => some true
  | .failed :: _ => some false

/-- The part of the creation that is for secure connections only. -/
def setUpTls (env : CreateEnv) (config : SignalingConfig) : Option Bool :=
  let caLoaded := !config.disableCertVerify && env.caReadable
  if !env.tlsConfigured then some false
  else if !env.tlsSetUp then some false
  else tlsHandshakeLoop (env.tlsHandshake (caLoaded && !config.disableCertVerify))

def joinJson (roomId : List UInt8) : List UInt8 :=
  ascii "\x7b\"type\": \"join\", \"room\": \"" ++ roomId ++ ascii "\"\x7d"

section

variable (sha1 : List UInt8 → Bytes 20) (env : CreateEnv)

/-- The part of the creation behind the connection to the server. -/
def openSession (roomId host : List UInt8) : Option Created :=
  (sigPerformWebsocketHandshake sha1 env.upgrade host (ascii "/") env.recv).bind fun upgraded =>
    if !upgraded.ok then some ⟨none, upgraded.wire, upgraded.rest⟩
    else
      (sigSendWsFrame env.join ⟨.connected, none⟩ wsOpcodeText
          ((joinJson roomId).take 511)).map fun sent =>
        ⟨if sent.ok then some sent.sig else none, upgraded.wire ++ sent.wire, upgraded.rest⟩

def tinyrtcSignalingCreate (hasContext : Bool) (config : Option SignalingConfig)
    (hasCallback : Bool) : Option Created :=
  let null : Created := ⟨none, [], env.recv⟩
  match config with
  | none => some null
  | some config =>
      if !hasContext || !hasCallback then some null
      else if !env.allocated then some null
      else if !env.seeded then some null
      else
        match sigParseUrl ((config.url.getD []).take 255) 128 with
        | none => some null
        | some url =>
            if !env.connects url.host url.port then some null
            else
              (if url.isWss then setUpTls env config else some true).bind fun ok =>
                if !ok then some null
                else openSession sha1 env ((config.roomId.getD []).take 127) url.host

end

/-- A server that can be reached: the client gets as far as the opening handshake. -/
structure Reaches (env : CreateEnv) (config : SignalingConfig) (isWss : Bool) (host : List UInt8)
    (port : UInt16) : Prop where
  allocated : env.allocated = true
  seeded : env.seeded = true
  connects : env.connects host port = true
  secure : isWss = true → setUpTls env config = some true

/-- A server that answers the opening handshake with a head of its own. -/
structure Answers (env : CreateEnv) (lines : List (List UInt8)) (rest : List (Poll UInt8)) :
    Prop where
  headerLine : ∀ line ∈ lines, HeaderLine line
  ne_nil : lines ≠ []
  length_le : (messageHead lines).length ≤ 2047
  recv : ∃ front, Delayed (messageHead lines) front ∧ env.recv = front ++ rest

theorem joinJson_length (roomId : List UInt8) : (joinJson roomId).length = roomId.length + 28 := by
  have hfront : (ascii "\x7b\"type\": \"join\", \"room\": \"").length = 26 := rfl
  have hend : (ascii "\"\x7d").length = 2 := rfl
  rw [joinJson, List.length_append, List.length_append, hfront, hend]
  omega

theorem sendsJoin {env : CreateEnv} (haccepts : Accepts env.join) {roomId : List UInt8}
    (hlength : roomId.length ≤ 127) :
    sigSendWsFrame env.join ⟨.connected, none⟩ wsOpcodeText ((joinJson roomId).take 511) =
      some ⟨true, ⟨.connected, none⟩, wsFrame wsOpcodeText env.join.mask (joinJson roomId)⟩ := by
  have hjson := joinJson_length roomId
  have hframe := wsFrame_length wsOpcodeText env.join.mask (joinJson roomId)
  have hheader : wsHeaderLength (joinJson roomId).length ≤ 8 := by
    rw [wsHeaderLength]
    split
    · decide
    · rw [if_pos (by omega)]
  have hfits : (wsFrame wsOpcodeText env.join.mask (joinJson roomId)).length ≤ sigMaxSendBuf := by
    rw [sigMaxSendBuf]
    omega
  rw [List.take_of_length_le (by omega), sigSendWsFrame, if_neg (not_not.mpr rfl)]
  dsimp only
  rw [if_neg (Nat.not_lt.mpr hfits),
    sigWriteLoop_of_total haccepts.not_failed (hfits.trans haccepts.total)]
  rfl

/-- A server that can be reached is reached at the host of the URL. -/
theorem create_reaches (sha1 : List UInt8 → Bytes 20) {env : CreateEnv} {config : SignalingConfig}
    {isWss : Bool} {host behind : List UInt8} {port : UInt16} (hhost : UrlHost 128 host)
    (hbehind : Behind isWss behind port)
    (hurl : config.url = some (schemeText isWss ++ (host ++ behind)))
    (hlength : (schemeText isWss ++ (host ++ behind)).length ≤ 255)
    (hreaches : Reaches env config isWss host port) :
    tinyrtcSignalingCreate sha1 env true (some config) true =
      openSession sha1 env ((config.roomId.getD []).take 127) host := by
  have hparsed : sigParseUrl ((config.url.getD []).take 255) 128 = some ⟨host, port, isWss⟩ := by
    rw [hurl, Option.getD_some, List.take_of_length_le hlength,
      sigParseUrl_host hhost.no_slash hhost.no_colon hbehind,
      if_neg (Nat.not_le.mpr hhost.length_lt)]
  have htls : (if isWss then setUpTls env config else some true) = some true := by
    cases isWss with
    | false => rfl
    | true => exact hreaches.secure rfl
  rw [tinyrtcSignalingCreate, hreaches.allocated, hreaches.seeded, hparsed]
  dsimp only
  rw [hreaches.connects, htls]
  rfl

/-- Behind the connection, the server's answer alone decides. -/
theorem openSession_answered (sha1 : List UInt8 → Bytes 20) {env : CreateEnv}
    {host roomId : List UInt8} (hhost : host.length ≤ 127) (hroom : roomId.length ≤ 127) {n : Nat}
    (hwritten : env.upgrade.written = .written n) {lines : List (List UInt8)}
    {rest : List (Poll UInt8)} (hanswers : Answers env lines rest) (haccepts : Accepts env.join) :
    openSession sha1 env roomId host =
      some (if AnswersKey lines (acceptKey sha1 (clientKey env.upgrade)) then
        ⟨some ⟨.connected, none⟩,
          (handshakeRequest (ascii "/") host (clientKey env.upgrade)).take n ++
            wsFrame wsOpcodeText env.join.mask (joinJson roomId), rest⟩
      else
        ⟨none, (handshakeRequest (ascii "/") host (clientKey env.upgrade)).take n, rest⟩) := by
  obtain ⟨front, hfront, hrecv⟩ := hanswers.recv
  have hupgraded := handshake_reads_head sha1 env.upgrade hhost hwritten hanswers.headerLine
    hanswers.ne_nil hanswers.length_le hfront rest
  rw [openSession, hrecv, hupgraded, Option.bind_some]
  by_cases hkey : AnswersKey lines (acceptKey sha1 (clientKey env.upgrade))
  · rw [decide_eq_true hkey, if_pos hkey, sendsJoin haccepts hroom]
    rfl
  · rw [decide_eq_false hkey, if_neg hkey]
    rfl

/-- With a server that answers, a client is created if the answer is right for the key, and then
the join message stands behind the request. If it is not, nothing but the request is sent. -/
theorem create_answered (sha1 : List UInt8 → Bytes 20) {env : CreateEnv}
    {config : SignalingConfig} {isWss : Bool} {host behind : List UInt8} {port : UInt16}
    (hhost : UrlHost 128 host) (hbehind : Behind isWss behind port)
    (hurl : config.url = some (schemeText isWss ++ (host ++ behind)))
    (hlength : (schemeText isWss ++ (host ++ behind)).length ≤ 255)
    (hreaches : Reaches env config isWss host port) {n : Nat}
    (hwritten : env.upgrade.written = .written n) {lines : List (List UInt8)}
    {rest : List (Poll UInt8)} (hanswers : Answers env lines rest) (haccepts : Accepts env.join) :
    tinyrtcSignalingCreate sha1 env true (some config) true =
      some (if AnswersKey lines (acceptKey sha1 (clientKey env.upgrade)) then
        ⟨some ⟨.connected, none⟩,
          (handshakeRequest (ascii "/") host (clientKey env.upgrade)).take n ++
            wsFrame wsOpcodeText env.join.mask (joinJson ((config.roomId.getD []).take 127)), rest⟩
      else
        ⟨none, (handshakeRequest (ascii "/") host (clientKey env.upgrade)).take n, rest⟩) := by
  rw [create_reaches sha1 hhost hbehind hurl hlength hreaches]
  exact openSession_answered sha1 (Nat.le_of_lt_succ hhost.length_lt) (List.length_take_le _ _)
    hwritten hanswers haccepts

/-- The example of RFC 6455: the random bytes, and the hash that goes with them. -/
def sampleUpgrade : UpgradeEnv where
  keyBytes := fun i => (ascii "the sample nonce").getD i 0
  stale := fun _ => 0xCC
  written := .written 200

def sampleSha1 (_ : List UInt8) : Bytes 20 :=
  fun i => ([0xB3, 0x7A, 0x4F, 0x2C, 0xC0, 0x62, 0x4F, 0x16, 0x90, 0xF6, 0x46, 0x06, 0xCF, 0x38,
    0x59, 0x45, 0xB2, 0xBE, 0xC4, 0xEA] : List UInt8).getD i 0

def sampleAnswer : List (List UInt8) :=
  [ascii "HTTP/1.1 101 Switching Protocols",
    ascii "Sec-WebSocket-Accept: s3pPLMBiTxaQ9kYGzzhZRbK+xOo="]

theorem sampleAnswer_headerLine : ∀ line ∈ sampleAnswer, HeaderLine line := by
  intro line hline
  have hall : ∀ line ∈ sampleAnswer, line ≠ [] ∧ cr ∉ line ∧ 0x00 ∉ line := by decide +kernel
  obtain ⟨hne, hcr, hnul⟩ := hall line hline
  exact ⟨hne, hcr, hnul⟩

def sampleConfig : SignalingConfig :=
  ⟨some (ascii "ws://host:8080/"), some (ascii "room"), true⟩

def sampleCreateEnv : CreateEnv where
  allocated := true
  seeded := true
  caReadable := false
  connects := fun host port => host == ascii "host" && port == 8080
  tlsConfigured := true
  tlsSetUp := true
  tlsHandshake := fun _ => []
  upgrade := sampleUpgrade
  recv := (messageHead sampleAnswer).map .item ++ [.item 0x81]
  join := pongEnv

theorem sampleReaches : Reaches sampleCreateEnv sampleConfig false (ascii "host") 8080 :=
  ⟨rfl, rfl, by decide, fun h => absurd h (by decide)⟩

theorem sampleBehind : Behind false (ascii ":8080/") 8080 :=
  behind_port false 8080 fun c h => by cases h; decide

theorem sampleHost : UrlHost 128 (ascii "host") :=
  ⟨by decide, by decide, by decide⟩

theorem sampleAnswers : Answers sampleCreateEnv sampleAnswer [.item 0x81] :=
  ⟨sampleAnswer_headerLine, by decide, by decide +kernel, _, delayed_items _, rfl⟩

theorem sampleAnswer_answersKey :
    AnswersKey sampleAnswer (acceptKey sampleSha1 (clientKey sampleUpgrade)) := by
  decide +kernel

theorem create_answered_sample :
    AnswersKey sampleAnswer (acceptKey sampleSha1 (clientKey sampleUpgrade)) ∧
      tinyrtcSignalingCreate sampleSha1 sampleCreateEnv true (some sampleConfig) true =
        some (if AnswersKey sampleAnswer (acceptKey sampleSha1 (clientKey sampleUpgrade)) then
          ⟨some ⟨.connected, none⟩,
            (handshakeRequest (ascii "/") (ascii "host") (clientKey sampleUpgrade)).take 200 ++
              wsFrame wsOpcodeText (fun _ => 0) (joinJson (ascii "room")), [.item 0x81]⟩
        else
          ⟨none, (handshakeRequest (ascii "/") (ascii "host") (clientKey sampleUpgrade)).take 200,
            [.item 0x81]⟩) :=
  ⟨sampleAnswer_answersKey, create_answered sampleSha1 sampleHost sampleBehind rfl (by decide)
    sampleReaches rfl sampleAnswers ⟨by decide, by decide⟩⟩

end TinyRtc.SignalingCreate
