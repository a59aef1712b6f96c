import TinyRtc.Base64Encoder
import TinyRtc.HeaderLines
import TinyRtc.Signaling
import TinyRtc.TerminatedReads

namespace TinyRtc.WebSocketHandshake

open TinyRtc.Base64
open TinyRtc.Base64Encoder
open TinyRtc.Common
open TinyRtc.CString
open TinyRtc.HeaderLines
open TinyRtc.LineEnds
open TinyRtc.PolledStream
open TinyRtc.Signaling
open TinyRtc.TerminatedReads

/-- The string in a `char` array. -/
def cString (buffer : List UInt8) : List UInt8 :=
  buffer.takeWhile (· != 0x00)

/-- The GUID from RFC 6455. -/
def webSocketGuid : List UInt8 :=
  ascii "258EAFA5-E914-47DA-95CA-C5AB0DC85B11"

/-- What the opening handshake finds: its random bytes, what its arrays hold before they are
written, and the answer to the one write of the request. -/
structure UpgradeEnv where
  keyBytes : Bytes 16
  stale : Nat → UInt8
  written : WriteResult

/-- An array that nobody has written. -/
def UpgradeEnv.buffer (env : UpgradeEnv) (size : Nat) : List UInt8 :=
  (List.range size).map env.stale

/-- An array in the shape that `base64_encode` takes. -/
def inputOfBytes {n : Nat} (bytes : Bytes n) (h : n < 2 ^ 63) : InputArray :=
  ⟨List.ofFn bytes, by rwa [List.length_ofFn]⟩

/-- The string that `base64_encode` leaves in an array. -/
def base64String (env : UpgradeEnv) (input : InputArray) (size : Nat) : Option (List UInt8) :=
  (base64Encode env.stale input (env.buffer size)).map fun result => cString result.2

/-- `accept` has `acceptLen` bytes, and `concat` 512. -/
def sigComputeAcceptKey (sha1 : List UInt8 → Bytes 20) (env : UpgradeEnv) (clientKey : List UInt8)
    (acceptLen : Nat) : Option (List UInt8) :=
  if clientKey.length + webSocketGuid.length > 512 then none
  else base64String env (inputOfBytes (sha1 (clientKey ++ webSocketGuid)) (by decide)) acceptLen

def handshakeRequest (path host clientKey : List UInt8) : List UInt8 :=
  ascii "GET " ++ path ++ ascii " HTTP/1.1\r\nHost: " ++ host ++ ascii "\r\nOrigin: http://" ++
    host ++ ascii "\r\nUpgrade: websocket\r\nConnection: Upgrade\r\nSec-WebSocket-Key: " ++
    clientKey ++ ascii "\r\nSec-WebSocket-Version: 13\r\n\r\n"

def acceptHeader : List UInt8 :=
  ascii "Sec-WebSocket-Accept:"

/-- What stands behind the first accept header, up to the end of its line. -/
def acceptValue (response : List UInt8) : Option (List UInt8) :=
  (strstr acceptHeader response).map fun header =>
    let value := skipBlanks (header.drop acceptHeader.length)
    value.takeWhile (· != if (strchr value cr).isSome then cr else lf)

/-- The checks of the response. -/
def checkResponse (expected response : List UInt8) : Bool :=
  (strstr (ascii "101 Switching Protocols") response).isSome &&
    acceptValue response == some expected

/-- What the opening handshake leaves behind: whether it returns 0, the bytes that the transport
has taken, and what the transport has still to answer. -/
structure Upgraded where
  ok : Bool
  wire : List UInt8
  rest : List (Poll UInt8)

/-- `none` as long as the transport keeps the caller waiting, and when something is written or
read behind the end of an array. -/
def sigPerformWebsocketHandshake (sha1 : List UInt8 → Bytes 20) (env : UpgradeEnv)
    (host path : List UInt8) (recv : List (Poll UInt8)) : Option Upgraded :=
  (base64String env (inputOfBytes env.keyBytes (by decide)) 64).bind fun clientKey =>
    let request := handshakeRequest path host clientKey
    if request.length ≥ 2048 then none
    else
      match env.written with
      | .want => some ⟨false, [], recv⟩
      | .failed => some ⟨false, [], recv⟩
      | .written n =>
          (readUntil (crlf ++ crlf) 2047 [] recv).bind fun (response, rest) =>
            (sigComputeAcceptKey sha1 env clientKey 32).map fun expected =>
              ⟨checkResponse expected (cString response), request.take n, rest⟩

theorem standard_ne_nul : (∀ i, standard.symbol i ≠ 0x00) ∧ standard.pad ≠ 0x00 := by
  decide +kernel

theorem nul_not_mem_encode (bytes : List UInt8) : 0x00 ∉ encode standard bytes := by
  obtain ⟨hsymbol, hpad⟩ := standard_ne_nul
  fun_induction encode standard bytes with
  | case1 => simp
  | case2 => simp [(hsymbol _).symm, hpad.symm]
  | case3 => simp [(hsymbol _).symm, hpad.symm]
  | case4 a b c rest ih => simp [(hsymbol _).symm, ih]

theorem base64String_eq (env : UpgradeEnv) (input : InputArray) {size : Nat}
    (h : (input.bytes.length + 2) / 3 * 4 < size) :
    base64String env input size = some (encode standard input.bytes) := by
  have hlength : (env.buffer size).length = size := by
    rw [UpgradeEnv.buffer, List.length_map, List.length_range]
  have hfits : ¬ (env.buffer size).length < (encode standard input.bytes).length + 1 := by
    rw [hlength, encode_length]
    omega
  rw [base64String, base64Encode_eq, Option.map_some, if_neg hfits]
  exact congrArg some
    (takeWhile_append_stop (bne_of_not_mem (nul_not_mem_encode input.bytes)) rfl)

/-- `client_key`. -/
def clientKey (env : UpgradeEnv) : List UInt8 :=
  encode standard (List.ofFn env.keyBytes)

/-- RFC 6455: the accept key for a client key. -/
def acceptKey (sha1 : List UInt8 → Bytes 20) (clientKey : List UInt8) : List UInt8 :=
  encode standard (List.ofFn (sha1 (clientKey ++ webSocketGuid)))

theorem clientKey_length (env : UpgradeEnv) : (clientKey env).length = 24 := by
  rw [clientKey, encode_length, List.length_ofFn]

theorem base64String_keyBytes (env : UpgradeEnv) :
    base64String env (inputOfBytes env.keyBytes (by decide)) 64 = some (clientKey env) := by
  refine base64String_eq env _ ?_
  rw [inputOfBytes, List.length_ofFn]
  decide

theorem sigComputeAcceptKey_eq (sha1 : List UInt8 → Bytes 20) (env : UpgradeEnv) :
    sigComputeAcceptKey sha1 env (clientKey env) 32 = some (acceptKey sha1 (clientKey env)) := by
  have hguid : webSocketGuid.length = 36 := rfl
  rw [sigComputeAcceptKey, if_neg (by rw [clientKey_length, hguid]; decide)]
  refine base64String_eq env _ ?_
  rw [inputOfBytes, List.length_ofFn]
  decide

/-- What a client may take for the answer to its key: some line tells of the switch, and the first
accept header has the key. -/
def AnswersKey (lines : List (List UInt8)) (key : List UInt8) : Prop :=
  (lines.findSome? (strstr (ascii "101 Switching Protocols"))).isSome = true ∧
    (lines.findSome? (strstr acceptHeader)).map
      (fun header => skipBlanks (header.drop acceptHeader.length)) = some key

instance (lines : List (List UInt8)) (key : List UInt8) : Decidable (AnswersKey lines key) :=
  inferInstanceAs (Decidable (_ ∧ _))

theorem strstr_spec {pattern text tail : List UInt8} (h : strstr pattern text = some tail) :
    pattern <+: tail ∧ tail <:+ text := by
  induction text with
  | nil =>
      rw [strstr] at h
      split at h
      · next hnil =>
        cases h
        exact ⟨hnil ▸ List.nil_prefix, List.suffix_rfl⟩
      · cases h
  | cons c text ih =>
      rw [strstr] at h
      split at h
      · next hstarts =>
        cases h
        exact ⟨List.isPrefixOf_iff_prefix.mp hstarts, List.suffix_rfl⟩
      · obtain ⟨hstarts, hsuffix⟩ := ih h
        exact ⟨hstarts, hsuffix.trans (List.suffix_cons c text)⟩

theorem cString_messageHead {lines : List (List UInt8)} (h : ∀ line ∈ lines, HeaderLine line) :
    cString (messageHead lines) = messageHead lines := by
  refine List.takeWhile_eq_self_iff.mpr (bne_of_not_mem ?_)
  induction lines with
  | nil => decide
  | cons line lines ih =>
      obtain ⟨hline, hlines⟩ := List.forall_mem_cons.mp h
      rw [messageHead_cons]
      intro hnul
      rcases List.mem_append.mp hnul with hnul | hnul
      · exact hline.no_nul hnul
      · rcases List.mem_cons.mp hnul with hnul | hnul
        · exact absurd hnul (by decide)
        · rcases List.mem_cons.mp hnul with hnul | hnul
          · exact absurd hnul (by decide)
          · exact ih hlines hnul

/-- The value of the first accept header is what stands in its line. -/
theorem acceptValue_messageHead {lines : List (List UInt8)} (h : ∀ line ∈ lines, HeaderLine line) :
    acceptValue (messageHead lines) = (lines.findSome? (strstr acceptHeader)).map
      fun header => skipBlanks (header.drop acceptHeader.length) := by
  rcases strstr_messageHead (by decide : acceptHeader ≠ []) (by decide) (by decide) lines with
    ⟨hnone, hhead⟩ | ⟨tail, rest, hsome, hhead⟩
  · rw [acceptValue, hnone, hhead]
    rfl
  · obtain ⟨line, hline, hfound⟩ := List.exists_of_findSome?_eq_some hsome
    obtain ⟨hstarts, hsuffix⟩ := strstr_spec hfound
    have hcr : cr ∉ skipBlanks (tail.drop acceptHeader.length) := by
      intro hmem
      exact (h line hline).no_cr (hsuffix.subset (List.mem_of_mem_drop
        ((List.dropWhile_suffix _).subset hmem)))
    have hstop : (cr != cr) = false := by decide
    have hskip : skipBlanks ((tail ++ cr :: rest).drop acceptHeader.length) =
        skipBlanks (tail.drop acceptHeader.length) ++ cr :: rest := by
      rw [List.drop_append_of_le_length hstarts.length_le, skipBlanks,
        dropWhile_append_cons (by decide)]
      rfl
    have hchr : (strchr (skipBlanks (tail.drop acceptHeader.length) ++ cr :: rest) cr).isSome =
        true := by
      rw [strchr_append hcr]
      rfl
    rw [acceptValue, hhead, hsome, Option.map_some, Option.map_some, hskip]
    dsimp only
    rw [hchr, if_pos rfl]
    exact congrArg some (takeWhile_append_stop (bne_of_not_mem hcr) hstop)

theorem checkResponse_messageHead {lines : List (List UInt8)}
    (h : ∀ line ∈ lines, HeaderLine line) (key : List UInt8) :
    checkResponse key (messageHead lines) = decide (AnswersKey lines key) := by
  have hstatus : (strstr (ascii "101 Switching Protocols") (messageHead lines)).isSome =
      (lines.findSome? (strstr (ascii "101 Switching Protocols"))).isSome := by
    rcases strstr_messageHead (by decide : ascii "101 Switching Protocols" ≠ []) (by decide)
      (by decide) lines with ⟨hnone, hhead⟩ | ⟨tail, rest, hsome, hhead⟩
    · rw [hnone, hhead]
    · rw [hsome, hhead]
      rfl
  rw [checkResponse, hstatus, acceptValue_messageHead h, Bool.eq_iff_iff, Bool.and_eq_true,
    beq_iff_eq, decide_eq_true_iff, AnswersKey]

theorem handshakeRequest_length (path host clientKey : List UInt8) :
    (handshakeRequest path host clientKey).length =
      path.length + 2 * host.length + clientKey.length + 131 := by
  have hget : (ascii "GET ").length = 4 := rfl
  have hhost : (ascii " HTTP/1.1\r\nHost: ").length = 17 := rfl
  have horigin : (ascii "\r\nOrigin: http://").length = 17 := rfl
  have hkey : (ascii "\r\nUpgrade: websocket\r\nConnection: Upgrade\r\nSec-WebSocket-Key: ").length =
      62 := rfl
  have hversion : (ascii "\r\nSec-WebSocket-Version: 13\r\n\r\n").length = 31 := rfl
  rw [handshakeRequest]
  simp only [List.length_append, hget, hhost, horigin, hkey, hversion]
  omega

/-- The opening handshake, whatever the server answers in a head of its own: the answer is read to
its end and no further, and its checks come out the same, however long the transport keeps the
client waiting in between. -/
theorem handshake_reads_head (sha1 : List UInt8 → Bytes 20) (env : UpgradeEnv) {host : List UInt8}
    (hhost : host.length ≤ 127) {n : Nat} (hwritten : env.written = .written n)
    {lines : List (List UInt8)} (hlines : ∀ line ∈ lines, HeaderLine line) (hne : lines ≠ [])
    (hshort : (messageHead lines).length ≤ 2047) {front : List (Poll UInt8)}
    (hfront : Delayed (messageHead lines) front) (rest : List (Poll UInt8)) :
    sigPerformWebsocketHandshake sha1 env host (ascii "/") (front ++ rest) =
      some ⟨decide (AnswersKey lines (acceptKey sha1 (clientKey env))),
        (handshakeRequest (ascii "/") host (clientKey env)).take n, rest⟩ := by
  have hlength := handshakeRequest_length (ascii "/") host (clientKey env)
  have hpath : (ascii "/").length = 1 := rfl
  rw [clientKey_length, hpath] at hlength
  have hheadNe : messageHead lines ≠ [] := by
    intro hnil
    have hends := (messageHead_ends lines hne).length_le
    rw [hnil] at hends
    exact absurd hends (by decide)
  have hread : readUntil (crlf ++ crlf) 2047 [] (front ++ rest) = some (messageHead lines, rest) :=
    readUntil_delayed hfront hheadNe hshort (messageHead_ends lines hne)
      (fun p hp _ hends => eq_messageHead_of_prefix hlines hp hends) rest
  rw [sigPerformWebsocketHandshake, base64String_keyBytes, Option.bind_some]
  dsimp only
  rw [if_neg (by omega), hwritten]
  dsimp only
  rw [hread, Option.bind_some]
  dsimp only
  rw [sigComputeAcceptKey_eq, Option.map_some, cString_messageHead hlines,
    checkResponse_messageHead hlines]

/-- What the opening handshake has written if it succeeds. -/
theorem handshake_ok_wire {sha1 : List UInt8 → Bytes 20} {env : UpgradeEnv}
    {host path : List UInt8} {recv : List (Poll UInt8)} {upgraded : Upgraded}
    (h : sigPerformWebsocketHandshake sha1 env host path recv = some upgraded)
    (hok : upgraded.ok = true) : ∃ n, env.written = .written n ∧
      upgraded.wire = (handshakeRequest path host (clientKey env)).take n := by
  rw [sigPerformWebsocketHandshake, base64String_keyBytes, Option.bind_some] at h
  dsimp only at h
  split at h
  · cases h
  · split at h
    · cases h
      cases hok
    · cases h
      cases hok
    · next n hwritten =>
      obtain ⟨⟨response, rest⟩, -, h⟩ := Option.bind_eq_some_iff.mp h
      obtain ⟨expected, -, rfl⟩ := Option.map_eq_some_iff.mp h
      exact ⟨n, hwritten, rfl⟩

end TinyRtc.WebSocketHandshake
