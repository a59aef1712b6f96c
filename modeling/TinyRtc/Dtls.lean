import TinyRtc.Ice

namespace TinyRtc.Dtls

open TinyRtc.Common
open TinyRtc.CString
open TinyRtc.Ice
open TinyRtc.Srtp

/-- `dtls_role_t`. -/
inductive DtlsRole where
  | client
  | server
  deriving DecidableEq, Repr

/-- The results of `mbedtls_ssl_handshake` that the source tells apart. -/
inductive HandshakeResult where
  | done
  | wantRead
  | wantWrite
  | peerCloseNotify
  | helloVerifyRequired
  | failed
  deriving DecidableEq, Repr

/-- What one call of `mbedtls_ssl_handshake` does: its result, whether the TLS
state machine is at its end, the master secret if the key export callback ran,
and the certificate that the peer has presented so far. -/
structure HandshakeAnswer where
  result : HandshakeResult
  isOver : Bool
  exportedSecret : Option (Bytes 48)
  peerCertificate : Option (List UInt8)

/-- What mbedTLS answers to one step of the handshake: the handshake call, and
the calls by which a server recovers from a hello verification. -/
structure HandshakeEnv where
  answer : HandshakeAnswer
  sessionResetOk : Bool
  transportIdOk : Bool

/-- `dtls_context_t`. `transport` is the ICE session it was started on;
`isOver` and `peerCertificate` belong to the TLS session, where the source never
reads the certificate. -/
structure DtlsContext where
  role : DtlsRole
  fingerprint : CStr 192
  transport : Option IceSession
  isOver : Bool
  peerCertificate : Option (List UInt8)
  handshakeComplete : Bool
  masterSecret : Option (Bytes 48)

def hexDigit (n : UInt8) : UInt8 :=
  if n < 10 then 0x30 + n else 0x37 + n

/-- `%02X`. -/
def hexByte (byte : UInt8) : List UInt8 :=
  [hexDigit (byte >>> 4), hexDigit (byte &&& 0x0F)]

/-- The fingerprint of a certificate as the session description carries it. -/
def certificateFingerprint (crypto : Crypto) (certificate : List UInt8) : List UInt8 :=
  List.intercalate (ascii ":") ((List.ofFn (crypto.sha256 certificate)).map hexByte)

/-- `dtls_init`; `certificate` is the one it has generated, or `none` when
something fails on the way. -/
def dtlsInit (crypto : Crypto) (role : DtlsRole) (certificate : Option (List UInt8)) :
    Option DtlsContext :=
  certificate.map fun certificate =>
    { role := role
      fingerprint := CStr.strncpy (certificateFingerprint crypto certificate)
      transport := none
      isOver := false
      peerCertificate := none
      handshakeComplete := false
      masterSecret := none }

def dtlsContinueHandshake (dtls : DtlsContext) (answer : HandshakeAnswer) :
    HandshakeResult × DtlsContext :=
  if dtls.handshakeComplete then (.done, dtls)
  else
    (answer.result,
      { dtls with
        isOver := answer.isOver
        peerCertificate := answer.peerCertificate
        handshakeComplete := answer.result == .done
        masterSecret := answer.exportedSecret <|> dtls.masterSecret })

def dtlsConfigureRuntimeIo (dtls : DtlsContext) (transportIdOk : Bool) : TinyrtcError :=
  match dtls.transport with
  | none => .invalidArg
  | some ice =>
      if ice.socket = none ∨ ice.selectedPair = none then .invalidArg
      else if dtls.role = .server ∧ transportIdOk = false then .error
      else .ok

def dtlsHandleHandshakeResult (dtls : DtlsContext) (env : HandshakeEnv) (result : HandshakeResult) :
    TinyrtcError × DtlsContext :=
  match result with
  | .done | .wantRead | .wantWrite | .peerCloseNotify => (.ok, dtls)
  | .helloVerifyRequired =>
      if dtls.role = .server then
        if !env.sessionResetOk then (.error, dtls)
        else
          let dtls := { dtls with isOver := false, peerCertificate := none, handshakeComplete := false }
          if dtlsConfigureRuntimeIo dtls env.transportIdOk ≠ .ok then (.error, dtls)
          else (.ok, dtls)
      else (.ok, dtls)
  | .failed => (.error, dtls)

/-- The datagram itself is read by the handshake, inside the first of the calls of
which the environments tell. -/
def dtlsProcessData (dtls : DtlsContext) (first second : HandshakeEnv) (len : Nat) :
    TinyrtcError × DtlsContext :=
  if len > 2048 then (.error, dtls)
  else
    let (result, dtls) := dtlsContinueHandshake dtls first.answer
    if result = .helloVerifyRequired ∧ dtls.role = .server then
      let (handled, dtls) := dtlsHandleHandshakeResult dtls first result
      if handled ≠ .ok then (handled, dtls)
      else
        let (result, dtls) := dtlsContinueHandshake dtls second.answer
        dtlsHandleHandshakeResult dtls second result
    else dtlsHandleHandshakeResult dtls first result

def dtlsIsHandshakeComplete (dtls : DtlsContext) : Bool :=
  dtls.handshakeComplete && dtls.isOver

def dtlsPollHandshake (dtls : DtlsContext) (env : HandshakeEnv) : TinyrtcError × DtlsContext :=
  let (result, dtls) := dtlsContinueHandshake dtls env.answer
  dtlsHandleHandshakeResult dtls env result

def dtlsStart (dtls : DtlsContext) (env : HandshakeEnv) (ice : IceSession) :
    TinyrtcError × DtlsContext :=
  if ice.socket = none ∨ ice.selectedPair = none then (.invalidArg, dtls)
  else
    let dtls := { dtls with transport := some ice }
    if dtlsConfigureRuntimeIo dtls env.transportIdOk ≠ .ok then (.error, dtls)
    else
      let (result, dtls) := dtlsContinueHandshake dtls env.answer
      (if result = .done ∨ result = .wantRead ∨ result = .wantWrite then .ok else .error, dtls)

/-- `dtls_verify_fingerprint`, which no function of the source calls. -/
def dtlsVerifyFingerprint (dtls : DtlsContext) (peerFingerprint : List UInt8) : Bool :=
  dtls.fingerprint.bytes == peerFingerprint

/-- The four arrays that `dtls_derive_srtp_keys` fills. -/
@[ext]
structure SrtpKeys where
  clientKey : Bytes 16
  clientSalt : Bytes 14
  serverKey : Bytes 16
  serverSalt : Bytes 14

/-- `n` bytes of a text from `offset` on. -/
def bytesAt (n : Nat) (text : List UInt8) (offset : Nat) : Bytes n := fun i =>
  text.getD (offset + i) 0

/-- The loop that expands the master secret, one SHA-256 block a turn.
`hostOrder` gives the bytes of the counter in memory. -/
def expandMasterSecret (crypto : Crypto) (hostOrder : UInt32 → List UInt8) (secret : Bytes 48)
    (outputLen : Nat) : List UInt8 :=
  let tmpHash := List.ofFn (crypto.sha256 (ascii "EXTRACTOR-dtls_srtp"))
  (List.range ((outputLen + 31) / 32)).flatMap fun counter =>
    (List.ofFn (crypto.sha256 (List.ofFn secret ++ tmpHash ++ hostOrder counter.toUInt32))).take
      (outputLen - 32 * counter)

/-- The 60 bytes of the expansion, cut up. -/
def srtpKeysOfSecret (crypto : Crypto) (hostOrder : UInt32 → List UInt8) (secret : Bytes 48) :
    SrtpKeys :=
  let output := expandMasterSecret crypto hostOrder secret ((16 + 14) * 2)
  { clientKey := bytesAt 16 output 0
    clientSalt := bytesAt 14 output 16
    serverKey := bytesAt 16 output 30
    serverSalt := bytesAt 14 output 46 }

def dtlsDeriveSrtpKeys (crypto : Crypto) (hostOrder : UInt32 → List UInt8) (callocOk : Bool)
    (dtls : DtlsContext) : Except TinyrtcError SrtpKeys :=
  match dtls.masterSecret with
  | none => .error .invalidState
  | some secret =>
      if !callocOk then .error .memory else .ok (srtpKeysOfSecret crypto hostOrder secret)

end TinyRtc.Dtls
