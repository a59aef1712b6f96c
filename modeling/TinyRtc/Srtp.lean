import Mathlib.Data.Fintype.Basic
import TinyRtc.BigEndian
import TinyRtc.Common
import TinyRtc.CounterMode

namespace TinyRtc.Srtp

open TinyRtc.BigEndian
open TinyRtc.Common
open TinyRtc.CounterMode

/-- The primitives of mbedTLS: AES-128 on one block under a key, HMAC-SHA1 and
SHA-256. -/
structure Crypto where
  aes : Bytes 16 → Bytes 16 → Bytes 16
  hmacSha1 : (key message : List UInt8) → Bytes 20
  sha256 : List UInt8 → Bytes 32

/-- Primitives to compute with: a cipher that adds the key bytewise, a permutation
for every key, and constant hashes. -/
def toyCrypto : Crypto where
  aes key block := fun i => block i + key i
  hmacSha1 _ _ := fun _ => 0
  sha256 _ := fun _ => 0

/-- `srtp_context_t`. -/
@[ext]
structure SrtpContext where
  key : Bytes 16
  salt : Bytes 14
  roc : UInt32

/-- `SRTP_AUTH_TAG_LEN`. -/
def srtpAuthTagLen : Nat := 10

/-- The length of the RTP header that is left in the clear. -/
def headerLen : Nat := 12

def timingsafeBcmp (b1 b2 : List UInt8) : UInt8 :=
  (List.zipWith (· ^^^ ·) b1 b2).foldl (· ||| ·) 0

def xorSalt (salt : Bytes 14) (block : Bytes 16) : Bytes 16 := fun i =>
  if h : i.val < 14 then block i ^^^ salt ⟨i.val, h⟩ else block i

/-- Zeros, with the SSRC in the last four bytes. -/
def ssrcBlock (ssrc : UInt32) : Bytes 16 := fun i =>
  if i = 12 then (ssrc >>> 24).toUInt8
  else if i = 13 then (ssrc >>> 16).toUInt8
  else if i = 14 then (ssrc >>> 8).toUInt8
  else if i = 15 then ssrc.toUInt8
  else 0

def srtpDeriveKey (crypto : Crypto) (srtp : SrtpContext) (ssrc : UInt32) : Bytes 16 :=
  crypto.aes srtp.key (xorSalt srtp.salt (ssrcBlock ssrc))

def srtpGenerateAuth (crypto : Crypto) (srtp : SrtpContext) (packet : List UInt8) : List UInt8 :=
  (List.ofFn (crypto.hmacSha1 (List.ofFn srtp.key) packet)).take srtpAuthTagLen

def srtpVerifyAuth (crypto : Crypto) (srtp : SrtpContext) (packet tag : List UInt8) : Bool :=
  let computed := List.ofFn (crypto.hmacSha1 (List.ofFn srtp.key) packet)
  timingsafeBcmp (computed.take srtpAuthTagLen) (tag.take srtpAuthTagLen) == 0

/-- `srtp_init` when its allocation succeeds. -/
def srtpInit (key : Bytes 16) (salt : Bytes 14) : SrtpContext :=
  ⟨key, salt, 0⟩

def firstCounterBlock (salt : Bytes 14) : Bytes 16 :=
  xorSalt salt fun _ => 0

/-- The increment loop over bytes `8` to `8 + n - 1`, the last one first. -/
def incrementLoop : (n : Nat) → Bytes 16 → Bytes 16
  | 0, block => block
  | n + 1, block =>
      let i := Fin.ofNat 16 (8 + n)
      let block := Function.update block i (block i + 1)
      if block i ≠ 0 then block else incrementLoop n block

def incrementCounter (block : Bytes 16) : Bytes 16 :=
  incrementLoop 8 block

/-- The loop that XORs the keystream into the payload: the counter blocks it
enciphers, and the new payload. -/
def cryptPayload (crypto : Crypto) (key : Bytes 16) (salt : Bytes 14) (payload : List UInt8) :
    List (Bytes 16) × List UInt8 :=
  ctr 16 (fun block => List.ofFn (crypto.aes key block)) incrementCounter payload.length
    (firstCounterBlock salt) payload

def packetSsrc (packet : List UInt8) : UInt32 :=
  read32 (packet.getD 8 0) (packet.getD 9 0) (packet.getD 10 0) (packet.getD 11 0)

/-- What a call leaves behind. The source does not keep `aesInputs`: the session
key and the counter block of every keystream block, in order. -/
structure SrtpResult where
  error : TinyrtcError
  srtp : SrtpContext
  packet : List UInt8
  len : Nat
  aesInputs : List (Bytes 16 × Bytes 16)

/-- `packet` holds the bytes of the array, of which `len` are in use. `none` when
`payload_len` wraps around, after which the source runs out of the array. -/
def srtpEncryptPacket (crypto : Crypto) (srtp : SrtpContext) (packet : List UInt8)
    (len maxLen : Nat) : Option SrtpResult :=
  if len + srtpAuthTagLen > maxLen then some ⟨.error, srtp, packet, len, []⟩
  else if len < headerLen then none
  else
    let encKey := srtpDeriveKey crypto srtp (packetSsrc packet)
    let payload := (packet.take len).drop headerLen
    let crypted := cryptPayload crypto encKey srtp.salt payload
    let protectedPart := packet.take headerLen ++ crypted.2
    let tag := srtpGenerateAuth crypto srtp protectedPart
    some
      { error := .ok
        srtp := { srtp with roc := srtp.roc + 1 }
        packet := protectedPart ++ tag ++ packet.drop (len + srtpAuthTagLen)
        len := len + srtpAuthTagLen
        aesInputs := crypted.1.map fun block => (encKey, block) }

/-- `len` is `*output_len` when the result is OK. -/
def srtpDecryptPacket (crypto : Crypto) (srtp : SrtpContext) (packet : List UInt8) (len : Nat) :
    SrtpResult :=
  if len < headerLen + srtpAuthTagLen then ⟨.error, srtp, packet, 0, []⟩
  else
    let packetLenWithoutAuth := len - srtpAuthTagLen
    let receivedTag := packet.drop packetLenWithoutAuth
    if !srtpVerifyAuth crypto srtp (packet.take packetLenWithoutAuth) receivedTag then
      ⟨.error, srtp, packet, 0, []⟩
    else
      let decKey := srtpDeriveKey crypto srtp (packetSsrc packet)
      let payload := (packet.take packetLenWithoutAuth).drop headerLen
      let crypted := cryptPayload crypto decKey srtp.salt payload
      { error := .ok
        srtp := { srtp with roc := srtp.roc + 1 }
        packet := packet.take headerLen ++ crypted.2 ++ packet.drop packetLenWithoutAuth
        len := packetLenWithoutAuth
        aesInputs := crypted.1.map fun block => (decKey, block) }

theorem srtpEncryptPacket_of_fits (crypto : Crypto) (srtp : SrtpContext) (packet : List UInt8)
    {len maxLen : Nat} (hlen : headerLen ≤ len) (hmax : len + srtpAuthTagLen ≤ maxLen) :
    ∃ result, srtpEncryptPacket crypto srtp packet len maxLen = some result ∧
      result.error = .ok ∧ result.srtp = { srtp with roc := srtp.roc + 1 } ∧
      result.len = len + srtpAuthTagLen ∧
      result.packet =
        packet.take headerLen ++
          (cryptPayload crypto (srtpDeriveKey crypto srtp (packetSsrc packet)) srtp.salt
            ((packet.take len).drop headerLen)).2 ++
          srtpGenerateAuth crypto srtp (packet.take headerLen ++
            (cryptPayload crypto (srtpDeriveKey crypto srtp (packetSsrc packet)) srtp.salt
              ((packet.take len).drop headerLen)).2) ++
          packet.drop (len + srtpAuthTagLen) := by
  rw [srtpEncryptPacket, if_neg (Nat.not_lt.mpr hmax), if_neg (Nat.not_lt.mpr hlen)]
  exact ⟨_, rfl, rfl, rfl, rfl, rfl⟩

end TinyRtc.Srtp
