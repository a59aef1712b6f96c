import TinyRtc.Inet
import TinyRtc.Srtp

namespace TinyRtc.Stun

open TinyRtc.BigEndian
open TinyRtc.Common
open TinyRtc.Inet
open TinyRtc.Srtp

/-- `STUN_MAGIC_COOKIE`. -/
def stunMagicCookie : UInt32 := 0x2112A442

/-- The message types that the source names. -/
def stunBindingRequest : UInt16 := 0x0001

def stunBindingResponse : UInt16 := 0x0101

/-- The attribute types that the source names. -/
def stunAttrMappedAddress : UInt16 := 0x0001

def stunAttrUsername : UInt16 := 0x0006

def stunAttrMessageIntegrity : UInt16 := 0x0008

def stunAttrXorMappedAddress : UInt16 := 0x0020

def stunAttrPriority : UInt16 := 0x0024

def stunAttrFingerprint : UInt16 := 0x8028

/-- `sizeof(stun_header_t)`. -/
def stunHeaderLen : Nat := 20

/-- The bytes at `i` and `i + 1` of a buffer as a number. -/
def stunRead16 (buffer : Nat → UInt8) (i : Nat) : UInt16 :=
  read16 (buffer i) (buffer (i + 1))

def stunRead32 (buffer : Nat → UInt8) (i : Nat) : UInt32 :=
  read32 (buffer i) (buffer (i + 1)) (buffer (i + 2)) (buffer (i + 3))

/-- The 12 bytes of the transaction ID field of a message. -/
def transactionIdAt (buffer : Nat → UInt8) : List UInt8 :=
  (List.range 12).map fun i => buffer (8 + i)

/-- The transaction ID that both request builders make from the clock. -/
def stunTransactionId (now : UInt64) : List UInt8 :=
  write64 now ++ (write64 (now * 31337)).take 4

@[simp] theorem stunTransactionId_length (now : UInt64) : (stunTransactionId now).length = 12 :=
  rfl

def stunHeader (type : UInt16) (transactionId : List UInt8) : List UInt8 :=
  write16 type ++ write16 0 ++ write32 stunMagicCookie ++ transactionId

def stunSetLength (message : List UInt8) (length : Nat) : List UInt8 :=
  message.take 2 ++ write16 length.toUInt16 ++ message.drop 4

def stunAttrHeader (type length : UInt16) : List UInt8 :=
  write16 type ++ write16 length

/-- The inner loop of `stun_crc32`. -/
def crcBits : (bits : Nat) → UInt32 → UInt32
  | 0, crc => crc
  | bits + 1, crc => crcBits bits ((crc >>> 1) ^^^ (0xEDB88320 &&& -(crc &&& 1)))

def stunCrc32 (data : List UInt8) : UInt32 :=
  ~~~(data.foldl (fun crc byte => crcBits 8 (crc ^^^ byte.toUInt32)) 0xFFFFFFFF)

/-- `message` is what the buffer holds up to `*len`, at least a header. -/
def stunFinalizeMessage (crypto : Crypto) (message : List UInt8) (bufSize : Nat)
    (password : List UInt8) : Except TinyrtcError (List UInt8) :=
  if message.length + 24 + 8 > bufSize then .error .memory
  else
    let messageLenForHmac := message.length + 24
    let forHmac := stunSetLength
      (message ++ stunAttrHeader stunAttrMessageIntegrity 20 ++ List.replicate 20 0x00)
      (messageLenForHmac - stunHeaderLen)
    let hmac := List.ofFn (crypto.hmacSha1 password forHmac)
    let forCrc := stunSetLength
      (message ++ stunAttrHeader stunAttrMessageIntegrity 20 ++ hmac ++
        stunAttrHeader stunAttrFingerprint 4)
      (messageLenForHmac + 8 - stunHeaderLen)
    .ok (forCrc ++ write32 (stunCrc32 forCrc ^^^ 0x5354554E))

/-- The answer to a binding request, which is never longer than the source's
buffer. An empty message stands for the source's 0. -/
def stunCreateBindingResponse (crypto : Crypto) (bufSize : Nat) (requestTransactionId : List UInt8)
    (mappedAddr : Option SockAddr) (password : List UInt8) : List UInt8 :=
  let header := stunHeader stunBindingResponse requestTransactionId
  let message :=
    match mappedAddr with
    | some mapped =>
        if stunHeaderLen + 12 ≤ bufSize then
          header ++ stunAttrHeader stunAttrXorMappedAddress 8 ++ ([0x00, 0x01] : List UInt8) ++
            write16 (mapped.port ^^^ (stunMagicCookie >>> 16).toUInt16) ++
            write32 (mapped.addr ^^^ stunMagicCookie)
        else header
    | none => header
  match stunFinalizeMessage crypto message bufSize password with
  | .ok message => message
  | .error _ => []

/-- The output arguments of `stun_process_response` and its flag `found_mapped`. -/
structure MappedAddress where
  addr : List UInt8
  port : UInt16
  found : Bool

/-- One attribute of `stun_process_response`, whose value starts at `p`. -/
def stunProcessAttr (buffer : Nat → UInt8) (mappedAddrLen p : Nat) (attrType : UInt16)
    (attrLen : Nat) (mapped : MappedAddress) : MappedAddress :=
  if attrType = stunAttrXorMappedAddress then
    if attrLen < 4 then mapped
    else
      let port := stunRead16 buffer (p + 2) ^^^ (stunMagicCookie >>> 16).toUInt16
      if buffer (p + 1) = 0x01 ∧ attrLen = 8 ∧ inetAddrStrLen ≤ mappedAddrLen then
        ⟨inetNtop (stunRead32 buffer (p + 4) ^^^ stunMagicCookie), port, true⟩
      else { mapped with port := port }
  else if attrType = stunAttrMappedAddress then
    if attrLen < 4 then mapped
    else
      let port := stunRead16 buffer (p + 2)
      if buffer (p + 1) = 0x01 ∧ attrLen = 8 ∧ inetAddrStrLen ≤ mappedAddrLen then
        ⟨inetNtop (stunRead32 buffer (p + 4)), port, true⟩
      else { mapped with port := port }
  else mapped

/-- The attribute loop, from `p` up to `stop`. Every turn moves `p` on by at least
four bytes. -/
def stunProcessAttrs (buffer : Nat → UInt8) (mappedAddrLen stop : Nat) :
    (fuel p : Nat) → MappedAddress → MappedAddress
  | 0, _, mapped => mapped
  | fuel + 1, p, mapped =>
      if p + 4 > stop then mapped
      else
        let attrLen := (stunRead16 buffer (p + 2)).toNat
        let paddedLen := (attrLen + 3) / 4 * 4
        if p + 4 + paddedLen > stop then mapped
        else
          stunProcessAttrs buffer mappedAddrLen stop fuel (p + 4 + paddedLen)
            (stunProcessAttr buffer mappedAddrLen (p + 4) (stunRead16 buffer p) attrLen mapped)

/-- The buffer is read without regard to `len` once `len` covers the header. -/
def stunProcessResponse (buffer : Nat → UInt8) (len : Nat) (mapped : MappedAddress)
    (mappedAddrLen : Nat) : TinyrtcError × MappedAddress :=
  if len < stunHeaderLen then (.error, mapped)
  else if stunRead32 buffer 4 ≠ stunMagicCookie then (.error, mapped)
  else if (stunRead16 buffer 2).toNat > 1500 then (.error, mapped)
  else if stunRead16 buffer 0 ≠ stunBindingResponse then (.error, mapped)
  else
    let msgLen := (stunRead16 buffer 2).toNat
    let mapped := stunProcessAttrs buffer mappedAddrLen (stunHeaderLen + msgLen) msgLen
      stunHeaderLen mapped
    (if mapped.found then .ok else .error, mapped)

theorem stunSetLength_length {message : List UInt8} (h : 4 ≤ message.length) (length : Nat) :
    (stunSetLength message length).length = message.length := by
  simp only [stunSetLength, List.length_append, List.length_take, write16_length, List.length_drop]
  omega

theorem stunSetLength_drop (message : List UInt8) (length : Nat) {n : Nat} (hn : 4 ≤ n)
    (h : 4 ≤ message.length) : (stunSetLength message length).drop n = message.drop n := by
  have hfront : (message.take 2 ++ write16 length.toUInt16).length = 4 := by
    rw [List.length_append, List.length_take, write16_length]
    omega
  rw [stunSetLength, List.drop_append, List.drop_of_length_le (by omega), hfront, List.drop_drop,
    List.nil_append]
  congr 1
  omega

end TinyRtc.Stun
