import TinyRtc.Stun

namespace TinyRtc.StunFinalize

open TinyRtc.BigEndian
open TinyRtc.Common
open TinyRtc.Srtp
open TinyRtc.Stun

/-- What a peer checks the message integrity attribute against: the message in front of
the attribute, with a length that reaches to the attribute's end. -/
def integrityInput (message : List UInt8) : List UInt8 :=
  stunSetLength message (message.length + 24 - stunHeaderLen)

/-- What the source signs: the attribute is there already, its value zero. -/
def signedInput (message : List UInt8) : List UInt8 :=
  stunSetLength
    (message ++ stunAttrHeader stunAttrMessageIntegrity 20 ++ List.replicate 20 0x00)
    (message.length + 24 - stunHeaderLen)

def integrityValue (crypto : Crypto) (message password : List UInt8) : List UInt8 :=
  List.ofFn (crypto.hmacSha1 password (signedInput message))

/-- The finalized message up to its fingerprint attribute. -/
def fingerprintInput (crypto : Crypto) (message password : List UInt8) : List UInt8 :=
  stunSetLength
    (message ++ stunAttrHeader stunAttrMessageIntegrity 20 ++
      integrityValue crypto message password)
    (message.length + 32 - stunHeaderLen)

@[simp] theorem stunAttrHeader_length (type length : UInt16) :
    (stunAttrHeader type length).length = 4 := rfl

@[simp] theorem integrityValue_length (crypto : Crypto) (message password : List UInt8) :
    (integrityValue crypto message password).length = 20 :=
  List.length_ofFn

theorem stunSetLength_append {message : List UInt8} (h : 4 ≤ message.length)
    (rest : List UInt8) (length : Nat) :
    stunSetLength (message ++ rest) length = stunSetLength message length ++ rest := by
  rw [stunSetLength, stunSetLength, List.take_append_of_le_length (by omega),
    List.drop_append_of_le_length h, List.append_assoc _ _ rest]

theorem fingerprintInput_eq {crypto : Crypto} {message password : List UInt8}
    (h : 4 ≤ message.length) :
    fingerprintInput crypto message password =
      stunSetLength message (message.length + 32 - stunHeaderLen) ++
        stunAttrHeader stunAttrMessageIntegrity 20 ++ integrityValue crypto message password := by
  rw [fingerprintInput, List.append_assoc, stunSetLength_append h, List.append_assoc]

theorem fingerprintInput_length {crypto : Crypto} {message password : List UInt8}
    (h : 4 ≤ message.length) :
    (fingerprintInput crypto message password).length = message.length + 24 := by
  rw [fingerprintInput_eq h, List.length_append, List.length_append, stunSetLength_length h,
    stunAttrHeader_length, integrityValue_length]

theorem stunFinalizeMessage_ok {crypto : Crypto} {message password : List UInt8}
    {bufSize : Nat} (h : 4 ≤ message.length) (hfit : message.length + 32 ≤ bufSize) :
    stunFinalizeMessage crypto message bufSize password =
      .ok (fingerprintInput crypto message password ++ stunAttrHeader stunAttrFingerprint 4 ++
        write32 (stunCrc32 (fingerprintInput crypto message password ++
          stunAttrHeader stunAttrFingerprint 4) ^^^ 0x5354554E)) := by
  have hlong : 4 ≤ (message ++ stunAttrHeader stunAttrMessageIntegrity 20 ++
      integrityValue crypto message password).length := by
    simp only [List.length_append]
    omega
  rw [stunFinalizeMessage, if_neg (by omega), fingerprintInput, ← stunSetLength_append hlong]
  rfl

theorem stunFinalizeMessage_error {crypto : Crypto} {message password : List UInt8}
    {bufSize : Nat} (hfit : bufSize < message.length + 32) :
    stunFinalizeMessage crypto message bufSize password = .error .memory := by
  rw [stunFinalizeMessage, if_pos (by omega)]

theorem finalized_integrity {crypto : Crypto} {message password : List UInt8}
    (h : 4 ≤ message.length) (rest : List UInt8) :
    ((fingerprintInput crypto message password ++ rest).drop (message.length + 4)).take 20 =
      integrityValue crypto message password := by
  have hfront : (stunSetLength message (message.length + 32 - stunHeaderLen) ++
      stunAttrHeader stunAttrMessageIntegrity 20).length = message.length + 4 := by
    rw [List.length_append, stunSetLength_length h, stunAttrHeader_length]
  rw [fingerprintInput_eq h, List.append_assoc, List.drop_append_of_le_length hfront.ge,
    List.drop_of_length_le hfront.le, List.nil_append,
    List.take_append_of_le_length (integrityValue_length ..).ge,
    List.take_of_length_le (integrityValue_length ..).le]

/-- The message integrity attribute that a message gets is the one that a peer
computes. -/
def SignsMessage (crypto : Crypto) (message : List UInt8) (bufSize : Nat)
    (password : List UInt8) : Prop :=
  ∃ final, stunFinalizeMessage crypto message bufSize password = .ok final ∧
    (final.drop (message.length + 4)).take 20 =
      List.ofFn (crypto.hmacSha1 password (integrityInput message))

theorem signsMessage_iff_hmac {crypto : Crypto} {message password : List UInt8}
    {bufSize : Nat} (h : 4 ≤ message.length) (hfit : message.length + 32 ≤ bufSize) :
    SignsMessage crypto message bufSize password ↔
      crypto.hmacSha1 password (signedInput message) =
        crypto.hmacSha1 password (integrityInput message) := by
  rw [SignsMessage, stunFinalizeMessage_ok h hfit]
  constructor
  · rintro ⟨final, hfinal, hvalue⟩
    cases hfinal
    rw [List.append_assoc, finalized_integrity h] at hvalue
    exact List.ofFn_injective hvalue
  · intro hhmac
    refine ⟨_, rfl, ?_⟩
    rw [List.append_assoc, finalized_integrity h, integrityValue, hhmac]

theorem signedInput_length {message : List UInt8} (h : 4 ≤ message.length) :
    (signedInput message).length = message.length + 24 := by
  rw [signedInput, List.append_assoc, stunSetLength_append h, List.length_append,
    stunSetLength_length h, List.length_append, stunAttrHeader_length, List.length_replicate]

theorem integrityInput_length {message : List UInt8} (h : 4 ≤ message.length) :
    (integrityInput message).length = message.length :=
  stunSetLength_length h _

/-- A hash that tells two byte strings apart by their lengths. -/
def lengthHmac : Crypto :=
  { toyCrypto with hmacSha1 := fun _ message _ => message.length.toUInt8 }

theorem lengthHmac_distinguishes {message : List UInt8} (h : 4 ≤ message.length)
    (password : List UInt8) :
    lengthHmac.hmacSha1 password (signedInput message) ≠
      lengthHmac.hmacSha1 password (integrityInput message) := by
  intro heq
  have hbyte : (signedInput message).length.toUInt8 = (integrityInput message).length.toUInt8 :=
    congrFun heq 0
  rw [signedInput_length h, integrityInput_length h] at hbyte
  have hmod : (message.length + 24) % 256 = message.length % 256 :=
    congrArg UInt8.toNat hbyte
  omega

/-- The source signs its own attribute too, so a peer's value comes out only where the
hash collides on the two inputs. No message is signed as a peer expects it for every
hash. -/
theorem never_signs_message {message password : List UInt8} {bufSize : Nat}
    (h : 20 ≤ message.length) (hfit : message.length + 32 ≤ bufSize) :
    (∀ crypto, SignsMessage crypto message bufSize password ↔
      crypto.hmacSha1 password (signedInput message) =
        crypto.hmacSha1 password (integrityInput message)) ∧
    ¬ ∀ crypto, SignsMessage crypto message bufSize password := by
  have h4 : 4 ≤ message.length := by omega
  refine ⟨fun crypto => signsMessage_iff_hmac h4 hfit, ?_⟩
  intro hall
  exact lengthHmac_distinguishes h4 password ((signsMessage_iff_hmac h4 hfit).mp (hall lengthHmac))

/-- A binding request with no attributes, in a buffer of 256 bytes. -/
def sampleRequest : List UInt8 :=
  stunHeader stunBindingRequest (List.replicate 12 0)

theorem never_signs_sampleRequest :
    ¬ ∀ crypto, SignsMessage crypto sampleRequest 256 [0x70] :=
  (never_signs_message (by decide) (by decide)).2

theorem sampleRequest_signed_otherwise :
    ¬ SignsMessage lengthHmac sampleRequest 256 [0x70] ∧
      integrityValue lengthHmac sampleRequest [0x70] = List.replicate 20 44 ∧
      List.ofFn (lengthHmac.hmacSha1 [0x70] (integrityInput sampleRequest)) =
        List.replicate 20 20 := by
  refine ⟨?_, by decide +kernel, by decide +kernel⟩
  rw [signsMessage_iff_hmac (by decide) (by decide)]
  exact lengthHmac_distinguishes (by decide) _

end TinyRtc.StunFinalize
