import TinyRtc.CrcDivision
import TinyRtc.StunFinalize

namespace TinyRtc.StunFingerprint

open TinyRtc.BigEndian
open TinyRtc.CrcDivision
open TinyRtc.Srtp
open TinyRtc.Stun
open TinyRtc.StunFinalize

/-- The reflected polynomial of CRC-32. -/
def crcPolynomial : BitVec 32 := 0xEDB88320#32

/-- CRC-32: the remainder of the division, its first 32 bits inverted before and all of it
after. -/
noncomputable def crc32 (data : List UInt8) : UInt32 :=
  UInt32.ofBitVec
    (~~~ crcDivision crcPolynomial (BitVec.allOnes 32) (data.map UInt8.toBitVec))

theorem toBitVec_crcBits_one (crc : UInt32) :
    ((crc >>> 1) ^^^ (0xEDB88320 &&& -(crc &&& 1))).toBitVec =
      crcStep crcPolynomial crc.toBitVec := by
  have hlow : (crc &&& 1).toBitVec =
      BitVec.setWidth 32 (BitVec.ofBool (crc.toBitVec.getLsbD 0)) :=
    BitVec.and_one_eq_setWidth_ofBool_getLsbD
  have hmask : (0xEDB88320 &&& -(crc &&& 1)).toBitVec =
      if crc.toBitVec.getLsbD 0 then crcPolynomial else 0#32 := by
    rw [UInt32.toBitVec_and, UInt32.toBitVec_neg, hlow]
    cases crc.toBitVec.getLsbD 0 <;> decide
  rw [UInt32.toBitVec_xor, hmask]
  rfl

theorem toBitVec_crcBits (bits : Nat) (crc : UInt32) :
    (crcBits bits crc).toBitVec = (crcStep crcPolynomial)^[bits] crc.toBitVec := by
  induction bits generalizing crc with
  | zero => rfl
  | succ bits ih => rw [crcBits, ih, toBitVec_crcBits_one, Function.iterate_succ_apply]

theorem toBitVec_crcByte (crc : UInt32) (byte : UInt8) :
    (crcBits 8 (crc ^^^ byte.toUInt32)).toBitVec =
      crcByte crcPolynomial crc.toBitVec byte.toBitVec := by
  rw [toBitVec_crcBits, crcByte, UInt32.toBitVec_xor, UInt8.toBitVec_toUInt32]

theorem toBitVec_crcRun (data : List UInt8) (crc : UInt32) :
    (data.foldl (fun crc byte => crcBits 8 (crc ^^^ byte.toUInt32)) crc).toBitVec =
      crcRun crcPolynomial crc.toBitVec (data.map UInt8.toBitVec) := by
  induction data generalizing crc with
  | nil => rfl
  | cons byte rest ih =>
      rw [List.foldl_cons, ih, toBitVec_crcByte]
      rfl

/-- The loop of the source is the division, whatever the bytes. -/
theorem stunCrc32_eq (data : List UInt8) : stunCrc32 data = crc32 data := by
  rw [← UInt32.toBitVec_inj, stunCrc32, UInt32.toBitVec_not, toBitVec_crcRun,
    crcRun_eq_division _ _ (by decide)]
  rfl

theorem generator_crcPolynomial : (generator crcPolynomial).eval 1 ≠ 0 := by
  rw [generator_eval_one]
  decide

/-- The CRC-32 that the header of the fingerprint attribute leaves as it is. -/
def crcBehindHeader : UInt32 := 0x8628B149

theorem stunCrc32_append (data suffix : List UInt8) :
    stunCrc32 (data ++ suffix) =
      ~~~(suffix.foldl (fun crc byte => crcBits 8 (crc ^^^ byte.toUInt32)) (~~~stunCrc32 data)) := by
  rw [stunCrc32, stunCrc32, List.foldl_append, UInt32.not_not]

/-- Four bytes are `2 ^ 5` bits, so no other CRC-32 is left as it is. -/
theorem stunCrc32_fingerprint_header (data : List UInt8) :
    stunCrc32 (data ++ stunAttrHeader stunAttrFingerprint 4) = stunCrc32 data ↔
      stunCrc32 data = crcBehindHeader := by
  rw [stunCrc32_append]
  generalize stunCrc32 data = crc
  constructor
  · intro h
    have hfold := congrArg (~~~ ·) h
    simp only [UInt32.not_not] at hfold
    have hself : crcRun crcPolynomial (~~~crc).toBitVec
        ((stunAttrHeader stunAttrFingerprint 4).map UInt8.toBitVec) = (~~~crc).toBitVec := by
      rw [← toBitVec_crcRun, hfold]
    have hconstant : crcRun crcPolynomial (~~~crcBehindHeader).toBitVec
        ((stunAttrHeader stunAttrFingerprint 4).map UInt8.toBitVec) =
          (~~~crcBehindHeader).toBitVec := by
      decide +kernel
    have hlength : 8 * ((stunAttrHeader stunAttrFingerprint 4).map UInt8.toBitVec).length =
        2 ^ 5 := rfl
    have hregister := eq_of_crcRun_eq_self (by decide) generator_crcPolynomial hlength
      hself hconstant
    exact UInt32.not_inj.mp (UInt32.toBitVec_inj.mp hregister)
  · rintro rfl
    decide +kernel

theorem finalized_fingerprint {crypto : Crypto} {message password final : List UInt8}
    {bufSize : Nat} (h : 4 ≤ message.length)
    (hfinal : stunFinalizeMessage crypto message bufSize password = .ok final) :
    final.take (message.length + 24) = fingerprintInput crypto message password ∧
      final.drop (message.length + 28) =
        write32 (stunCrc32 (fingerprintInput crypto message password ++
          stunAttrHeader stunAttrFingerprint 4) ^^^ 0x5354554E) := by
  have hfit : message.length + 32 ≤ bufSize := by
    by_contra hsmall
    rw [stunFinalizeMessage_error (by omega)] at hfinal
    cases hfinal
  rw [stunFinalizeMessage_ok h hfit] at hfinal
  cases hfinal
  have hlength : (fingerprintInput crypto message password).length = message.length + 24 :=
    fingerprintInput_length h
  constructor
  · rw [List.append_assoc, List.take_append_of_le_length hlength.ge,
      List.take_of_length_le hlength.le]
  · have hfront : (fingerprintInput crypto message password ++
        stunAttrHeader stunAttrFingerprint 4).length = message.length + 28 := by
      rw [List.length_append, hlength, stunAttrHeader_length]
    rw [List.drop_append_of_le_length hfront.ge, List.drop_of_length_le hfront.le,
      List.nil_append]

/-- The source's sum runs over the header of its own attribute, so the fingerprint is the
CRC-32 of what is in front of the attribute for a single value of that CRC-32. -/
theorem fingerprint_iff {crypto : Crypto} {message password final : List UInt8}
    {bufSize : Nat} (h : 20 ≤ message.length)
    (hfinal : stunFinalizeMessage crypto message bufSize password = .ok final) :
    final.drop (message.length + 28) =
        write32 (crc32 (final.take (message.length + 24)) ^^^ 0x5354554E) ↔
      crc32 (fingerprintInput crypto message password) = crcBehindHeader := by
  obtain ⟨hfront, hvalue⟩ := finalized_fingerprint (by omega) hfinal
  rw [hfront, hvalue, ← stunCrc32_eq, ← stunCrc32_fingerprint_header]
  constructor
  · intro hbytes
    exact (UInt32.xor_left_inj _).mp (write32_injective hbytes)
  · intro hcrc
    rw [hcrc]

/-- A binding request whose transaction ID is chosen for the fingerprint. -/
def chosenRequest : List UInt8 :=
  stunHeader stunBindingRequest (List.replicate 8 0 ++ ([0xAA, 0x02, 0xF0, 0xD2] : List UInt8))

theorem fingerprint_chosenRequest :
    ∃ final, stunFinalizeMessage toyCrypto chosenRequest 256 [0x70] = .ok final ∧
      final.drop (chosenRequest.length + 28) =
        write32 (crc32 (final.take (chosenRequest.length + 24)) ^^^ 0x5354554E) := by
  have hfit : chosenRequest.length + 32 ≤ 256 := by decide
  obtain ⟨final, hfinal⟩ : ∃ final,
      stunFinalizeMessage toyCrypto chosenRequest 256 [0x70] = .ok final :=
    ⟨_, stunFinalizeMessage_ok (by decide) hfit⟩
  refine ⟨final, hfinal, ?_⟩
  rw [fingerprint_iff (by decide) hfinal, ← stunCrc32_eq]
  decide +kernel

theorem fingerprint_sampleRequest :
    ∃ final, stunFinalizeMessage toyCrypto sampleRequest 256 [0x70] = .ok final ∧
      final.drop (sampleRequest.length + 28) ≠
        write32 (crc32 (final.take (sampleRequest.length + 24)) ^^^ 0x5354554E) := by
  have hfit : sampleRequest.length + 32 ≤ 256 := by decide
  refine ⟨_, stunFinalizeMessage_ok (by decide) hfit, ?_⟩
  rw [← stunCrc32_eq]
  decide +kernel

end TinyRtc.StunFingerprint
