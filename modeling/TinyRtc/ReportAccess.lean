import TinyRtc.Rtcp
import TinyRtc.SizeConversions

namespace TinyRtc.ReportAccess

open TinyRtc.BoundedReads
open TinyRtc.Rtcp
open TinyRtc.SizeConversions

/-- A block that is parsed is one of those that the packet counts, and all its bytes are
bytes of the packet. -/
def BoundedAccess (reportIndex : Int32) (packet : UInt64 → UInt8) (len : UInt64) : Prop :=
  (tinyrtcRtcpParseReportBlock reportIndex packet len).isSome = true →
    (0 ≤ reportIndex.toInt ∧ reportIndex.toInt < tinyrtcRtcpGetReportCount packet len) ∧
      ∀ k : UInt64, k < 24 → reportOffset reportIndex + k < len

/-- The end of a block as the code computes it, first in an `int` and then in a `size_t`. -/
def blockEnd (reportIndex : Int32) : Int :=
  ((28 + 24 * reportIndex.toInt).bmod (2 ^ 32) + 24) % 2 ^ 64

theorem toNat_blockEnd (reportIndex : Int32) :
    ((reportOffset reportIndex + 24).toNat : Int) = blockEnd reportIndex := by
  have hint : (28 + reportIndex * 24 : Int32).toInt =
      (28 + 24 * reportIndex.toInt).bmod (2 ^ 32) := by
    rw [Int32.toInt_add, Int32.toInt_mul, Int.add_bmod_bmod]
    congr 1
    change 28 + reportIndex.toInt * 24 = _
    omega
  rw [UInt64.toNat_add, Int.natCast_mod, Int.natCast_add, reportOffset, toNat_toUInt64,
    Int32.toInt_toInt64, hint, blockEnd]
  exact Int.emod_add_emod ..

theorem parseReportBlock_isSome_iff {reportIndex : Int32} {packet : UInt64 → UInt8}
    {len : UInt64} :
    (tinyrtcRtcpParseReportBlock reportIndex packet len).isSome = true ↔
      blockEnd reportIndex ≤ len.toNat := by
  have hend : reportOffset reportIndex + 24 > len ↔ ¬ blockEnd reportIndex ≤ len.toNat := by
    rw [← toNat_blockEnd, gt_iff_lt, UInt64.lt_iff_toNat_lt, Int.ofNat_le, Nat.not_le]
  rw [tinyrtcRtcpParseReportBlock]
  simp only [hend, ite_not]
  split
  · next hle => exact iff_of_true rfl hle
  · next hgt => exact iff_of_false Bool.false_ne_true hgt

theorem getReportCount_lt (packet : UInt64 → UInt8) (len : UInt64) :
    tinyrtcRtcpGetReportCount packet len < 32 := by
  rw [tinyrtcRtcpGetReportCount]
  split
  · exact Nat.zero_lt_succ 31
  · rw [UInt8.toNat_and]
    exact Nat.and_lt_two_pow _ (n := 5) (by decide)

/-- The offset of a block that is counted does not wrap around. -/
theorem reads_inside {reportIndex : Int32} {packet : UInt64 → UInt8} {len : UInt64}
    (hnonneg : 0 ≤ reportIndex.toInt)
    (hcount : reportIndex.toInt < tinyrtcRtcpGetReportCount packet len)
    (hend : blockEnd reportIndex ≤ len.toNat) {k : UInt64} (hk : k < 24) :
    reportOffset reportIndex + k < len := by
  have hsmall := getReportCount_lt packet len
  have hblock : blockEnd reportIndex = 28 + 24 * reportIndex.toInt + 24 := by
    rw [blockEnd, Int.bmod_eq_of_le (by omega) (by omega)]
    omega
  have hoffset := toNat_blockEnd reportIndex
  have hlen := len.toNat_lt
  have htwentyFour : (24 : UInt64).toNat = 24 := rfl
  rw [UInt64.toNat_add, hblock, htwentyFour] at hoffset
  rw [UInt64.lt_iff_toNat_lt, htwentyFour] at hk
  rw [UInt64.lt_iff_toNat_lt, UInt64.toNat_add]
  omega

/-- The parser checks the index against nothing but the length. -/
theorem boundedAccess_iff (reportIndex : Int32) (packet : UInt64 → UInt8) (len : UInt64) :
    BoundedAccess reportIndex packet len ↔
      (0 ≤ reportIndex.toInt ∧ reportIndex.toInt < tinyrtcRtcpGetReportCount packet len) ∨
        len.toNat < blockEnd reportIndex := by
  rw [BoundedAccess, parseReportBlock_isSome_iff]
  constructor
  · intro h
    rcases Int.lt_or_le len.toNat (blockEnd reportIndex) with hlt | hle
    · exact .inr hlt
    · exact .inl (h hle).1
  · rintro (⟨hnonneg, hcount⟩ | hlt) hle
    · exact ⟨⟨hnonneg, hcount⟩, fun k => reads_inside hnonneg hcount hle⟩
    · exact absurd hle (Int.not_le.mpr hlt)

/-- A receiver report of one block, and 48 bytes of another packet behind it. -/
def compoundPacket : List UInt8 :=
  tinyrtcRtcpBuildReceiverReport [sampleReport] 1500 ++ List.replicate 48 0x00

/-- What stands behind the report is taken for a block of its own, and an index of -1 is
taken too. -/
theorem boundedAccess_fails :
    ¬ BoundedAccess 1 (memoryOf compoundPacket) 76 ∧
      ¬ BoundedAccess (-1) (memoryOf compoundPacket) 76 := by
  have hbehind : (tinyrtcRtcpParseReportBlock 1 (memoryOf compoundPacket) 76).isSome = true := by
    decide +kernel
  have hbefore : (tinyrtcRtcpParseReportBlock (-1) (memoryOf compoundPacket) 76).isSome = true := by
    decide +kernel
  constructor
  · intro hbounded
    obtain ⟨⟨-, hcount⟩, -⟩ := hbounded hbehind
    exact absurd hcount (by decide +kernel)
  · intro hbounded
    obtain ⟨⟨hnonneg, -⟩, -⟩ := hbounded hbefore
    exact absurd hnonneg (by decide)

end TinyRtc.ReportAccess
