import TinyRtc.Rtcp

namespace TinyRtc.SenderReports

open TinyRtc.BigEndian
open TinyRtc.BoundedReads
open TinyRtc.Rtcp

/-- `tinyrtc_rtcp_sender_report_t`. -/
@[ext]
structure RtcpSenderReport where
  ssrc : UInt32
  ntpTimestamp : UInt64
  rtpTimestamp : UInt32
  packetCount : UInt32
  octetCount : UInt32
  deriving DecidableEq, Repr

/-- `none` is the source's `false`. -/
def tinyrtcRtcpParseSenderReport (packet : UInt64 → UInt8) (len : UInt64) :
    Option RtcpSenderReport :=
  if len < 28 then none
  else if (packet 0 >>> 6) &&& 0x03 ≠ rtcpVersion then none
  else if tinyrtcRtcpGetType packet len ≠ 200 then none
  else
    let lengthWords := (read16 (packet 2) (packet 3)).toUInt64
    let lengthBytes := (lengthWords + 1) * 4
    if lengthBytes > len then none
    else
      let ntpHi := packetRead32 packet 8
      let ntpLo := packetRead32 packet 12
      some
        { ssrc := packetRead32 packet 4
          ntpTimestamp := (ntpHi.toUInt64 <<< 32) ||| ntpLo.toUInt64
          rtpTimestamp := packetRead32 packet 16
          packetCount := packetRead32 packet 20
          octetCount := packetRead32 packet 24 }

/-- The bytes that are written; none when the source returns 0. -/
def tinyrtcRtcpBuildSenderReport (sr : RtcpSenderReport) (maxLen : Nat) : List UInt8 :=
  if maxLen < 28 then []
  else
    [rtcpVersion <<< 6, 200, 0, 6] ++ write32 sr.ssrc ++ write64 sr.ntpTimestamp ++
      write32 sr.rtpTimestamp ++ write32 sr.packetCount ++ write32 sr.octetCount

/-- The 24 bytes behind the header of a sender report. -/
def senderInfo (sr : RtcpSenderReport) : List UInt8 :=
  write32 sr.ssrc ++ (write64 sr.ntpTimestamp ++
    (write32 sr.rtpTimestamp ++ (write32 sr.packetCount ++ write32 sr.octetCount)))

section

variable {packet : UInt64 → UInt8} {p : Nat}

theorem holds_cons {byte : UInt8} {bytes : List UInt8} :
    BeginsWith (byte :: bytes) (fun k => packet (p + k).toUInt64) ↔
      packet p.toUInt64 = byte ∧ BeginsWith bytes fun k => packet (p + 1 + k).toUInt64 := by
  have hone : BeginsWith [byte] (fun k => packet (p + k).toUInt64) ↔ packet p.toUInt64 = byte := by
    constructor
    · exact fun h => h 0 Nat.zero_lt_one
    · intro h i hi
      obtain rfl : i = 0 := Nat.lt_one_iff.mp hi
      exact h
  rw [← List.singleton_append, holds_append, hone]
  rfl

theorem holds_write16 {word : UInt16} :
    BeginsWith (write16 word) (fun k => packet (p + k).toUInt64) ↔
      read16 (packet p.toUInt64) (packet (p + 1).toUInt64) = word := by
  constructor
  · exact @read16_of_beginsWith (fun i => packet i.toUInt64) _ _
  · rintro rfl
    rw [write16_read16, holds_cons, holds_cons]
    exact ⟨rfl, rfl, fun i hi => absurd hi (Nat.not_lt_zero i)⟩

theorem holds_write32 {word : UInt32} :
    BeginsWith (write32 word) (fun k => packet (p + k).toUInt64) ↔
      packetRead32 packet p.toUInt64 = word := by
  constructor
  · exact packetRead32_of_holds
  · rintro rfl
    rw [packetRead32, write32_read32, holds_cons, holds_cons, holds_cons, holds_cons]
    have hnext : ∀ k, (p + 1 + k).toUInt64 = p.toUInt64 + (1 + k).toUInt64 := fun k => by
      rw [Nat.add_assoc, toUInt64_add]
    exact ⟨rfl, congrArg packet (hnext 0), congrArg packet (hnext 1), congrArg packet (hnext 2),
      fun i hi => absurd hi (Nat.not_lt_zero i)⟩

theorem toNat_halves (hi lo : UInt32) :
    ((hi.toUInt64 <<< 32) ||| lo.toUInt64).toNat = hi.toNat * 2 ^ 32 + lo.toNat := by
  have hhi := hi.toNat_lt
  have hlo := lo.toNat_lt
  rw [UInt64.toNat_or, UInt64.toNat_shiftLeft]
  change (hi.toNat <<< 32 % 2 ^ 64) ||| lo.toNat = _
  rw [Nat.mod_eq_of_lt (by rw [Nat.shiftLeft_eq]; omega), ← Nat.shiftLeft_add_eq_or_of_lt hlo,
    Nat.shiftLeft_eq]

/-- A 64-bit word is made of two halves, and it has no others. -/
theorem halves_eq_iff {hi lo : UInt32} {x : UInt64} :
    (hi.toUInt64 <<< 32) ||| lo.toUInt64 = x ↔ hi = (x >>> 32).toUInt32 ∧ lo = x.toUInt32 := by
  have hhi := hi.toNat_lt
  have hlo := lo.toNat_lt
  have hx := x.toNat_lt
  rw [← UInt64.toNat_inj, ← UInt32.toNat_inj, ← UInt32.toNat_inj, toNat_halves,
    UInt64.toNat_toUInt32, UInt64.toNat_toUInt32, UInt64.toNat_shiftRight]
  change _ ↔ hi.toNat = x.toNat >>> 32 % 2 ^ 32 ∧ _
  rw [Nat.shiftRight_eq_div_pow]
  omega

theorem write64_eq (x : UInt64) :
    write64 x = write32 (x >>> 32).toUInt32 ++ write32 x.toUInt32 := by
  have hx := x.toNat_lt
  simp only [write64, write32, List.cons_append, List.nil_append, List.cons.injEq, and_true,
    ← UInt8.toNat_inj, UInt64.toNat_toUInt8, UInt32.toNat_toUInt8, UInt64.toNat_shiftRight,
    UInt32.toNat_shiftRight, UInt64.toNat_toUInt32, Nat.shiftRight_eq_div_pow]
  simp only [UInt64.reduceToNat, UInt32.reduceToNat, Nat.reduceMod, Nat.reducePow]
  omega

theorem holds_write64 {word : UInt64} :
    BeginsWith (write64 word) (fun k => packet (p + k).toUInt64) ↔
      ((packetRead32 packet p.toUInt64).toUInt64 <<< 32) |||
        (packetRead32 packet (p + 4).toUInt64).toUInt64 = word := by
  rw [write64_eq, holds_append, holds_write32, holds_write32, halves_eq_iff]
  rfl

/-- What the parser makes of the 24 bytes behind the header. -/
def readSenderInfo (packet : UInt64 → UInt8) : RtcpSenderReport where
  ssrc := packetRead32 packet 4
  ntpTimestamp := ((packetRead32 packet 8).toUInt64 <<< 32) ||| (packetRead32 packet 12).toUInt64
  rtpTimestamp := packetRead32 packet 16
  packetCount := packetRead32 packet 20
  octetCount := packetRead32 packet 24

theorem holds_senderInfo {sr : RtcpSenderReport} :
    BeginsWith (senderInfo sr) (fun k => packet (4 + k).toUInt64) ↔ readSenderInfo packet = sr := by
  rw [senderInfo, holds_append, holds_append, holds_append, holds_append, holds_write32,
    holds_write64, holds_write32, holds_write32, holds_write32, RtcpSenderReport.ext_iff]
  rfl

/-- The first 28 bytes of a sender report. -/
def senderReportBytes (flags : UInt8) (words : UInt16) (sr : RtcpSenderReport) : List UInt8 :=
  flags :: 200 :: (write16 words ++ senderInfo sr)

theorem holds_senderReportBytes {flags : UInt8} {words : UInt16} {sr : RtcpSenderReport} :
    Holds packet (senderReportBytes flags words sr) ↔
      packet 0 = flags ∧ packet 1 = 200 ∧ read16 (packet 2) (packet 3) = words ∧
        readSenderInfo packet = sr := by
  have hstart : Holds packet (senderReportBytes flags words sr) ↔
      BeginsWith (senderReportBytes flags words sr) fun k => packet (0 + k).toUInt64 := by
    simp only [Nat.zero_add, Holds]
  rw [hstart, senderReportBytes, holds_cons, holds_cons, holds_append, holds_write16,
    ← holds_senderInfo]
  rfl

/-- The packet has room for the length that it gives itself, in words less one, as far as the
parser looks. -/
theorem lengthBytes_le_iff {words : UInt16} {len : UInt64} :
    ¬(words.toUInt64 + 1) * 4 > len ↔ (words.toNat + 1) * 4 ≤ len.toNat := by
  have hwords := words.toNat_lt
  rw [gt_iff_lt, UInt64.lt_iff_toNat_lt, UInt64.toNat_mul, UInt64.toNat_add, UInt16.toNat_toUInt64]
  change ¬len.toNat < (words.toNat + 1) % 2 ^ 64 * 4 % 2 ^ 64 ↔ _
  rw [Nat.mod_eq_of_lt (by omega), Nat.mod_eq_of_lt (by omega)]
  exact Nat.not_lt

theorem getType_eq {len : UInt64} (h : 28 ≤ len) : tinyrtcRtcpGetType packet len = packet 1 := by
  rw [tinyrtcRtcpGetType, if_neg]
  · exact UInt8.and_neg_one
  · rw [UInt64.not_lt]
    exact UInt64.le_trans (by decide) h

/-- A sender report is read, whatever follows its sender's part. -/
theorem parse_senderReportBytes {flags : UInt8} {words : UInt16} {sr : RtcpSenderReport}
    {len : UInt64} (h : Holds packet (senderReportBytes flags words sr)) (hlen : 28 ≤ len)
    (hversion : (flags >>> 6) &&& 0x03 = rtcpVersion)
    (hfits : (words.toNat + 1) * 4 ≤ len.toNat) :
    tinyrtcRtcpParseSenderReport packet len = some sr := by
  obtain ⟨rfl, hkind, rfl, rfl⟩ := holds_senderReportBytes.mp h
  rw [tinyrtcRtcpParseSenderReport, if_neg (UInt64.not_lt.mpr hlen),
    if_neg (not_not.mpr hversion), getType_eq hlen, if_neg (not_not.mpr hkind)]
  dsimp only
  rw [if_neg (lengthBytes_le_iff.mpr hfits)]
  rfl

/-- What the builder writes is read back. -/
theorem parse_buildSenderReport {sr : RtcpSenderReport} {maxLen : Nat} (hfit : 28 ≤ maxLen)
    (h : Holds packet (tinyrtcRtcpBuildSenderReport sr maxLen)) :
    tinyrtcRtcpParseSenderReport packet 28 = some sr ∧
      tinyrtcRtcpGetReportCount packet 28 = 0 := by
  have hbuilt : tinyrtcRtcpBuildSenderReport sr maxLen =
      senderReportBytes (rtcpVersion <<< 6) 6 sr := by
    rw [tinyrtcRtcpBuildSenderReport, if_neg (Nat.not_lt.mpr hfit)]
    rfl
  rw [hbuilt] at h
  refine ⟨parse_senderReportBytes h (by decide) (by decide) (by decide), ?_⟩
  rw [tinyrtcRtcpGetReportCount, if_neg (by decide), (holds_senderReportBytes.mp h).1]
  decide

end

/-- The parser accepts version 2 packets of type 200 whose length field does not reach beyond the
packet, and reads the sender's part of each as it was written. -/
theorem parseSenderReport_eq_some_iff {packet : UInt64 → UInt8} {len : UInt64}
    {sr : RtcpSenderReport} :
    tinyrtcRtcpParseSenderReport packet len = some sr ↔
      28 ≤ len ∧ ∃ flags words, Holds packet (senderReportBytes flags words sr) ∧
        (flags >>> 6) &&& 0x03 = rtcpVersion ∧ (words.toNat + 1) * 4 ≤ len.toNat := by
  constructor
  · intro h
    rw [tinyrtcRtcpParseSenderReport] at h
    split at h
    · cases h
    · next hlen =>
      have hlen : 28 ≤ len := UInt64.not_lt.mp hlen
      rw [getType_eq hlen] at h
      split at h
      · cases h
      · next hversion =>
        split at h
        · cases h
        · next hkind =>
          dsimp only at h
          split at h
          · cases h
          · next hfits =>
            exact ⟨hlen, packet 0, _,
              holds_senderReportBytes.mpr ⟨rfl, not_not.mp hkind, rfl, Option.some.inj h⟩,
              not_not.mp hversion, lengthBytes_le_iff.mp hfits⟩
  · rintro ⟨hlen, flags, words, h, hversion, hfits⟩
    exact parse_senderReportBytes h hlen hversion hfits

/-- A sender report that carries report blocks is read whole: the sender's part, the number of
blocks, and each of them under its index. -/
theorem senderReport_read {packet : UInt64 → UInt8} {flags : UInt8} {words : UInt16}
    {sr : RtcpSenderReport} {blocks : List RtcpReportBlock}
    (h : Holds packet (senderReportBytes flags words sr ++ blocks.flatMap reportBlockBytes))
    (hlost : ∀ rb ∈ blocks, rb.cumulativeLost.toNat < 2 ^ 24)
    (hversion : (flags >>> 6) &&& 0x03 = rtcpVersion)
    (hflags : (flags &&& 0x1F).toNat = blocks.length)
    (hwords : words.toNat = 6 + 6 * blocks.length) :
    tinyrtcRtcpParseSenderReport packet (28 + 24 * blocks.length).toUInt64 = some sr ∧
      Reports packet (28 + 24 * blocks.length).toUInt64 blocks := by
  have hcount : blocks.length ≤ 31 := by
    rw [← hflags, UInt8.toNat_and]
    exact Nat.and_le_right
  have hlen : (28 + 24 * blocks.length).toUInt64.toNat = 28 + 24 * blocks.length :=
    Nat.mod_eq_of_lt (by omega)
  have hfront : Holds packet (senderReportBytes flags words sr) := fun i hi => by
    have hi' := h i (by rw [List.length_append]; omega)
    rwa [List.getElem_append_left hi] at hi'
  have hlong : 28 ≤ (28 + 24 * blocks.length).toUInt64 := by
    rw [UInt64.le_iff_toNat_le, hlen]
    exact Nat.le_add_right _ _
  refine ⟨parse_senderReportBytes hfront hlong hversion (by omega), ?_, fun i hi => ?_⟩
  · rw [tinyrtcRtcpGetReportCount, if_neg, (holds_senderReportBytes.mp hfront).1, hflags]
    rw [UInt64.not_lt]
    exact UInt64.le_trans (by decide) hlong
  · rw [parseReportBlock_eq rfl hcount hlost h (by omega), List.getElem?_eq_getElem hi]

theorem senderReport_read_sampleReport :
    tinyrtcRtcpParseSenderReport
        (memoryOf (senderReportBytes 0x81 12 ⟨1, 2, 3, 4, 5⟩ ++ reportBlockBytes sampleReport)) 52 =
      some ⟨1, 2, 3, 4, 5⟩ ∧
    Reports
      (memoryOf (senderReportBytes 0x81 12 ⟨1, 2, 3, 4, 5⟩ ++ reportBlockBytes sampleReport)) 52
      [sampleReport] :=
  @senderReport_read _ 0x81 12 ⟨1, 2, 3, 4, 5⟩ [sampleReport] (memoryOf_holds (by decide))
    (by decide) (by decide) (by decide) (by decide)

end TinyRtc.SenderReports
