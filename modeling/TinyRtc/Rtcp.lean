import TinyRtc.BigEndian

namespace TinyRtc.Rtcp

open TinyRtc.BigEndian
open TinyRtc.BoundedReads

/-- `RTCP_VERSION`. -/
def rtcpVersion : UInt8 := 2

/-- `tinyrtc_rtcp_report_block_t`. -/
structure RtcpReportBlock where
  ssrc : UInt32
  fractionLost : UInt8
  cumulativeLost : UInt32
  highestSeq : UInt32
  jitter : UInt32
  lsr : UInt32
  dlsr : UInt32
  deriving DecidableEq, Repr

/-- A packet is the memory behind the pointer to it; an offset is a `size_t`, which
wraps. -/
def tinyrtcRtcpGetType (packet : UInt64 → UInt8) (len : UInt64) : UInt8 :=
  if len < 4 then 0xFF else packet 1 &&& 0xFF

def tinyrtcRtcpGetReportCount (packet : UInt64 → UInt8) (len : UInt64) : Nat :=
  if len < 4 then 0 else (packet 0 &&& 0x1F).toNat

/-- The place of a report block: an `int` that is made a `size_t`. -/
def reportOffset (reportIndex : Int32) : UInt64 :=
  (28 + reportIndex * 24).toInt64.toUInt64

def packetRead32 (packet : UInt64 → UInt8) (offset : UInt64) : UInt32 :=
  read32 (packet offset) (packet (offset + 1)) (packet (offset + 2)) (packet (offset + 3))

/-- The fields that `tinyrtc_rtcp_parse_report_block` reads. -/
def readReportBlock (packet : UInt64 → UInt8) (offset : UInt64) : RtcpReportBlock where
  ssrc := packetRead32 packet offset
  fractionLost := packet (offset + 4)
  cumulativeLost := read24 (packet (offset + 5)) (packet (offset + 6)) (packet (offset + 7))
  highestSeq := packetRead32 packet (offset + 8)
  jitter := packetRead32 packet (offset + 12)
  lsr := packetRead32 packet (offset + 16)
  dlsr := packetRead32 packet (offset + 20)

/-- `none` is the source's `false`. -/
def tinyrtcRtcpParseReportBlock (reportIndex : Int32) (packet : UInt64 → UInt8) (len : UInt64) :
    Option RtcpReportBlock :=
  let offset := reportOffset reportIndex
  if offset + 24 > len then none else some (readReportBlock packet offset)

/-- The turn of the loop of `tinyrtc_rtcp_build_receiver_report` for one block. -/
def reportBlockBytes (rb : RtcpReportBlock) : List UInt8 :=
  write32 rb.ssrc ++ [rb.fractionLost] ++ write24 rb.cumulativeLost ++ write32 rb.highestSeq ++
    write32 rb.jitter ++ write32 rb.lsr ++ write32 rb.dlsr

/-- The bytes that are written; none when the source returns 0. -/
def tinyrtcRtcpBuildReceiverReport (blocks : List RtcpReportBlock) (maxLen : Nat) : List UInt8 :=
  if blocks.length > 31 then []
  else
    let totalLen := 4 + 24 * blocks.length
    if totalLen > maxLen then []
    else
      [(rtcpVersion <<< 6) ||| (blocks.length.toUInt8 &&& 0x1F), 201] ++
        write16 (totalLen / 4 - 1).toUInt16 ++ blocks.flatMap reportBlockBytes

/-- The first bytes of the memory behind the pointer. -/
def Holds (packet : UInt64 → UInt8) (bytes : List UInt8) : Prop :=
  BeginsWith bytes fun i => packet i.toUInt64

theorem reportBlockBytes_length (rb : RtcpReportBlock) : (reportBlockBytes rb).length = 24 :=
  rfl

theorem length_flatMap_reportBlockBytes (blocks : List RtcpReportBlock) :
    (blocks.flatMap reportBlockBytes).length = 24 * blocks.length := by
  induction blocks with
  | nil => rfl
  | cons rb blocks ih =>
      rw [List.flatMap_cons, List.length_append, reportBlockBytes_length, ih, List.length_cons]
      omega

theorem reportOffset_eq : ∀ i : Fin 32,
    reportOffset (Int32.ofNat i) = (28 + 24 * (i : Nat)).toUInt64 := by
  decide +kernel

theorem toUInt64_add (p k : Nat) : (p + k).toUInt64 = p.toUInt64 + k.toUInt64 :=
  UInt64.ofNat_add p k

section Memory

variable {packet : UInt64 → UInt8} {p : Nat}

theorem holds_append {front back : List UInt8} :
    BeginsWith (front ++ back) (fun k => packet (p + k).toUInt64) ↔
      BeginsWith front (fun k => packet (p + k).toUInt64) ∧
        BeginsWith back fun k => packet (p + front.length + k).toUInt64 :=
  @beginsWith_append _ _ (fun i => packet i.toUInt64) _ _

theorem packetRead32_of_holds {word : UInt32}
    (h : BeginsWith (write32 word) fun k => packet (p + k).toUInt64) :
    packetRead32 packet p.toUInt64 = word := by
  rw [← @read32_of_beginsWith (fun i => packet i.toUInt64) _ _ h]
  simp only [packetRead32, toUInt64_add]
  rfl

/-- A block is read back from where it stands. -/
theorem readReportBlock_of_holds {rb : RtcpReportBlock} (hlost : rb.cumulativeLost.toNat < 2 ^ 24)
    (h : BeginsWith (reportBlockBytes rb) fun k => packet (p + k).toUInt64) :
    readReportBlock packet p.toUInt64 = rb := by
  obtain ⟨h, hdlsr⟩ := holds_append.mp h
  obtain ⟨h, hlsr⟩ := holds_append.mp h
  obtain ⟨h, hjitter⟩ := holds_append.mp h
  obtain ⟨h, hhighest⟩ := holds_append.mp h
  obtain ⟨h, hcumulative⟩ := holds_append.mp h
  obtain ⟨hssrc, hfraction⟩ := holds_append.mp h
  have hread4 : packet (p + 4).toUInt64 = rb.fractionLost := hfraction 0 Nat.zero_lt_one
  have hread5 : read24 (packet (p + 5).toUInt64) (packet (p + 6).toUInt64)
      (packet (p + 7).toUInt64) = rb.cumulativeLost :=
    @read24_of_beginsWith (fun i => packet i.toUInt64) _ _ hlost hcumulative
  have hread8 : packetRead32 packet (p + 8).toUInt64 = rb.highestSeq :=
    packetRead32_of_holds hhighest
  have hread12 : packetRead32 packet (p + 12).toUInt64 = rb.jitter := packetRead32_of_holds hjitter
  have hread16 : packetRead32 packet (p + 16).toUInt64 = rb.lsr := packetRead32_of_holds hlsr
  have hread20 : packetRead32 packet (p + 20).toUInt64 = rb.dlsr := packetRead32_of_holds hdlsr
  simp only [toUInt64_add] at hread4 hread5 hread8 hread12 hread16 hread20
  obtain ⟨ssrc, fractionLost, cumulativeLost, highestSeq, jitter, lsr, dlsr⟩ := rb
  rw [readReportBlock, RtcpReportBlock.mk.injEq]
  exact ⟨packetRead32_of_holds hssrc, hread4, hread5, hread8, hread12, hread16, hread20⟩

/-- The parser finds the blocks of a packet that has 28 bytes in front of them, as a
sender report does. -/
theorem parseReportBlock_eq {front : List UInt8} (hfront : front.length = 28)
    {blocks : List RtcpReportBlock} (hcount : blocks.length ≤ 31)
    (hlost : ∀ rb ∈ blocks, rb.cumulativeLost.toNat < 2 ^ 24)
    (h : Holds packet (front ++ blocks.flatMap reportBlockBytes)) {i : Nat} (hi : i < 32) :
    tinyrtcRtcpParseReportBlock (Int32.ofNat i) packet (28 + 24 * blocks.length).toUInt64 =
      blocks[i]? := by
  have hoffset : reportOffset (Int32.ofNat i) = (28 + 24 * i).toUInt64 := reportOffset_eq ⟨i, hi⟩
  have hend : (28 + 24 * i).toUInt64 + 24 = (28 + 24 * i + 24).toUInt64 := (toUInt64_add _ 24).symm
  have hbeyond : (28 + 24 * i + 24).toUInt64 > (28 + 24 * blocks.length).toUInt64 ↔
      blocks.length ≤ i := by
    rw [gt_iff_lt, UInt64.lt_iff_toNat_lt]
    change (28 + 24 * blocks.length) % 2 ^ 64 < (28 + 24 * i + 24) % 2 ^ 64 ↔ _
    rw [Nat.mod_eq_of_lt (by omega), Nat.mod_eq_of_lt (by omega)]
    omega
  rw [tinyrtcRtcpParseReportBlock, hoffset, hend]
  simp only [hbeyond]
  by_cases hin : blocks.length ≤ i
  · rw [if_pos hin, List.getElem?_eq_none hin]
  · have hlt : i < blocks.length := Nat.not_le.mp hin
    rw [if_neg hin, List.getElem?_eq_getElem hlt]
    have hsplit : blocks = blocks.take i ++ blocks[i] :: blocks.drop (i + 1) := by
      rw [← List.drop_eq_getElem_cons hlt, List.take_append_drop]
    have hplace : (front ++ (blocks.take i).flatMap reportBlockBytes).length = 28 + 24 * i := by
      rw [List.length_append, hfront, length_flatMap_reportBlockBytes, List.length_take,
        Nat.min_eq_left hlt.le]
    have hbytes : front ++ blocks.flatMap reportBlockBytes =
        front ++ (blocks.take i).flatMap reportBlockBytes ++
          (reportBlockBytes blocks[i] ++ (blocks.drop (i + 1)).flatMap reportBlockBytes) := by
      conv_lhs => rw [hsplit]
      rw [List.flatMap_append, List.flatMap_cons, List.append_assoc]
    have hwhole : BeginsWith (front ++ blocks.flatMap reportBlockBytes)
        fun k => packet (0 + k).toUInt64 := by
      simpa only [Nat.zero_add, Holds] using h
    rw [hbytes] at hwhole
    obtain ⟨hblock, -⟩ := holds_append.mp (holds_append.mp hwhole).2
    rw [hplace, Nat.zero_add] at hblock
    rw [readReportBlock_of_holds (hlost _ (List.getElem_mem hlt)) hblock]

end Memory

/-- The first four bytes of a receiver report. -/
def receiverReportHeader (blocks : List RtcpReportBlock) : List UInt8 :=
  [(rtcpVersion <<< 6) ||| (blocks.length.toUInt8 &&& 0x1F), 201] ++
    write16 ((4 + 24 * blocks.length) / 4 - 1).toUInt16

theorem buildReceiverReport_eq {blocks : List RtcpReportBlock} (hcount : blocks.length ≤ 31)
    {maxLen : Nat} (hfit : 4 + 24 * blocks.length ≤ maxLen) :
    tinyrtcRtcpBuildReceiverReport blocks maxLen =
      receiverReportHeader blocks ++ blocks.flatMap reportBlockBytes := by
  rw [tinyrtcRtcpBuildReceiverReport, if_neg (by omega)]
  simp only [if_neg (Nat.not_lt.mpr hfit)]
  rfl

theorem buildReceiverReport_length {blocks : List RtcpReportBlock} (hcount : blocks.length ≤ 31)
    {maxLen : Nat} (hfit : 4 + 24 * blocks.length ≤ maxLen) :
    (tinyrtcRtcpBuildReceiverReport blocks maxLen).length = 4 + 24 * blocks.length := by
  rw [buildReceiverReport_eq hcount hfit, List.length_append, length_flatMap_reportBlockBytes]
  rfl

theorem reportCount_bits : ∀ n : Fin 32,
    ((rtcpVersion <<< 6) ||| ((n : Nat).toUInt8 &&& 0x1F)) &&& 0x1F = (n : Nat).toUInt8 := by
  decide +kernel

/-- The count survives. A receiver report has no sender part, so what the parser takes
for block `i` is block `i + 1`. -/
theorem receiverReport_not_short {n : Nat} (hcount : n ≤ 31) :
    ¬ (4 + 24 * n).toUInt64 < 4 := by
  rw [UInt64.lt_iff_toNat_lt]
  change ¬ (4 + 24 * n) % 2 ^ 64 < 4
  rw [Nat.mod_eq_of_lt (by omega)]
  omega

theorem parse_receiverReport {blocks : List RtcpReportBlock} (hcount : blocks.length ≤ 31)
    (hlost : ∀ rb ∈ blocks, rb.cumulativeLost.toNat < 2 ^ 24) {maxLen : Nat}
    (hfit : 4 + 24 * blocks.length ≤ maxLen) {packet : UInt64 → UInt8}
    (h : Holds packet (tinyrtcRtcpBuildReceiverReport blocks maxLen)) :
    tinyrtcRtcpGetReportCount packet
        (tinyrtcRtcpBuildReceiverReport blocks maxLen).length.toUInt64 = blocks.length ∧
      ∀ i < blocks.length, tinyrtcRtcpParseReportBlock (Int32.ofNat i) packet
        (tinyrtcRtcpBuildReceiverReport blocks maxLen).length.toUInt64 = blocks[i + 1]? := by
  rw [buildReceiverReport_length hcount hfit]
  rw [buildReceiverReport_eq hcount hfit] at h
  constructor
  · have hfirst : packet 0 = (rtcpVersion <<< 6) ||| (blocks.length.toUInt8 &&& 0x1F) :=
      h 0 (by rw [List.length_append]; exact Nat.add_pos_left (Nat.succ_pos 3) _)
    rw [tinyrtcRtcpGetReportCount, if_neg (receiverReport_not_short hcount), hfirst,
      reportCount_bits ⟨blocks.length, by omega⟩]
    change blocks.length % 2 ^ 8 = blocks.length
    omega
  · intro i hi
    cases blocks with
    | nil => exact absurd hi (Nat.not_lt_zero i)
    | cons rb rest =>
        rw [List.length_cons] at hcount hi
        have hfront : (receiverReportHeader (rb :: rest) ++ reportBlockBytes rb).length = 28 := rfl
        have htotal : 4 + 24 * (rb :: rest).length = 28 + 24 * rest.length := by
          rw [List.length_cons]
          omega
        rw [List.flatMap_cons, ← List.append_assoc] at h
        rw [htotal, parseReportBlock_eq hfront (by omega)
          (fun other hmem => hlost other (List.mem_cons_of_mem rb hmem)) h (by omega),
          List.getElem?_cons_succ]

/-- A packet reports the blocks: their number, and each of them under its index. -/
structure Reports (packet : UInt64 → UInt8) (len : UInt64) (blocks : List RtcpReportBlock) :
    Prop where
  count : tinyrtcRtcpGetReportCount packet len = blocks.length
  block : ∀ i (hi : i < blocks.length),
    tinyrtcRtcpParseReportBlock (Int32.ofNat i) packet len = some blocks[i]

/-- A block comes back under its index only where the next one is equal to it. The last
one never comes back, so only an empty report is read as it was built. -/
theorem reports_buildReceiverReport_iff {blocks : List RtcpReportBlock}
    (hcount : blocks.length ≤ 31) (hlost : ∀ rb ∈ blocks, rb.cumulativeLost.toNat < 2 ^ 24)
    {maxLen : Nat} (hfit : 4 + 24 * blocks.length ≤ maxLen) {packet : UInt64 → UInt8}
    (h : Holds packet (tinyrtcRtcpBuildReceiverReport blocks maxLen)) :
    tinyrtcRtcpGetReportCount packet
        (tinyrtcRtcpBuildReceiverReport blocks maxLen).length.toUInt64 = blocks.length ∧
    (∀ i (hi : i < blocks.length), tinyrtcRtcpParseReportBlock (Int32.ofNat i) packet
        (tinyrtcRtcpBuildReceiverReport blocks maxLen).length.toUInt64 = some blocks[i] ↔
      blocks[i + 1]? = some blocks[i]) ∧
    (Reports packet (tinyrtcRtcpBuildReceiverReport blocks maxLen).length.toUInt64 blocks ↔
      blocks = []) := by
  obtain ⟨hnumber, hnext⟩ := parse_receiverReport hcount hlost hfit h
  refine ⟨hnumber, fun i hi => by rw [hnext i hi], ?_⟩
  constructor
  · rintro ⟨-, hblock⟩
    by_contra hne
    have hlast : blocks.length - 1 < blocks.length :=
      Nat.sub_one_lt (List.length_pos_iff.mpr hne).ne'
    have hread := hblock _ hlast
    rw [hnext _ hlast, List.getElem?_eq_none (by omega)] at hread
    cases hread
  · rintro rfl
    exact ⟨hnumber, fun i hi => absurd hi (Nat.not_lt_zero i)⟩

def sampleReport : RtcpReportBlock := ⟨1, 2, 3, 4, 5, 6, 7⟩

/-- The memory that holds nothing but the given bytes. -/
def memoryOf (bytes : List UInt8) (i : UInt64) : UInt8 :=
  padded bytes i.toNat

theorem memoryOf_holds {bytes : List UInt8} (hlength : bytes.length < 2 ^ 64) :
    Holds (memoryOf bytes) bytes := by
  intro i hi
  change padded bytes (i % 2 ^ 64) = bytes[i]
  rw [Nat.mod_eq_of_lt (by omega), padded_beginsWith bytes i hi]

/-- Of two equal blocks the first comes back. -/
theorem reports_sampleReports :
    tinyrtcRtcpParseReportBlock 0
      (memoryOf (tinyrtcRtcpBuildReceiverReport [sampleReport, sampleReport] 1500)) 52 =
        some sampleReport :=
  ((reports_buildReceiverReport_iff (by decide : [sampleReport, sampleReport].length ≤ 31)
    (by decide) (by decide : 4 + 24 * 2 ≤ 1500) (memoryOf_holds (by decide))).2.1 0
      (by decide)).mpr rfl

/-- The only block of a report does not come back. -/
theorem sampleReport_lost :
    ¬ Reports (memoryOf (tinyrtcRtcpBuildReceiverReport [sampleReport] 1500)) 28 [sampleReport] := by
  intro h
  have hnone : tinyrtcRtcpParseReportBlock 0
      (memoryOf (tinyrtcRtcpBuildReceiverReport [sampleReport] 1500)) 28 = none := by
    decide +kernel
  have hblock := h.block 0 Nat.zero_lt_one
  cases hnone.symm.trans hblock

end TinyRtc.Rtcp
