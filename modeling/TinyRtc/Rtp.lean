import Mathlib.Data.FinEnum
import TinyRtc.BigEndian

namespace TinyRtc.Rtp

open TinyRtc.BigEndian

/-- `tinyrtc_rtp_header_t`. The list `csrc` holds the entries of the source's
array that are in use, so `num_csrc` is its length. -/
structure RtpHeader where
  version : UInt8
  padding : Bool
  extension : Bool
  csrcCount : UInt8
  marker : Bool
  payloadType : UInt8
  sequence : UInt16
  timestamp : UInt32
  ssrc : UInt32
  csrc : List UInt32
  deriving DecidableEq, Repr

/-- The CSRC loop of `tinyrtc_rtp_parse_header` on the bytes after the fixed
header. -/
def readCsrc : (n : Nat) → List UInt8 → Option (List UInt32)
  | 0, _ => some []
  | n + 1, a :: b :: c :: d :: rest => (readCsrc n rest).map (read32 a b c d :: ·)
  | _ + 1, _ => none

/-- The length of the header extension at the front of the given bytes, its own
four bytes included. `none` when these four bytes are not all there. -/
def extensionLen : (extension : Bool) → List UInt8 → Option Nat
  | false, _ => some 0
  | true, _ :: _ :: hi :: lo :: _ => some (4 + 4 * (read16 hi lo).toNat)
  | true, _ => none

/-- `none` is the source's `false`. Bytes are read by matching on the packet, so
no read can leave it. -/
def tinyrtcRtpParseHeader (packet : List UInt8) : Option RtpHeader :=
  match packet with
  | b0 :: b1 :: b2 :: b3 :: b4 :: b5 :: b6 :: b7 :: b8 :: b9 :: b10 :: b11 :: rest =>
      let extension := ((b0 >>> 4) &&& 0x01) != 0
      if (b0 >>> 6) &&& 0x03 ≠ 2 then none
      else
        match readCsrc (b0 &&& 0x0F).toNat rest with
        | none => none
        | some csrc =>
            let headerLen := 12 + 4 * csrc.length
            match extensionLen extension (packet.drop headerLen) with
            | none => none
            | some extLen =>
                if headerLen + extLen > packet.length then none
                else
                  some
                    { version := (b0 >>> 6) &&& 0x03
                      padding := ((b0 >>> 5) &&& 0x01) != 0
                      extension := extension
                      csrcCount := b0 &&& 0x0F
                      marker := ((b1 >>> 7) &&& 0x01) != 0
                      payloadType := b1 &&& 0x7F
                      sequence := read16 b2 b3
                      timestamp := read32 b4 b5 b6 b7
                      ssrc := read32 b8 b9 b10 b11
                      csrc := csrc }
  | _ => none

/-- The source returns a pointer into the packet; this is its offset. -/
def tinyrtcRtpGetPayload (packet : List UInt8) (header : RtpHeader) : Option Nat :=
  let headerLen := 12 + 4 * header.csrc.length
  let headerLen := headerLen + (extensionLen header.extension (packet.drop headerLen)).getD 0
  if headerLen > packet.length then none else some headerLen

/-- A C truth value as the bit that the header bytes carry. -/
def bit (b : Bool) : UInt8 :=
  if b then 1 else 0

/-- The bytes that `tinyrtc_rtp_build_header` writes; none are written when it
returns 0. -/
def tinyrtcRtpBuildHeader (header : RtpHeader) (maxLen : Nat) : List UInt8 :=
  if header.extension then []
  else if 12 + 4 * header.csrc.length > maxLen then []
  else
    ((((header.version &&& 0x03) <<< 6) ||| (bit header.padding <<< 5) |||
        (bit header.extension <<< 4) ||| (header.csrcCount &&& 0x0F)) ::
      ((bit header.marker <<< 7) ||| (header.payloadType &&& 0x7F)) ::
      (write16 header.sequence ++ write32 header.timestamp ++ write32 header.ssrc)) ++
    header.csrc.flatMap write32

/-- The headers that `tinyrtc_rtp_build_header` writes down without loss. -/
structure Buildable (header : RtpHeader) : Prop where
  version_eq : header.version = 2
  no_extension : header.extension = false
  csrcCount_eq : header.csrcCount.toNat = header.csrc.length
  csrcCount_lt : header.csrcCount < 16
  payloadType_lt : header.payloadType < 128

theorem first_byte_fields : ∀ (padding : Bool) (csrcCount : UInt8), csrcCount < 16 →
    let b := (((2 : UInt8) &&& 0x03) <<< 6) ||| (bit padding <<< 5) |||
      (bit false <<< 4) ||| (csrcCount &&& 0x0F)
    (b >>> 6) &&& 0x03 = 2 ∧ (((b >>> 5) &&& 0x01) != 0) = padding ∧
      (((b >>> 4) &&& 0x01) != 0) = false ∧ b &&& 0x0F = csrcCount := by
  decide +kernel

theorem second_byte_fields : ∀ (marker : Bool) (payloadType : UInt8), payloadType < 128 →
    let b := (bit marker <<< 7) ||| (payloadType &&& 0x7F)
    (((b >>> 7) &&& 0x01) != 0) = marker ∧ b &&& 0x7F = payloadType := by
  decide +kernel

theorem readCsrc_write (csrc : List UInt32) (payload : List UInt8) :
    readCsrc csrc.length (csrc.flatMap write32 ++ payload) = some csrc := by
  induction csrc with
  | nil => rfl
  | cons word csrc ih =>
      simp only [List.length_cons, List.flatMap_cons, write32, List.cons_append,
        List.nil_append, readCsrc]
      rw [ih]
      simp [read32_write32]

@[simp] theorem length_flatMap_write32 (csrc : List UInt32) :
    (csrc.flatMap write32).length = 4 * csrc.length := by
  induction csrc with
  | nil => rfl
  | cons word csrc ih =>
      simp only [List.flatMap_cons, List.length_append, write32_length, ih, List.length_cons]
      omega

theorem build_length {header : RtpHeader} (hb : Buildable header) {maxLen : Nat}
    (hmax : 12 + 4 * header.csrc.length ≤ maxLen) :
    (tinyrtcRtpBuildHeader header maxLen).length = 12 + 4 * header.csrc.length := by
  rw [tinyrtcRtpBuildHeader, hb.no_extension, if_neg Bool.false_ne_true, if_neg (by omega)]
  simp only [List.length_append, List.length_cons, write16_length, write32_length,
    length_flatMap_write32]

theorem parse_build {header : RtpHeader} (hb : Buildable header) {maxLen : Nat}
    (hmax : 12 + 4 * header.csrc.length ≤ maxLen) (payload : List UInt8) :
    tinyrtcRtpParseHeader (tinyrtcRtpBuildHeader header maxLen ++ payload) = some header := by
  have hlen := build_length hb hmax
  obtain ⟨hversionEq, hext, hcount, hlt, hpt⟩ := hb
  obtain ⟨hversion, hpadding, hextension, hcountBits⟩ :=
    first_byte_fields header.padding header.csrcCount hlt
  obtain ⟨hmarker, hptBits⟩ := second_byte_fields header.marker header.payloadType hpt
  have hread := readCsrc_write header.csrc payload
  rw [tinyrtcRtpBuildHeader, hversionEq, hext, if_neg Bool.false_ne_true,
    if_neg (by omega)] at hlen ⊢
  simp only [write16, write32, List.cons_append, List.nil_append] at hlen ⊢
  simp only [tinyrtcRtpParseHeader, hversion, hcountBits, hextension, hpadding, hmarker, hptBits,
    hcount, read16_write16, read32_write32, hread, extensionLen, ne_eq, not_true_eq_false,
    if_false]
  rw [if_neg]
  · rw [← hversionEq, ← hext]
  · simp only [List.length_cons, List.length_append] at hlen ⊢
    omega

theorem readCsrc_eq {n : Nat} {bytes : List UInt8} {csrc : List UInt32}
    (h : readCsrc n bytes = some csrc) :
    csrc.length = n ∧ bytes.take (4 * n) = csrc.flatMap write32 := by
  induction n generalizing bytes csrc with
  | zero =>
      cases h
      exact ⟨rfl, rfl⟩
  | succ n ih =>
      match bytes with
      | a :: b :: c :: d :: rest =>
          obtain ⟨csrc, hrest, rfl⟩ := Option.map_eq_some_iff.mp h
          obtain ⟨hlength, htake⟩ := ih hrest
          refine ⟨by rw [List.length_cons, hlength], ?_⟩
          rw [Nat.mul_succ, List.flatMap_cons, write32_read32, ← htake]
          rfl
      | [] => cases h
      | [_] => cases h
      | [_, _] => cases h
      | [_, _, _] => cases h

theorem first_byte_rebuilt : ∀ b : UInt8, (b >>> 6) &&& 0x03 = 2 →
    (((b >>> 4) &&& 0x01) != 0) = false →
    ((((b >>> 6) &&& 0x03) &&& 0x03) <<< 6) ||| (bit (((b >>> 5) &&& 0x01) != 0) <<< 5) |||
      (bit false <<< 4) ||| ((b &&& 0x0F) &&& 0x0F) = b := by
  decide +kernel

theorem second_byte_rebuilt : ∀ b : UInt8,
    (bit (((b >>> 7) &&& 0x01) != 0) <<< 7) ||| ((b &&& 0x7F) &&& 0x7F) = b := by
  decide +kernel

theorem build_parse {packet : List UInt8} {header : RtpHeader}
    (hparse : tinyrtcRtpParseHeader packet = some header) (hext : header.extension = false)
    {maxLen : Nat} (hmax : 12 + 4 * header.csrc.length ≤ maxLen) :
    tinyrtcRtpBuildHeader header maxLen = packet.take (12 + 4 * header.csrcCount.toNat) := by
  unfold tinyrtcRtpParseHeader at hparse
  split at hparse
  · next b0 b1 b2 b3 b4 b5 b6 b7 b8 b9 b10 b11 rest =>
    dsimp only at hparse
    split at hparse
    · cases hparse
    · next hversion =>
      split at hparse
      · cases hparse
      · next csrc hcsrc =>
        split at hparse
        · cases hparse
        · split at hparse
          · cases hparse
          · obtain ⟨-, hwords⟩ := readCsrc_eq hcsrc
            cases hparse
            dsimp only at hext hmax ⊢
            rw [tinyrtcRtpBuildHeader, if_neg (by rw [hext]; exact Bool.false_ne_true),
              if_neg (Nat.not_lt.mpr hmax)]
            dsimp only
            rw [hext, first_byte_rebuilt b0 (not_not.mp hversion) hext, second_byte_rebuilt,
              write16_read16, write32_read32, write32_read32, ← hwords, Nat.add_comm 12]
            rfl
  · cases hparse

/-- Both directions: a header survives being written and read, and the bytes of an
accepted header survive being read and written. -/
theorem header_roundTrip :
    (∀ (header : RtpHeader) (maxLen : Nat) (payload : List UInt8), Buildable header →
      12 + 4 * header.csrc.length ≤ maxLen →
        tinyrtcRtpParseHeader (tinyrtcRtpBuildHeader header maxLen ++ payload) = some header) ∧
    (∀ (packet : List UInt8) (header : RtpHeader) (maxLen : Nat),
      tinyrtcRtpParseHeader packet = some header → header.extension = false →
        12 + 4 * header.csrc.length ≤ maxLen →
          tinyrtcRtpBuildHeader header maxLen =
            packet.take (12 + 4 * header.csrcCount.toNat)) :=
  ⟨fun _ _ payload hb hmax => parse_build hb hmax payload,
    fun _ _ _ hparse hext hmax => build_parse hparse hext hmax⟩

/-- A packet with one CSRC and two bytes of payload. -/
def oneSourcePacket : List UInt8 :=
  [0x81, 0xE0, 0x00, 0x07, 0x00, 0x00, 0x03, 0xE8, 0x12, 0x34, 0x56, 0x78, 0x00, 0x00, 0x00, 0x09,
    0xAA, 0xBB]

def oneSourceHeader : RtpHeader :=
  ⟨2, false, false, 1, true, 96, 7, 1000, 0x12345678, [9]⟩

theorem header_roundTrip_oneSource :
    tinyrtcRtpParseHeader (tinyrtcRtpBuildHeader oneSourceHeader 16 ++ [0xAA, 0xBB]) =
        some oneSourceHeader ∧
      tinyrtcRtpBuildHeader oneSourceHeader 16 = oneSourcePacket.take 16 :=
  ⟨header_roundTrip.1 oneSourceHeader 16 [0xAA, 0xBB] ⟨rfl, rfl, rfl, by decide, by decide⟩
      (by decide),
    header_roundTrip.2 oneSourcePacket oneSourceHeader 16 (by decide +kernel) rfl (by decide)⟩

theorem getPayload_build {header : RtpHeader} (hb : Buildable header) {maxLen : Nat}
    (hmax : 12 + 4 * header.csrc.length ≤ maxLen) (payload : List UInt8) :
    tinyrtcRtpGetPayload (tinyrtcRtpBuildHeader header maxLen ++ payload) header =
      some (tinyrtcRtpBuildHeader header maxLen).length := by
  have hlen := build_length hb hmax
  simp only [tinyrtcRtpGetPayload, hb.no_extension, extensionLen, Option.getD_some, hlen,
    List.length_append]
  rw [if_neg (by omega)]
  rfl

end TinyRtc.Rtp
