import TinyRtc.BoundedReads
import TinyRtc.Rtp

namespace TinyRtc.RtpReads

open TinyRtc.BigEndian
open TinyRtc.BoundedReads
open TinyRtc.Rtp

def readByte? (packet : List UInt8) (i : Nat) : Option UInt8 :=
  readAt? packet i 1 fun bytes => bytes i

def read16? (packet : List UInt8) (i : Nat) : Option UInt16 :=
  readAt? packet i 2 fun bytes => read16 (bytes i) (bytes (i + 1))

def read32? (packet : List UInt8) (i : Nat) : Option UInt32 :=
  readAt? packet i 4 fun bytes =>
    read32 (bytes i) (bytes (i + 1)) (bytes (i + 2)) (bytes (i + 3))

/-- `readCsrc` on a buffer that ends with the packet, like all that follows: `none` is a
read behind the end, and `some none` the source's `false`. -/
def readCsrc? (packet : List UInt8) : (n i : Nat) → Option (Option (List UInt32))
  | 0, _ => some (some [])
  | n + 1, i =>
      let off := 12 + i * 4
      if off + 4 > packet.length then some none
      else
        (read32? packet off).bind fun word =>
          (readCsrc? packet n (i + 1)).map fun csrc => csrc.map (word :: ·)

def extensionLen? (packet : List UInt8) (extension : Bool) (headerLen : Nat) :
    Option (Option Nat) :=
  if extension then
    if headerLen + 4 > packet.length then some none
    else (read16? packet (headerLen + 2)).map fun extLen => some (4 + 4 * extLen.toNat)
  else some (some 0)

def tinyrtcRtpParseHeader? (packet : List UInt8) : Option (Option RtpHeader) :=
  if packet.length < 12 then some none
  else
    (readByte? packet 0).bind fun b0 =>
      let version := (b0 >>> 6) &&& 0x03
      let extension := ((b0 >>> 4) &&& 0x01) != 0
      let csrcCount := b0 &&& 0x0F
      if version ≠ 2 then some none
      else
        (readByte? packet 1).bind fun b1 =>
          (read16? packet 2).bind fun sequence =>
            (read32? packet 4).bind fun timestamp =>
              (read32? packet 8).bind fun ssrc =>
                (readCsrc? packet (min csrcCount.toNat 16) 0).bind fun
                  | none => some none
                  | some csrc =>
                      let headerLen := 12 + 4 * csrc.length
                      (extensionLen? packet extension headerLen).map fun
                        | none => none
                        | some extLen =>
                            if headerLen + extLen > packet.length then none
                            else
                              some
                                { version := version
                                  padding := ((b0 >>> 5) &&& 0x01) != 0
                                  extension := extension
                                  csrcCount := csrcCount
                                  marker := ((b1 >>> 7) &&& 0x01) != 0
                                  payloadType := b1 &&& 0x7F
                                  sequence := sequence
                                  timestamp := timestamp
                                  ssrc := ssrc
                                  csrc := csrc }

def tinyrtcRtpGetPayload? (packet : List UInt8) (header : RtpHeader) : Option (Option Nat) :=
  let headerLen := 12 + 4 * header.csrc.length
  (if header.extension = true ∧ headerLen + 4 ≤ packet.length then
    (read16? packet (headerLen + 2)).map fun extLen => headerLen + (4 + 4 * extLen.toNat)
  else some headerLen).map fun headerLen =>
    if headerLen > packet.length then none else some headerLen

/-- The fields that the length of a header depends on. -/
def versionOf (packet : List UInt8) : UInt8 :=
  (padded packet 0 >>> 6) &&& 0x03

def hasExtension (packet : List UInt8) : Bool :=
  ((padded packet 0 >>> 4) &&& 0x01) != 0

def csrcCountOf (packet : List UInt8) : Nat :=
  (padded packet 0 &&& 0x0F).toNat

def extensionWords (packet : List UInt8) : Nat :=
  (read16 (padded packet (12 + 4 * csrcCountOf packet + 2))
    (padded packet (12 + 4 * csrcCountOf packet + 3))).toNat

/-- Where the payload of a packet begins. -/
def payloadOffset (packet : List UInt8) : Nat :=
  12 + 4 * csrcCountOf packet + if hasExtension packet then 4 + 4 * extensionWords packet else 0

structure WellFormed (packet : List UInt8) : Prop where
  length_ge : 12 ≤ packet.length
  version_eq : versionOf packet = 2
  offset_le : payloadOffset packet ≤ packet.length

theorem exists_four {bytes : List UInt8} (h : 4 ≤ bytes.length) :
    ∃ a b c d rest, bytes = a :: b :: c :: d :: rest := by
  match bytes, h with
  | a :: b :: c :: d :: rest, _ => exact ⟨a, b, c, d, rest, rfl⟩
  | [], h | [_], h | [_, _], h | [_, _, _], h => exact absurd h (by simp)

theorem padded_drop (bytes : List UInt8) (n i : Nat) :
    padded (bytes.drop n) i = padded bytes (n + i) := by
  rw [padded, padded, List.getD_eq_getElem?_getD, List.getD_eq_getElem?_getD, List.getElem?_drop]

theorem readCsrc_eq_none {n : Nat} {bytes : List UInt8} (h : bytes.length < 4) :
    readCsrc (n + 1) bytes = none := by
  match bytes, h with
  | [], _ | [_], _ | [_, _], _ | [_, _, _], _ => rfl
  | _ :: _ :: _ :: _ :: _, h => exact absurd h (by simp)

theorem readCsrc?_eq (packet : List UInt8) (n i : Nat) :
    readCsrc? packet n i = some (readCsrc n (packet.drop (12 + i * 4))) := by
  induction n generalizing i with
  | zero => rfl
  | succ n ih =>
      rw [readCsrc?]
      split
      · next hshort => rw [readCsrc_eq_none (by rw [List.length_drop]; omega)]
      · next hlong =>
        obtain ⟨a, b, c, d, rest, hdrop⟩ := @exists_four (packet.drop (12 + i * 4))
          (by rw [List.length_drop]; omega)
        have hrest : packet.drop (12 + (i + 1) * 4) = rest := by
          have hplace : 12 + (i + 1) * 4 = 12 + i * 4 + 4 := by omega
          rw [hplace, ← List.drop_drop, hdrop]
          rfl
        have hbyte : ∀ k, padded packet (12 + i * 4 + k) = padded (a :: b :: c :: d :: rest) k := by
          intro k
          rw [← padded_drop, hdrop]
        rw [read32?, readAt?, if_pos (by omega), Option.bind_some, ih, hrest, hdrop]
        have h0 := hbyte 0
        rw [Nat.add_zero] at h0
        rw [h0, hbyte 1, hbyte 2, hbyte 3]
        rfl

theorem extensionLen_drop (packet : List UInt8) (extension : Bool) (n : Nat) :
    extensionLen extension (packet.drop n) =
      if extension then
        if n + 4 > packet.length then none
        else some (4 + 4 * (read16 (padded packet (n + 2)) (padded packet (n + 3))).toNat)
      else some 0 := by
  cases extension with
  | false => rfl
  | true =>
      rw [if_pos rfl]
      split
      · next hshort =>
        have hlength : (packet.drop n).length < 4 := by
          rw [List.length_drop]
          omega
        match hdrop : packet.drop n, hlength with
        | [], _ | [_], _ | [_, _], _ | [_, _, _], _ => rfl
        | _ :: _ :: _ :: _ :: _, h => exact absurd h (by simp)
      · next hlong =>
        obtain ⟨a, b, hi, lo, rest, hdrop⟩ := @exists_four (packet.drop n)
          (by rw [List.length_drop]; omega)
        rw [← padded_drop, ← padded_drop, hdrop]
        rfl

theorem extensionLen?_eq (packet : List UInt8) (extension : Bool) (n : Nat) :
    extensionLen? packet extension n = some (extensionLen extension (packet.drop n)) := by
  rw [extensionLen_drop, extensionLen?]
  cases extension with
  | false => rfl
  | true =>
      rw [if_pos rfl, if_pos rfl]
      split
      · rfl
      · next hlong =>
        rw [read16?, readAt?, if_pos (by omega)]
        rfl

/-- The header of a packet that is long enough for one. -/
theorem parseHeader_eq {packet : List UInt8} (hlong : 12 ≤ packet.length) :
    tinyrtcRtpParseHeader packet =
      if versionOf packet ≠ 2 then none
      else
        (readCsrc (csrcCountOf packet) (packet.drop 12)).bind fun csrc =>
          (extensionLen (hasExtension packet) (packet.drop (12 + 4 * csrc.length))).bind
            fun extLen =>
              if 12 + 4 * csrc.length + extLen > packet.length then none
              else
                some
                  { version := versionOf packet
                    padding := ((padded packet 0 >>> 5) &&& 0x01) != 0
                    extension := hasExtension packet
                    csrcCount := padded packet 0 &&& 0x0F
                    marker := ((padded packet 1 >>> 7) &&& 0x01) != 0
                    payloadType := padded packet 1 &&& 0x7F
                    sequence := read16 (padded packet 2) (padded packet 3)
                    timestamp := read32 (padded packet 4) (padded packet 5) (padded packet 6)
                      (padded packet 7)
                    ssrc := read32 (padded packet 8) (padded packet 9) (padded packet 10)
                      (padded packet 11)
                    csrc := csrc } := by
  obtain ⟨b0, b1, b2, b3, rest, rfl⟩ := @exists_four packet (by omega)
  obtain ⟨b4, b5, b6, b7, rest, rfl⟩ := @exists_four rest (by simp at hlong; omega)
  obtain ⟨b8, b9, b10, b11, rest, rfl⟩ := @exists_four rest (by simp at hlong; omega)
  rw [tinyrtcRtpParseHeader]
  simp only [versionOf, csrcCountOf, hasExtension, padded, List.getD_cons_zero]
  split
  · rfl
  · change _ = (readCsrc (b0 &&& 0x0F).toNat rest).bind _
    cases readCsrc (b0 &&& 0x0F).toNat rest with
    | none => rfl
    | some csrc =>
        dsimp only [Option.bind_some]
        cases extensionLen _ _ with
        | none => rfl
        | some extLen => rfl

theorem parseHeader_eq_none {packet : List UInt8} (hshort : packet.length < 12) :
    tinyrtcRtpParseHeader packet = none := by
  unfold tinyrtcRtpParseHeader
  split
  · simp only [List.length_cons] at hshort
    omega
  · rfl

theorem low_bits_lt : ∀ b : UInt8, (b &&& 0x0F).toNat < 16 := by
  decide +kernel

/-- No read leaves the packet. -/
theorem parseHeader?_eq (packet : List UInt8) :
    tinyrtcRtpParseHeader? packet = some (tinyrtcRtpParseHeader packet) := by
  rw [tinyrtcRtpParseHeader?]
  split
  · next hshort => rw [parseHeader_eq_none hshort]
  · next hlong =>
    have hcount : min (padded packet 0 &&& 0x0F).toNat 16 = csrcCountOf packet :=
      Nat.min_eq_left (low_bits_lt _).le
    rw [parseHeader_eq (Nat.not_lt.mp hlong)]
    simp only [readByte?, read16?, read32?, readAt?]
    rw [if_pos (by omega), if_pos (by omega), if_pos (by omega), if_pos (by omega),
      if_pos (by omega)]
    simp only [Option.bind_some, readCsrc?_eq, extensionLen?_eq, hcount]
    change (if versionOf packet ≠ 2 then _ else _) = some (if versionOf packet ≠ 2 then _ else _)
    split
    · rfl
    · cases readCsrc (csrcCountOf packet) (packet.drop 12) with
      | none => rfl
      | some csrc =>
          dsimp only [Option.bind_some]
          change Option.map _ (some (extensionLen (hasExtension packet)
            (packet.drop (12 + 4 * csrc.length)))) = _
          rw [Option.map_some]
          cases extensionLen (hasExtension packet) (packet.drop (12 + 4 * csrc.length)) with
          | none => rfl
          | some extLen => rfl

theorem getPayload?_eq (packet : List UInt8) (header : RtpHeader) :
    tinyrtcRtpGetPayload? packet header = some (tinyrtcRtpGetPayload packet header) := by
  rw [tinyrtcRtpGetPayload?, tinyrtcRtpGetPayload, extensionLen_drop]
  cases header.extension with
  | false => rfl
  | true =>
      by_cases hfits : 12 + 4 * header.csrc.length + 4 ≤ packet.length
      · rw [if_pos ⟨rfl, hfits⟩, read16?, readAt?, if_pos (by omega), if_pos rfl,
          if_neg (Nat.not_lt.mpr hfits)]
        rfl
      · rw [if_neg (fun h => hfits h.2), if_pos rfl, if_pos (Nat.not_le.mp hfits)]
        rfl

theorem readCsrc_of_le {n : Nat} {bytes : List UInt8} (h : 4 * n ≤ bytes.length) :
    ∃ csrc, readCsrc n bytes = some csrc := by
  induction n generalizing bytes with
  | zero => exact ⟨[], rfl⟩
  | succ n ih =>
      obtain ⟨a, b, c, d, rest, rfl⟩ := @exists_four bytes (by omega)
      obtain ⟨csrc, hrest⟩ := @ih rest (by simp only [List.length_cons] at h; omega)
      exact ⟨read32 a b c d :: csrc, by rw [readCsrc, hrest]; rfl⟩

/-- The extension ends where the payload begins, when it is not cut off by the end. -/
theorem extensionLen_cases (packet : List UInt8) :
    extensionLen (hasExtension packet) (packet.drop (12 + 4 * csrcCountOf packet)) = none ∧
        packet.length < payloadOffset packet ∨
      ∃ extLen, extensionLen (hasExtension packet) (packet.drop (12 + 4 * csrcCountOf packet)) =
        some extLen ∧ 12 + 4 * csrcCountOf packet + extLen = payloadOffset packet := by
  rw [extensionLen_drop, payloadOffset]
  cases hasExtension packet with
  | false => exact .inr ⟨0, rfl, rfl⟩
  | true =>
      rw [if_pos rfl, if_pos rfl]
      by_cases hshort : 12 + 4 * csrcCountOf packet + 4 > packet.length
      · rw [if_pos hshort]
        exact .inl ⟨rfl, by omega⟩
      · rw [if_neg hshort]
        exact .inr ⟨_, rfl, rfl⟩

theorem parseHeader_of_wellFormed {packet : List UInt8} (h : WellFormed packet) :
    (tinyrtcRtpParseHeader packet).isSome = true := by
  obtain ⟨hlong, hversion, hoffset⟩ := h
  have hcsrcs : 4 * csrcCountOf packet ≤ (packet.drop 12).length := by
    rw [payloadOffset] at hoffset
    rw [List.length_drop]
    omega
  obtain ⟨csrc, hcsrc⟩ := readCsrc_of_le hcsrcs
  rw [parseHeader_eq hlong, if_neg (not_not.mpr hversion), hcsrc, Option.bind_some,
    (readCsrc_eq hcsrc).1]
  rcases extensionLen_cases packet with ⟨-, hcut⟩ | ⟨extLen, hextension, hplace⟩
  · exact absurd hoffset (Nat.not_le.mpr hcut)
  · rw [hextension, Option.bind_some, hplace, if_neg (Nat.not_lt.mpr hoffset)]
    rfl

/-- What is known of a packet whose header has been read. -/
theorem wellFormed_of_parseHeader {packet : List UInt8} {header : RtpHeader}
    (h : tinyrtcRtpParseHeader packet = some header) :
    WellFormed packet ∧ header.csrc.length = csrcCountOf packet ∧
      header.extension = hasExtension packet := by
  by_cases hlong : 12 ≤ packet.length
  · rw [parseHeader_eq hlong] at h
    split at h
    · cases h
    · next hversion =>
      obtain ⟨csrc, hcsrc, h⟩ := Option.bind_eq_some_iff.mp h
      obtain ⟨hlength, -⟩ := readCsrc_eq hcsrc
      rw [hlength] at h
      obtain ⟨extLen, hextLen, h⟩ := Option.bind_eq_some_iff.mp h
      rcases extensionLen_cases packet with ⟨hnone, -⟩ | ⟨extLen', hextension, hplace⟩
      · rw [hnone] at hextLen
        cases hextLen
      · cases hextLen.symm.trans hextension
        rw [hplace] at h
        split at h
        · cases h
        · next hoffset =>
          cases h
          exact ⟨⟨hlong, not_not.mp hversion, Nat.not_lt.mp hoffset⟩, hlength, rfl⟩
  · rw [parseHeader_eq_none (Nat.not_le.mp hlong)] at h
    cases h

theorem getPayload_of_parseHeader {packet : List UInt8} {header : RtpHeader}
    (h : tinyrtcRtpParseHeader packet = some header) :
    tinyrtcRtpGetPayload packet header = some (payloadOffset packet) := by
  obtain ⟨hwell, hcsrc, hextension⟩ := wellFormed_of_parseHeader h
  rw [tinyrtcRtpGetPayload, hcsrc, hextension]
  rcases extensionLen_cases packet with ⟨-, hcut⟩ | ⟨extLen, hextLen, hplace⟩
  · exact absurd hwell.offset_le (Nat.not_le.mpr hcut)
  · rw [hextLen, Option.getD_some, hplace, if_neg (Nat.not_lt.mpr hwell.offset_le)]

/-- No read of the two functions leaves the packet, just the well-formed ones are
accepted, and their payload begins inside. -/
theorem rtpHeader_exact (packet : List UInt8) :
    tinyrtcRtpParseHeader? packet = some (tinyrtcRtpParseHeader packet) ∧
      ((tinyrtcRtpParseHeader packet).isSome = true ↔ WellFormed packet) ∧
        ∀ header ∈ tinyrtcRtpParseHeader packet,
          tinyrtcRtpGetPayload? packet header = some (some (payloadOffset packet)) ∧
            payloadOffset packet ≤ packet.length := by
  refine ⟨parseHeader?_eq packet, ⟨?_, parseHeader_of_wellFormed⟩, ?_⟩
  · intro hsome
    obtain ⟨header, hheader⟩ := Option.isSome_iff_exists.mp hsome
    exact (wellFormed_of_parseHeader hheader).1
  · intro header hheader
    rw [getPayload?_eq, getPayload_of_parseHeader hheader]
    exact ⟨rfl, (wellFormed_of_parseHeader hheader).1.offset_le⟩

theorem rtpHeader_exact_oneSource :
    tinyrtcRtpGetPayload? oneSourcePacket oneSourceHeader = some (some 16) :=
  ((rtpHeader_exact oneSourcePacket).2.2 oneSourceHeader (by decide +kernel)).1

end TinyRtc.RtpReads
