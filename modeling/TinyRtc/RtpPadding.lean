import TinyRtc.Packetization
import TinyRtc.RtpReads

namespace TinyRtc.RtpPadding

open TinyRtc.BoundedReads
open TinyRtc.MediaCodec
open TinyRtc.Packetization
open TinyRtc.Rtp
open TinyRtc.RtpReads

/-- The packet with the padding bit cleared and the last `n` bytes removed. -/
def withoutPadding (packet : List UInt8) (n : Nat) : List UInt8 :=
  (packet.take (packet.length - n)).modifyHead (· &&& 0xDF)

/-- What a payload brings to a frame: the bytes that are put in front of it, those that are
copied out of it, and whether the frame is complete then. -/
structure Carried where
  complete : Bool
  front : List UInt8
  body : List UInt8

/-- The branches of `tinyrtc_depacketize_frame`; `none` where it gives up whatever the size
of the frame buffer is. -/
def carriedBy (codecId : CodecId) (marker : Bool) (payload : List UInt8) : Option Carried :=
  if codecId = .h264 then
    match payload with
    | [] => none
    | indicator :: afterIndicator =>
        let naluType := indicator &&& 0x1F
        if naluType > 0 ∧ naluType < 24 then some ⟨marker, [0x00, 0x00, 0x00, 0x01], payload⟩
        else if naluType = 28 then
          match afterIndicator with
          | [] => none
          | header :: fragment =>
              let isEnd := (header &&& 0x40) != 0
              some ⟨marker || isEnd,
                if (header &&& 0x80) != 0 then
                  [0x00, 0x00, 0x00, 0x01, (indicator &&& 0xE0) ||| (header &&& 0x1F)]
                else [],
                fragment⟩
        else none
  else some ⟨marker, [], payload⟩

/-- The check of the frame buffer and the copy. -/
def copyOut (maxLen : Nat) : Option Carried → Bool × List UInt8
  | none => (false, [])
  | some carried =>
      if carried.body.length + carried.front.length > maxLen then (false, [])
      else (carried.complete, carried.front ++ carried.body)

def payloadOf (packet : List UInt8) : List UInt8 :=
  packet.drop (payloadOffset packet)

/-- The marker bit of a packet. -/
def markerOf (packet : List UInt8) : Bool :=
  ((padded packet 1 >>> 7) &&& 0x01) != 0

theorem h264Depacketize_eq (marker : Bool) (payload : List UInt8) (maxLen : Nat) :
    h264Depacketize marker payload maxLen = copyOut maxLen (carriedBy .h264 marker payload) := by
  rw [h264Depacketize.eq_def, carriedBy.eq_def, if_pos rfl]
  cases payload with
  | nil => rfl
  | cons indicator afterIndicator =>
      dsimp only
      split
      · rfl
      · split
        · cases afterIndicator with
          | nil => rfl
          | cons header fragment =>
              dsimp only
              split
              · rfl
              · rfl
        · rfl

theorem depacketizeFrame_eq {packet : List UInt8} (h : WellFormed packet) (codecId : CodecId)
    (maxLen : Nat) :
    tinyrtcDepacketizeFrame codecId packet maxLen =
      copyOut maxLen (carriedBy codecId (markerOf packet) (payloadOf packet)) := by
  obtain ⟨header, hparse⟩ := Option.isSome_iff_exists.mp (parseHeader_of_wellFormed h)
  have hmarker : header.marker = markerOf packet := by
    rw [parseHeader_eq h.length_ge] at hparse
    split at hparse
    · cases hparse
    · obtain ⟨csrc, -, hparse⟩ := Option.bind_eq_some_iff.mp hparse
      obtain ⟨extLen, -, hparse⟩ := Option.bind_eq_some_iff.mp hparse
      split at hparse
      · cases hparse
      · cases hparse
        rfl
  rw [tinyrtcDepacketizeFrame, hparse]
  dsimp only
  rw [getPayload_of_parseHeader hparse, ← hmarker]
  cases codecId with
  | h264 => exact h264Depacketize_eq ..
  | _ => rfl

theorem cleared_bit : ∀ b : UInt8, let cleared : UInt8 := b &&& 0xDF
    ((cleared >>> 6) &&& (0x03 : UInt8)) = ((b >>> 6) &&& 0x03) ∧
      ((cleared >>> 4) &&& (0x01 : UInt8)) = ((b >>> 4) &&& 0x01) ∧
      (cleared &&& 0x0F) = (b &&& 0x0F) := by
  decide +kernel

section

variable {packet : List UInt8} {n : Nat}

@[simp] theorem withoutPadding_length : (withoutPadding packet n).length = packet.length - n := by
  rw [withoutPadding, List.length_modifyHead, List.length_take]
  exact Nat.min_eq_left (Nat.sub_le _ _)

theorem withoutPadding_zero (h : n < packet.length) :
    padded (withoutPadding packet n) 0 = padded packet 0 &&& 0xDF := by
  rw [withoutPadding, padded, padded, List.getD_eq_getElem?_getD, List.getD_eq_getElem?_getD]
  cases packet with
  | nil => exact absurd h (Nat.not_lt_zero n)
  | cons byte rest =>
      obtain ⟨m, hm⟩ := Nat.exists_eq_succ_of_ne_zero (Nat.sub_ne_zero_of_lt h)
      rw [hm]
      rfl

theorem withoutPadding_succ {i : Nat} (h : i + 1 < packet.length - n) :
    padded (withoutPadding packet n) (i + 1) = padded packet (i + 1) := by
  rw [withoutPadding, padded, padded, List.getD_eq_getElem?_getD, List.getD_eq_getElem?_getD,
    List.getElem?_modifyHead, List.getElem?_take_of_lt h]
  cases packet[i + 1]? <;> rfl

/-- The padding bit is no part of what the length of the header depends on. -/
theorem withoutPadding_fields (h : n < packet.length) :
    versionOf (withoutPadding packet n) = versionOf packet ∧
      hasExtension (withoutPadding packet n) = hasExtension packet ∧
      csrcCountOf (withoutPadding packet n) = csrcCountOf packet := by
  obtain ⟨hversion, hextension, hcount⟩ := cleared_bit (padded packet 0)
  rw [versionOf, hasExtension, csrcCountOf, withoutPadding_zero h, hversion, hextension, hcount]
  exact ⟨rfl, rfl, rfl⟩

theorem payloadOffset_withoutPadding (hwell : WellFormed packet)
    (hn : n ≤ packet.length - payloadOffset packet) :
    payloadOffset (withoutPadding packet n) = payloadOffset packet := by
  have hplace : 12 ≤ payloadOffset packet := by
    rw [payloadOffset]
    omega
  have hoffset := hwell.offset_le
  obtain ⟨-, hextension, hcount⟩ := @withoutPadding_fields packet n (by omega)
  rw [payloadOffset, payloadOffset, hextension, hcount]
  split
  · next hext =>
    -- the length of the extension stands in front of the payload
    have hlong : 12 + 4 * csrcCountOf packet + 4 ≤ packet.length - n := by
      rw [payloadOffset, if_pos hext] at hn hoffset
      omega
    rw [extensionWords, extensionWords, hcount, withoutPadding_succ (by omega),
      withoutPadding_succ (by omega)]
  · rfl

theorem wellFormed_withoutPadding (hwell : WellFormed packet)
    (hn : n ≤ packet.length - payloadOffset packet) : WellFormed (withoutPadding packet n) := by
  have hplace : 12 ≤ payloadOffset packet := by
    rw [payloadOffset]
    omega
  have hoffset := hwell.offset_le
  refine ⟨by rw [withoutPadding_length]; omega, ?_, ?_⟩
  · rw [(withoutPadding_fields (by omega)).1]
    exact hwell.version_eq
  · rw [payloadOffset_withoutPadding hwell hn, withoutPadding_length]
    omega

theorem payloadOf_withoutPadding (hwell : WellFormed packet)
    (hn : n ≤ packet.length - payloadOffset packet) :
    payloadOf (withoutPadding packet n) =
      (payloadOf packet).take ((payloadOf packet).length - n) := by
  have hplace : 0 < payloadOffset packet := by
    rw [payloadOffset]
    omega
  rw [payloadOf, payloadOffset_withoutPadding hwell hn, withoutPadding,
    List.drop_modifyHead_of_pos hplace, List.drop_take, payloadOf, List.length_drop,
    Nat.sub_right_comm]

theorem markerOf_withoutPadding (hwell : WellFormed packet)
    (hn : n ≤ packet.length - payloadOffset packet) :
    markerOf (withoutPadding packet n) = markerOf packet := by
  have hplace : 12 ≤ payloadOffset packet := by
    rw [payloadOffset]
    omega
  have hoffset := hwell.offset_le
  rw [markerOf, markerOf, withoutPadding_succ (by omega)]

end

/-- Nothing gets into the frame buffer, and no frame is complete: there is nothing, it does
not fit, or it is empty. -/
def GivesNothing (maxLen : Nat) (carried? : Option Carried) : Prop :=
  ∀ carried ∈ carried?, maxLen < carried.body.length + carried.front.length ∨
    (carried.complete = false ∧ carried.front = [] ∧ carried.body = [])

theorem copyOut_eq_nothing_iff {maxLen : Nat} {carried? : Option Carried} :
    copyOut maxLen carried? = (false, []) ↔ GivesNothing maxLen carried? := by
  cases carried? with
  | none => exact iff_of_true rfl fun _ hnone => by cases hnone
  | some carried =>
      simp only [copyOut, GivesNothing, Option.mem_def, Option.some.injEq, forall_eq']
      split
      · next hlarge => exact iff_of_true rfl (.inl hlarge)
      · next hfits => rw [or_iff_right hfits, Prod.mk.injEq, List.append_eq_nil_iff]

/-- The shorter payload brings less of the same, or nothing. -/
theorem carriedBy_take {codecId : CodecId} {marker : Bool} {payload : List UInt8} {n : Nat}
    (hpos : 0 < n) (hle : n ≤ payload.length) {carried : Carried}
    (h : carriedBy codecId marker (payload.take (payload.length - n)) = some carried) :
    ∃ body, carriedBy codecId marker payload = some { carried with body := body } ∧
      carried.body.length < body.length := by
  have hshorter : (payload.take (payload.length - n)).length < payload.length := by
    rw [List.length_take]
    omega
  have hbegins : payload.take (payload.length - n) <+: payload := List.take_prefix _ _
  generalize payload.take (payload.length - n) = short at h hshorter hbegins
  obtain ⟨back, rfl⟩ := hbegins
  by_cases hcodec : codecId = .h264
  · rw [carriedBy.eq_def, if_pos hcodec] at h ⊢
    match short with
    | [] => cases h
    | indicator :: afterIndicator =>
        dsimp only [List.cons_append] at h ⊢
        split at h
        · next hsingle =>
          cases h
          rw [if_pos hsingle]
          exact ⟨_, rfl, hshorter⟩
        · next hsingle =>
          rw [if_neg hsingle]
          split at h
          · next hfua =>
            rw [if_pos hfua]
            match afterIndicator with
            | [] => cases h
            | header :: fragment =>
                cases h
                refine ⟨_, rfl, ?_⟩
                change fragment.length < (fragment ++ back).length
                simp only [List.length_append, List.length_cons] at hshorter ⊢
                omega
          · cases h
  · rw [carriedBy.eq_def, if_neg hcodec] at h ⊢
    cases h
    exact ⟨_, rfl, hshorter⟩

theorem copyOut_shorter_iff {maxLen : Nat} {codecId : CodecId} {marker : Bool}
    {payload : List UInt8} {n : Nat} (hpos : 0 < n) (hle : n ≤ payload.length) :
    copyOut maxLen (carriedBy codecId marker payload) =
        copyOut maxLen (carriedBy codecId marker (payload.take (payload.length - n))) ↔
      GivesNothing maxLen (carriedBy codecId marker payload) ∧
        GivesNothing maxLen (carriedBy codecId marker (payload.take (payload.length - n))) := by
  rw [← copyOut_eq_nothing_iff, ← copyOut_eq_nothing_iff]
  constructor
  · intro hsame
    suffices hnothing :
        copyOut maxLen (carriedBy codecId marker (payload.take (payload.length - n))) =
          (false, []) from ⟨hsame.trans hnothing, hnothing⟩
    cases hshort : carriedBy codecId marker (payload.take (payload.length - n)) with
    | none => rfl
    | some carried =>
        obtain ⟨body, hwhole, hlength⟩ := carriedBy_take hpos hle hshort
        rw [hshort, hwhole, copyOut, copyOut] at hsame
        rw [copyOut]
        dsimp only at hsame
        split
        · rfl
        · next hfits =>
          rw [if_neg hfits] at hsame
          split at hsame
          · exact hsame.symm
          · have hbody := List.append_cancel_left (Prod.mk.inj hsame).2
            rw [hbody] at hlength
            exact absurd hlength (lt_irrefl _)
  · rintro ⟨hwhole, hshort⟩
    rw [hwhole, hshort]

/-- A packet with the padding bit and padding that fits into the payload: the last byte is
the number of bytes of padding. -/
structure Padded (packet : List UInt8) (n : UInt8) : Prop where
  accepted : ∃ header, tinyrtcRtpParseHeader packet = some header ∧ header.padding = true
  last : packet.getLast? = some n
  pos : 1 ≤ n.toNat
  le : n.toNat ≤ packet.length - payloadOffset packet

/-- The padding counts as payload, so the results agree only where both are nothing. -/
theorem depacketize_padded_iff {packet : List UInt8} {n : UInt8} (h : Padded packet n)
    (codecId : CodecId) (maxLen : Nat) :
    tinyrtcDepacketizeFrame codecId packet maxLen =
        tinyrtcDepacketizeFrame codecId (withoutPadding packet n.toNat) maxLen ↔
      GivesNothing maxLen (carriedBy codecId (markerOf packet) (payloadOf packet)) ∧
        GivesNothing maxLen (carriedBy codecId (markerOf packet)
          ((payloadOf packet).take ((payloadOf packet).length - n.toNat))) := by
  obtain ⟨header, hparse, -⟩ := h.accepted
  have hwell := (wellFormed_of_parseHeader hparse).1
  have hle : n.toNat ≤ (payloadOf packet).length := by
    rw [payloadOf, List.length_drop]
    exact h.le
  rw [depacketizeFrame_eq hwell, depacketizeFrame_eq (wellFormed_withoutPadding hwell h.le),
    markerOf_withoutPadding hwell h.le, payloadOf_withoutPadding hwell h.le]
  exact copyOut_shorter_iff h.pos hle

/-- An Opus packet with one byte of payload and two of padding. -/
def paddedPacket : List UInt8 :=
  [0xA0, 0xE0, 0, 7, 0, 0, 0, 1, 0, 0, 0, 1, 0xAA, 0x00, 0x02]

theorem paddedPacket_padded : Padded paddedPacket 2 :=
  ⟨⟨⟨2, true, false, 0, true, 0x60, 7, 1, 1, []⟩, by decide⟩, by decide, by decide, by decide⟩

/-- An aggregation packet with two bytes of padding: a NAL unit type that is not supported. -/
def paddedAggregation : List UInt8 :=
  [0xA0, 0xE0, 0, 7, 0, 0, 0, 1, 0, 0, 0, 1, 0x78, 0x00, 0x02, 0x67, 0x42, 0x00, 0x02]

theorem depacketize_padded_aggregation :
    tinyrtcDepacketizeFrame .h264 paddedAggregation 4096 =
      tinyrtcDepacketizeFrame .h264 (withoutPadding paddedAggregation 2) 4096 := by
  have hpadded : Padded paddedAggregation 2 :=
    ⟨⟨⟨2, true, false, 0, true, 0x60, 7, 1, 1, []⟩, by decide⟩, by decide, by decide, by decide⟩
  exact (depacketize_padded_iff hpadded .h264 4096).mpr
    ⟨copyOut_eq_nothing_iff.mp (by decide), copyOut_eq_nothing_iff.mp (by decide)⟩

/-- The frame has three bytes instead of one. -/
theorem depacketize_padded_fails :
    Padded paddedPacket 2 ∧
      tinyrtcDepacketizeFrame .opus paddedPacket 4096 = (true, [0xAA, 0x00, 0x02]) ∧
      tinyrtcDepacketizeFrame .opus (withoutPadding paddedPacket 2) 4096 = (true, [0xAA]) :=
  ⟨paddedPacket_padded, by decide, by decide⟩

end TinyRtc.RtpPadding
