import TinyRtc.WebSocketSegmentation

namespace TinyRtc.WebSocketFrames

open TinyRtc.BigEndian
open TinyRtc.Common
open TinyRtc.PolledStream
open TinyRtc.Signaling
open TinyRtc.WebSocket
open TinyRtc.WebSocketSegmentation

def wsHeaderLength (len : Nat) : Nat :=
  if len ≤ 125 then 6 else if len ≤ 0xFFFF then 8 else 14

theorem wsFrame_length (opcode : UInt8) (mask : Bytes 4) (data : List UInt8) :
    (wsFrame opcode mask data).length = wsHeaderLength data.length + data.length := by
  have hmasked : (wsMask mask data).length = data.length := List.length_mapIdx
  have hlength : (if data.length ≤ 125 then [data.length.toUInt8 ||| 0x80]
      else if data.length ≤ 0xFFFF then (126 ||| 0x80) :: write16 data.length.toUInt16
      else (127 ||| 0x80) :: write64 data.length.toUInt64).length + 5 =
        wsHeaderLength data.length := by
    rw [wsHeaderLength]
    split
    · rfl
    · split <;> rfl
  simp only [wsFrame, List.length_append, List.length_cons, List.length_ofFn, hmasked]
  omega

theorem length_le_of_fits {data : List UInt8}
    (hfits : wsHeaderLength data.length + data.length ≤ sigMaxSendBuf) :
    data.length + 6 ≤ sigMaxSendBuf := by
  have hheader : 6 ≤ wsHeaderLength data.length := by
    rw [wsHeaderLength]
    split
    · decide
    · split <;> decide
  omega

/-- The frame with a payload, as the receiving side describes it. -/
def sentFrame (opcode : UInt8) (hopcode : opcode < 16) (mask : Bytes 4) (data : List UInt8)
    (hfits : wsHeaderLength data.length + data.length ≤ sigMaxSendBuf) : ServerFrame where
  fin := true
  opcode := ⟨opcode.toNat, hopcode⟩
  mask := some mask
  payload := data
  payload_le := Nat.le_of_add_right_le (length_le_of_fits hfits)

section

variable {opcode : UInt8} {hopcode : opcode < 16} {mask : Bytes 4} {data : List UInt8}
  {hfits : wsHeaderLength data.length + data.length ≤ sigMaxSendBuf}

theorem sentFrame_opcodeByte :
    (sentFrame opcode hopcode mask data hfits).opcodeByte = opcode :=
  UInt8.ofNat_toNat

theorem sentFrame_encode :
    (sentFrame opcode hopcode mask data hfits).encode = wsFrame opcode mask data := by
  have hle := length_le_of_fits hfits
  have hshort : data.length ≤ 0xFFFF := by
    rw [sigMaxSendBuf] at hle
    omega
  have hopcodeByte : (sentFrame opcode hopcode mask data hfits).header =
      [0x80 ||| opcode, 0x80 ||| (sentFrame opcode hopcode mask data hfits).lengthBits] := by
    rw [ServerFrame.header, sentFrame_opcodeByte]
    rfl
  have hlength : (0x80 ||| (sentFrame opcode hopcode mask data hfits).lengthBits) ::
      (sentFrame opcode hopcode mask data hfits).extendedLength =
        if data.length ≤ 125 then [data.length.toUInt8 ||| 0x80]
        else if data.length ≤ 0xFFFF then (126 ||| 0x80) :: write16 data.length.toUInt16
        else (127 ||| 0x80) :: write64 data.length.toUInt64 := by
    rw [ServerFrame.lengthBits, ServerFrame.extendedLength, if_pos hshort]
    change (0x80 ||| if data.length ≤ 125 then data.length.toUInt8 else 126) ::
      (if data.length ≤ 125 then [] else write16 data.length.toUInt16) = _
    split
    · rw [UInt8.or_comm]
    · rfl
  rw [ServerFrame.encode, hopcodeByte, wsFrame, ← hlength]
  rfl

end

def writtenTotal : List WriteResult → Nat
  | [] => 0
  | .written n :: results => n + writtenTotal results
  | .want :: results => writtenTotal results
  | .failed :: results => writtenTotal results

/-- No byte is dropped or repeated, however the transport divides them. -/
theorem sigWriteLoop_of_total {results : List WriteResult} {remaining : List UInt8}
    (hfailed : .failed ∉ results) (htotal : remaining.length ≤ writtenTotal results) :
    sigWriteLoop results remaining = some (true, remaining) := by
  induction results generalizing remaining with
  | nil =>
      cases List.length_eq_zero_iff.mp (Nat.le_zero.mp htotal)
      rfl
  | cons result results ih =>
      have hrest : .failed ∉ results := fun hmem => hfailed (List.mem_cons_of_mem _ hmem)
      cases remaining with
      | nil => rfl
      | cons byte remaining =>
          cases result with
          | want => exact ih hrest htotal
          | failed => exact absurd List.mem_cons_self hfailed
          | written n =>
              have hleft : ((byte :: remaining).drop n).length ≤ writtenTotal results := by
                rw [writtenTotal] at htotal
                rw [List.length_drop]
                omega
              rw [sigWriteLoop, ih hrest hleft, Option.map_some]
              exact congrArg (fun sent => some (true, sent)) (List.take_append_drop n _)

/-- What fits is sent as one frame, which the receiving side reads as what it is; what
does not fit is refused. -/
theorem sigSendWsFrame_roundTrip {sig : SignalingClient} (hconnected : sig.state = .connected)
    {opcode : UInt8} (hopcode : opcode < 16) (env : FrameEnv) (data : List UInt8) :
    (wsHeaderLength data.length + data.length ≤ sigMaxSendBuf →
      .failed ∉ env.writes →
        wsHeaderLength data.length + data.length ≤ writtenTotal env.writes →
          ∃ wire, sigSendWsFrame env sig opcode data = some ⟨true, sig, wire⟩ ∧
            ∀ host rest, sigReadWsFrame host (wire.map .item ++ rest) =
              (sigHandleFrame host true opcode data).map fun frame => (frame, rest)) ∧
      (sigMaxSendBuf < wsHeaderLength data.length + data.length →
        sigSendWsFrame env sig opcode data = some ⟨false, sig, []⟩) := by
  rw [sigSendWsFrame, if_neg (not_not.mpr hconnected)]
  dsimp only
  rw [wsFrame_length]
  constructor
  · intro hfits hfailed htotal
    refine ⟨wsFrame opcode env.mask data, ?_, ?_⟩
    · rw [← wsFrame_length opcode env.mask] at htotal
      rw [if_neg (Nat.not_lt.mpr hfits), sigWriteLoop_of_total hfailed htotal]
      rfl
    · intro host rest
      have hread := sigReadWsFrame_encode host (sentFrame opcode hopcode env.mask data hfits) rest
      rw [sentFrame_encode, sentFrame_opcodeByte] at hread
      exact hread
  · intro hlong
    rw [if_pos hlong]

theorem sigSendWsFrame_roundTrip_parts :
    ∃ wire, sigSendWsFrame ⟨fun _ => 7, [.written 3, .want, .written 4]⟩ ⟨.connected, none⟩
        wsOpcodeText [0x41] = some ⟨true, ⟨.connected, none⟩, wire⟩ ∧
      sigReadWsFrame connectedHost (wire.map .item) =
        some (⟨true, [.message [0x41]], connectedHost⟩, []) := by
  obtain ⟨wire, hsent, hread⟩ := (sigSendWsFrame_roundTrip
    (rfl : (⟨.connected, none⟩ : SignalingClient).state = .connected)
    (by decide : wsOpcodeText < 16) ⟨fun _ => 7, [.written 3, .want, .written 4]⟩ [0x41]).1
    (by decide) (by decide) (by decide)
  refine ⟨wire, hsent, ?_⟩
  have hall := hread connectedHost []
  rw [List.append_nil] at hall
  rw [hall]
  rfl

end TinyRtc.WebSocketFrames
