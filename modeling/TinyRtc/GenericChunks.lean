import TinyRtc.Chunking
import TinyRtc.FueledLoops
import TinyRtc.Packetization

namespace TinyRtc.GenericChunks

open TinyRtc.Chunking
open TinyRtc.FueledLoops
open TinyRtc.MediaCodec
open TinyRtc.Packetization

/-- The callbacks for the chunks of a frame. -/
def chunkCallbacks : (chunks : List (List UInt8)) → List PacketCallback
  | [] => []
  | [last] => [⟨last, true⟩]
  | chunk :: next :: rest => ⟨chunk, false⟩ :: chunkCallbacks (next :: rest)

@[simp] theorem chunkCallbacks_payloads (chunks : List (List UInt8)) :
    (chunkCallbacks chunks).map PacketCallback.payload = chunks := by
  match chunks with
  | [] => rfl
  | [last] => rfl
  | chunk :: next :: rest =>
      rw [chunkCallbacks, List.map_cons, chunkCallbacks_payloads (next :: rest)]

theorem chunkCallbacks_markers {chunks : List (List UInt8)} (hne : chunks ≠ []) :
    (chunkCallbacks chunks).map PacketCallback.marker =
      List.replicate (chunks.length - 1) false ++ [true] := by
  match chunks with
  | [] => exact absurd rfl hne
  | [last] => rfl
  | chunk :: next :: rest =>
      rw [chunkCallbacks, List.map_cons, chunkCallbacks_markers (List.cons_ne_nil next rest)]
      rfl

theorem chunkCallbacks_concat (chunks : List (List UInt8)) (last : List UInt8) :
    chunkCallbacks (chunks ++ [last]) =
      chunks.map (fun chunk => ⟨chunk, false⟩) ++ [⟨last, true⟩] := by
  induction chunks with
  | nil => rfl
  | cons chunk chunks ih =>
      obtain ⟨next, rest, hsplit⟩ : ∃ next rest, chunks ++ [last] = next :: rest :=
        List.exists_cons_of_ne_nil (by simp)
      rw [hsplit] at ih
      rw [List.cons_append, hsplit, chunkCallbacks, ih, List.map_cons, List.cons_append]

theorem genericLoop_usesUp {maxPayload : Nat} (hmax : 0 < maxPayload) :
    UsesUp List.length (genericLoop maxPayload) where
  ended fuel rest hnil := by
    cases fuel with
    | zero => rfl
    | succ fuel => rw [genericLoop, genericLoop, if_pos hnil]
  turn fuel fuel' rest hne hagree := by
    have hchunk : 0 < if rest.length > maxPayload then maxPayload else rest.length := by
      split_ifs <;> omega
    rw [genericLoop, genericLoop]
    dsimp only
    rw [hagree _ (by rw [List.length_drop]; omega)]

/-- The loop for the codecs without a payload format of their own cuts a frame into
chunks. -/
theorem genericLoop_chunks {maxPayload : Nat} (hmax : 0 < maxPayload) {fuel : Nat}
    {rest : List UInt8} (hfuel : rest.length ≤ fuel) :
    ∃ chunks, IsChunking maxPayload chunks ∧ chunks.flatten = rest ∧
      genericLoop maxPayload fuel rest = ⟨chunkCallbacks chunks, chunks.length⟩ := by
  induction fuel generalizing rest with
  | zero =>
      have hnil : rest = [] := List.eq_nil_of_length_eq_zero (by omega)
      exact ⟨[], trivial, hnil.symm, rfl⟩
  | succ fuel ih =>
      rw [genericLoop]
      by_cases hnil : rest.length = 0
      · rw [if_pos hnil]
        exact ⟨[], trivial, (List.eq_nil_of_length_eq_zero hnil).symm, rfl⟩
      · rw [if_neg hnil]
        by_cases hlong : rest.length > maxPayload
        · simp only [if_pos hlong]
          obtain ⟨chunks, hchunks, hflatten, hloop⟩ := @ih (rest.drop maxPayload)
            (by rw [List.length_drop]; omega)
          obtain ⟨next, tail, rfl⟩ : ∃ next tail, chunks = next :: tail := by
            apply List.exists_cons_of_ne_nil
            rintro rfl
            have hlen := congrArg List.length hflatten
            rw [List.flatten_nil, List.length_nil, List.length_drop] at hlen
            omega
          refine ⟨rest.take maxPayload :: next :: tail, ⟨?_, hchunks⟩, ?_, ?_⟩
          · rw [List.length_take]
            omega
          · rw [List.flatten_cons, hflatten, List.take_append_drop]
          · have hmarker : decide (maxPayload = rest.length) = false :=
              decide_eq_false (Nat.ne_of_lt hlong)
            rw [hloop, hmarker, chunkCallbacks, Packetized.append, List.length_cons,
              List.length_cons, Nat.add_comm 1]
            rfl
        · simp only [if_neg hlong]
          refine ⟨[rest], ⟨by omega, by omega⟩, by simp, ?_⟩
          rw [List.take_length, List.drop_length, decide_true]
          cases fuel <;> rfl

theorem packetize_generic (malloc : Nat → Bool) {codecId : CodecId} (hcodec : codecId ≠ .h264)
    {mtu : UInt32} (hmtu : 20 ≤ mtu) (frame : List UInt8) :
    ∃ chunks, IsChunking (mtu.toNat - 12) chunks ∧ chunks.flatten = frame ∧
      tinyrtcPacketizeFrame malloc codecId mtu frame = ⟨chunkCallbacks chunks, chunks.length⟩ := by
  have hmtu' : 20 ≤ mtu.toNat := UInt32.le_iff_toNat_le.mp hmtu
  obtain ⟨chunks, hchunks, hflatten, hloop⟩ := @genericLoop_chunks (mtu.toNat - 12)
    (by omega) _ _ (Nat.le_refl frame.length)
  refine ⟨chunks, hchunks, hflatten, ?_⟩
  rw [tinyrtcPacketizeFrame, if_neg (UInt32.not_lt.mpr hmtu), ← hloop]
  cases codecId with
  | h264 => exact absurd rfl hcodec
  | _ => rfl

end TinyRtc.GenericChunks
