import TinyRtc.Common
import TinyRtc.Rtp

namespace TinyRtc.Jitter

open TinyRtc.Common
open TinyRtc.Rtp

/-- `tinyrtc_jitter_config_t`. -/
structure JitterConfig where
  minDelayMs : UInt32
  maxDelayMs : UInt32
  bufferSize : UInt32

def tinyrtcJitterGetDefaultConfig : JitterConfig :=
  ⟨30, 200, 64⟩

/-- The slots of the four parallel arrays at one index. -/
structure JitterEntry where
  packet : List UInt8
  sequence : UInt16
  arrivalTime : UInt64
  deriving DecidableEq

/-- `struct tinyrtc_jitter_buffer`. The slots in use fit in the arrays. -/
structure JitterBuffer where
  config : JitterConfig
  entries : List JitterEntry
  nextPlayoutTime : UInt64
  length_le : entries.length ≤ config.bufferSize.toNat

/-- `tinyrtc_jitter_buffer_create` when its allocations succeed. -/
def tinyrtcJitterBufferCreate (config : JitterConfig) : JitterBuffer :=
  ⟨config, [], 0, Nat.zero_le _⟩

/-- A full buffer loses its first packet. -/
def dropOldest (jb : JitterBuffer) : JitterBuffer :=
  if jb.entries.length ≥ jb.config.bufferSize.toNat then
    { jb with
      entries := jb.entries.drop 1
      length_le := by
        have hle := jb.length_le
        rw [List.length_drop]
        omega }
  else jb

theorem dropOldest_length_lt (jb : JitterBuffer) (h : jb.config.bufferSize ≠ 0) :
    (dropOldest jb).entries.length < (dropOldest jb).config.bufferSize.toNat := by
  have hle := jb.length_le
  have hpos : jb.config.bufferSize.toNat ≠ 0 := by
    intro hzero
    exact h (UInt32.toNat_inj.mp hzero)
  simp only [dropOldest]
  split
  · change (jb.entries.drop 1).length < jb.config.bufferSize.toNat
    rw [List.length_drop]
    omega
  · omega

/-- Where the sorting loop puts a sequence number: before the first one that is
newer in the 16-bit circle. -/
def insertPos (sequence : UInt16) (entries : List JitterEntry) : Nat :=
  entries.findIdx fun entry => decide ((sequence - entry.sequence).toInt16 < 0)

def insertEntry (entry : JitterEntry) (entries : List JitterEntry) : List JitterEntry :=
  let pos := insertPos entry.sequence entries
  entries.take pos ++ entry :: entries.drop pos

theorem insertEntry_length (entry : JitterEntry) (entries : List JitterEntry) :
    (insertEntry entry entries).length = entries.length + 1 := by
  have hpos : insertPos entry.sequence entries ≤ entries.length := List.findIdx_le_length
  simp only [insertEntry, List.length_append, List.length_take, List.length_cons, List.length_drop]
  omega

/-- `none` for a buffer without slots, from which the source takes a packet all
the same. -/
def tinyrtcJitterBufferAddPacket (mallocOk : Bool) (jb : JitterBuffer) (packet : List UInt8)
    (timestamp : UInt64) : Option (TinyrtcError × JitterBuffer) :=
  if hsize : jb.config.bufferSize = 0 then none
  else
    let dropped := dropOldest jb
    if !mallocOk then some (.memory, dropped)
    else
      match tinyrtcRtpParseHeader packet with
      | none => some (.invalidArg, dropped)
      | some header =>
          let entries := insertEntry ⟨packet, header.sequence, timestamp⟩ dropped.entries
          some (.ok,
            { config := dropped.config
              entries := entries
              nextPlayoutTime :=
                if entries.length = 1 then timestamp + dropped.config.minDelayMs.toUInt64
                else dropped.nextPlayoutTime
              length_le := by
                rw [insertEntry_length]
                exact dropOldest_length_lt jb hsize })

/-- The packet that is copied out, when the result is OK. -/
def tinyrtcJitterBufferGetPacket (jb : JitterBuffer) (maxLen : Nat) (currentTimeMs : UInt64) :
    Except TinyrtcError (List UInt8) × JitterBuffer :=
  match hentries : jb.entries with
  | [] => (.error .notFound, jb)
  | entry :: rest =>
      if currentTimeMs < jb.nextPlayoutTime then (.error .notFound, jb)
      else if entry.packet.length > maxLen then (.error .error, jb)
      else
        let next := currentTimeMs + jb.config.minDelayMs.toUInt64
        (.ok entry.packet,
          { config := jb.config
            entries := rest
            nextPlayoutTime :=
              if next - currentTimeMs > jb.config.maxDelayMs.toUInt64 then
                currentTimeMs + jb.config.maxDelayMs.toUInt64
              else next
            length_le := by
              have hle := jb.length_le
              rw [hentries, List.length_cons] at hle
              omega })

theorem dropOldest_config (jb : JitterBuffer) : (dropOldest jb).config = jb.config := by
  simp only [dropOldest]
  split <;> rfl

theorem dropOldest_nextPlayoutTime (jb : JitterBuffer) :
    (dropOldest jb).nextPlayoutTime = jb.nextPlayoutTime := by
  simp only [dropOldest]
  split <;> rfl

theorem addPacket_ok {jb : JitterBuffer} (hsize : jb.config.bufferSize ≠ 0) {packet : List UInt8}
    {header : RtpHeader} (hparse : tinyrtcRtpParseHeader packet = some header)
    (timestamp : UInt64) :
    ∃ jb', tinyrtcJitterBufferAddPacket true jb packet timestamp = some (.ok, jb') ∧
      jb'.config = jb.config := by
  rw [tinyrtcJitterBufferAddPacket, dif_neg hsize]
  simp only [hparse]
  exact ⟨_, rfl, dropOldest_config jb⟩

theorem addPacket_config {mallocOk : Bool} {jb jb' : JitterBuffer} {packet : List UInt8}
    {timestamp : UInt64} {result : TinyrtcError}
    (h : tinyrtcJitterBufferAddPacket mallocOk jb packet timestamp = some (result, jb')) :
    jb'.config = jb.config := by
  rw [tinyrtcJitterBufferAddPacket] at h
  split at h
  · cases h
  · dsimp only at h
    split at h
    · cases h
      exact dropOldest_config jb
    · split at h
      · cases h
        exact dropOldest_config jb
      · cases h
        exact dropOldest_config jb

end TinyRtc.Jitter
