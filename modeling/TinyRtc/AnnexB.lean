import TinyRtc.Chunking
import TinyRtc.Packetization

namespace TinyRtc.AnnexB

open TinyRtc.Packetization

/-- A NAL unit as an H264 encoder emits it. -/
structure NalUnit where
  header : UInt8
  data : List UInt8
  type_pos : 0 < header &&& 0x1F
  type_lt : header &&& 0x1F < 24
  no_start_code : ¬ [0x00, 0x00, 0x01] <:+: header :: data
  last_ne_zero : (header :: data).getLast (List.cons_ne_nil _ _) ≠ 0x00

def NalUnit.bytes (nal : NalUnit) : List UInt8 :=
  nal.header :: nal.data

/-- The two Annex-B start codes. -/
inductive StartCode where
  | short
  | long
  deriving DecidableEq, Repr

def StartCode.bytes : StartCode → List UInt8
  | .short => [0x00, 0x00, 0x01]
  | .long => [0x00, 0x00, 0x00, 0x01]

/-- An access unit as the application hands it over. -/
def accessUnit (units : List (StartCode × NalUnit)) : List UInt8 :=
  units.flatMap fun unit => unit.1.bytes ++ unit.2.bytes

/-- An access unit as the receiver hands it over: every start code is the long
one. -/
def annexB (nals : List NalUnit) : List UInt8 :=
  nals.flatMap fun nal => StartCode.long.bytes ++ nal.bytes

/-- Bytes in which no start code begins and after which one can follow without
running into them: the start code scanner passes over exactly these. -/
def Scannable (bytes : List UInt8) : Prop :=
  ¬ [0x00, 0x00, 0x01] <:+: bytes ∧ ∀ h : bytes ≠ [], bytes.getLast h ≠ 0x00

theorem NalUnit.scannable (nal : NalUnit) : Scannable nal.bytes :=
  ⟨nal.no_start_code, fun _ => nal.last_ne_zero⟩

theorem Scannable.tail {byte : UInt8} {rest : List UInt8} (h : Scannable (byte :: rest)) :
    Scannable rest := by
  refine ⟨fun hsub => h.1 (hsub.trans (List.suffix_cons byte rest).isInfix), ?_⟩
  intro hne
  simpa [List.getLast_cons hne] using h.2 (List.cons_ne_nil _ _)

@[simp] theorem startCodeLen_startCode (code : StartCode) (rest : List UInt8) :
    h264StartCodeLen (code.bytes ++ rest) = code.bytes.length := by
  cases code <;> simp [h264StartCodeLen, StartCode.bytes]

@[simp] theorem startCodeLen_nil : h264StartCodeLen [] = 0 := rfl

/-- No start code begins inside scannable bytes, whatever follows them: a start
code that began there would end in them, or have their last byte among its
zeros. -/
theorem startCodeLen_scannable {byte : UInt8} {rest : List UInt8}
    (h : Scannable (byte :: rest)) (following : List UInt8) :
    h264StartCodeLen (byte :: rest ++ following) = 0 := by
  have hlast := h.2 (List.cons_ne_nil _ _)
  have hprefix : ∀ tail, byte :: rest ≠ 0x00 :: 0x00 :: 0x01 :: tail :=
    fun tail heq => h.1 ⟨[], tail, by simp [heq]⟩
  have hprefix' : ∀ tail, byte :: rest ≠ 0x00 :: 0x00 :: 0x00 :: 0x01 :: tail :=
    fun tail heq => h.1 ⟨[0x00], tail, by simp [heq]⟩
  rw [h264StartCodeLen, if_neg, if_neg]
  · intro htake
    match rest with
    | [] => simp_all
    | [b] => simp_all
    | b :: c :: tail => simp_all
  · intro htake
    match rest with
    | [] => simp_all
    | [b] => simp_all
    | [b, c] => simp_all
    | b :: c :: d :: tail => simp_all

theorem findStartCode_scannable {bytes : List UInt8} (h : Scannable bytes)
    (code : StartCode) (following : List UInt8) :
    h264FindStartCode (bytes ++ (code.bytes ++ following)) = bytes.length := by
  induction bytes with
  | nil =>
      have hcode := startCodeLen_startCode code following
      cases code <;>
        simp only [StartCode.bytes, List.cons_append, List.nil_append, List.length_cons,
          List.length_nil, h264FindStartCode] at hcode ⊢ <;>
        simp [hcode]
  | cons byte rest ih =>
      simp only [List.cons_append, h264FindStartCode, List.length_cons]
      have hzero := startCodeLen_scannable h (code.bytes ++ following)
      rw [List.cons_append] at hzero
      rw [if_neg (by simp [hzero]), ih h.tail]

theorem findStartCode_scannable_end {bytes : List UInt8} (h : Scannable bytes) :
    h264FindStartCode bytes = bytes.length := by
  induction bytes with
  | nil => rfl
  | cons byte rest ih =>
      have hzero := startCodeLen_scannable h []
      rw [List.append_nil] at hzero
      rw [h264FindStartCode, if_neg (by simp [hzero]), ih h.tail, List.length_cons]

/-- The callbacks for a list of NAL units, the last of which carries the marker. -/
def naluCallbacks (maxPayload : Nat) : List NalUnit → List PacketCallback
  | [] => []
  | [nal] => (h264PacketizeNalu true nal.bytes maxPayload true).callbacks
  | nal :: next :: rest =>
      (h264PacketizeNalu true nal.bytes maxPayload false).callbacks ++
        naluCallbacks maxPayload (next :: rest)

theorem bytes_ne_nil (nal : NalUnit) : nal.bytes ≠ [] :=
  List.cons_ne_nil _ _

/-- The NAL unit loop started behind a start code sends every NAL unit of the
access unit once, with its start code stripped. -/
theorem h264Loop_accessUnit {malloc : Nat → Bool} (hmalloc : ∀ offset, malloc offset = true)
    (maxPayload : Nat) (nal : NalUnit) (units : List (StartCode × NalUnit)) {fuel : Nat}
    (offset : Nat) (hfuel : units.length < fuel) :
    (h264Loop malloc maxPayload fuel offset (nal.bytes ++ accessUnit units)).callbacks =
      naluCallbacks maxPayload (nal :: units.map Prod.snd) := by
  induction units generalizing nal fuel offset with
  | nil =>
      obtain ⟨fuel, rfl⟩ : ∃ n, fuel = n + 1 := ⟨fuel - 1, by simp at hfuel; omega⟩
      have hfind := findStartCode_scannable_end nal.scannable
      simp only [accessUnit, List.flatMap_nil, List.append_nil, h264Loop, hfind, hmalloc,
        List.take_length, List.map_nil, naluCallbacks, if_true]
      simp [bytes_ne_nil nal]
  | cons unit units ih =>
      obtain ⟨code, next⟩ := unit
      obtain ⟨fuel, rfl⟩ : ∃ n, fuel = n + 1 := ⟨fuel - 1, by simp at hfuel; omega⟩
      have hunit : accessUnit ((code, next) :: units) =
          code.bytes ++ (next.bytes ++ accessUnit units) := by
        simp [accessUnit]
      have hfind := findStartCode_scannable nal.scannable code (next.bytes ++ accessUnit units)
      have hlen : nal.bytes.length ≠ (nal.bytes ++ (code.bytes ++
          (next.bytes ++ accessUnit units))).length := by
        cases code <;> simp [StartCode.bytes]
      have hdrop : (nal.bytes ++ (code.bytes ++ (next.bytes ++ accessUnit units))).drop
          (nal.bytes.length + code.bytes.length) = next.bytes ++ accessUnit units := by
        rw [← List.append_assoc, ← List.length_append, List.drop_left]
      simp only [hunit, h264Loop, hfind, List.drop_left, startCodeLen_startCode, hdrop, hmalloc,
        List.take_left, if_neg hlen, List.map_cons, naluCallbacks]
      rw [if_neg (by simp [bytes_ne_nil nal]), if_neg (by simp [bytes_ne_nil nal]),
        Packetized.callbacks_append, ih next _ (by simp at hfuel; omega)]

theorem length_le_accessUnit (units : List (StartCode × NalUnit)) :
    units.length ≤ (accessUnit units).length := by
  induction units with
  | nil => simp
  | cons unit units ih =>
      have hnal := List.length_pos_iff.mpr (bytes_ne_nil unit.2)
      simp only [accessUnit, List.flatMap_cons, List.length_append, List.length_cons] at ih ⊢
      omega

theorem packetize_accessUnit {malloc : Nat → Bool} (hmalloc : ∀ offset, malloc offset = true)
    {mtu : UInt32} (hmtu : 20 ≤ mtu) (units : List (StartCode × NalUnit)) :
    (tinyrtcPacketizeFrame malloc .h264 mtu (accessUnit units)).callbacks =
      naluCallbacks (mtu.toNat - 12) (units.map Prod.snd) := by
  have hmtu' : ¬ mtu < 20 := by simpa using hmtu
  rw [tinyrtcPacketizeFrame, if_neg hmtu']
  cases units with
  | nil => rfl
  | cons unit units =>
      obtain ⟨code, nal⟩ := unit
      have hunit : accessUnit ((code, nal) :: units) =
          code.bytes ++ (nal.bytes ++ accessUnit units) := by
        simp [accessUnit]
      have hcode : code.bytes.length ≠ 0 := by cases code <;> simp [StartCode.bytes]
      simp only [hunit, startCodeLen_startCode, ne_eq, hcode, not_false_eq_true, if_true,
        List.drop_left, List.map_cons]
      apply h264Loop_accessUnit hmalloc
      have hunits := length_le_accessUnit units
      have hnal := List.length_pos_iff.mpr (bytes_ne_nil nal)
      simp only [List.length_append]
      omega

end TinyRtc.AnnexB
