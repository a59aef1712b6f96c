import TinyRtc.AnnexB

namespace TinyRtc.FuaFragments

open TinyRtc.Rtp
open TinyRtc.Chunking
open TinyRtc.Packetization
open TinyRtc.AnnexB

theorem fuIndicator_type : ∀ naluHeader : UInt8, fuIndicator naluHeader &&& 0x1F = 28 := by
  decide +kernel

theorem fuHeader_fields : ∀ (naluHeader : UInt8) (isStart isEnd : Bool),
    ((fuHeader naluHeader isStart isEnd &&& 0x80) != 0) = isStart ∧
      ((fuHeader naluHeader isStart isEnd &&& 0x40) != 0) = isEnd ∧
      (fuIndicator naluHeader &&& 0xE0) ||| (fuHeader naluHeader isStart isEnd &&& 0x1F) =
        naluHeader := by
  decide +kernel

def fuaCallback (naluHeader : UInt8) (isLastNalu isStart isEnd : Bool)
    (chunk : List UInt8) : PacketCallback :=
  { payload := fuIndicator naluHeader :: fuHeader naluHeader isStart isEnd :: chunk
    marker := isLastNalu && isEnd }

/-- The callbacks for the fragments of a NAL unit, the last of which carries the
end bit. -/
def fuaCallbacks (naluHeader : UInt8) (isLastNalu : Bool) :
    (isStart : Bool) → (chunks : List (List UInt8)) → List PacketCallback
  | _, [] => []
  | isStart, [last] => [fuaCallback naluHeader isLastNalu isStart true last]
  | isStart, chunk :: next :: rest =>
      fuaCallback naluHeader isLastNalu isStart false chunk ::
        fuaCallbacks naluHeader isLastNalu false (next :: rest)

theorem fuaCallbacks_append_singleton (naluHeader : UInt8) (isLastNalu : Bool)
    (middle : List (List UInt8)) (last : List UInt8) :
    fuaCallbacks naluHeader isLastNalu false (middle ++ [last]) =
      middle.map (fuaCallback naluHeader isLastNalu false false) ++
        [fuaCallback naluHeader isLastNalu false true last] := by
  induction middle with
  | nil => rfl
  | cons chunk middle ih =>
      obtain ⟨next, rest, hsplit⟩ : ∃ next rest, middle ++ [last] = next :: rest :=
      List.exists_cons_of_ne_nil (by simp)
      rw [hsplit] at ih
      rw [List.cons_append, hsplit, fuaCallbacks, ih, List.map_cons, List.cons_append]

theorem fuaCallbacks_fragmented (naluHeader : UInt8) (isLastNalu : Bool) (chunk : List UInt8)
    (middle : List (List UInt8)) (last : List UInt8) :
    fuaCallbacks naluHeader isLastNalu true (chunk :: (middle ++ [last])) =
      fuaCallback naluHeader isLastNalu true false chunk ::
        (middle.map (fuaCallback naluHeader isLastNalu false false) ++
          [fuaCallback naluHeader isLastNalu false true last]) := by
  obtain ⟨next, rest, hsplit⟩ : ∃ next rest, middle ++ [last] = next :: rest :=
      List.exists_cons_of_ne_nil (by simp)
  have hrest := fuaCallbacks_append_singleton naluHeader isLastNalu middle last
  rw [hsplit] at hrest ⊢
  rw [fuaCallbacks, hrest]

/-- The FU-A loop cuts what remains into chunks of the fragment payload size. -/
theorem fuaLoop_callbacks (fragmentPayload : Nat) (hpos : 0 < fragmentPayload)
    (naluHeader : UInt8) (isLastNalu : Bool) {fuel : Nat} (isStart : Bool)
    (remaining : List UInt8) (hfuel : remaining.length ≤ fuel) :
    ∃ chunks, IsChunking fragmentPayload chunks ∧ chunks.flatten = remaining ∧
      (fuaLoop fragmentPayload naluHeader isLastNalu fuel isStart remaining).callbacks =
        fuaCallbacks naluHeader isLastNalu isStart chunks := by
  induction fuel generalizing isStart remaining with
  | zero =>
      have hnil : remaining = [] := List.eq_nil_of_length_eq_zero (by omega)
      exact ⟨[], trivial, by simp [hnil], rfl⟩
  | succ fuel ih =>
      by_cases hnil : remaining.length = 0
      · refine ⟨[], trivial, by simp [List.eq_nil_of_length_eq_zero hnil], ?_⟩
        simp [fuaLoop, hnil, fuaCallbacks]
      · by_cases hlast : remaining.length ≤ fragmentPayload
        · refine ⟨[remaining], ⟨by omega, hlast⟩, by simp, ?_⟩
          obtain ⟨_, hchunks, hflatten, hrest⟩ :=
            ih false (remaining.drop remaining.length) (by simp)
          simp [fuaLoop, hnil, hlast, fuaCallbacks, fuaCallback]
          cases fuel <;> simp [fuaLoop]
        · have hmin : min remaining.length fragmentPayload = fragmentPayload := by omega
          obtain ⟨chunks, hchunks, hflatten, hrest⟩ :=
            ih false (remaining.drop fragmentPayload)
              (by rw [List.length_drop]; omega)
          obtain ⟨next, rest, rfl⟩ : ∃ next rest, chunks = next :: rest := by
            cases chunks with
            | nil =>
                have := congrArg List.length hflatten
                simp only [List.flatten_nil, List.length_nil, List.length_drop] at this
                omega
            | cons next rest => exact ⟨next, rest, rfl⟩
          refine ⟨remaining.take fragmentPayload :: next :: rest, ⟨?_, hchunks⟩, ?_, ?_⟩
          · rw [List.length_take]
            omega
          · rw [List.flatten_cons, hflatten, List.take_append_drop]
          · have hend : decide (fragmentPayload = remaining.length) = false := by
              simp
              omega
            simp [fuaLoop, hnil, hmin, hend, hrest, fuaCallbacks, fuaCallback]

theorem packetizeNalu_single (nal : NalUnit) {maxPayload : Nat}
    (hfits : nal.bytes.length ≤ maxPayload) (isLastNalu : Bool) :
    (h264PacketizeNalu true nal.bytes maxPayload isLastNalu).callbacks =
      [⟨nal.bytes, isLastNalu⟩] := by
  rw [NalUnit.bytes] at hfits ⊢
  rw [h264PacketizeNalu, if_pos hfits]

/-- A NAL unit that does not fit, in whatever bytes it holds. -/
theorem h264PacketizeNalu_fragmented (naluHeader : UInt8) (naluData : List UInt8)
    {maxPayload : Nat} (hmax : 2 < maxPayload)
    (hlong : maxPayload < (naluHeader :: naluData).length) (isLastNalu : Bool) :
    ∃ chunk next rest, IsChunking (maxPayload - 2) (chunk :: next :: rest) ∧
      (chunk :: next :: rest).flatten = naluData ∧
      (h264PacketizeNalu true (naluHeader :: naluData) maxPayload isLastNalu).callbacks =
        fuaCallbacks naluHeader isLastNalu true (chunk :: next :: rest) := by
  rw [List.length_cons] at hlong
  obtain ⟨chunks, hchunks, hflatten, hcallbacks⟩ :=
    fuaLoop_callbacks (maxPayload - 2) (by omega) naluHeader isLastNalu true naluData
      (Nat.le_refl naluData.length)
  obtain ⟨chunk, next, rest, rfl⟩ := hchunks.exists_cons_cons (by rw [hflatten]; omega)
  refine ⟨chunk, next, rest, hchunks, hflatten, ?_⟩
  rw [← hcallbacks, h264PacketizeNalu, if_neg (by simp only [List.length_cons]; omega),
    if_neg (by simp only [List.length_cons]; omega)]
  rfl

theorem packetizeNalu_fragmented (nal : NalUnit) {maxPayload : Nat} (hmax : 2 < maxPayload)
    (hlong : maxPayload < nal.bytes.length) (isLastNalu : Bool) :
    ∃ chunk next rest, IsChunking (maxPayload - 2) (chunk :: next :: rest) ∧
      (chunk :: next :: rest).flatten = nal.data ∧
      (h264PacketizeNalu true nal.bytes maxPayload isLastNalu).callbacks =
        fuaCallbacks nal.header isLastNalu true (chunk :: next :: rest) :=
  h264PacketizeNalu_fragmented nal.header nal.data hmax hlong isLastNalu

/-- What the depacketizer reports for a callback, once its payload is behind an
RTP header with the callback's marker. -/
def depacketized (maxLen : Nat) (callback : PacketCallback) : Bool × List UInt8 :=
  h264Depacketize callback.marker callback.payload maxLen

/-- The start code and the NAL header that the depacketizer puts before the first
fragment. -/
def fragmentPrefix (naluHeader : UInt8) (isStart : Bool) : List UInt8 :=
  if isStart then StartCode.long.bytes ++ [naluHeader] else []

theorem depacketized_single (nal : NalUnit) (marker : Bool) {maxLen : Nat}
    (hmax : nal.bytes.length + 4 ≤ maxLen) :
    depacketized maxLen ⟨nal.bytes, marker⟩ = (marker, StartCode.long.bytes ++ nal.bytes) := by
  have htype : nal.header &&& 0x1F > 0 ∧ nal.header &&& 0x1F < 24 := ⟨nal.type_pos, nal.type_lt⟩
  have hfits : ¬ (nal.header :: nal.data).length + 4 > maxLen := Nat.not_lt.mpr hmax
  rw [depacketized, NalUnit.bytes]
  simp only [h264Depacketize, if_pos htype, if_neg hfits]
  rfl

theorem depacketized_fua (naluHeader : UInt8) (isLastNalu isStart isEnd : Bool)
    {chunk : List UInt8} {maxLen : Nat} (hmax : chunk.length + 5 ≤ maxLen) :
    depacketized maxLen (fuaCallback naluHeader isLastNalu isStart isEnd chunk) =
      (isEnd, fragmentPrefix naluHeader isStart ++ chunk) := by
  obtain ⟨hstart, hend, hheader⟩ := fuHeader_fields naluHeader isStart isEnd
  simp only [depacketized, fuaCallback, h264Depacketize, fuIndicator_type, hstart, hend, hheader]
  have hfits : ¬ chunk.length + 5 > maxLen := by omega
  have hfits' : ¬ chunk.length > maxLen := by omega
  rw [if_neg (by decide)]
  simp only [if_true, if_neg hfits, if_neg hfits']
  cases isStart <;> cases isEnd <;> cases isLastNalu <;> rfl

/-- The depacketizer's results for the fragments of one NAL unit. -/
def fuaItems (naluHeader : UInt8) :
    (isStart : Bool) → (chunks : List (List UInt8)) → List (Bool × List UInt8)
  | _, [] => []
  | isStart, [last] => [(true, fragmentPrefix naluHeader isStart ++ last)]
  | isStart, chunk :: next :: rest =>
      (false, fragmentPrefix naluHeader isStart ++ chunk) ::
        fuaItems naluHeader false (next :: rest)

theorem depacketized_fuaCallbacks {k : Nat} (naluHeader : UInt8) (isLastNalu isStart : Bool)
    {chunks : List (List UInt8)} (hchunks : IsChunking k chunks) {maxLen : Nat}
    (hmax : k + 5 ≤ maxLen) :
    (fuaCallbacks naluHeader isLastNalu isStart chunks).map (depacketized maxLen) =
      fuaItems naluHeader isStart chunks := by
  match chunks, hchunks with
  | [], _ => rfl
  | [last], hchunks =>
      have hlast := hchunks.2
      simp only [fuaCallbacks, fuaItems, List.map_cons, List.map_nil]
      rw [depacketized_fua _ _ _ _ (by omega)]
  | chunk :: next :: rest, hchunks =>
      have hchunk := hchunks.1
      simp only [fuaCallbacks, fuaItems, List.map_cons]
      rw [depacketized_fua _ _ _ _ (by omega)]
      exact congrArg _ (depacketized_fuaCallbacks naluHeader isLastNalu false hchunks.2 hmax)

theorem fuaItems_bytes (naluHeader : UInt8) (isStart : Bool) {chunks : List (List UInt8)}
    (hne : chunks ≠ []) :
    (fuaItems naluHeader isStart chunks).flatMap Prod.snd =
      fragmentPrefix naluHeader isStart ++ chunks.flatten := by
  match chunks with
  | [] => exact absurd rfl hne
  | [last] => simp [fuaItems]
  | chunk :: next :: rest =>
      rw [fuaItems, List.flatMap_cons, fuaItems_bytes naluHeader false (List.cons_ne_nil _ _)]
      simp [fragmentPrefix]

theorem fuaItems_flags (naluHeader : UInt8) (isStart : Bool) {chunks : List (List UInt8)}
    (hne : chunks ≠ []) :
    (fuaItems naluHeader isStart chunks).map Prod.fst =
      List.replicate (chunks.length - 1) false ++ [true] := by
  match chunks with
  | [] => exact absurd rfl hne
  | [last] => rfl
  | chunk :: next :: rest =>
      rw [fuaItems, List.map_cons, fuaItems_flags naluHeader false (List.cons_ne_nil _ _)]
      rfl

theorem fuaItems_ne_nil {k : Nat} (hk : 0 < k) (naluHeader : UInt8) (isStart : Bool)
    {chunks : List (List UInt8)} (hchunks : IsChunking k chunks) :
    ∀ item ∈ fuaItems naluHeader isStart chunks, item.2 ≠ [] := by
  match chunks, hchunks with
  | [], _ => simp [fuaItems]
  | [last], hchunks =>
      have hlast := hchunks.ne_nil_of_mem hk (List.mem_singleton_self last)
      simp [fuaItems, hlast]
  | chunk :: next :: rest, hchunks =>
      have hchunk := hchunks.ne_nil_of_mem hk List.mem_cons_self
      have hrest := fuaItems_ne_nil hk naluHeader false hchunks.tail
      intro item hitem
      rw [fuaItems] at hitem
      rcases List.mem_cons.mp hitem with rfl | hitem
      · simp [hchunk]
      · exact hrest item hitem

theorem depacketized_nalu_cases (nal : NalUnit) {maxPayload : Nat} (hmax : 2 < maxPayload)
    (isLastNalu : Bool) {maxLen : Nat} (hmaxLen : maxPayload + 4 ≤ maxLen) :
    (nal.bytes.length ≤ maxPayload ∧
        (h264PacketizeNalu true nal.bytes maxPayload isLastNalu).callbacks.map
          (depacketized maxLen) = [(isLastNalu, StartCode.long.bytes ++ nal.bytes)]) ∨
      (maxPayload < nal.bytes.length ∧ ∃ chunk next rest,
        IsChunking (maxPayload - 2) (chunk :: next :: rest) ∧
        (chunk :: next :: rest).flatten = nal.data ∧
        (h264PacketizeNalu true nal.bytes maxPayload isLastNalu).callbacks.map
          (depacketized maxLen) = fuaItems nal.header true (chunk :: next :: rest)) := by
  by_cases hfits : nal.bytes.length ≤ maxPayload
  · refine .inl ⟨hfits, ?_⟩
    rw [packetizeNalu_single nal hfits, List.map_singleton,
      depacketized_single nal isLastNalu (by omega)]
  · obtain ⟨chunk, next, rest, hchunks, hflatten, hcallbacks⟩ :=
      packetizeNalu_fragmented nal hmax (by omega) isLastNalu
    refine .inr ⟨by omega, chunk, next, rest, hchunks, hflatten, ?_⟩
    rw [hcallbacks, depacketized_fuaCallbacks _ _ _ hchunks (by omega)]

/-- The depacketizer gives back every NAL unit behind a long start code, whether
it was fragmented or not. -/
theorem depacketized_nalu (nal : NalUnit) {maxPayload : Nat} (hmax : 2 < maxPayload)
    (isLastNalu : Bool) {maxLen : Nat} (hmaxLen : maxPayload + 4 ≤ maxLen) :
    ((h264PacketizeNalu true nal.bytes maxPayload isLastNalu).callbacks.map
      (depacketized maxLen)).flatMap Prod.snd = StartCode.long.bytes ++ nal.bytes := by
  rcases depacketized_nalu_cases nal hmax isLastNalu hmaxLen with
    ⟨-, hitems⟩ | ⟨-, chunk, next, rest, -, hflatten, hitems⟩
  · rw [hitems]
    simp
  · rw [hitems, fuaItems_bytes _ _ (List.cons_ne_nil _ _), hflatten]
    simp [fragmentPrefix, NalUnit.bytes]

/-- The depacketizer sees the end of a frame behind the last fragment of a NAL unit,
and behind a whole one if it carries the marker. -/
theorem depacketized_nalu_flags (nal : NalUnit) {maxPayload : Nat} (hmax : 2 < maxPayload)
    (isLastNalu : Bool) {maxLen : Nat} (hmaxLen : maxPayload + 4 ≤ maxLen) :
    ∃ n, ((h264PacketizeNalu true nal.bytes maxPayload isLastNalu).callbacks.map
        (depacketized maxLen)).map Prod.fst =
      List.replicate n false ++ [isLastNalu || decide (maxPayload < nal.bytes.length)] := by
  rcases depacketized_nalu_cases nal hmax isLastNalu hmaxLen with
    ⟨hfits, hitems⟩ | ⟨hlong, chunk, next, rest, -, -, hitems⟩
  · refine ⟨0, ?_⟩
    rw [hitems, decide_eq_false (Nat.not_lt.mpr hfits), Bool.or_false]
    rfl
  · refine ⟨(chunk :: next :: rest).length - 1, ?_⟩
    rw [hitems, fuaItems_flags _ _ (List.cons_ne_nil _ _), decide_eq_true hlong, Bool.or_true]

theorem depacketized_nalu_ne_nil (nal : NalUnit) {maxPayload : Nat} (hmax : 2 < maxPayload)
    (isLastNalu : Bool) {maxLen : Nat} (hmaxLen : maxPayload + 4 ≤ maxLen) :
    ∀ callback ∈ (h264PacketizeNalu true nal.bytes maxPayload isLastNalu).callbacks,
      (depacketized maxLen callback).2 ≠ [] := by
  intro callback hcallback
  have hitem := List.mem_map_of_mem (f := depacketized maxLen) hcallback
  rcases depacketized_nalu_cases nal hmax isLastNalu hmaxLen with
    ⟨-, hitems⟩ | ⟨-, chunk, next, rest, hchunks, -, hitems⟩
  · rw [hitems, List.mem_singleton] at hitem
    rw [hitem]
    simp [StartCode.bytes]
  · rw [hitems] at hitem
    exact fuaItems_ne_nil (by omega) _ _ hchunks _ hitem

end TinyRtc.FuaFragments
