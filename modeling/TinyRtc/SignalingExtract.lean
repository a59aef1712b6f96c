import TinyRtc.SignalingEscape

namespace TinyRtc.SignalingExtract

open TinyRtc.CString
open TinyRtc.Signaling
open TinyRtc.SignalingEscape

theorem sigUnescape_plain {c : UInt8} (hplain : c ≠ 0x5C) (rest : List UInt8) :
    sigUnescape (c :: rest) = c :: sigUnescape rest := by
  cases rest with
  | nil => rfl
  | cons d rest => rw [sigUnescape, if_neg hplain]

theorem sigUnescape_sigEscape (c : UInt8) (rest : List UInt8) :
    sigUnescape (sigEscape c ++ rest) = c :: sigUnescape rest := by
  rw [sigEscape]
  split
  · next hquote =>
    rw [hquote]
    rfl
  · split
    · next hbackslash =>
      rw [hbackslash]
      rfl
    · next hbackslash =>
      split
      · next hnewline =>
        rw [hnewline]
        rfl
      · split
        · next hreturn =>
          rw [hreturn]
          rfl
        · split
          · next htab =>
            rw [htab]
            rfl
          · exact sigUnescape_plain hbackslash rest

theorem sigUnescape_escaped (text : List UInt8) : sigUnescape (escaped text) = text := by
  induction text with
  | nil => rfl
  | cons c text ih => rw [escaped_cons, sigUnescape_sigEscape, ih]

/-- The byte in front of what follows `text`. -/
def lastByte (prev : Option UInt8) (text : List UInt8) : Option UInt8 :=
  text.foldl (fun _ c => some c) prev

theorem lastByte_append (prev : Option UInt8) (first second : List UInt8) :
    lastByte prev (first ++ second) = lastByte (lastByte prev first) second :=
  List.foldl_append

/-- No quotation mark of an escape ends the value. -/
theorem sigQuotedText_escaped (text rest : List UInt8) (prev : Option UInt8) :
    sigQuotedText prev (escaped text ++ rest) =
      (sigQuotedText (lastByte prev (escaped text)) rest).map (escaped text ++ ·) := by
  induction text generalizing prev with
  | nil => exact Option.map_id'.symm
  | cons c text ih =>
      rw [escaped_cons]
      rcases sigEscape_cases c with ⟨hplain, hquote, -⟩ | ⟨d, hspecial⟩
      · rw [hplain, List.cons_append, List.nil_append, List.cons_append, sigQuotedText,
          if_neg fun hstop => hquote hstop.1, ih, Option.map_map]
        rfl
      · have hfirst : ¬ ((0x5C : UInt8) = 0x22 ∧ prev ≠ some 0x5C) := fun hstop => by
          cases hstop.1
        have hsecond : ¬ (d = 0x22 ∧ some (0x5C : UInt8) ≠ some 0x5C) := fun hstop =>
          hstop.2 rfl
        rw [hspecial, List.append_assoc, List.cons_append, List.cons_append, List.nil_append,
          sigQuotedText, if_neg hfirst, sigQuotedText, if_neg hsecond, ih, Option.map_map,
          Option.map_map]
        rfl

theorem lastByte_sigEscape_iff (prev : Option UInt8) (c : UInt8) :
    lastByte prev (sigEscape c) = some 0x5C ↔ c = 0x5C := by
  rw [sigEscape]
  split
  · next hquote => simp [lastByte, hquote]
  · split
    · next hbackslash => simp [lastByte, hbackslash]
    · split
      · next hnewline => simp [lastByte, hnewline]
      · split
        · next hreturn => simp [lastByte, hreturn]
        · split
          · next htab => simp [lastByte, htab]
          · simp [lastByte]

theorem lastByte_escaped_iff (text : List UInt8) :
    lastByte none (escaped text) = some 0x5C ↔ text.getLast? = some 0x5C := by
  rcases List.eq_nil_or_concat text with rfl | ⟨front, c, rfl⟩
  · exact iff_of_false (by decide) (by decide)
  · have hlast : escaped (front ++ [c]) = escaped front ++ sigEscape c := by
      rw [escaped, List.flatMap_append, List.flatMap_singleton]
      rfl
    rw [List.concat_eq_append, hlast, List.getLast?_concat, lastByte_append,
      lastByte_sigEscape_iff, Option.some.injEq]

def sdpKey : List UInt8 :=
  ascii "\"sdp\""

def typeFront (type : List UInt8) : List UInt8 :=
  ascii "\x7b\"type\": \"" ++ type ++ ascii "\", "

theorem descriptionJson_eq_keys (type value : List UInt8) :
    descriptionJson type value =
      typeFront type ++ (sdpKey ++ (ascii ": " ++ (typeFront type ++
        (sdpKey ++ (ascii ": \"" ++ (value ++ jsonEnd)))))) := by
  have hinner : ascii "\", \"sdp\": \x7b\"type\": \"" =
      ascii "\", " ++ sdpKey ++ ascii ": " ++ ascii "\x7b\"type\": \"" := by decide
  have hmark : ascii "\", \"sdp\": \"" = ascii "\", " ++ sdpKey ++ ascii ": \"" := by decide
  have hend : ascii "\"\x7d\x7d" = jsonEnd := by decide
  rw [descriptionJson, typeFront, hinner, hmark, hend]
  simp only [List.append_assoc]

theorem sigExtractSdpValue_descriptionJson {type : List UInt8}
    (htype : strstr sdpKey (typeFront type ++ sdpKey) = some sdpKey) (value : List UInt8)
    (allocated : Bool) :
    sigExtractSdpValue (descriptionJson type value) allocated =
      (sigQuotedText none (value ++ jsonEnd)).bind fun raw =>
        if allocated then some (sigUnescape raw) else none := by
  have hpattern : (ascii "\"" ++ ascii "sdp" ++ ascii "\"").take 63 = sdpKey := by decide
  have hinner : sigExtractJsonStringField (typeFront type ++
      (sdpKey ++ (ascii ": \"" ++ (value ++ jsonEnd)))) (ascii "sdp") allocated =
        (sigQuotedText none (value ++ jsonEnd)).bind fun raw =>
          if allocated then some (sigUnescape raw) else none := by
    rw [sigExtractJsonStringField, hpattern, strstr_append htype]
    rfl
  rw [sigExtractSdpValue, descriptionJson_eq_keys]
  change (strstr sdpKey _).bind _ = _
  rw [strstr_append htype, ← hinner]
  rfl

/-- The value ends at its quotation mark, unless a backslash stands in front of it: then
nothing is left that could end it. -/
theorem sigQuotedText_jsonEnd (prev : Option UInt8) :
    sigQuotedText prev jsonEnd = if prev = some 0x5C then none else some [] := by
  rw [jsonEnd, sigQuotedText]
  split
  · next hstop => rw [if_neg hstop.2]
  · next hnot =>
    rw [if_pos (not_not.mp fun hprev => hnot ⟨rfl, hprev⟩)]
    rfl

theorem sigExtractSdpValue_escaped {type : List UInt8}
    (htype : strstr sdpKey (typeFront type ++ sdpKey) = some sdpKey) (sdp : List UInt8)
    (allocated : Bool) :
    sigExtractSdpValue (descriptionJson type (escaped sdp)) allocated =
      if allocated = true ∧ sdp.getLast? ≠ some 0x5C then some sdp else none := by
  rw [sigExtractSdpValue_descriptionJson htype, sigQuotedText_escaped, sigQuotedText_jsonEnd]
  by_cases hlast : sdp.getLast? = some 0x5C
  · rw [if_pos ((lastByte_escaped_iff sdp).mpr hlast), if_neg fun hboth => hboth.2 hlast]
    rfl
  · rw [if_neg fun hbackslash => hlast ((lastByte_escaped_iff sdp).mp hbackslash),
      Option.map_some, Option.bind_some, List.append_nil, sigUnescape_escaped]
    cases allocated with
    | false => rw [if_neg Bool.false_ne_true, if_neg fun hboth => Bool.false_ne_true hboth.1]
    | true => rw [if_pos rfl, if_pos ⟨rfl, hlast⟩]

theorem handed_of_fits {type : List UInt8} {env : FrameEnv} {sig : SignalingClient}
    {sdp json : List UInt8} {sent : SentDescription} (hfits : (escaped sdp).length ≤ 4095)
    (hsent : sendDescription type env sig sdp = some sent) (hjson : sent.handed = some json) :
    json = descriptionJson type (escaped sdp) := by
  have hwhole : sigJsonEscape sdp 4096 = escaped sdp := by
    rw [sigJsonEscape, sigJsonEscapeLoop_of_fits (n := 4095) sdp [] (by simpa using hfits),
      List.nil_append]
  rw [sendDescription] at hsent
  split at hsent
  · cases hsent
    cases hjson
  · dsimp only at hsent
    split at hsent
    · cases hsent
      cases hjson
    · obtain ⟨frame, -, hresult⟩ := Option.map_eq_some_iff.mp hsent
      cases hresult
      cases hjson
      rw [hwhole]

/-- A description comes back out of the JSON text exactly if it does not end with a
backslash, and if there is memory for it. -/
theorem sigExtractSdpValue_iff {env : FrameEnv} {sig : SignalingClient} {sdp json : List UInt8}
    {sent : SentDescription} (hfits : (escaped sdp).length ≤ 4095)
    (hsent : tinyrtcSignalingSendOffer env sig sdp = some sent ∨
      tinyrtcSignalingSendAnswer env sig sdp = some sent)
    (hjson : sent.handed = some json) (allocated : Bool) :
    sigExtractSdpValue json allocated = some sdp ↔
      allocated = true ∧ sdp.getLast? ≠ some 0x5C := by
  have hextracted : sigExtractSdpValue json allocated =
      if allocated = true ∧ sdp.getLast? ≠ some 0x5C then some sdp else none := by
    rcases hsent with hoffer | hanswer
    · rw [handed_of_fits hfits hoffer hjson]
      exact sigExtractSdpValue_escaped (by decide) sdp allocated
    · rw [handed_of_fits hfits hanswer hjson]
      exact sigExtractSdpValue_escaped (by decide) sdp allocated
  rw [hextracted]
  split
  · next hboth => exact iff_of_true rfl hboth
  · next hnot => exact iff_of_false (by simp) hnot

theorem sigExtractSdpValue_quote :
    ∃ env sent json, tinyrtcSignalingSendOffer env ⟨.connected, none⟩ [0x5C, 0x22] = some sent ∧
      sent.handed = some json ∧ sigExtractSdpValue json true = some [0x5C, 0x22] := by
  have htype : (ascii "offer").length ≤ 100 := by decide
  obtain ⟨env, hsent⟩ := sendDescription_ok htype
    (rfl : (⟨.connected, none⟩ : SignalingClient).state = .connected) [0x5C, 0x22]
  refine ⟨env, _, _, hsent, rfl, ?_⟩
  exact (sigExtractSdpValue_iff (by decide) (.inl hsent) rfl true).mpr ⟨rfl, by decide⟩

/-- The escaped backslash takes the end of the value away. -/
theorem sigExtractSdpValue_backslash :
    ∃ env sent json, tinyrtcSignalingSendOffer env ⟨.connected, none⟩ [0x61, 0x5C] = some sent ∧
      sent.handed = some json ∧ (escaped [0x61, 0x5C]).length ≤ 4095 ∧
      sigExtractSdpValue json true ≠ some [0x61, 0x5C] := by
  have htype : (ascii "offer").length ≤ 100 := by decide
  obtain ⟨env, hsent⟩ := sendDescription_ok htype
    (rfl : (⟨.connected, none⟩ : SignalingClient).state = .connected) [0x61, 0x5C]
  refine ⟨env, _, _, hsent, rfl, by decide, ?_⟩
  decide +kernel

end TinyRtc.SignalingExtract
