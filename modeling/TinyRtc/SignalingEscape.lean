import TinyRtc.Signaling

namespace TinyRtc.SignalingEscape

open TinyRtc.BigEndian
open TinyRtc.Common
open TinyRtc.CString
open TinyRtc.Signaling

def escaped (text : List UInt8) : List UInt8 :=
  text.flatMap sigEscape

theorem sigEscape_cases (c : UInt8) :
    (sigEscape c = [c] ∧ c ≠ 0x22 ∧ c ≠ 0x5C) ∨ ∃ d, sigEscape c = [0x5C, d] := by
  rw [sigEscape]
  split
  · exact .inr ⟨_, rfl⟩
  · next hquote =>
    split
    · exact .inr ⟨_, rfl⟩
    · next hbackslash =>
      split
      · exact .inr ⟨_, rfl⟩
      · split
        · exact .inr ⟨_, rfl⟩
        · split
          · exact .inr ⟨_, rfl⟩
          · exact .inl ⟨rfl, hquote, hbackslash⟩

theorem escaped_head (text : List UInt8) : (escaped text)[0]? ≠ some 0x22 := by
  cases text with
  | nil => simp [escaped]
  | cons c text =>
      rcases sigEscape_cases c with ⟨hplain, hquote, -⟩ | ⟨d, hspecial⟩
      · simpa [escaped, hplain] using hquote
      · simp [escaped, hspecial]

/-- A quotation mark in an escaped text is behind a backslash. -/
theorem escaped_quote (text : List UInt8) {i : Nat}
    (h : (escaped text)[i + 1]? = some 0x22) : (escaped text)[i]? = some 0x5C := by
  induction text generalizing i with
  | nil => simp [escaped] at h
  | cons c text ih =>
      have hcons : escaped (c :: text) = sigEscape c ++ escaped text := rfl
      rw [hcons] at h ⊢
      rcases sigEscape_cases c with ⟨hplain, hquote, -⟩ | ⟨d, hspecial⟩
      · rw [hplain] at h ⊢
        cases i with
        | zero => exact absurd h (escaped_head text)
        | succ i => exact ih h
      · rw [hspecial] at h ⊢
        match i with
        | 0 => rfl
        | 1 => exact absurd h (escaped_head text)
        | i + 2 => exact ih h

/-- What is written of a text that does not fit into `n` bytes: the escape is cut
between two characters, or in front of a special one that needs two bytes where there
is one, and then this byte may go to a plain character that comes later. -/
inductive CutAt (n : Nat) (full : List UInt8) : List UInt8 → Prop
  | between : full[n]? ≠ some 0x22 → CutAt n full (full.take n)
  | inFront : full[n - 1]? = some 0x5C → CutAt n full (full.take (n - 1))
  | filled {c : UInt8} : full[n - 1]? = some 0x5C → c ≠ 0x5C →
      CutAt n full (full.take (n - 1) ++ [c])

section

variable {n : Nat}

theorem sigEscape_length_le (c : UInt8) : (sigEscape c).length ≤ 2 := by
  rcases sigEscape_cases c with ⟨hplain, -⟩ | ⟨d, hspecial⟩
  · rw [hplain]
    exact Nat.le_succ 1
  · rw [hspecial]
    exact Nat.le_refl 2

theorem escaped_cons (c : UInt8) (text : List UInt8) :
    escaped (c :: text) = sigEscape c ++ escaped text :=
  rfl

theorem sigJsonEscapeLoop_of_fits (input output : List UInt8)
    (h : output.length + (escaped input).length ≤ n) :
    sigJsonEscapeLoop (n + 1) input output = output ++ escaped input := by
  induction input generalizing output with
  | nil => simp [sigJsonEscapeLoop, escaped]
  | cons c input ih =>
      rw [escaped_cons, List.length_append] at h
      have hpos : 0 < (sigEscape c).length := by
        rcases sigEscape_cases c with ⟨hplain, -⟩ | ⟨d, hspecial⟩
        · rw [hplain]
          exact Nat.zero_lt_one
        · rw [hspecial]
          exact Nat.zero_lt_two
      rw [sigJsonEscapeLoop, if_pos (by omega), if_neg (by omega), ih, escaped_cons,
        List.append_assoc]
      rw [List.length_append]
      omega

theorem sigJsonEscapeLoop_of_full (input : List UInt8) {output : List UInt8}
    (h : n ≤ output.length) : sigJsonEscapeLoop (n + 1) input output = output := by
  cases input with
  | nil => rfl
  | cons c input => rw [sigJsonEscapeLoop, if_neg (by omega)]

/-- The last byte goes to the next plain character, if there is one. -/
theorem sigJsonEscapeLoop_last (input : List UInt8) {output : List UInt8}
    (h : output.length + 1 = n) :
    sigJsonEscapeLoop (n + 1) input output = output ∨
      ∃ c, c ≠ 0x5C ∧ sigJsonEscapeLoop (n + 1) input output = output ++ [c] := by
  induction input with
  | nil => exact .inl rfl
  | cons c input ih =>
      rw [sigJsonEscapeLoop, if_pos (by omega)]
      rcases sigEscape_cases c with ⟨hplain, -, hbackslash⟩ | ⟨d, hspecial⟩
      · rw [hplain, if_neg (by simp)]
        refine .inr ⟨c, hbackslash, sigJsonEscapeLoop_of_full _ ?_⟩
        rw [List.length_append, List.length_singleton]
        exact h.ge
      · rw [hspecial, if_pos ⟨rfl, by omega⟩]
        exact ih

theorem sigJsonEscapeLoop_cut (input output : List UInt8) (hle : output.length ≤ n)
    (h : n < output.length + (escaped input).length) :
    CutAt n (output ++ escaped input) (sigJsonEscapeLoop (n + 1) input output) := by
  induction input generalizing output with
  | nil =>
      rw [escaped, List.flatMap_nil, List.length_nil] at h
      omega
  | cons c input ih =>
      rw [sigJsonEscapeLoop]
      split
      · next hlt =>
        split
        · next hspecial =>
          -- Only one byte is left for a special character.
          obtain ⟨htwo, hroom⟩ := hspecial
          have hlast : output.length + 1 = n := by omega
          have hfront : (output ++ escaped (c :: input)).take (n - 1) = output :=
            List.take_left' (by omega)
          have hbackslash : (output ++ escaped (c :: input))[n - 1]? = some 0x5C := by
            rw [List.getElem?_append_right (by omega), escaped_cons]
            have hzero : n - 1 - output.length = 0 := by omega
            rw [hzero]
            rcases sigEscape_cases c with ⟨hplain, -⟩ | ⟨d, hd⟩
            · rw [hplain] at htwo
              cases htwo
            · rw [hd]
              rfl
          rcases sigJsonEscapeLoop_last input hlast with hsame | ⟨c', hc', hfilled⟩
          · rw [hsame]
            nth_rewrite 2 [← hfront]
            exact .inFront hbackslash
          · rw [hfilled]
            nth_rewrite 2 [← hfront]
            exact .filled hbackslash hc'
        · next hfits =>
          have htwo := sigEscape_length_le c
          rw [escaped_cons, ← List.append_assoc]
          rw [escaped_cons, List.length_append] at h
          apply ih
          · rw [List.length_append]
            by_cases hlength : (sigEscape c).length = 2
            · have hroom : ¬ output.length + 2 ≥ n + 1 := fun hge => hfits ⟨hlength, hge⟩
              omega
            · omega
          · rw [List.length_append]
            omega
      · next hfull =>
        have hlength : output.length = n := by omega
        have hwhole : (output ++ escaped (c :: input)).take n = output := List.take_left' hlength
        nth_rewrite 2 [← hwhole]
        apply CutAt.between
        rw [List.getElem?_append_right hlength.le, hlength, Nat.sub_self]
        exact escaped_head (c :: input)

def jsonEnd : List UInt8 :=
  [0x22, 0x7D, 0x7D]

section

variable {out front : List UInt8} {i : Nat}

theorem getElem?_middle {α : Type*} (front middle behind : List α) {i : Nat}
    (h : i < middle.length) : (front ++ middle ++ behind)[front.length + i]? = middle[i]? := by
  rw [List.append_assoc, List.getElem?_append_right (Nat.le_add_right _ _),
    Nat.add_sub_cancel_left, List.getElem?_append_left h]

theorem json_length : (front ++ [0x20, 0x22] ++ out ++ jsonEnd).length =
    front.length + 2 + out.length + 3 := by
  simp only [List.length_append, jsonEnd, List.length_cons, List.length_nil]

theorem json_front :
    (front ++ [0x20, 0x22] ++ out ++ jsonEnd)[front.length]? = some 0x20 ∧
      (front ++ [0x20, 0x22] ++ out ++ jsonEnd)[front.length + 1]? = some 0x22 := by
  rw [List.append_assoc (front ++ [0x20, 0x22])]
  constructor
  · exact getElem?_middle front [0x20, 0x22] _ (i := 0) Nat.two_pos
  · exact getElem?_middle front [0x20, 0x22] _ (i := 1) Nat.one_lt_two

theorem json_value (h : i < out.length) :
    (front ++ [0x20, 0x22] ++ out ++ jsonEnd)[front.length + 2 + i]? = out[i]? := by
  have hfront : (front ++ [0x20, 0x22]).length = front.length + 2 := by
    rw [List.length_append]
    rfl
  rw [← hfront]
  exact getElem?_middle (front ++ [0x20, 0x22]) out jsonEnd h

theorem json_end (i : Nat) :
    (front ++ [0x20, 0x22] ++ out ++ jsonEnd)[front.length + 2 + out.length + i]? = jsonEnd[i]? := by
  have hfront : (front ++ [0x20, 0x22] ++ out).length = front.length + 2 + out.length := by
    rw [List.length_append, List.length_append]
    rfl
  rw [← hfront, List.getElem?_append_right (Nat.le_add_right _ _), Nat.add_sub_cancel_left]

end

/-- The escape `full` stands `d` bytes into the JSON value `out` and may reach over its
end. -/
structure Overlaps (full out : List UInt8) (d : Nat) : Prop where
  inside : ∀ i < full.length, d + i < out.length → full[i]? = out[d + i]?
  behind : ∀ i j, i < full.length → d + i = out.length + j → full[i]? = jsonEnd[j]?
  length_le : d + full.length ≤ out.length + 3

/-- No escape takes in the opening quotation mark, in front of which a space stands. -/
theorem overlaps_of_infix {text out front : List UInt8}
    (hfront : front.length + 2 ≤ (escaped text).length)
    (hwithin : escaped text <:+: front ++ [0x20, 0x22] ++ out ++ jsonEnd) :
    ∃ d, Overlaps (escaped text) out d := by
  obtain ⟨before, behind, heq⟩ := hwithin
  have hquote := @escaped_quote text
  have hhead := escaped_head text
  generalize escaped text = full at *
  -- Where a byte of the escape stands in the JSON text.
  have hplace : ∀ i < full.length, full[i]? =
      (front ++ [0x20, 0x22] ++ out ++ jsonEnd)[before.length + i]? := by
    intro i hi
    rw [← heq]
    exact (getElem?_middle before full behind hi).symm
  have hlength := congrArg List.length heq
  rw [json_length, List.length_append, List.length_append] at hlength
  obtain ⟨hspace, hopening⟩ := @json_front out front
  rcases Nat.lt_or_ge before.length (front.length + 2) with hbefore | hbefore
  · obtain ⟨i, hi⟩ := Nat.exists_eq_add_of_lt hbefore
    have hmark : full[i]? = some 0x22 := by
      rw [hplace i (by omega), ← hopening]
      congr 1
      omega
    cases i with
    | zero => exact absurd hmark hhead
    | succ i =>
        have hbackslash := hquote hmark
        rw [hplace i (by omega)] at hbackslash
        have hsame : before.length + i = front.length := by omega
        rw [hsame, hspace] at hbackslash
        cases hbackslash
  · obtain ⟨d, hd⟩ := Nat.exists_eq_add_of_le hbefore
    refine ⟨d, ?_, ?_, by omega⟩
    · intro i hi hlt
      rw [hplace i hi, hd, Nat.add_assoc, json_value hlt]
    · intro i j hi hj
      rw [hplace i hi, hd, Nat.add_assoc, hj, ← Nat.add_assoc, json_end]

section

variable {text out : List UInt8} {d n : Nat}

/-- The value's closing quotation mark is one of the escape, so a backslash is in front
of it. -/
theorem Overlaps.last_backslash (hoverlaps : Overlaps (escaped text) out d) {i : Nat}
    (hlen : out.length = d + i + 1) (hi : i + 1 < (escaped text).length) :
    out[d + i]? = some 0x5C := by
  have hmark : (escaped text)[i + 1]? = some 0x22 := hoverlaps.behind (i + 1) 0 hi (by omega)
  rw [← hoverlaps.inside i (by omega) (by omega)]
  exact escaped_quote text hmark

theorem not_overlaps_between (hn : 3 ≤ n) (hlong : n < (escaped text).length)
    (hunit : (escaped text)[n]? ≠ some 0x22) :
    ¬ Overlaps (escaped text) ((escaped text).take n) d := by
  intro hoverlaps
  have hlen : ((escaped text).take n).length = n := List.length_take_of_le hlong.le
  have hle := hoverlaps.length_le
  obtain ⟨k, rfl⟩ := Nat.exists_eq_add_of_le' hn
  have hlast : ((escaped text).take (k + 3))[k + 2]? = (escaped text)[k + 2]? :=
    List.getElem?_take_of_lt (Nat.lt_succ_self _)
  match d with
  | 0 => exact hunit (hoverlaps.behind (k + 3) 0 (by omega) (by omega))
  | 1 =>
      have hmark : (escaped text)[k + 2]? = some 0x22 :=
        hoverlaps.behind (k + 2) 0 (by omega) (by omega)
      have hbackslash := hoverlaps.last_backslash (i := k + 1) (by omega) (by omega)
      rw [Nat.add_comm 1] at hbackslash
      rw [hlast.symm.trans hbackslash] at hmark
      cases hmark
  | 2 =>
      have hbrace : (escaped text)[k + 2]? = some 0x7D :=
        hoverlaps.behind (k + 2) 1 (by omega) (by omega)
      have hbackslash := hoverlaps.last_backslash (i := k) (by omega) (by omega)
      rw [Nat.add_comm 2] at hbackslash
      rw [hlast.symm.trans hbackslash] at hbrace
      cases hbrace
  | d + 3 => omega

theorem not_overlaps_inFront (hn : 3 ≤ n) (hlong : n < (escaped text).length)
    (hspecial : (escaped text)[n - 1]? = some 0x5C) :
    ¬ Overlaps (escaped text) ((escaped text).take (n - 1)) d := by
  intro hoverlaps
  have hlen : ((escaped text).take (n - 1)).length = n - 1 := List.length_take_of_le (by omega)
  have hle := hoverlaps.length_le
  obtain ⟨k, rfl⟩ := Nat.exists_eq_add_of_le' hn
  change (escaped text)[k + 2]? = some 0x5C at hspecial
  have hlast : ((escaped text).take (k + 2))[k + 1]? = (escaped text)[k + 1]? :=
    List.getElem?_take_of_lt (Nat.lt_succ_self _)
  match d with
  | 0 =>
      rw [hoverlaps.behind (k + 2) 0 (by omega) (by omega)] at hspecial
      cases hspecial
  | 1 =>
      have hmark : (escaped text)[k + 1]? = some 0x22 :=
        hoverlaps.behind (k + 1) 0 (by omega) (by omega)
      have hbackslash := hoverlaps.last_backslash (i := k) (by omega) (by omega)
      rw [Nat.add_comm 1] at hbackslash
      rw [hlast.symm.trans hbackslash] at hmark
      cases hmark
  | d + 2 => omega

theorem not_overlaps_filled {c : UInt8} (hn : 1 ≤ n) (hlong : n < (escaped text).length)
    (hspecial : (escaped text)[n - 1]? = some 0x5C) (hplain : c ≠ 0x5C) :
    ¬ Overlaps (escaped text) ((escaped text).take (n - 1) ++ [c]) d := by
  intro hoverlaps
  have htake : ((escaped text).take (n - 1)).length = n - 1 := List.length_take_of_le (by omega)
  have hlen : ((escaped text).take (n - 1) ++ [c]).length = n := by
    rw [List.length_append, htake, List.length_singleton]
    omega
  have hle := hoverlaps.length_le
  match d with
  | 0 =>
      rw [hoverlaps.inside (n - 1) (by omega) (by omega), Nat.zero_add,
        List.getElem?_append_right htake.le, htake, Nat.sub_self] at hspecial
      exact hplain (Option.some.inj hspecial)
  | 1 =>
      rw [hoverlaps.behind (n - 1) 0 (by omega) (by omega)] at hspecial
      cases hspecial
  | 2 =>
      rw [hoverlaps.behind (n - 1) 1 (by omega) (by omega)] at hspecial
      cases hspecial
  | d + 3 => omega

end

/-- A text that has been cut is nowhere in the JSON text, not even across the ends of
its value. -/
theorem not_infix_of_cut {text out front : List UInt8} {n : Nat} (hn : 3 ≤ n)
    (hfront : front.length + 2 ≤ n) (hlong : n < (escaped text).length)
    (hcut : CutAt n (escaped text) out) :
    ¬ escaped text <:+: front ++ [0x20, 0x22] ++ out ++ jsonEnd := by
  intro hwithin
  obtain ⟨d, hoverlaps⟩ := overlaps_of_infix (by omega) hwithin
  cases hcut with
  | between hunit => exact not_overlaps_between hn hlong hunit hoverlaps
  | inFront hspecial => exact not_overlaps_inFront hn hlong hspecial hoverlaps
  | filled hspecial hplain =>
      exact not_overlaps_filled (by omega) hlong hspecial hplain hoverlaps

end

def jsonFront (type : List UInt8) : List UInt8 :=
  ascii "\x7b\"type\": \"" ++ type ++ ascii "\", \"sdp\": \x7b\"type\": \"" ++ type ++
    ascii "\", \"sdp\":"

theorem descriptionJson_eq (type value : List UInt8) :
    descriptionJson type value = jsonFront type ++ [0x20, 0x22] ++ value ++ jsonEnd := by
  have hmark : ascii "\", \"sdp\": \"" = ascii "\", \"sdp\":" ++ [0x20, 0x22] := by decide
  have hend : ascii "\"\x7d\x7d" = jsonEnd := by decide
  rw [descriptionJson, jsonFront, hmark, hend]
  simp only [List.append_assoc]

theorem descriptionJson_length (type value : List UInt8) :
    (descriptionJson type value).length = 44 + 2 * type.length + value.length := by
  have hconst : (ascii "\x7b\"type\": \"").length = 10 ∧
      (ascii "\", \"sdp\": \x7b\"type\": \"").length = 20 ∧ (ascii "\", \"sdp\": \"").length = 11 ∧
      (ascii "\"\x7d\x7d").length = 3 := by
    decide
  simp only [descriptionJson, List.length_append, hconst]
  omega

/-- The JSON text contains the complete escape exactly when this fits into the
buffer. -/
theorem escaped_infix_iff {type : List UInt8} (htype : type.length ≤ 100) (sdp : List UInt8) :
    escaped sdp <:+: descriptionJson type (sigJsonEscape sdp 4096) ↔
      (escaped sdp).length ≤ 4095 := by
  rw [descriptionJson_eq]
  constructor
  · intro hwithin
    by_contra hlong
    rw [Nat.not_le] at hlong
    have hcut := sigJsonEscapeLoop_cut (n := 4095) sdp [] (Nat.zero_le _)
      (by rw [List.length_nil, Nat.zero_add]; exact hlong)
    refine not_infix_of_cut (by decide) ?_ hlong hcut hwithin
    have hjson := descriptionJson_length type []
    rw [descriptionJson_eq, json_length, List.length_nil] at hjson
    omega
  · intro hfits
    have hwhole : sigJsonEscape sdp 4096 = escaped sdp := by
      rw [sigJsonEscape, sigJsonEscapeLoop_of_fits (n := 4095) sdp [] (by simpa using hfits),
        List.nil_append]
    rw [hwhole]
    exact ⟨_, _, rfl⟩

theorem sigJsonEscape_length_le (sdp : List UInt8) : (sigJsonEscape sdp 4096).length ≤ 4095 := by
  rcases Nat.lt_or_ge 4095 (escaped sdp).length with hlong | hfits
  · have hcut : CutAt 4095 (escaped sdp) (sigJsonEscape sdp 4096) :=
      sigJsonEscapeLoop_cut sdp [] (Nat.zero_le _) (by
        rw [List.length_nil, Nat.zero_add]
        exact hlong)
    generalize sigJsonEscape sdp 4096 = out at hcut ⊢
    cases hcut with
    | between _ => exact List.length_take_le _ _
    | inFront _ => exact (List.length_take_le _ _).trans (by decide)
    | filled _ _ =>
        rw [List.length_append, List.length_singleton]
        exact Nat.succ_le_succ (List.length_take_le _ _)
  · rw [sigJsonEscape, sigJsonEscapeLoop_of_fits (n := 4095) sdp [] (by simpa using hfits)]
    exact hfits

theorem wsFrame_length_le (opcode : UInt8) (mask : Bytes 4) (data : List UInt8) :
    (wsFrame opcode mask data).length ≤ 14 + data.length := by
  have hheader : (if data.length ≤ 125 then [data.length.toUInt8 ||| 0x80]
      else if data.length ≤ 0xFFFF then (126 ||| 0x80) :: write16 data.length.toUInt16
      else (127 ||| 0x80) :: write64 data.length.toUInt64).length ≤ 9 := by
    split
    · exact Nat.le_of_ble_eq_true rfl
    · split
      · exact Nat.le_of_ble_eq_true rfl
      · exact Nat.le_of_ble_eq_true rfl
  simp only [wsFrame, wsMask, List.length_append, List.length_cons, List.length_ofFn,
    List.length_mapIdx]
  omega

theorem sigWriteLoop_written (data : List UInt8) :
    sigWriteLoop [.written data.length] data = some (true, data) := by
  cases data with
  | nil => rfl
  | cons byte data =>
      rw [sigWriteLoop, List.drop_length, List.take_length, sigWriteLoop]
      exact congrArg (fun sent => some (true, sent)) (List.append_nil _)

/-- If the description is said to have been sent, it has been handed over whole. -/
def SendsWhole (sdp : List UInt8) (sent : SentDescription) : Prop :=
  sent.error = .ok → ∃ json, sent.handed = some json ∧ escaped sdp <:+: json

theorem sendDescription_ok {type : List UInt8} (htype : type.length ≤ 100)
    {sig : SignalingClient} (hconnected : sig.state = .connected) (sdp : List UInt8) :
    ∃ env, sendDescription type env sig sdp =
      some ⟨.ok, sig, some (descriptionJson type (sigJsonEscape sdp 4096))⟩ := by
  have hjson : (descriptionJson type (sigJsonEscape sdp 4096)).length ≤ 4339 := by
    have hvalue := sigJsonEscape_length_le sdp
    rw [descriptionJson_length]
    omega
  have hframe := wsFrame_length_le wsOpcodeText (fun _ => 0)
    (descriptionJson type (sigJsonEscape sdp 4096))
  refine ⟨⟨fun _ => 0, [.written (wsFrame wsOpcodeText (fun _ => 0)
    (descriptionJson type (sigJsonEscape sdp 4096))).length]⟩, ?_⟩
  rw [sendDescription, if_neg (not_not.mpr hconnected)]
  dsimp only
  rw [if_neg (by omega), sigSendWsFrame, if_neg (not_not.mpr hconnected)]
  dsimp only
  rw [if_neg (by rw [sigMaxSendBuf]; omega), sigWriteLoop_written]
  rfl

theorem sendDescription_whole_iff {type : List UInt8} (htype : type.length ≤ 100)
    (sig : SignalingClient) (sdp : List UInt8) :
    (∀ env sent, sendDescription type env sig sdp = some sent → SendsWhole sdp sent) ↔
      (sig.state = .connected → (escaped sdp).length ≤ 4095) := by
  constructor
  · intro hwhole hconnected
    obtain ⟨env, hsent⟩ := sendDescription_ok htype hconnected sdp
    obtain ⟨json, hhanded, hwithin⟩ := hwhole env _ hsent rfl
    cases hhanded
    exact (escaped_infix_iff htype sdp).mp hwithin
  · intro hfits env sent hsent hok
    rw [sendDescription] at hsent
    split at hsent
    · cases hsent
      cases hok
    · next hconnected =>
      dsimp only at hsent
      split at hsent
      · cases hsent
        cases hok
      · obtain ⟨frame, -, hresult⟩ := Option.map_eq_some_iff.mp hsent
        cases hresult
        exact ⟨_, rfl, (escaped_infix_iff htype sdp).mpr (hfits (not_not.mp hconnected))⟩

/-- Both functions send whole descriptions exactly as long as the escape fits into
its buffer. -/
theorem sendsWhole_iff (sig : SignalingClient) (sdp : List UInt8) :
    ((∀ env sent, tinyrtcSignalingSendOffer env sig sdp = some sent → SendsWhole sdp sent) ↔
        (sig.state = .connected → (escaped sdp).length ≤ 4095)) ∧
      ((∀ env sent, tinyrtcSignalingSendAnswer env sig sdp = some sent → SendsWhole sdp sent) ↔
        (sig.state = .connected → (escaped sdp).length ≤ 4095)) :=
  ⟨sendDescription_whole_iff (by decide) sig sdp, sendDescription_whole_iff (by decide) sig sdp⟩

theorem length_le_escaped (text : List UInt8) : text.length ≤ (escaped text).length := by
  induction text with
  | nil => exact Nat.le_refl _
  | cons c text ih =>
      rw [escaped_cons, List.length_append, List.length_cons]
      rcases sigEscape_cases c with ⟨hplain, -⟩ | ⟨d, hspecial⟩
      · rw [hplain, List.length_singleton]
        omega
      · rw [hspecial, List.length_cons, List.length_singleton]
        omega

/-- A description longer than any text that is handed over is sent, and OK is
returned. -/
theorem sendsWhole_fails :
    ∃ env sent, tinyrtcSignalingSendOffer env ⟨.connected, none⟩ (List.replicate 5000 0x61) =
        some sent ∧
      sent.error = .ok ∧ ¬ SendsWhole (List.replicate 5000 0x61) sent := by
  have htype : (ascii "offer").length = 5 := by decide
  have hshort : (ascii "offer").length ≤ 100 := by
    rw [htype]
    decide
  obtain ⟨env, hsent⟩ := @sendDescription_ok (ascii "offer") hshort ⟨.connected, none⟩ rfl
    (List.replicate 5000 0x61)
  refine ⟨env, _, hsent, rfl, ?_⟩
  intro hwhole
  obtain ⟨json, hhanded, hwithin⟩ := hwhole rfl
  cases hhanded
  have hle := hwithin.length_le
  have hlong := length_le_escaped (List.replicate 5000 0x61)
  have hvalue := sigJsonEscape_length_le (List.replicate 5000 0x61)
  rw [descriptionJson_length, htype] at hle
  rw [List.length_replicate] at hlong
  omega

end TinyRtc.SignalingEscape
