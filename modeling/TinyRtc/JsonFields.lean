import TinyRtc.FlatJson

namespace TinyRtc.JsonFields

open TinyRtc.CString
open TinyRtc.FlatJson
open TinyRtc.Signaling
open TinyRtc.SignalingCandidates
open TinyRtc.SignalingEscape
open TinyRtc.SignalingExtract

/-- A key of the object gives the value of its member, and any other key nothing. -/
structure ExtractsField (object : FlatObject) (key : JsonKey) (allocated : Bool) : Prop where
  present : ∀ member ∈ object.members, member.key.bytes = key.bytes →
    sigExtractJsonStringField object.text key.bytes allocated = some member.value
  absent : (∀ member ∈ object.members, member.key.bytes ≠ key.bytes) →
    sigExtractJsonStringField object.text key.bytes allocated = none

/-- What is skipped behind a colon. -/
def IsBlank (text : List UInt8) : Prop :=
  ∀ c ∈ text, c = 0x20 ∨ c = 0x09

instance (text : List UInt8) : Decidable (IsBlank text) :=
  inferInstanceAs (Decidable (∀ _ ∈ _, _))

def behindColon (text : List UInt8) : List UInt8 :=
  (text.dropWhile (· != 0x3A)).tail

/-- What stands behind the last quotation mark of a text. -/
def lastPiece (text : List UInt8) : List UInt8 :=
  text.rtakeWhile (· != 0x22)

/-- What is wanted is what stands in quotation marks behind the next colon, if only blanks are
between them, for a colon that is looked for from the next key on. -/
def NextFits (wanted : Option (List UInt8)) : List JsonMember → Prop
  | [] => wanted = none
  | member :: _ =>
      if 0x3A ∈ member.key.bytes then
        if IsBlank (behindColon member.key.bytes) then wanted = some member.colon
        else wanted = none
      else if IsBlank member.beforeValue.bytes then wanted = some member.value
      else wanted = none

/-- The same for a colon that is looked for from the member's value on. -/
def ValueFits (wanted : Option (List UInt8)) (member : JsonMember) (more : List JsonMember) :
    Prop :=
  if 0x3A ∈ escaped member.value then
    if IsBlank (behindColon (escaped member.value)) then wanted = comma member more
    else wanted = none
  else NextFits wanted more

/-- The first place where the key stands between two quotation marks is the key of its member,
with only blanks between colon and value, or one that leads to what is wanted. -/
def FirstMatchFits (key : List UInt8) : List JsonMember → Prop
  | [] => True
  | member :: more =>
      if member.key.bytes = key then IsBlank member.beforeValue.bytes
      else if member.colon = key then ValueFits (lookup key more) member more
      else if lastPiece (escaped member.value) = key ∨ comma member more = some key then
        NextFits (lookup key more) more
      else FirstMatchFits key more

/-- The string that begins behind an opening quotation mark. -/
def quotedField (allocated : Bool) (text : List UInt8) : Option (List UInt8) :=
  (sigQuotedText none text).bind fun raw => if allocated then some (sigUnescape raw) else none

/-- What `sig_extract_json_string_field` does behind the pattern. -/
def fieldBehind (allocated : Bool) (text : List UInt8) : Option (List UInt8) :=
  (strchr text 0x3A).bind fun value =>
    match skipBlanks (value.drop 1) with
    | [] => none
    | c :: value => if c ≠ 0x22 then none else quotedField allocated value

def quoted (key : List UInt8) : List UInt8 :=
  0x22 :: (key ++ [0x22])

theorem sigExtractJsonStringField_eq (json : List UInt8) (key : JsonKey) (allocated : Bool) :
    sigExtractJsonStringField json key.bytes allocated =
      (strstr (quoted key.bytes) json).bind fun found =>
        fieldBehind allocated (found.drop (quoted key.bytes).length) := by
  have hlength : (quoted key.bytes).length ≤ 63 := by
    have hle := key.length_le
    rw [quoted, List.length_cons, List.length_append, List.length_singleton]
    omega
  have hpattern : (ascii "\"" ++ key.bytes ++ ascii "\"").take 63 = quoted key.bytes :=
    List.take_of_length_le hlength
  rw [sigExtractJsonStringField, hpattern]
  rfl

theorem skipBlanks_append_stop {blanks : List UInt8} (h : IsBlank blanks) (rest : List UInt8) :
    skipBlanks (blanks ++ 0x22 :: rest) = 0x22 :: rest := by
  refine dropWhile_append_stop (fun c hc => ?_) rfl
  rcases h c hc with rfl | rfl
  · rfl
  · rfl

/-- What is not all blanks has a first byte that is none. -/
theorem exists_skipBlanks {text : List UInt8} (h : ¬ IsBlank text) :
    ∃ blanks c behind, text = blanks ++ c :: behind ∧ IsBlank blanks ∧
      ∀ rest, skipBlanks (text ++ rest) = c :: (behind ++ rest) := by
  have hblank : ∀ c : UInt8, (c == 0x20 || c == 0x09) = true ↔ c = 0x20 ∨ c = 0x09 := by
    simp
  have hdrop : skipBlanks text ≠ [] := fun hnil =>
    h fun c hc => (hblank c).mp (List.dropWhile_eq_nil_iff.mp hnil c hc)
  obtain ⟨c, behind, hcons⟩ := List.exists_cons_of_ne_nil hdrop
  refine ⟨text.takeWhile fun c => c == 0x20 || c == 0x09, c, behind, ?_, fun d hd => ?_,
    fun rest => ?_⟩
  · rw [← hcons]
    exact List.takeWhile_append_dropWhile.symm
  · have hd := List.mem_takeWhile_imp hd
    exact (hblank d).mp hd
  · rw [skipBlanks, List.dropWhile_append, if_neg]
    · change skipBlanks text ++ rest = _
      rw [hcons, List.cons_append]
    · rw [List.isEmpty_iff]
      exact hdrop

section

variable {allocated : Bool} {seg rest : List UInt8}

theorem fieldBehind_append (hseg : 0x3A ∉ seg) :
    fieldBehind allocated (seg ++ rest) = fieldBehind allocated rest := by
  rw [fieldBehind, strchr_append hseg]
  rfl

theorem fieldBehind_none (hseg : 0x3A ∉ seg) : fieldBehind allocated seg = none := by
  have hskip := @fieldBehind_append allocated seg [] hseg
  rw [List.append_nil] at hskip
  rw [hskip]
  rfl

theorem dropWhile_colon (hseg : 0x3A ∈ seg) :
    seg.dropWhile (· != 0x3A) = 0x3A :: behindColon seg := by
  have hdrop : seg.dropWhile (· != 0x3A) ≠ [] := by
    intro hnil
    have hne := List.dropWhile_eq_nil_iff.mp hnil 0x3A hseg
    exact absurd hne (by decide)
  obtain ⟨c, behind, hcons⟩ := List.exists_cons_of_ne_nil hdrop
  have hhead := List.head?_dropWhile_not (· != 0x3A) seg
  rw [hcons] at hhead
  have hc : c = 0x3A := by simpa using hhead
  rw [behindColon, hcons, hc, List.tail_cons]

theorem strchr_colon (hseg : 0x3A ∈ seg) :
    strchr (seg ++ rest) 0x3A = some (0x3A :: (behindColon seg ++ rest)) := by
  have hdrop := dropWhile_colon hseg
  rw [strchr, List.dropWhile_append, if_neg (by rw [hdrop]; exact Bool.false_ne_true), hdrop]
  rfl

theorem exists_front (hseg : 0x3A ∈ seg) : ∃ front, seg = front ++ 0x3A :: behindColon seg :=
  ⟨_, by rw [← dropWhile_colon hseg, List.takeWhile_append_dropWhile]⟩

/-- A piece of the text, up to a quotation mark, is searched for the colon. Behind one, blanks
lead to the quotation mark, and nothing else does. -/
theorem fieldBehind_piece
    (hquote : ∀ front blanks behind, seg = front ++ 0x3A :: (blanks ++ 0x22 :: behind) →
      ¬ IsBlank blanks) :
    fieldBehind allocated (seg ++ 0x22 :: rest) =
      if 0x3A ∈ seg then
        if IsBlank (behindColon seg) then quotedField allocated rest else none
      else fieldBehind allocated rest := by
  split
  · next hcolon =>
    rw [fieldBehind, strchr_colon hcolon, Option.bind_some, List.drop_one, List.tail_cons]
    by_cases hblank : IsBlank (behindColon seg)
    · rw [if_pos hblank, skipBlanks_append_stop hblank]
      dsimp only
      rw [if_neg (fun hne => hne rfl)]
    · rw [if_neg hblank]
      obtain ⟨blanks, c, behind, hbehind, hblanks, hskip⟩ := exists_skipBlanks hblank
      obtain ⟨front, hfront⟩ := exists_front hcolon
      have hc : c ≠ 0x22 := by
        rintro rfl
        exact hquote front blanks behind (hbehind ▸ hfront) hblanks
      rw [hskip]
      dsimp only
      rw [if_pos hc]
  · next hcolon =>
    have hwhole : seg ++ 0x22 :: rest = (seg ++ [0x22]) ++ rest := by
      rw [List.append_assoc, List.singleton_append]
    rw [hwhole, fieldBehind_append]
    rw [List.mem_append, List.mem_singleton, not_or]
    exact ⟨hcolon, by decide⟩

theorem fieldBehind_plain (hseg : 0x22 ∉ seg) :
    fieldBehind allocated (seg ++ 0x22 :: rest) =
      if 0x3A ∈ seg then
        if IsBlank (behindColon seg) then quotedField allocated rest else none
      else fieldBehind allocated rest := by
  refine fieldBehind_piece fun front blanks behind hwhole _ => hseg ?_
  rw [hwhole]
  simp only [List.mem_append, List.mem_cons, true_or, or_true]

/-- In front of a quotation mark of an escaped text there is a backslash, and no blank. -/
theorem fieldBehind_escaped (text : List UInt8) :
    fieldBehind allocated (escaped text ++ 0x22 :: rest) =
      if 0x3A ∈ escaped text then
        if IsBlank (behindColon (escaped text)) then quotedField allocated rest else none
      else fieldBehind allocated rest := by
  refine fieldBehind_piece fun front blanks behind hwhole hblank => ?_
  have hsplit : escaped text = front ++ ((0x3A :: blanks) ++ 0x22 :: behind) := hwhole
  have hquote : (escaped text)[front.length + blanks.length + 1]? = some 0x22 := by
    rw [hsplit, List.getElem?_append_right (by omega), List.getElem?_append_right
      (by rw [List.length_cons]; omega), List.length_cons]
    have hzero : front.length + blanks.length + 1 - front.length - (blanks.length + 1) = 0 := by
      omega
    rw [hzero]
    rfl
  have hbackslash := escaped_quote text hquote
  rw [hsplit, List.getElem?_append_right (by omega), Nat.add_sub_cancel_left,
    List.getElem?_append_left (by rw [List.length_cons]; omega)] at hbackslash
  rcases List.mem_cons.mp (List.mem_of_getElem? hbackslash) with hcolon | hmem
  · cases hcolon
  · rcases hblank _ hmem with hspace | htab
    · cases hspace
    · cases htab

theorem quotedField_plain {text : List UInt8} (h : Plain text) :
    quotedField true (text ++ 0x22 :: rest) = some text := by
  rw [quotedField, sigQuotedText_plain h (by simp), Option.bind_some, if_pos rfl,
    sigUnescape_of_plain h]

theorem quotedField_escaped {text : List UInt8} (h : text.getLast? ≠ some 0x5C) :
    quotedField true (escaped text ++ 0x22 :: rest) = some text := by
  have hlast : lastByte none (escaped text) ≠ some 0x5C :=
    fun hbackslash => h ((lastByte_escaped_iff text).mp hbackslash)
  rw [quotedField, sigQuotedText_escaped, sigQuotedText, if_pos ⟨rfl, hlast⟩, Option.map_some,
    Option.bind_some, if_pos rfl, List.append_nil, sigUnescape_escaped]

theorem sigQuotedText_none {prev : Option UInt8} {text : List UInt8} (h : 0x22 ∉ text) :
    sigQuotedText prev text = none := by
  induction text generalizing prev with
  | nil => rfl
  | cons c text ih =>
      rw [List.mem_cons, not_or] at h
      rw [sigQuotedText, if_neg fun hstop => h.1 hstop.1.symm, ih h.2]
      rfl

theorem quotedField_none {text : List UInt8} (h : 0x22 ∉ text) :
    quotedField allocated text = none := by
  rw [quotedField, sigQuotedText_none h]
  rfl

end

/-- The field, from the first place of its key on. -/
def fieldOf (allocated : Bool) (key text : List UInt8) : Option (List UInt8) :=
  (strstr (quoted key) text).bind fun found =>
    fieldBehind allocated (found.drop (quoted key).length)

section

variable {allocated : Bool} {key seg rest : List UInt8}

theorem fieldOf_skip (hseg : 0x22 ∉ seg) :
    fieldOf allocated key (seg ++ rest) = fieldOf allocated key rest := by
  rw [fieldOf, quoted, strstr_delimited_skip hseg]
  rfl

theorem fieldOf_no_quote (hseg : 0x22 ∉ seg) : fieldOf allocated key seg = none := by
  rw [fieldOf, quoted, strstr_delimited_none hseg]
  rfl

theorem fieldOf_none (hseg : 0x22 ∉ seg) : fieldOf allocated key (0x22 :: seg) = none := by
  rw [fieldOf, quoted, strstr_delimited_last hseg]
  rfl

theorem fieldOf_piece (hkey : 0x22 ∉ key) (hseg : 0x22 ∉ seg) :
    fieldOf allocated key (0x22 :: (seg ++ 0x22 :: rest)) =
      if seg = key then fieldBehind allocated rest else fieldOf allocated key (0x22 :: rest) := by
  rw [fieldOf, quoted, strstr_delimited hkey hseg]
  split
  · next hsame =>
    have hwhole : 0x22 :: (seg ++ 0x22 :: rest) = 0x22 :: (key ++ [0x22]) ++ rest := by
      simp [hsame]
    rw [Option.bind_some, hwhole, List.drop_left]
  · rfl

theorem lastPiece_append (front text : List UInt8) :
    lastPiece (front ++ 0x22 :: text) = lastPiece text := by
  rw [lastPiece, lastPiece, List.rtakeWhile, List.rtakeWhile, List.reverse_append,
    List.reverse_cons, List.append_assoc, List.singleton_append, takeWhile_append_cons]
  rfl

theorem lastPiece_of_not_mem (h : 0x22 ∉ seg) : lastPiece seg = seg := by
  rw [lastPiece, List.rtakeWhile_eq_self_iff]
  exact bne_of_not_mem h

theorem sigEscape_quote :
    ∀ c : UInt8, 0x22 ∈ sigEscape c → sigEscape c = [0x5C, 0x22] := by
  decide +kernel

/-- Of the pieces of an escaped text only the last one has no backslash at its end. -/
theorem fieldOf_escaped (hkey : Plain key) (hseg : 0x22 ∉ seg) (text : List UInt8) :
    fieldOf allocated key (0x22 :: (seg ++ (escaped text ++ 0x22 :: rest))) =
      if lastPiece (seg ++ escaped text) = key then fieldBehind allocated rest
      else fieldOf allocated key (0x22 :: rest) := by
  have hquotes : 0x22 ∉ key := no_quote_of_plain hkey
  induction text generalizing seg with
  | nil =>
      have hnil : escaped [] = [] := rfl
      rw [hnil, List.append_nil, List.nil_append, lastPiece_of_not_mem hseg,
        fieldOf_piece hquotes hseg]
  | cons c text ih =>
      rw [escaped_cons]
      by_cases hquote : 0x22 ∈ sigEscape c
      · have hback : 0x22 ∉ seg ++ [0x5C] := by
          rw [List.mem_append, List.mem_singleton, not_or]
          exact ⟨hseg, by decide⟩
        have hne : seg ++ [0x5C] ≠ key := by
          rintro rfl
          exact (hkey 0x5C (List.mem_append_right seg List.mem_cons_self)).2.1 rfl
        have hwhole : ∀ behind, seg ++ (sigEscape c ++ behind) =
            (seg ++ [0x5C]) ++ 0x22 :: behind := by
          intro behind
          rw [sigEscape_quote c hquote, List.append_assoc]
          rfl
        rw [List.append_assoc, hwhole, hwhole, lastPiece_append, fieldOf_piece hquotes hback,
          if_neg hne]
        exact ih List.not_mem_nil
      · have hnext : 0x22 ∉ seg ++ sigEscape c := by
          rw [List.mem_append, not_or]
          exact ⟨hseg, hquote⟩
        have hwhole := ih hnext
        rwa [List.append_assoc, List.append_assoc, ← List.append_assoc (sigEscape c)] at hwhole

end

section

variable {wanted : Option (List UInt8)} {close : List UInt8}

theorem behindColon_colon (member : JsonMember) :
    behindColon member.colon = member.beforeValue.bytes := by
  have hplain := bne_of_not_mem member.behindKey.no_colon
  rw [behindColon, JsonMember.colon, dropWhile_append_stop hplain rfl, List.tail_cons]

/-- The colon of the member leads to its value. -/
theorem fieldBehind_colon (member : JsonMember) (rest : List UInt8) :
    fieldBehind true (member.colon ++ 0x22 :: member.valueText rest) =
      if IsBlank member.beforeValue.bytes then some member.value else none := by
  have hmem : 0x3A ∈ member.colon :=
    List.mem_append_right _ List.mem_cons_self
  rw [fieldBehind_plain (no_quote_of_plain member.plain_colon), if_pos hmem,
    behindColon_colon, JsonMember.valueText, quotedField_escaped member.value_end]

/-- From a key on, the next colon stands in the key or behind it. -/
theorem fieldBehind_keyText_iff (member : JsonMember) (more : List JsonMember)
    (rest : List UInt8) :
    fieldBehind true (member.keyText rest) = wanted ↔ NextFits wanted (member :: more) := by
  rw [JsonMember.keyText, fieldBehind_plain (no_quote_of_plain member.key.plain),
    fieldBehind_colon, quotedField_plain member.plain_colon, NextFits]
  split
  · split
    · exact eq_comm
    · exact eq_comm
  · split
    · exact eq_comm
    · exact eq_comm

theorem fieldBehind_following_iff (space : JsonSpace) (hclose : 0x3A ∉ close)
    (more : List JsonMember) :
    fieldBehind true (space.bytes ++ followingText close more) = wanted ↔
      NextFits wanted more := by
  rw [fieldBehind_append space.no_colon]
  cases more with
  | nil =>
      rw [followingText, fieldBehind_none hclose]
      exact eq_comm
  | cons next more =>
      have hgap : followingText close (next :: more) =
          (0x2C :: (next.beforeKey.bytes ++ [0x22])) ++
            next.keyText (followingText close more) := by
        rw [followingText, JsonMember.text, List.cons_append, List.append_assoc,
          List.singleton_append]
      have hplain : 0x3A ∉ 0x2C :: (next.beforeKey.bytes ++ [0x22]) := by
        rw [List.mem_cons, List.mem_append, List.mem_singleton, not_or, not_or]
        exact ⟨by decide, next.beforeKey.no_colon, by decide⟩
      rw [hgap, fieldBehind_append hplain]
      exact fieldBehind_keyText_iff next more _

theorem quotedField_following (member : JsonMember) (hclose : 0x22 ∉ close)
    (more : List JsonMember) :
    quotedField true (member.behindValue.bytes ++ followingText close more) =
      comma member more := by
  cases more with
  | nil =>
      refine quotedField_none ?_
      rw [followingText, List.mem_append, not_or]
      exact ⟨no_quote_of_plain member.behindValue.plain, hclose⟩
  | cons next more =>
      have hgap : member.behindValue.bytes ++ followingText close (next :: more) =
          (member.behindValue.bytes ++ 0x2C :: next.beforeKey.bytes) ++
            0x22 :: next.keyText (followingText close more) := by
        rw [followingText, JsonMember.text, List.append_assoc, List.cons_append]
      have hcomma : comma member (next :: more) =
          some (member.behindValue.bytes ++ 0x2C :: next.beforeKey.bytes) := rfl
      rw [hgap, quotedField_plain (plain_comma hcomma).1, hcomma]

theorem fieldBehind_valueText_iff (member : JsonMember) (hclose : Plain close ∧ 0x3A ∉ close)
    (more : List JsonMember) :
    fieldBehind true (member.valueText (followingText close more)) = wanted ↔
      ValueFits wanted member more := by
  rw [JsonMember.valueText, fieldBehind_escaped,
    quotedField_following member (no_quote_of_plain hclose.1), ValueFits]
  split
  · split
    · exact eq_comm
    · exact eq_comm
  · exact fieldBehind_following_iff member.behindValue hclose.2 more

/-- The search goes through a member: its key, what is behind the key, its value and, in `h`,
what follows the value. -/
theorem fieldOf_keyText_iff (key : JsonKey) (hclose : Plain close ∧ 0x3A ∉ close)
    {more : List JsonMember} {member : JsonMember}
    (h : fieldOf true key.bytes
        (0x22 :: (member.behindValue.bytes ++ followingText close more)) =
          lookup key.bytes more ↔
      if comma member more = some key.bytes then NextFits (lookup key.bytes more) more
      else FirstMatchFits key.bytes more) :
    fieldOf true key.bytes (0x22 :: member.keyText (followingText close more)) =
        lookup key.bytes (member :: more) ↔
      FirstMatchFits key.bytes (member :: more) := by
  have hquotes := no_quote_of_plain key.plain
  rw [JsonMember.keyText, fieldOf_piece hquotes (no_quote_of_plain member.key.plain), lookup,
    FirstMatchFits]
  by_cases hkey : member.key.bytes = key.bytes
  · rw [if_pos hkey, if_pos hkey, if_pos hkey, fieldBehind_colon]
    split
    · next hblank => exact iff_of_true rfl hblank
    · next hblank => exact iff_of_false (Option.some_ne_none _).symm hblank
  · rw [if_neg hkey, if_neg hkey, if_neg hkey,
      fieldOf_piece hquotes (no_quote_of_plain member.plain_colon)]
    by_cases hcolon : member.colon = key.bytes
    · rw [if_pos hcolon, if_pos hcolon]
      exact fieldBehind_valueText_iff member hclose more
    · have hvalue := @fieldOf_escaped true key.bytes []
        (member.behindValue.bytes ++ followingText close more) key.plain List.not_mem_nil
        member.value
      rw [List.nil_append, List.nil_append] at hvalue
      rw [if_neg hcolon, if_neg hcolon, JsonMember.valueText, hvalue]
      by_cases hlast : lastPiece (escaped member.value) = key.bytes
      · rw [if_pos hlast, if_pos (.inl hlast)]
        exact fieldBehind_following_iff member.behindValue hclose.2 more
      · rw [if_neg hlast, h]
        by_cases hcomma : comma member more = some key.bytes
        · rw [if_pos hcomma, if_pos (.inr hcomma)]
        · rw [if_neg hcomma, if_neg (not_or.mpr ⟨hlast, hcomma⟩)]

/-- The search goes on behind a value, over the comma to the next member. -/
theorem fieldOf_following_iff (key : JsonKey) (hclose : Plain close ∧ 0x3A ∉ close)
    (more : List JsonMember) (member : JsonMember) :
    fieldOf true key.bytes (0x22 :: (member.behindValue.bytes ++ followingText close more)) =
        lookup key.bytes more ↔
      if comma member more = some key.bytes then NextFits (lookup key.bytes more) more
      else FirstMatchFits key.bytes more := by
  induction more generalizing member with
  | nil =>
      have hnone : 0x22 ∉ member.behindValue.bytes ++ followingText close [] := by
        rw [followingText, List.mem_append, not_or]
        exact ⟨no_quote_of_plain member.behindValue.plain, no_quote_of_plain hclose.1⟩
      rw [fieldOf_none hnone, lookup, comma, if_neg (Option.some_ne_none _).symm]
      exact iff_of_true rfl trivial
  | cons next more ih =>
      have hgap : member.behindValue.bytes ++ followingText close (next :: more) =
          (member.behindValue.bytes ++ 0x2C :: next.beforeKey.bytes) ++
            0x22 :: next.keyText (followingText close more) := by
        rw [followingText, JsonMember.text, List.append_assoc, List.cons_append]
      have hcomma : comma member (next :: more) =
          some (member.behindValue.bytes ++ 0x2C :: next.beforeKey.bytes) := rfl
      rw [hgap, hcomma,
        fieldOf_piece (no_quote_of_plain key.plain) (no_quote_of_plain (plain_comma hcomma).1)]
      by_cases hsame : member.behindValue.bytes ++ 0x2C :: next.beforeKey.bytes = key.bytes
      · rw [if_pos hsame, if_pos (congrArg some hsame)]
        exact fieldBehind_keyText_iff next more _
      · rw [if_neg hsame, if_neg fun h => hsame (Option.some.inj h)]
        exact fieldOf_keyText_iff key hclose (ih next)

end

theorem sigExtractJsonStringField_text (object : FlatObject) (key : JsonKey)
    (allocated : Bool) :
    sigExtractJsonStringField object.text key.bytes allocated =
      fieldOf allocated key.bytes object.membersText := by
  have hfront : object.text = (object.front.bytes ++ [0x7B]) ++ object.membersText := by
    rw [FlatObject.text, List.append_assoc, List.singleton_append]
  have hplain : 0x22 ∉ object.front.bytes ++ [0x7B] := by
    rw [List.mem_append, List.mem_singleton, not_or]
    exact ⟨no_quote_of_plain object.front.plain, by decide⟩
  rw [sigExtractJsonStringField_eq, ← fieldOf, hfront, fieldOf_skip hplain]

/-- The object has for the key what the text gives exactly if the first match fits. -/
theorem fieldOf_membersText_iff (object : FlatObject) (key : JsonKey) :
    fieldOf true key.bytes object.membersText = lookup key.bytes object.members ↔
      FirstMatchFits key.bytes object.members := by
  have hclose := object.plain_close
  rw [FlatObject.membersText]
  cases object.members with
  | nil =>
      have hnone : 0x22 ∉ object.inside.bytes ++ object.close := by
        rw [List.mem_append, not_or]
        exact ⟨no_quote_of_plain object.inside.plain, no_quote_of_plain hclose.1⟩
      exact iff_of_true (fieldOf_no_quote hnone) trivial
  | cons member more =>
      dsimp only
      rw [JsonMember.text, fieldOf_skip (no_quote_of_plain member.beforeKey.plain)]
      exact fieldOf_keyText_iff key hclose (fieldOf_following_iff key hclose more member)

theorem extractsField_iff_lookup (object : FlatObject) (key : JsonKey) (allocated : Bool) :
    ExtractsField object key allocated ↔
      sigExtractJsonStringField object.text key.bytes allocated =
        lookup key.bytes object.members := by
  constructor
  · intro h
    by_cases hkey : ∃ member ∈ object.members, member.key.bytes = key.bytes
    · obtain ⟨member, hmember, hsame⟩ := hkey
      rw [h.present member hmember hsame, ← hsame, lookup_of_mem object.distinct hmember]
    · have hall : ∀ member ∈ object.members, member.key.bytes ≠ key.bytes :=
        fun member hmember hsame => hkey ⟨member, hmember, hsame⟩
      rw [h.absent hall, lookup_eq_none_iff.mpr hall]
  · intro h
    refine ⟨fun member hmember hsame => ?_, fun hall => ?_⟩
    · rw [h, ← hsame, lookup_of_mem object.distinct hmember]
    · rw [h, lookup_eq_none_iff.mpr hall]

theorem quotedField_not_allocated (text : List UInt8) : quotedField false text = none := by
  rw [quotedField]
  cases sigQuotedText none text with
  | none => rfl
  | some raw => rfl

theorem fieldBehind_not_allocated (text : List UInt8) : fieldBehind false text = none := by
  rw [fieldBehind]
  cases strchr text 0x3A with
  | none => rfl
  | some value =>
      rw [Option.bind_some]
      split
      · rfl
      · split
        · rfl
        · exact quotedField_not_allocated _

theorem fieldOf_not_allocated (key text : List UInt8) : fieldOf false key text = none := by
  rw [fieldOf]
  cases strstr (quoted key) text with
  | none => rfl
  | some found => exact fieldBehind_not_allocated _

/-- A key is answered rightly exactly if the first place where it stands between quotation marks
fits, or, without memory for the answer, if the object does not have it. -/
theorem extractsField_iff (object : FlatObject) (key : JsonKey) (allocated : Bool) :
    ExtractsField object key allocated ↔
      (allocated = true → FirstMatchFits key.bytes object.members) ∧
      (allocated = false → ∀ member ∈ object.members, member.key.bytes ≠ key.bytes) := by
  rw [extractsField_iff_lookup, sigExtractJsonStringField_text]
  cases allocated with
  | true =>
      rw [fieldOf_membersText_iff, and_iff_left (fun h => absurd h Bool.false_ne_true.symm)]
      exact ⟨fun h _ => h, fun h => h rfl⟩
  | false =>
      rw [fieldOf_not_allocated, eq_comm, lookup_eq_none_iff,
        and_iff_right (fun h => absurd h Bool.false_ne_true)]
      exact ⟨fun h _ => h, fun h => h rfl⟩

def noSpace : JsonSpace :=
  ⟨[], List.forall_mem_nil _⟩

/-- A member without white space. -/
def shortMember (key : JsonKey) (value : List UInt8) (hnul : 0x00 ∉ value)
    (hend : value.getLast? ≠ some 0x5C) : JsonMember :=
  ⟨noSpace, key, noSpace, noSpace, value, noSpace, hnul, hend⟩

def shortKey (c : UInt8) (h : Plain [c]) : JsonKey :=
  ⟨[c], by simp, h⟩

def bKey : JsonKey :=
  shortKey 0x62 (by decide +kernel)

/-- The first value is the text of a key that is not there. -/
def valueLikeKey : FlatObject where
  front := noSpace
  inside := noSpace
  members := [shortMember (shortKey 0x61 (by decide +kernel)) (ascii "b") (by decide) (by decide),
    shortMember (shortKey 0x78 (by decide +kernel)) (ascii "y") (by decide) (by decide)]
  behind := noSpace
  distinct := by decide

example : valueLikeKey.text = ascii "\x7b\"a\":\"b\",\"x\":\"y\"\x7d" := by decide

/-- The key `b` is found as the value of `a`, and then gets the value of `x`. -/
theorem extractsField_fails : ¬ ExtractsField valueLikeKey bKey true := by
  intro h
  have hnone := h.absent (by decide)
  have hsome : sigExtractJsonStringField valueLikeKey.text bKey.bytes true =
      some (ascii "y") := by decide +kernel
  rw [hsome] at hnone
  cases hnone

end TinyRtc.JsonFields
