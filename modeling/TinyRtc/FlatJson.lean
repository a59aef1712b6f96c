import TinyRtc.SignalingCandidates

namespace TinyRtc.FlatJson

open TinyRtc.CString
open TinyRtc.Signaling
open TinyRtc.SignalingCandidates
open TinyRtc.SignalingEscape

def isJsonSpace (c : UInt8) : Bool :=
  c == 0x20 || c == 0x09 || c == 0x0A || c == 0x0D

/-- White space between two tokens. -/
structure JsonSpace where
  bytes : List UInt8
  spaces : ∀ c ∈ bytes, isJsonSpace c = true

structure JsonKey where
  bytes : List UInt8
  length_le : bytes.length ≤ 61
  plain : Plain bytes

/-- A member with a string for its value; the value is given as it is before the escape. -/
structure JsonMember where
  beforeKey : JsonSpace
  key : JsonKey
  behindKey : JsonSpace
  beforeValue : JsonSpace
  value : List UInt8
  behindValue : JsonSpace
  value_no_nul : 0x00 ∉ value
  value_end : value.getLast? ≠ some 0x5C

/-- A flat object; `inside` is what stands between the braces when there are no members. -/
structure FlatObject where
  front : JsonSpace
  inside : JsonSpace
  members : List JsonMember
  behind : JsonSpace
  distinct : (members.map fun member => member.key.bytes).Nodup

/-- What stands between the key and the value. -/
def JsonMember.colon (member : JsonMember) : List UInt8 :=
  member.behindKey.bytes ++ 0x3A :: member.beforeValue.bytes

/-- The text from behind the value's opening quotation mark on. -/
def JsonMember.valueText (member : JsonMember) (rest : List UInt8) : List UInt8 :=
  escaped member.value ++ 0x22 :: (member.behindValue.bytes ++ rest)

/-- The text from behind the key's opening quotation mark on. -/
def JsonMember.keyText (member : JsonMember) (rest : List UInt8) : List UInt8 :=
  member.key.bytes ++ 0x22 :: (member.colon ++ 0x22 :: member.valueText rest)

def JsonMember.text (member : JsonMember) (rest : List UInt8) : List UInt8 :=
  member.beforeKey.bytes ++ 0x22 :: member.keyText rest

/-- The members that follow a member, each behind its comma. -/
def followingText (close : List UInt8) : List JsonMember → List UInt8
  | [] => close
  | member :: more => 0x2C :: member.text (followingText close more)

def FlatObject.close (object : FlatObject) : List UInt8 :=
  0x7D :: object.behind.bytes

def FlatObject.membersText (object : FlatObject) : List UInt8 :=
  match object.members with
  | [] => object.inside.bytes ++ object.close
  | member :: more => member.text (followingText object.close more)

def FlatObject.text (object : FlatObject) : List UInt8 :=
  object.front.bytes ++ 0x7B :: object.membersText

/-- What stands between the value's closing quotation mark and the next key. -/
def comma (member : JsonMember) : List JsonMember → Option (List UInt8)
  | [] => none
  | next :: _ => some (member.behindValue.bytes ++ 0x2C :: next.beforeKey.bytes)

/-- The value that the members have for a key. -/
def lookup (key : List UInt8) : List JsonMember → Option (List UInt8)
  | [] => none
  | member :: more => if member.key.bytes = key then some member.value else lookup key more

section

variable {key : List UInt8} {members : List JsonMember}

theorem lookup_eq_none_iff :
    lookup key members = none ↔ ∀ member ∈ members, member.key.bytes ≠ key := by
  induction members with
  | nil => exact iff_of_true rfl (List.forall_mem_nil _)
  | cons first more ih =>
      rw [lookup, List.forall_mem_cons]
      split
      · next hfirst => exact iff_of_false (Option.some_ne_none _) fun hall => hall.1 hfirst
      · next hfirst => rw [ih, and_iff_right hfirst]

theorem lookup_of_mem (hdistinct : (members.map fun member => member.key.bytes).Nodup)
    {member : JsonMember} (hmember : member ∈ members) :
    lookup member.key.bytes members = some member.value := by
  induction members with
  | nil => cases hmember
  | cons first more ih =>
      rw [List.map_cons, List.nodup_cons] at hdistinct
      rw [lookup]
      rcases List.mem_cons.mp hmember with rfl | hmore
      · rw [if_pos rfl]
      · rw [if_neg, ih hdistinct.2 hmore]
        exact fun hsame => hdistinct.1 (hsame ▸ List.mem_map_of_mem hmore)

end

theorem plain_of_isJsonSpace :
    ∀ c : UInt8, isJsonSpace c = true → (c ≠ 0x22 ∧ c ≠ 0x5C ∧ c ≠ 0x00) ∧ c ≠ 0x3A := by
  decide +kernel

theorem JsonSpace.plain (space : JsonSpace) : Plain space.bytes :=
  fun c hc => (plain_of_isJsonSpace c (space.spaces c hc)).1

theorem JsonSpace.no_colon (space : JsonSpace) : 0x3A ∉ space.bytes :=
  fun h => (plain_of_isJsonSpace _ (space.spaces _ h)).2 rfl

theorem JsonMember.plain_colon (member : JsonMember) : Plain member.colon :=
  plain_append_iff.mpr ⟨member.behindKey.plain,
    plain_cons_iff.mpr ⟨by decide, member.beforeValue.plain⟩⟩

theorem plain_comma {member : JsonMember} {more : List JsonMember} {text : List UInt8}
    (h : comma member more = some text) : Plain text ∧ 0x3A ∉ text := by
  cases more with
  | nil => cases h
  | cons next more =>
      cases h
      refine ⟨plain_append_iff.mpr ⟨member.behindValue.plain,
        plain_cons_iff.mpr ⟨by decide, next.beforeKey.plain⟩⟩, ?_⟩
      rw [List.mem_append, List.mem_cons, not_or, not_or]
      exact ⟨member.behindValue.no_colon, by decide, next.beforeKey.no_colon⟩

theorem no_quote_of_plain {text : List UInt8} (h : Plain text) : 0x22 ∉ text :=
  fun hmem => (h _ hmem).1 rfl

theorem no_nul_of_plain {text : List UInt8} (h : Plain text) : 0x00 ∉ text :=
  fun hmem => (h _ hmem).2.2 rfl

theorem FlatObject.plain_close (object : FlatObject) :
    Plain object.close ∧ 0x3A ∉ object.close := by
  refine ⟨plain_cons_iff.mpr ⟨by decide, object.behind.plain⟩, ?_⟩
  rw [FlatObject.close, List.mem_cons, not_or]
  exact ⟨by decide, object.behind.no_colon⟩

theorem not_mem_nul_escaped {text : List UInt8} (h : 0x00 ∉ text) : 0x00 ∉ escaped text := by
  intro hmem
  obtain ⟨c, hc, hmem⟩ := List.mem_flatMap.mp hmem
  have hplain : ∀ c : UInt8, 0x00 ∈ sigEscape c → c = 0x00 := by
    decide +kernel
  exact h (hplain c hmem ▸ hc)

theorem JsonMember.not_mem_nul_text (member : JsonMember) {rest : List UInt8}
    (hrest : 0x00 ∉ rest) : 0x00 ∉ member.text rest := by
  have hquote : (0x00 : UInt8) ≠ 0x22 := by decide
  simp only [JsonMember.text, JsonMember.keyText, JsonMember.valueText, List.mem_append,
    List.mem_cons, not_or]
  exact ⟨no_nul_of_plain member.beforeKey.plain, hquote, no_nul_of_plain member.key.plain, hquote,
    no_nul_of_plain member.plain_colon, hquote, not_mem_nul_escaped member.value_no_nul, hquote,
    no_nul_of_plain member.behindValue.plain, hrest⟩

theorem not_mem_nul_followingText {close : List UInt8} (hclose : 0x00 ∉ close)
    (members : List JsonMember) : 0x00 ∉ followingText close members := by
  induction members with
  | nil => exact hclose
  | cons member more ih =>
      rw [followingText, List.mem_cons, not_or]
      exact ⟨by decide, member.not_mem_nul_text ih⟩

/-- The text is a C string. -/
theorem FlatObject.not_mem_nul_text (object : FlatObject) : 0x00 ∉ object.text := by
  have hclose := no_nul_of_plain object.plain_close.1
  have hmembers : 0x00 ∉ object.membersText := by
    rw [FlatObject.membersText]
    split
    · rw [List.mem_append, not_or]
      exact ⟨no_nul_of_plain object.inside.plain, hclose⟩
    · exact JsonMember.not_mem_nul_text _ (not_mem_nul_followingText hclose _)
  rw [FlatObject.text, List.mem_append, List.mem_cons, not_or, not_or]
  exact ⟨no_nul_of_plain object.front.plain, by decide, hmembers⟩

end TinyRtc.FlatJson
