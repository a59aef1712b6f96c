import Mathlib.Data.List.DropRight

namespace TinyRtc.CString

def ascii (s : String) : List UInt8 :=
  s.toList.map fun c => c.toNat.toUInt8

theorem bne_of_not_mem {stop : UInt8} {text : List UInt8} (h : stop ∉ text) :
    ∀ c ∈ text, (c != stop) = true := by
  intro c hc
  rw [bne_iff_ne]
  rintro rfl
  exact h hc

/-- `toupper` in the C locale. -/
def toUpper (c : UInt8) : UInt8 :=
  if 0x61 ≤ c && c ≤ 0x7A then c - 0x20 else c

/-- `strcasecmp(a, b) == 0`. -/
def strcaseEq (a b : List UInt8) : Bool :=
  a.map toUpper == b.map toUpper

/-- A `char` array of `cap` bytes with a NUL-terminated string in it. -/
@[ext]
structure CStr (cap : Nat) where
  bytes : List UInt8
  no_nul : 0x00 ∉ bytes
  length_le : bytes.length ≤ cap - 1
  deriving DecidableEq

def CStr.empty {cap : Nat} : CStr cap :=
  ⟨[], List.not_mem_nil, Nat.zero_le _⟩

instance {cap : Nat} : Inhabited (CStr cap) :=
  ⟨.empty⟩

@[simp] theorem CStr.empty_bytes {cap : Nat} : (CStr.empty : CStr cap).bytes = [] := rfl

/-- `strncpy` of at most `cap - 1` bytes of a string into a zero-filled array. -/
def CStr.strncpy {cap : Nat} (src : List UInt8) : CStr cap where
  bytes := (src.takeWhile (· != 0x00)).take (cap - 1)
  no_nul := fun h => by simpa using List.mem_takeWhile_imp (List.mem_of_mem_take h)
  length_le := List.length_take_le _ _

/-- `strcpy` into an array that is at least as large. -/
def CStr.strcpy {cap n : Nat} (src : CStr n) (h : n ≤ cap) : CStr cap :=
  ⟨src.bytes, src.no_nul, Nat.le_trans src.length_le (Nat.sub_le_sub_right h 1)⟩

@[simp] theorem CStr.strcpy_bytes {cap n : Nat} (src : CStr n) (h : n ≤ cap) :
    (src.strcpy h).bytes = src.bytes :=
  rfl

theorem CStr.strncpy_bytes_of_le {cap n : Nat} (src : CStr n)
    (h : src.bytes.length ≤ cap - 1) : (CStr.strncpy src.bytes : CStr cap).bytes = src.bytes := by
  change (src.bytes.takeWhile (· != 0x00)).take (cap - 1) = src.bytes
  rw [List.takeWhile_eq_self_iff.mpr (bne_of_not_mem src.no_nul), List.take_of_length_le h]

@[simp] theorem CStr.strncpy_self {cap : Nat} (src : CStr cap) :
    CStr.strncpy src.bytes = src :=
  CStr.ext (src.strncpy_bytes_of_le src.length_le)

/-- Taking a prefix up to a stop byte and leaving the rest: what a scanning loop
does with text that holds no stop byte. -/
theorem takeWhile_append_stop {p : UInt8 → Bool} {text rest : List UInt8} {stop : UInt8}
    (htext : ∀ c ∈ text, p c = true) (hstop : p stop = false) :
    (text ++ stop :: rest).takeWhile p = text := by
  rw [List.takeWhile_append_of_pos htext, List.takeWhile_cons_of_neg (by simp [hstop]),
    List.append_nil]

theorem dropWhile_append_stop {p : UInt8 → Bool} {text rest : List UInt8} {stop : UInt8}
    (htext : ∀ c ∈ text, p c = true) (hstop : p stop = false) :
    (text ++ stop :: rest).dropWhile p = stop :: rest := by
  rw [List.dropWhile_append_of_pos htext, List.dropWhile_cons_of_neg (by simp [hstop])]

section

variable {α : Type*} {q : α → Bool} {stop : α}

theorem dropWhile_append_cons (h : q stop = false) (p junk : List α) :
    (p ++ stop :: junk).dropWhile q = p.dropWhile q ++ stop :: junk := by
  rw [List.dropWhile_append, List.dropWhile_cons_of_neg (by rw [h]; exact Bool.false_ne_true)]
  split
  · next hempty =>
    rw [List.isEmpty_iff.mp hempty, List.nil_append]
  · rfl

theorem takeWhile_append_cons (h : q stop = false) (p junk : List α) :
    (p ++ stop :: junk).takeWhile q = p.takeWhile q := by
  rw [List.takeWhile_append, List.takeWhile_cons_of_neg (by rw [h]; exact Bool.false_ne_true)]
  split
  · next hwhole =>
    rw [List.append_nil]
    exact ((List.takeWhile_prefix q).eq_of_length hwhole).symm
  · rfl

end

/-- `strchr`: the text from the first `c` on. -/
def strchr (text : List UInt8) (c : UInt8) : Option (List UInt8) :=
  match text.dropWhile (· != c) with
  | [] => none
  | rest => some rest

theorem strchr_append {c : UInt8} {front : List UInt8} (h : c ∉ front) (text : List UInt8) :
    strchr (front ++ text) c = strchr text c := by
  rw [strchr, strchr, List.dropWhile_append_of_pos (bne_of_not_mem h)]

/-- `strstr`: the text from the first place on where the pattern stands. -/
def strstr (pattern : List UInt8) : List UInt8 → Option (List UInt8)
  | [] => if pattern = [] then some [] else none
  | c :: text =>
      if pattern.isPrefixOf (c :: text) then some (c :: text) else strstr pattern text

/-- What stands behind the first place makes no difference to it. -/
theorem strstr_append {pattern front : List UInt8}
    (h : strstr pattern (front ++ pattern) = some pattern) (rest : List UInt8) :
    strstr pattern (front ++ (pattern ++ rest)) = some (pattern ++ rest) := by
  induction front with
  | nil =>
      rw [List.nil_append]
      cases hwhole : pattern ++ rest with
      | nil => rw [strstr, if_pos (List.append_eq_nil_iff.mp hwhole).1]
      | cons c text =>
          have hfound : pattern.isPrefixOf (c :: text) = true := by
            rw [List.isPrefixOf_iff_prefix, ← hwhole]
            exact List.prefix_append pattern rest
          rw [strstr, if_pos hfound]
  | cons c front ih =>
      rw [List.cons_append, strstr] at h ⊢
      split at h
      · have hlength := congrArg List.length (Option.some.inj h)
        rw [List.length_cons, List.length_append] at hlength
        omega
      · next hnot =>
        rw [if_neg, ih h]
        rw [List.isPrefixOf_iff_prefix] at hnot ⊢
        intro hfound
        apply hnot
        rw [← List.append_assoc, ← List.cons_append] at hfound
        refine List.prefix_of_prefix_length_le hfound (List.prefix_append _ rest) ?_
        rw [List.length_cons, List.length_append]
        omega

section

variable {stop : UInt8} {key front rest : List UInt8}

/-- A text without the stop byte is passed over. -/
theorem strstr_delimited_skip (hfront : stop ∉ front) :
    strstr (stop :: (key ++ [stop])) (front ++ rest) = strstr (stop :: (key ++ [stop])) rest := by
  induction front with
  | nil => rfl
  | cons c front ih =>
      rw [List.mem_cons, not_or] at hfront
      rw [List.cons_append, strstr, if_neg, ih hfront.2]
      rw [List.isPrefixOf_iff_prefix, List.cons_prefix_cons]
      exact fun hbegins => hfront.1 hbegins.1

theorem strstr_delimited_none (hfront : stop ∉ front) :
    strstr (stop :: (key ++ [stop])) front = none := by
  have hskip := @strstr_delimited_skip stop key front [] hfront
  rw [List.append_nil] at hskip
  rw [hskip]
  rfl

theorem strstr_delimited_last (hfront : stop ∉ front) :
    strstr (stop :: (key ++ [stop])) (stop :: front) = none := by
  rw [strstr, if_neg, strstr_delimited_none hfront]
  rw [List.isPrefixOf_iff_prefix, List.cons_prefix_cons, and_iff_right rfl]
  exact fun hbegins => hfront (hbegins.subset (by simp))

theorem prefix_delimited_iff (hkey : stop ∉ key) (hfront : stop ∉ front) :
    key ++ [stop] <+: front ++ stop :: rest ↔ front = key := by
  have hstop : (stop != stop) = false := by simp
  constructor
  · rintro ⟨behind, hbehind⟩
    have htake := congrArg (List.takeWhile (· != stop)) hbehind
    rw [List.append_assoc, List.singleton_append,
      takeWhile_append_stop (bne_of_not_mem hkey) hstop,
      takeWhile_append_stop (bne_of_not_mem hfront) hstop] at htake
    exact htake.symm
  · rintro rfl
    exact ⟨rest, by simp⟩

/-- A text between two stop bytes is the key, or is left behind. -/
theorem strstr_delimited (hkey : stop ∉ key) (hfront : stop ∉ front) :
    strstr (stop :: (key ++ [stop])) (stop :: (front ++ stop :: rest)) =
      if front = key then some (stop :: (front ++ stop :: rest))
      else strstr (stop :: (key ++ [stop])) (stop :: rest) := by
  have hbegins : (stop :: (key ++ [stop])).isPrefixOf (stop :: (front ++ stop :: rest)) = true ↔
      front = key := by
    rw [List.isPrefixOf_iff_prefix, List.cons_prefix_cons, and_iff_right rfl,
      prefix_delimited_iff hkey hfront]
  rw [strstr]
  split
  · next hfound => rw [if_pos (hbegins.mp hfound)]
  · next hnot => rw [if_neg fun hsame => hnot (hbegins.mpr hsame), strstr_delimited_skip hfront]

end

end TinyRtc.CString
