import TinyRtc.Decimal

namespace TinyRtc.FormattedScan

open TinyRtc.Decimal

/-- The directives of a scanning format: a blank, a character that must stand there, `%Ns`
and `%*d`. -/
inductive Directive where
  | blank
  | literal (c : UInt8)
  | word (width : Nat)
  | skipNumber
  deriving DecidableEq, Repr

def skipSpaces (text : List UInt8) : List UInt8 :=
  text.dropWhile isSpace

/-- `sscanf`: what has been assigned when a directive fails or the format ends. -/
def sscanf : List Directive → List UInt8 → List (List UInt8)
  | [], _ => []
  | .blank :: format, text => sscanf format (skipSpaces text)
  | .literal _ :: _, [] => []
  | .literal c :: format, d :: text => if c = d then sscanf format text else []
  | .word width :: format, text =>
      let text := skipSpaces text
      let word := (text.takeWhile fun c => !isSpace c).take width
      if word = [] then [] else word :: sscanf format (text.drop word.length)
  | .skipNumber :: format, text =>
      match scanNumber text with
      | none => []
      | some (_, _, rest) => sscanf format rest

/-- What does not begin with more of a word. -/
def EndsWord (rest : List UInt8) : Prop :=
  ∀ c ∈ rest.head?, isSpace c = true

theorem endsWord_nil : EndsWord [] :=
  fun _ h => by cases h

theorem endsWord_space (text : List UInt8) : EndsWord (0x20 :: text) := by
  rintro c hc
  cases hc
  rfl

/-- A text that `%s` takes as a whole if there is room for it. -/
structure Word (text : List UInt8) : Prop where
  no_space : ∀ c ∈ text, isSpace c = false
  ne_nil : text ≠ []

theorem Word.takeWhile_append {word rest : List UInt8} (hword : Word word) (hrest : EndsWord rest) :
    ((word ++ rest).takeWhile fun c => !isSpace c) = word := by
  rw [List.takeWhile_append_of_pos (by simpa using hword.no_space)]
  cases rest with
  | nil => rw [List.takeWhile_nil, List.append_nil]
  | cons c rest =>
      have hc : isSpace c = true := hrest c rfl
      rw [List.takeWhile_cons_of_neg (by simp [hc]), List.append_nil]

theorem Word.skipSpaces_append {word : List UInt8} (hword : Word word) (rest : List UInt8) :
    skipSpaces (word ++ rest) = word ++ rest := by
  obtain ⟨c, tail, rfl⟩ := List.exists_cons_of_ne_nil hword.ne_nil
  have hc := hword.no_space c List.mem_cons_self
  rw [skipSpaces, List.cons_append, List.dropWhile_cons_of_neg (by simp [hc])]

section

variable (format : List Directive)

theorem sscanf_blank_space (text : List UInt8) :
    sscanf (.blank :: format) (0x20 :: text) = sscanf (.blank :: format) text := by
  rw [sscanf, sscanf, skipSpaces, List.dropWhile_cons_of_pos (by decide), skipSpaces]

theorem sscanf_blank_word {word : List UInt8} (hword : Word word) (rest : List UInt8) :
    sscanf (.blank :: format) (word ++ rest) = sscanf format (word ++ rest) := by
  rw [sscanf, hword.skipSpaces_append]

theorem sscanf_word {word rest : List UInt8} (hword : Word word) (hrest : EndsWord rest)
    {width : Nat} (hwidth : word.length ≤ width) :
    sscanf (.word width :: format) (word ++ rest) = word :: sscanf format rest := by
  rw [sscanf, hword.skipSpaces_append, hword.takeWhile_append hrest,
    List.take_of_length_le hwidth, if_neg hword.ne_nil, List.drop_left]

theorem sscanf_skipNumber (n : Nat) {rest : List UInt8} (hrest : EndsNumber rest) :
    sscanf (.skipNumber :: format) (decimal n ++ rest) = sscanf format rest := by
  rw [sscanf, scanNumber_decimal n hrest]

theorem sscanf_literal (c : UInt8) (text : List UInt8) :
    sscanf (.literal c :: format) (c :: text) = sscanf format text := by
  rw [sscanf, if_pos rfl]

/-- A word behind a blank. -/
theorem sscanf_next_word {word rest : List UInt8} (hword : Word word) (hrest : EndsWord rest)
    {width : Nat} (hwidth : word.length ≤ width) :
    sscanf (.blank :: .word width :: format) (0x20 :: (word ++ rest)) =
      word :: sscanf format rest := by
  rw [sscanf_blank_space, sscanf_blank_word _ hword, sscanf_word _ hword hrest hwidth]

theorem word_decimal (n : Nat) : Word (decimal n) where
  no_space c hc := (digit_not_space_sign c (decimal_isDigit n c hc)).1
  ne_nil := decimal_ne_nil n

theorem sscanf_next_number (n : Nat) {rest : List UInt8} (hrest : EndsNumber rest) :
    sscanf (.blank :: .skipNumber :: format) (0x20 :: (decimal n ++ rest)) =
      sscanf format rest := by
  rw [sscanf_blank_space, sscanf_blank_word _ (word_decimal n), sscanf_skipNumber _ n hrest]

end

end TinyRtc.FormattedScan
