import Mathlib.Data.List.Basic

namespace TinyRtc.LineEnds

variable {α : Type*}

/-- Two texts with the same lines. A line feed ends a line in each of them, and in the first
there may be a carriage return in front of it. -/
inductive SameLines (cr lf : α) : List α → List α → Prop
  | nil : SameLines cr lf [] []
  | char {c : α} {p q : List α} :
      c ≠ cr → c ≠ lf → SameLines cr lf p q → SameLines cr lf (c :: p) (c :: q)
  | crlf {p q : List α} : SameLines cr lf p q → SameLines cr lf (cr :: lf :: p) (lf :: q)
  | feed {p q : List α} : SameLines cr lf p q → SameLines cr lf (lf :: p) (lf :: q)

/-- The lines, each with a line end behind it. -/
def joinLines (lineEnd : List α) (lines : List (List α)) : List α :=
  lines.flatMap fun line => line ++ lineEnd

theorem joinLines_cons (lineEnd line : List α) (lines : List (List α)) :
    joinLines lineEnd (line :: lines) = line ++ (lineEnd ++ joinLines lineEnd lines) := by
  rw [joinLines, List.flatMap_cons, List.append_assoc]
  rfl

section

variable {cr lf : α} {p q : List α}

theorem SameLines.append {line : List α} (hline : ∀ c ∈ line, c ≠ cr ∧ c ≠ lf)
    (h : SameLines cr lf p q) : SameLines cr lf (line ++ p) (line ++ q) := by
  induction line with
  | nil => exact h
  | cons c line ih =>
      obtain ⟨hc, hline⟩ := List.forall_mem_cons.mp hline
      exact .char hc.1 hc.2 (ih hline)

theorem sameLines_joinLines {lines : List (List α)}
    (h : ∀ line ∈ lines, ∀ c ∈ line, c ≠ cr ∧ c ≠ lf) :
    SameLines cr lf (joinLines [cr, lf] lines) (joinLines [lf] lines) := by
  induction lines with
  | nil => exact .nil
  | cons line lines ih =>
      obtain ⟨hline, hlines⟩ := List.forall_mem_cons.mp h
      rw [joinLines_cons, joinLines_cons]
      exact .append hline (.crlf (ih hlines))

/-- A scan that goes over a line feed has gone over the carriage return in front of it. -/
theorem SameLines.dropWhile {f : α → Bool} (hf : f lf = true → f cr = true)
    (h : SameLines cr lf p q) : SameLines cr lf (p.dropWhile f) (q.dropWhile f) := by
  induction h with
  | nil => exact .nil
  | @char c p q hcr hlf hsame ih =>
      rw [List.dropWhile_cons, List.dropWhile_cons]
      split
      · exact ih
      · exact .char hcr hlf hsame
  | @crlf p q hsame ih =>
      rw [List.dropWhile_cons, List.dropWhile_cons, List.dropWhile_cons]
      by_cases hfeed : f lf = true
      · rw [if_pos (hf hfeed), if_pos hfeed, if_pos hfeed]
        exact ih
      · rw [if_neg hfeed, if_neg hfeed]
        split
        · exact .feed hsame
        · exact .crlf hsame
  | @feed p q hsame ih =>
      rw [List.dropWhile_cons, List.dropWhile_cons]
      split
      · exact ih
      · exact .feed hsame

theorem SameLines.takeWhile_eq {f : α → Bool} (hcr : f cr = false) (hlf : f lf = false)
    (h : SameLines cr lf p q) : p.takeWhile f = q.takeWhile f := by
  induction h with
  | nil => rfl
  | @char c p q _ _ _ ih => rw [List.takeWhile_cons, List.takeWhile_cons, ih]
  | @crlf p q _ _ =>
      rw [List.takeWhile_cons_of_neg (Bool.not_eq_true _ ▸ hcr),
        List.takeWhile_cons_of_neg (Bool.not_eq_true _ ▸ hlf)]
  | @feed p q _ _ =>
      rw [List.takeWhile_cons_of_neg (Bool.not_eq_true _ ▸ hlf),
        List.takeWhile_cons_of_neg (Bool.not_eq_true _ ▸ hlf)]

theorem SameLines.head?_eq_some_iff {c : α} (hcr : c ≠ cr) (hlf : c ≠ lf)
    (h : SameLines cr lf p q) : p.head? = some c ↔ q.head? = some c := by
  have hends : ∀ {stop : α} {rest : List α}, c ≠ stop → ¬ (stop :: rest).head? = some c :=
    fun hne hhead => hne (Option.some.inj hhead).symm
  cases h with
  | nil => exact Iff.rfl
  | char _ _ _ => exact Iff.rfl
  | crlf _ => exact iff_of_false (hends hcr) (hends hlf)
  | feed _ => exact iff_of_false (hends hlf) (hends hlf)

theorem SameLines.tail {c : α} (hcr : c ≠ cr) (h : SameLines cr lf p q)
    (hhead : p.head? = some c) : SameLines cr lf p.tail q.tail := by
  cases h with
  | nil => cases hhead
  | char _ _ hsame => exact hsame
  | crlf _ => exact absurd (Option.some.inj hhead).symm hcr
  | feed hsame => exact hsame

end

/-- A place behind a line end, where no line end stands, is the beginning of a line. -/
theorem exists_line {isEnd : α → Bool} {lineEnd : List α} {lines : List (List α)}
    (hlineEnd : ∀ c ∈ lineEnd, isEnd c = true)
    (hlines : ∀ line ∈ lines, ∀ c ∈ line, isEnd c = false) {front rest : List α} {c : α}
    (htext : joinLines lineEnd lines = front ++ c :: rest) (hc : isEnd c = false)
    (hfront : ∀ last ∈ front.getLast?, isEnd last = true) :
    ∃ line ∈ lines, ∃ behind, c :: rest = line ++ (lineEnd ++ behind) := by
  induction lines generalizing front with
  | nil => exact absurd htext.symm (by simp [joinLines])
  | cons line lines ih =>
      obtain ⟨hline, hlines⟩ := List.forall_mem_cons.mp hlines
      have hlater : ∀ {front' : List α}, joinLines lineEnd lines = front' ++ c :: rest →
          (∀ last ∈ front'.getLast?, isEnd last = true) →
          ∃ other ∈ line :: lines, ∃ behind, c :: rest = other ++ (lineEnd ++ behind) := by
        intro front' htext' hfront'
        obtain ⟨other, hmem, behind, hother⟩ := ih hlines htext' hfront'
        exact ⟨other, List.mem_cons_of_mem line hmem, behind, hother⟩
      rw [joinLines_cons] at htext
      rcases List.append_eq_append_iff.mp htext with
        ⟨before, rfl, hbehind⟩ | ⟨before, rfl, hbehind⟩
      · rcases List.append_eq_append_iff.mp hbehind with
          ⟨front', rfl, htext'⟩ | ⟨ends, rfl, hends⟩
        · refine hlater htext' fun last hlast => hfront last ?_
          rw [List.getLast?_append, List.getLast?_append, Option.mem_def.mp hlast]
          rfl
        · cases ends with
          | nil => exact @hlater [] hends.symm fun _ hlast => by cases hlast
          | cons stop ends =>
              have hstop := hlineEnd stop (List.mem_append_right before List.mem_cons_self)
              rw [← (List.cons.inj hends).1, hc] at hstop
              cases hstop
      · rcases List.eq_nil_or_concat front with rfl | ⟨front, last, rfl⟩
        · exact ⟨before, List.mem_cons_self, _, hbehind⟩
        · -- The line would have a line end in it.
          have hlast := hfront last (by rw [List.concat_eq_append, List.getLast?_concat]; rfl)
          rw [hline last (by simp)] at hlast
          cases hlast

end TinyRtc.LineEnds
