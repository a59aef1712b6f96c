import TinyRtc.CString
import TinyRtc.LineEnds

namespace TinyRtc.HeaderLines

open TinyRtc.CString
open TinyRtc.LineEnds

def cr : UInt8 := 0x0D

def lf : UInt8 := 0x0A

/-- The line end of a message header. -/
def crlf : List UInt8 :=
  [cr, lf]

/-- The head of a message: its lines, and the empty line that ends it. -/
def messageHead (lines : List (List UInt8)) : List UInt8 :=
  joinLines crlf lines ++ crlf

/-- A line of the head: not the empty one, and in one piece. -/
structure HeaderLine (line : List UInt8) : Prop where
  ne_nil : line ≠ []
  no_cr : cr ∉ line
  no_nul : 0x00 ∉ line

theorem messageHead_cons (line : List UInt8) (lines : List (List UInt8)) :
    messageHead (line :: lines) = line ++ cr :: lf :: messageHead lines := by
  rw [messageHead, joinLines_cons, messageHead, List.append_assoc, List.append_assoc]
  rfl

theorem messageHead_ends (lines : List (List UInt8)) (hne : lines ≠ []) :
    crlf ++ crlf <:+ messageHead lines := by
  obtain ⟨lines, last, rfl⟩ := List.eq_nil_or_concat lines |>.resolve_left hne
  refine ⟨joinLines crlf lines ++ last, ?_⟩
  rw [messageHead, List.concat_eq_append, joinLines, joinLines, List.flatMap_append,
    List.flatMap_singleton]
  simp only [List.append_assoc]

/-- What comes first where the stop byte stands, if it does not stand in the front. -/
theorem append_stop_eq {stop : UInt8} {line rest front behind : List UInt8} (h : stop ∉ line)
    (hsplit : line ++ rest = front ++ stop :: behind) :
    ∃ more, front = line ++ more ∧ rest = more ++ stop :: behind := by
  rcases List.append_eq_append_iff.mp hsplit with ⟨more, hfront, hrest⟩ | ⟨more, hline, hrest⟩
  · exact ⟨more, hfront, hrest⟩
  · cases more with
    | nil =>
        rw [List.append_nil] at hline
        exact ⟨[], by rw [hline, List.append_nil], hrest.symm⟩
    | cons c more =>
        obtain ⟨rfl, -⟩ := List.cons.inj hrest
        rw [hline] at h
        exact absurd (List.mem_append_right _ List.mem_cons_self) h

/-- The first empty line is the one at the end. -/
theorem messageHead_eq_append {lines : List (List UInt8)} (h : ∀ line ∈ lines, HeaderLine line)
    {front behind : List UInt8} (hsplit : messageHead lines = front ++ (crlf ++ crlf ++ behind)) :
    behind = [] := by
  have hshort : messageHead [] = crlf := rfl
  induction lines generalizing front with
  | nil =>
      have hlength := congrArg List.length hsplit
      simp only [hshort, crlf, List.length_append, List.length_cons, List.length_nil] at hlength
      omega
  | cons line lines ih =>
      obtain ⟨hline, hlines⟩ := List.forall_mem_cons.mp h
      have hempty : crlf ++ crlf ++ behind = cr :: lf :: cr :: lf :: behind := rfl
      rw [messageHead_cons, hempty] at hsplit
      obtain ⟨more, -, hrest⟩ := append_stop_eq hline.no_cr hsplit
      -- the empty line does not begin with this line's own end, unless it is the last one
      match more with
      | [] =>
          cases lines with
          | nil =>
              rw [hshort, crlf] at hrest
              simpa using hrest
          | cons next rest =>
              have hnext := hlines _ List.mem_cons_self
              obtain ⟨c, text, rfl⟩ := List.exists_cons_of_ne_nil hnext.ne_nil
              rw [messageHead_cons] at hrest
              have hc : c = cr := by
                simp only [List.nil_append, List.cons_append, List.cons.injEq] at hrest
                exact hrest.2.2.1
              exact absurd (hc ▸ List.mem_cons_self) hnext.no_cr
      | [c] =>
          simp only [List.nil_append, List.cons_append, List.cons.injEq] at hrest
          exact absurd hrest.2.1 (by decide)
      | c :: d :: more =>
          simp only [List.cons_append, List.cons.injEq] at hrest
          exact ih hlines hrest.2.2

/-- No shorter text that the head begins with ends with an empty line. -/
theorem eq_messageHead_of_prefix {lines : List (List UInt8)}
    (h : ∀ line ∈ lines, HeaderLine line) {p : List UInt8} (hp : p <+: messageHead lines)
    (hends : crlf ++ crlf <:+ p) : p = messageHead lines := by
  obtain ⟨behind, hbehind⟩ := hp
  obtain ⟨front, rfl⟩ := hends
  have hsplit : messageHead lines = front ++ (crlf ++ crlf ++ behind) := by
    rw [← hbehind, List.append_assoc]
  rw [← hbehind, messageHead_eq_append h hsplit, List.append_nil]

/-- A pattern that is not empty, without the stop byte, stands in front of one or behind it. -/
theorem strstr_stop {pattern : List UInt8} {stop : UInt8} (hne : pattern ≠ [])
    (hstop : stop ∉ pattern) (line rest : List UInt8) :
    strstr pattern (line ++ stop :: rest) =
      ((strstr pattern line).map (· ++ stop :: rest)).or (strstr pattern rest) := by
  induction line with
  | nil =>
      have hnone : strstr pattern [] = none := if_neg hne
      obtain ⟨c, pattern, rfl⟩ := List.exists_cons_of_ne_nil hne
      rw [hnone, List.nil_append, strstr, if_neg, Option.map_none, Option.none_or]
      rw [List.isPrefixOf_iff_prefix, List.cons_prefix_cons]
      rintro ⟨rfl, -⟩
      exact hstop List.mem_cons_self
  | cons c line ih =>
      have hbegins : pattern.isPrefixOf (c :: (line ++ stop :: rest)) =
          pattern.isPrefixOf (c :: line) := by
        rw [Bool.eq_iff_iff, List.isPrefixOf_iff_prefix, List.isPrefixOf_iff_prefix]
        constructor
        · rintro ⟨more, hmore⟩
          rw [← List.cons_append] at hmore
          obtain ⟨behind, hbehind, -⟩ := append_stop_eq hstop hmore
          exact ⟨behind, hbehind.symm⟩
        · intro hp
          rw [← List.cons_append]
          exact hp.trans (List.prefix_append _ _)
      rw [List.cons_append, strstr, strstr, hbegins]
      split
      · rfl
      · exact ih

/-- A pattern that is in one piece is found in the first line that has it, if any has. -/
theorem strstr_messageHead {pattern : List UInt8} (hne : pattern ≠ []) (hcr : cr ∉ pattern)
    (hlf : lf ∉ pattern) (lines : List (List UInt8)) :
    (lines.findSome? (strstr pattern) = none ∧ strstr pattern (messageHead lines) = none) ∨
      ∃ tail rest, lines.findSome? (strstr pattern) = some tail ∧
        strstr pattern (messageHead lines) = some (tail ++ cr :: rest) := by
  have hskip : ∀ rest, strstr pattern (lf :: rest) = strstr pattern rest := by
    intro rest
    have hnone : strstr pattern [] = none := if_neg hne
    have hstop := strstr_stop hne hlf [] rest
    rwa [hnone, Option.map_none, Option.none_or, List.nil_append] at hstop
  induction lines with
  | nil =>
      have hnone : strstr pattern [] = none := if_neg hne
      refine .inl ⟨rfl, ?_⟩
      have hstop := strstr_stop hne hcr [] [lf]
      rw [List.nil_append, hskip, hnone, Option.map_none, Option.none_or] at hstop
      exact hstop
  | cons line lines ih =>
      rw [messageHead_cons, strstr_stop hne hcr, hskip, List.findSome?_cons]
      cases hfound : strstr pattern line with
      | none => exact ih
      | some tail => exact .inr ⟨tail, _, rfl, rfl⟩

end TinyRtc.HeaderLines
