import TinyRtc.PolledStream

namespace TinyRtc.TerminatedReads

open TinyRtc.PolledStream

variable {α : Type*}

section

variable [DecidableEq α] (terminator : List α) (limit : Nat)

/-- Reads item by item, and waits for each of them, until what has been read ends with the
terminator or is as long as it may be, or nothing more comes. `none` as long as the source keeps
the reader waiting. -/
def readUntil (read : List α) (answers : List (Poll α)) : Option (List α × List (Poll α)) :=
  if limit ≤ read.length then some (read, answers)
  else
    match answers with
    | [] => none
    | .notYet :: answers => readUntil read answers
    | .failed :: answers => some (read, answers)
    | .item a :: answers =>
        if terminator.isSuffixOf (read ++ [a]) then some (read ++ [a], answers)
        else readUntil (read ++ [a]) answers

end

/-- The answers are these items, and the source may keep the reader waiting for each of them. -/
inductive Delayed : List α → List (Poll α) → Prop
  | nil : Delayed [] []
  | wait {a : α} {items : List α} {answers : List (Poll α)} :
      Delayed (a :: items) answers → Delayed (a :: items) (.notYet :: answers)
  | item (a : α) {items : List α} {answers : List (Poll α)} :
      Delayed items answers → Delayed (a :: items) (.item a :: answers)

theorem delayed_items (items : List α) : Delayed items (items.map .item) := by
  induction items with
  | nil => exact .nil
  | cons a items ih => exact .item a ih

section

variable [DecidableEq α] {terminator : List α} {limit : Nat}

/-- A text that ends with the terminator, and no earlier than that, is read as it is, and nothing
of what comes behind it. -/
theorem readUntil_delayed {text : List α} {front : List (Poll α)} (h : Delayed text front)
    (hne : text ≠ []) {read : List α} (hlimit : (read ++ text).length ≤ limit)
    (hends : terminator <:+ read ++ text)
    (hfirst : ∀ p, p <+: text → p ≠ [] → terminator <:+ read ++ p → p = text)
    (rest : List (Poll α)) :
    readUntil terminator limit read (front ++ rest) = some (read ++ text, rest) := by
  induction h generalizing read with
  | nil => exact absurd rfl hne
  | @wait a items answers _ ih =>
      have hroom : ¬ limit ≤ read.length := by
        rw [List.length_append, List.length_cons] at hlimit
        omega
      rw [List.cons_append, readUntil, if_neg hroom]
      exact ih hne hlimit hends hfirst
  | @item a items answers _ ih =>
      have hroom : ¬ limit ≤ read.length := by
        rw [List.length_append, List.length_cons] at hlimit
        omega
      rw [List.cons_append, readUntil, if_neg hroom]
      have hstep : read ++ a :: items = (read ++ [a]) ++ items := by
        rw [List.append_assoc, List.singleton_append]
      rw [hstep] at hlimit hends ⊢
      split
      · next hsuffix =>
        have hwhole := hfirst [a] (List.cons_prefix_cons.mpr ⟨rfl, List.nil_prefix⟩)
          (List.cons_ne_nil _ _) (List.isSuffixOf_iff_suffix.mp hsuffix)
        obtain rfl : [] = items := (List.cons.inj hwhole).2
        cases ‹Delayed [] answers›
        rw [List.append_nil, List.nil_append]
      · next hnot =>
        have hmore : items ≠ [] := by
          rintro rfl
          rw [List.append_nil] at hends
          exact hnot (List.isSuffixOf_iff_suffix.mpr hends)
        refine ih hmore hlimit hends fun p hp hpne hsuffix => ?_
        rw [List.append_assoc, List.singleton_append] at hsuffix
        have hwhole := hfirst (a :: p) (List.cons_prefix_cons.mpr ⟨rfl, hp⟩)
          (List.cons_ne_nil _ _) hsuffix
        exact (List.cons.inj hwhole).2

end

end TinyRtc.TerminatedReads
