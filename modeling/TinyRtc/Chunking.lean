import Mathlib.Data.List.Basic

namespace TinyRtc.Chunking

variable {α : Type*}

/-- A cut of a list into nonempty pieces, all but the last of length `k` and the
last no longer. -/
def IsChunking (k : Nat) : List (List α) → Prop
  | [] => True
  | [last] => 0 < last.length ∧ last.length ≤ k
  | piece :: next :: rest => piece.length = k ∧ IsChunking k (next :: rest)

theorem IsChunking.tail {k : Nat} {piece : List α} {rest : List (List α)}
    (h : IsChunking k (piece :: rest)) : IsChunking k rest := by
  cases rest with
  | nil => trivial
  | cons next rest => exact h.2

theorem IsChunking.head_length_pos {k : Nat} (hk : 0 < k) {piece : List α}
    {rest : List (List α)} (h : IsChunking k (piece :: rest)) : 0 < piece.length := by
  cases rest with
  | nil => exact h.1
  | cons next rest => exact h.1 ▸ hk

theorem IsChunking.head_length_le {k : Nat} {piece : List α} {rest : List (List α)}
    (h : IsChunking k (piece :: rest)) : piece.length ≤ k := by
  cases rest with
  | nil => exact h.2
  | cons next rest => exact Nat.le_of_eq h.1

theorem IsChunking.ne_nil_of_mem {k : Nat} (hk : 0 < k) {pieces : List (List α)}
    (h : IsChunking k pieces) {piece : List α} (hmem : piece ∈ pieces) : piece ≠ [] := by
  induction pieces with
  | nil => cases hmem
  | cons head rest ih =>
      rcases List.mem_cons.mp hmem with rfl | hrest
      · exact List.ne_nil_of_length_pos (h.head_length_pos hk)
      · exact ih h.tail hrest

theorem IsChunking.length_le_of_mem {k : Nat} {pieces : List (List α)}
    (h : IsChunking k pieces) {piece : List α} (hmem : piece ∈ pieces) : piece.length ≤ k := by
  induction pieces with
  | nil => cases hmem
  | cons head rest ih =>
      rcases List.mem_cons.mp hmem with rfl | hrest
      · exact h.head_length_le
      · exact ih h.tail hrest

/-- A chunking of a nonempty list has a first piece, and it ends the chunking
exactly when it is the whole list. -/
theorem IsChunking.length_lt_flatten {k : Nat} (hk : 0 < k) {piece next : List α}
    {rest : List (List α)} (h : IsChunking k (piece :: next :: rest)) :
    k < (piece :: next :: rest).flatten.length := by
  have hnext := h.tail.head_length_pos hk
  simp only [List.flatten_cons, List.length_append, h.1]
  omega

/-- A list has only one cut into chunks of a given size. -/
theorem IsChunking.eq_of_flatten_eq {k : Nat} (hk : 0 < k) {first second : List (List α)}
    (hfirst : IsChunking k first) (hsecond : IsChunking k second)
    (h : first.flatten = second.flatten) : first = second := by
  induction first generalizing second with
  | nil =>
      cases second with
      | nil => rfl
      | cons piece rest =>
          have hpos := hsecond.head_length_pos hk
          have hlen := congrArg List.length h
          simp only [List.flatten_nil, List.length_nil, List.flatten_cons,
            List.length_append] at hlen
          omega
  | cons piece rest ih =>
      cases second with
      | nil =>
          have hpos := hfirst.head_length_pos hk
          have hlen := congrArg List.length h
          simp only [List.flatten_nil, List.length_nil, List.flatten_cons,
            List.length_append] at hlen
          omega
      | cons piece' rest' =>
          have hheads : piece.length = piece'.length := by
            cases rest with
            | nil =>
                cases rest' with
                | nil => simpa using congrArg List.length h
                | cons next' rest' =>
                    have hlt := hsecond.length_lt_flatten hk
                    have hle := hfirst.head_length_le
                    rw [← h] at hlt
                    simp only [List.flatten_cons, List.flatten_nil, List.append_nil] at hlt
                    omega
            | cons next rest =>
                cases rest' with
                | nil =>
                    have hlt := hfirst.length_lt_flatten hk
                    have hle := hsecond.head_length_le
                    rw [h] at hlt
                    simp only [List.flatten_cons, List.flatten_nil, List.append_nil] at hlt
                    omega
                | cons next' rest' => rw [hfirst.1, hsecond.1]
          simp only [List.flatten_cons] at h
          obtain ⟨rfl, htails⟩ := List.append_inj h hheads
          rw [ih hfirst.tail hsecond.tail htails]

theorem isChunking_append_singleton_iff {k : Nat} {pieces : List (List α)} {last : List α} :
    IsChunking k (pieces ++ [last]) ↔
      (∀ piece ∈ pieces, piece.length = k) ∧ 0 < last.length ∧ last.length ≤ k := by
  induction pieces with
  | nil => simp [IsChunking]
  | cons piece pieces ih =>
      obtain ⟨next, rest, hsplit⟩ : ∃ next rest, pieces ++ [last] = next :: rest :=
          List.exists_cons_of_ne_nil (by simp)
      rw [hsplit] at ih
      rw [List.cons_append, hsplit, IsChunking, ih, List.forall_mem_cons, and_assoc]

theorem IsChunking.exists_cons_cons {k : Nat} {pieces : List (List α)}
    (h : IsChunking k pieces) (hlong : k < pieces.flatten.length) :
    ∃ piece next rest, pieces = piece :: next :: rest := by
  match pieces, h, hlong with
  | [], _, hlong => simp at hlong
  | [piece], h, hlong =>
      simp only [List.flatten_cons, List.flatten_nil, List.append_nil] at hlong
      exact absurd h.2 (by omega)
  | piece :: next :: rest, _, _ => exact ⟨piece, next, rest, rfl⟩

end TinyRtc.Chunking
