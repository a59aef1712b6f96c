import Mathlib.Data.List.GetD

namespace TinyRtc.BoundedReads

variable {α β γ : Type*} {xs : List α} {buffer buffer' : Nat → α} {f : (Nat → α) → β} {i n : Nat}

/-- The buffer holds `xs` in front of whatever else is in it. -/
def BeginsWith (xs : List α) (buffer : Nat → α) : Prop :=
  ∀ i (h : i < xs.length), buffer i = xs[i]

/-- What `f` makes of a buffer depends on `n` of its places, from `i` on. -/
def ReadsOnly (f : (Nat → α) → β) (i n : Nat) : Prop :=
  ∀ buffer buffer' : Nat → α,
    (∀ k, i ≤ k → k < i + n → buffer k = buffer' k) → f buffer = f buffer'

/-- The buffer that holds nothing but `xs`. -/
def padded [Inhabited α] (xs : List α) (i : Nat) : α :=
  xs.getD i default

/-- A read of `n` places from `i` on, `none` when one of them is not in `xs`. -/
def readAt? [Inhabited α] (xs : List α) (i n : Nat) (f : (Nat → α) → β) : Option β :=
  if i + n ≤ xs.length then some (f (padded xs)) else none

theorem padded_beginsWith [Inhabited α] (xs : List α) : BeginsWith xs (padded xs) := by
  intro i h
  rw [padded, List.getD_eq_getElem xs default h]

/-- `xs ++ ys` from `p` on is `xs` from there on, and `ys` behind it. -/
theorem beginsWith_append {ys : List α} {p : Nat} :
    BeginsWith (xs ++ ys) (fun k => buffer (p + k)) ↔
      BeginsWith xs (fun k => buffer (p + k)) ∧
        BeginsWith ys fun k => buffer (p + xs.length + k) := by
  constructor
  · intro h
    constructor
    · intro i hi
      rw [h i (by rw [List.length_append]; omega), List.getElem_append_left hi]
    · intro i hi
      have hback := h (xs.length + i) (by rw [List.length_append]; omega)
      rw [List.getElem_append_right (Nat.le_add_right _ _)] at hback
      simp only [Nat.add_sub_cancel_left, ← Nat.add_assoc] at hback
      exact hback
  · rintro ⟨hxs, hys⟩ i hi
    rw [List.getElem_append]
    split
    · next hlt => exact hxs i hlt
    · next hge =>
      rw [List.length_append] at hi
      have hplace : p + xs.length + (i - xs.length) = p + i := by omega
      have hback := hys (i - xs.length) (by omega)
      simp only [hplace] at hback
      exact hback

theorem BeginsWith.congr (h : BeginsWith xs buffer) (h' : BeginsWith xs buffer')
    (hf : ReadsOnly f i n) (hin : i + n ≤ xs.length) : f buffer = f buffer' := by
  apply hf
  intro k _ hk
  rw [h k (by omega), h' k (by omega)]

/-- A read that stays inside is the read of any buffer that begins with `xs`. -/
theorem readAt?_eq [Inhabited α] (h : BeginsWith xs buffer) (hf : ReadsOnly f i n) :
    readAt? xs i n f = if i + n ≤ xs.length then some (f buffer) else none := by
  rw [readAt?]
  by_cases hin : i + n ≤ xs.length
  · rw [if_pos hin, if_pos hin, (padded_beginsWith xs).congr h hf hin]
  · rw [if_neg hin, if_neg hin]

theorem map_ite_some {c : Prop} [Decidable c] (g : α → β) (a : α) :
    (if c then some a else none).map g = if c then some (g a) else none := by
  split <;> rfl

end TinyRtc.BoundedReads
