import Mathlib.Data.List.Induction

namespace TinyRtc.LastWrites

variable {α β : Type*}

/-- The value of the last element that has one. -/
def last? (f : α → Option β) (xs : List α) : Option β :=
  (xs.filterMap f).getLast?

@[simp] theorem last?_nil (f : α → Option β) : last? f [] = none := rfl

theorem last?_append (f : α → Option β) (xs ys : List α) :
    last? f (xs ++ ys) = (last? f ys).or (last? f xs) := by
  rw [last?, List.filterMap_append, List.getLast?_append]
  rfl

theorem last?_singleton (f : α → Option β) (x : α) : last? f [x] = f x := by
  rw [last?, List.filterMap_cons]
  cases f x with
  | none => rfl
  | some b => rfl

theorem last?_concat (f : α → Option β) (xs : List α) (x : α) :
    last? f (xs ++ [x]) = (f x).or (last? f xs) := by
  rw [last?_append, last?_singleton]

theorem last?_cons (f : α → Option β) (x : α) (xs : List α) :
    last? f (x :: xs) = (last? f xs).or (f x) := by
  rw [← List.singleton_append, last?_append, last?_singleton]

theorem last?_cons_getD (f : α → Option β) (x : α) (xs : List α) (old : β) :
    (last? f (x :: xs)).getD old = (last? f xs).getD ((f x).getD old) := by
  rw [last?_cons]
  cases last? f xs with
  | none => rfl
  | some b => rfl

theorem last?_congr {f g : α → Option β} {xs : List α} (h : ∀ x ∈ xs, f x = g x) :
    last? f xs = last? g xs := by
  induction xs using List.reverseRecOn with
  | nil => rfl
  | append_singleton xs x ih =>
      rw [List.forall_mem_append, List.forall_mem_singleton] at h
      rw [last?_concat, last?_concat, h.2, ih h.1]

theorem last?_eq_none_iff {f : α → Option β} {xs : List α} :
    last? f xs = none ↔ ∀ x ∈ xs, f x = none := by
  rw [last?, List.getLast?_eq_none_iff, List.filterMap_eq_nil_iff]

theorem exists_of_last? {f : α → Option β} {xs : List α} {b : β} (h : last? f xs = some b) :
    ∃ x ∈ xs, f x = some b :=
  List.mem_filterMap.mp (List.mem_of_getLast? h)

theorem last?_isSome_of_mem {f : α → Option β} {xs : List α} {x : α} {b : β} (hx : x ∈ xs)
    (h : f x = some b) : ∃ last, last? f xs = some last := by
  refine Option.ne_none_iff_exists'.mp fun hnone => ?_
  rw [last?_eq_none_iff.mp hnone x hx] at h
  cases h

/-- Elements without a value make no difference. -/
theorem last?_filter {f : α → Option β} {p : α → Bool} (h : ∀ x, p x = false → f x = none)
    (xs : List α) : last? f (xs.filter p) = last? f xs := by
  rw [last?, last?, List.filterMap_filter]
  congr 2
  funext x
  cases hx : p x with
  | true => rfl
  | false => exact (h x hx).symm

/-- The last of two kinds of values is the last of one kind, or of the other. -/
theorem last?_or (f g : α → Option β) (xs : List α) :
    last? (fun x => (f x).or (g x)) xs = last? f xs ∨
      last? (fun x => (f x).or (g x)) xs = last? g xs := by
  induction xs using List.reverseRecOn with
  | nil => exact .inl rfl
  | append_singleton xs x ih =>
      rw [last?_concat, last?_concat, last?_concat]
      cases f x with
      | some b => exact .inl rfl
      | none =>
          cases g x with
          | some b => exact .inr rfl
          | none => exact ih

end TinyRtc.LastWrites
