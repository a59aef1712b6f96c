import Mathlib.Data.List.Basic

namespace TinyRtc.ArrayRemoval

variable {α : Type*}

/-- The loop `xs[j] = xs[j + 1]` for some turns from `j` on; `none` when it leaves the array. -/
def moveDown : (turns j : Nat) → List α → Option (List α)
  | 0, _, xs => some xs
  | turns + 1, j, xs => xs[j + 1]?.bind fun next => moveDown turns (j + 1) (xs.set j next)

/-- An item written into the array; `none` outside it. -/
def setAt? (xs : List α) (i : Nat) (x : α) : Option (List α) :=
  if i < xs.length then some (xs.set i x) else none

/-- The search for `x` from `i` on in an array of which `n` places are used. When it is found,
what is behind it moves down, and the last place in use is blanked. -/
def removeFrom [DecidableEq α] (x blank : α) (n : Nat) : (turns i : Nat) → List α →
    Option (List α)
  | 0, _, xs => some xs
  | turns + 1, i, xs =>
      xs[i]?.bind fun y =>
        if y = x then (moveDown (n - 1 - i) i xs).bind fun xs => setAt? xs (n - 1) blank
        else removeFrom x blank n turns (i + 1) xs

theorem moveDown_append (front : List α) (gone : α) (moved rest : List α) :
    moveDown moved.length front.length (front ++ gone :: moved ++ rest) =
      some (front ++ moved ++
        (gone :: moved).getLast (List.cons_ne_nil gone moved) :: rest) := by
  induction moved generalizing front gone with
  | nil => simp [moveDown]
  | cons next moved ih =>
      have hnext : (front ++ gone :: next :: moved ++ rest)[front.length + 1]? = some next := by
        simp
      have hset : (front ++ gone :: next :: moved ++ rest).set front.length next =
          front ++ [next] ++ next :: moved ++ rest := by
        simp
      have hrest := ih (front ++ [next]) next
      rw [List.length_append, List.length_singleton] at hrest
      rw [List.length_cons, moveDown, hnext, Option.bind_some, hset, hrest]
      simp

/-- Exactly the first occurrence goes. -/
theorem removeFrom_append [DecidableEq α] [BEq α] [LawfulBEq α] {x : α} (blank : α) {front used : List α}
    (rest : List α) (hmem : x ∈ used) :
    removeFrom x blank (front ++ used).length used.length front.length (front ++ used ++ rest) =
      some (front ++ used.erase x ++ blank :: rest) := by
  induction used generalizing front with
  | nil => cases hmem
  | cons y used ih =>
      have hy : (front ++ y :: used ++ rest)[front.length]? = some y := by simp
      rw [List.length_cons, removeFrom, hy, Option.bind_some]
      split
      · next heq =>
        have hturns : (front ++ y :: used).length - 1 - front.length = used.length := by
          simp
        have hlast : (front ++ y :: used).length - 1 = (front ++ used).length := by
          simp
        rw [hturns, moveDown_append, Option.bind_some, hlast, setAt?, if_pos (by simp), heq,
          List.erase_cons_head, List.set_append_right _ _ (Nat.le_refl _), Nat.sub_self,
          List.set_cons_zero]
      · next hne =>
        have hrest := @ih (front ++ [y]) ((List.mem_cons.mp hmem).resolve_left (Ne.symm hne))
        rw [List.erase_cons_tail (by simpa using hne)]
        simpa using hrest

end TinyRtc.ArrayRemoval
