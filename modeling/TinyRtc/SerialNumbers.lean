import Mathlib.Algebra.Group.Nat.Defs
import Mathlib.Data.List.Sort

namespace TinyRtc.SerialNumbers

/-- The number `a` is older than `b` in the circle of 16-bit numbers. -/
def Precedes (a b : UInt16) : Prop :=
  (a - b).toInt16 < 0

instance (a b : UInt16) : Decidable (Precedes a b) :=
  inferInstanceAs (Decidable (_ < _))

/-- How far a number is past the start of a window. -/
def offset (base s : UInt16) : Nat :=
  (s - base).toNat

/-- Half of the circle, in which being older is an order. -/
def InWindow (base s : UInt16) : Prop :=
  offset base s < 2 ^ 15

instance (base s : UInt16) : Decidable (InWindow base s) :=
  inferInstanceAs (Decidable (_ < _))

theorem offset_injective {base a b : UInt16} (h : offset base a = offset base b) : a = b := by
  have hsub : a - base = b - base := UInt16.toNat_inj.mp h
  have hadd := congrArg (· + base) hsub
  simpa using hadd

theorem toInt16_neg_iff (x : UInt16) : x.toInt16 < 0 ↔ 2 ^ 15 ≤ x.toNat := by
  rw [Int16.lt_iff_toInt_lt]
  change x.toBitVec.toInt < 0 ↔ _
  rw [BitVec.toInt_neg_iff]
  change 2 ^ 16 ≤ 2 * x.toNat ↔ _
  omega

/-- Inside a window, older means nearer to its start. -/
theorem precedes_iff {base a b : UInt16} (ha : InWindow base a) (hb : InWindow base b) :
    Precedes a b ↔ offset base a < offset base b := by
  have hlt := a.toNat_lt
  have hlt' := b.toNat_lt
  have hbase := base.toNat_lt
  rw [InWindow, offset, UInt16.toNat_sub] at ha hb
  rw [Precedes, toInt16_neg_iff, offset, offset, UInt16.toNat_sub, UInt16.toNat_sub,
    UInt16.toNat_sub]
  omega

section

variable {α : Type*} {f : α → UInt16} {base : UInt16}

/-- Oldest first, and equal numbers in any order. -/
def IsOrdered (f : α → UInt16) (xs : List α) : Prop :=
  xs.Pairwise fun x y => ¬ Precedes (f y) (f x)

theorem isOrdered_iff {xs : List α} (hwindow : ∀ x ∈ xs, InWindow base (f x)) :
    IsOrdered f xs ↔ xs.Pairwise fun x y => offset base (f x) ≤ offset base (f y) := by
  refine List.Pairwise.iff_of_mem ?_
  intro x y hx hy
  rw [precedes_iff (hwindow y hy) (hwindow x hx), Nat.not_lt]

/-- Inside a window, a number goes before the first one that is younger. -/
theorem isOrdered_orderedInsert {xs : List α} (hxs : IsOrdered f xs) {x : α}
    (hwindow : ∀ y ∈ x :: xs, InWindow base (f y)) :
    IsOrdered f (xs.orderedInsert (fun x y => Precedes (f x) (f y)) x) := by
  have hmem : ∀ y ∈ xs.orderedInsert (fun x y => Precedes (f x) (f y)) x,
      InWindow base (f y) := by
    intro y hy
    exact hwindow y ((List.perm_orderedInsert _ x xs).subset hy)
  rw [isOrdered_iff hmem]
  rw [isOrdered_iff fun y hy => hwindow y (List.mem_cons_of_mem x hy)] at hxs
  have hx := hwindow x List.mem_cons_self
  clear hmem
  induction xs with
  | nil => exact List.pairwise_singleton _ _
  | cons y xs ih =>
      obtain ⟨hy, hrest⟩ := List.pairwise_cons.mp hxs
      have hprecedes := precedes_iff hx (hwindow y (by simp))
      rw [List.orderedInsert_cons]
      split
      · next hbefore =>
        have hle := (hprecedes.mp hbefore).le
        refine List.pairwise_cons.mpr ⟨?_, hxs⟩
        intro z hz
        rcases List.mem_cons.mp hz with rfl | hz
        · exact hle
        · exact hle.trans (hy z hz)
      · next hbefore =>
        have hle := Nat.not_lt.mp (hprecedes.not.mp hbefore)
        have hsub : x :: xs ⊆ x :: y :: xs := List.cons_subset_cons x (List.subset_cons_self y xs)
        have hinner := ih hrest fun z hz => hwindow z (hsub hz)
        refine List.pairwise_cons.mpr ⟨?_, hinner⟩
        intro z hz
        rcases (List.mem_orderedInsert _).mp hz with rfl | hz
        · exact hle
        · exact hy z hz

end

section

variable {α : Type*} (f : α → UInt16)

/-- Every item has the number that is next, or one that is past it by no more than the
attempts that have failed since. An attempt without an item has failed. -/
def Numbered : (next : UInt16) → (failed : Nat) → List (Option α) → Prop
  | _, _, [] => True
  | next, failed, none :: attempts => Numbered next (failed + 1) attempts
  | next, failed, some x :: attempts =>
      (∃ skipped ≤ failed, f x = next + skipped.toUInt16) ∧ Numbered (f x + 1) 0 attempts

/-- The number behind the last item. -/
def numberAfter : (next : UInt16) → List (Option α) → UInt16
  | next, [] => next
  | next, none :: attempts => numberAfter next attempts
  | _, some x :: attempts => numberAfter (f x + 1) attempts

variable {f} {next : UInt16} {failed : Nat}

theorem Numbered.mono {failed' : Nat} (hle : failed ≤ failed') {attempts : List (Option α)}
    (h : Numbered f next failed attempts) : Numbered f next failed' attempts := by
  induction attempts generalizing failed failed' with
  | nil => trivial
  | cons attempt attempts ih =>
      cases attempt with
      | none => exact ih (Nat.succ_le_succ hle) h
      | some x =>
          obtain ⟨⟨skipped, hskipped, hx⟩, hrest⟩ := h
          exact ⟨⟨skipped, hskipped.trans hle, hx⟩, hrest⟩

theorem Numbered.append {first second : List (Option α)} (hfirst : Numbered f next failed first)
    (hsecond : Numbered f (numberAfter f next first) 0 second) :
    Numbered f next failed (first ++ second) := by
  induction first generalizing next failed with
  | nil => exact hsecond.mono (Nat.zero_le failed)
  | cons attempt first ih =>
      cases attempt with
      | none => exact ih hfirst hsecond
      | some x => exact ⟨hfirst.1, ih hfirst.2 hsecond⟩

theorem Numbered.of_replicate_none {n : Nat} {attempts : List (Option α)}
    (h : Numbered f next failed (List.replicate n none ++ attempts)) :
    Numbered f next (failed + n) attempts := by
  induction n generalizing failed with
  | zero => exact h
  | succ n ih =>
      rw [List.replicate_succ, List.cons_append] at h
      have hrest := ih h
      rwa [Nat.add_assoc, Nat.add_comm 1] at hrest

theorem Numbered.of_append {front attempts : List (Option α)}
    (h : Numbered f next failed (front ++ attempts)) :
    ∃ next' failed', Numbered f next' failed' attempts := by
  induction front generalizing next failed with
  | nil => exact ⟨next, failed, h⟩
  | cons attempt front ih =>
      cases attempt with
      | none => exact ih h
      | some x => exact ih h.2

/-- From one item to the next the numbers advance by one, and by at most one more for
every failed attempt between them. -/
theorem Numbered.gap {front back : List (Option α)} {x y : α} {n : Nat}
    (h : Numbered f next failed (front ++ some x :: (List.replicate n none ++ some y :: back))) :
    ∃ d, 1 ≤ d ∧ d ≤ 1 + n ∧ f y = f x + d.toUInt16 := by
  obtain ⟨next', failed', -, hbetween⟩ := h.of_append
  obtain ⟨⟨skipped, hskipped, hy⟩, -⟩ := hbetween.of_replicate_none
  refine ⟨1 + skipped, Nat.le_add_right 1 skipped, by omega, ?_⟩
  rw [hy, UInt16.add_assoc]
  congr 1
  exact (UInt16.ofNat_add 1 skipped).symm

end

end TinyRtc.SerialNumbers
