import Mathlib.Data.List.Basic

namespace TinyRtc.SlotArray

variable {α : Type*} {cap : Nat}

/-- An array of `cap` slots with a count: the items in the used slots. -/
@[ext]
structure Slots (α : Type*) (cap : Nat) where
  items : List α
  length_le : items.length ≤ cap
  deriving DecidableEq

def Slots.empty : Slots α cap :=
  ⟨[], Nat.zero_le _⟩

instance : Inhabited (Slots α cap) :=
  ⟨.empty⟩

@[simp] theorem Slots.empty_items : (Slots.empty : Slots α cap).items = [] := rfl

def Slots.count (slots : Slots α cap) : Nat :=
  slots.items.length

/-- The next slot is taken, if there is one. -/
def Slots.push? (slots : Slots α cap) (item : α) : Option (Slots α cap) :=
  if h : slots.items.length < cap then
    some ⟨slots.items ++ [item], by rw [List.length_append, List.length_singleton]; omega⟩
  else none

/-- Changes to items in place. -/
def Slots.mapItems (slots : Slots α cap) (f : List α → List α)
    (hf : ∀ items, (f items).length = items.length) : Slots α cap :=
  ⟨f slots.items, (hf slots.items).symm ▸ slots.length_le⟩

theorem Slots.push?_of_lt {slots : Slots α cap} (h : slots.items.length < cap) (item : α) :
    ∃ pushed, slots.push? item = some pushed ∧ pushed.items = slots.items ++ [item] :=
  ⟨_, dif_pos h, rfl⟩

theorem Slots.push?_items {slots pushed : Slots α cap} {item : α}
    (h : slots.push? item = some pushed) : pushed.items = slots.items ++ [item] := by
  rw [Slots.push?] at h
  split at h
  · exact (Option.some.inj h) ▸ rfl
  · cases h

theorem Slots.push?_eq_none_iff {slots : Slots α cap} {item : α} :
    slots.push? item = none ↔ slots.items.length = cap := by
  have hle := slots.length_le
  rw [Slots.push?]
  split
  · simp
    omega
  · simp
    omega

end TinyRtc.SlotArray
