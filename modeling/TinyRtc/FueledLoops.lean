import Mathlib.Data.Nat.Notation

namespace TinyRtc.FueledLoops

/-- A loop that is over when nothing is left, and whose turn asks of the fuel only that it does
for everything with less left. -/
structure UsesUp {σ α : Type*} (left : σ → ℕ) (loop : ℕ → σ → α) : Prop where
  ended : ∀ fuel s, left s = 0 → loop fuel s = loop 0 s
  turn : ∀ fuel fuel' s, left s ≠ 0 → (∀ s', left s' < left s → loop fuel s' = loop fuel' s') →
    loop (fuel + 1) s = loop (fuel' + 1) s

/-- Enough fuel gives the result of any more of it. -/
theorem UsesUp.eq_of_le {σ α : Type*} {left : σ → ℕ} {loop : ℕ → σ → α} (h : UsesUp left loop)
    {fuel fuel' : ℕ} (s : σ) (hfuel : left s ≤ fuel) (hfuel' : left s ≤ fuel') :
    loop fuel s = loop fuel' s := by
  induction fuel generalizing fuel' s with
  | zero =>
      have hzero : left s = 0 := Nat.le_zero.mp hfuel
      exact (h.ended fuel' s hzero).symm
  | succ fuel ih =>
      by_cases hzero : left s = 0
      · rw [h.ended (fuel + 1) s hzero, h.ended fuel' s hzero]
      · obtain ⟨fuel', rfl⟩ : ∃ n, fuel' = n + 1 := ⟨fuel' - 1, by omega⟩
        exact h.turn fuel fuel' s hzero fun s' hless => ih s' (by omega) (by omega)

end TinyRtc.FueledLoops
