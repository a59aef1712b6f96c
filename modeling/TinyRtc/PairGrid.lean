import Mathlib.Data.List.Nodup
import Mathlib.Data.List.Perm.Subperm
import Mathlib.Data.List.ProdSigma

namespace TinyRtc.PairGrid

variable {m n : Nat} {pairs : List (Nat × Nat)}

/-- Pairs of places in two tables of `m` and `n` rows, none of them twice. -/
structure InGrid (pairs : List (Nat × Nat)) (m n : Nat) : Prop where
  nodup : pairs.Nodup
  fst_lt : ∀ pair ∈ pairs, pair.1 < m
  snd_lt : ∀ pair ∈ pairs, pair.2 < n

theorem InGrid.nil (m n : Nat) : InGrid [] m n :=
  ⟨List.nodup_nil, by simp, by simp⟩

theorem InGrid.mono {m' n' : Nat} (h : InGrid pairs m n) (hm : m ≤ m') (hn : n ≤ n') :
    InGrid pairs m' n' :=
  ⟨h.nodup, fun pair hpair => Nat.lt_of_lt_of_le (h.fst_lt pair hpair) hm,
    fun pair hpair => Nat.lt_of_lt_of_le (h.snd_lt pair hpair) hn⟩

theorem InGrid.subset (h : InGrid pairs m n) : pairs ⊆ List.range m ×ˢ List.range n := by
  rintro ⟨i, j⟩ hpair
  exact List.mem_product.mpr
    ⟨List.mem_range.mpr (h.fst_lt _ hpair), List.mem_range.mpr (h.snd_lt _ hpair)⟩

theorem InGrid.length_le (h : InGrid pairs m n) : pairs.length ≤ m * n := by
  have hle := (List.subperm_of_subset h.nodup h.subset).length_le
  rwa [List.length_product, List.length_range, List.length_range] at hle

/-- As many pairs as the grid has places are all of them. -/
theorem InGrid.perm_product (h : InGrid pairs m n) (hlength : pairs.length = m * n) :
    pairs.Perm (List.range m ×ˢ List.range n) := by
  have hgrid : (List.range m ×ˢ List.range n).length = m * n := by
    rw [List.length_product, List.length_range, List.length_range]
  apply (List.subperm_of_subset h.nodup h.subset).perm_of_length_le
  exact Nat.le_of_eq (hgrid.trans hlength.symm)

theorem InGrid.append {added : List (Nat × Nat)} (h : InGrid pairs m n) (hadded : InGrid added m n)
    (hnew : ∀ pair ∈ added, pair ∉ pairs) : InGrid (pairs ++ added) m n := by
  refine ⟨?_, ?_, ?_⟩
  · exact h.nodup.append hadded.nodup fun pair hpair hother => hnew pair hother hpair
  · intro pair hpair
    rcases List.mem_append.mp hpair with hpair | hpair
    · exact h.fst_lt pair hpair
    · exact hadded.fst_lt pair hpair
  · intro pair hpair
    rcases List.mem_append.mp hpair with hpair | hpair
    · exact h.snd_lt pair hpair
    · exact hadded.snd_lt pair hpair

def rowPairs (m n : Nat) : List (Nat × Nat) :=
  (List.range n).map fun j => (m, j)

/-- The pairs of a new row of the second table. -/
def columnPairs (m n : Nat) : List (Nat × Nat) :=
  (List.range m).map fun i => (i, n)

@[simp] theorem rowPairs_length (m n : Nat) : (rowPairs m n).length = n := by
  rw [rowPairs, List.length_map, List.length_range]

@[simp] theorem columnPairs_length (m n : Nat) : (columnPairs m n).length = m := by
  rw [columnPairs, List.length_map, List.length_range]

theorem mem_rowPairs {pair : Nat × Nat} : pair ∈ rowPairs m n ↔ pair.1 = m ∧ pair.2 < n := by
  rw [rowPairs, List.mem_map]
  constructor
  · rintro ⟨j, hj, rfl⟩
    exact ⟨rfl, List.mem_range.mp hj⟩
  · rintro ⟨hfst, hsnd⟩
    exact ⟨pair.2, List.mem_range.mpr hsnd, Prod.ext hfst.symm rfl⟩

theorem mem_columnPairs {pair : Nat × Nat} : pair ∈ columnPairs m n ↔ pair.1 < m ∧ pair.2 = n := by
  rw [columnPairs, List.mem_map]
  constructor
  · rintro ⟨i, hi, rfl⟩
    exact ⟨List.mem_range.mp hi, rfl⟩
  · rintro ⟨hfst, hsnd⟩
    exact ⟨pair.1, List.mem_range.mpr hfst, Prod.ext rfl hsnd.symm⟩

theorem InGrid.addRow (h : InGrid pairs m n) : InGrid (pairs ++ rowPairs m n) (m + 1) n := by
  apply (h.mono (Nat.le_succ m) (Nat.le_refl n)).append
  · refine ⟨?_, ?_, ?_⟩
    · exact List.nodup_range.map fun _ _ heq => congrArg Prod.snd heq
    · intro pair hpair
      rw [(mem_rowPairs.mp hpair).1]
      exact Nat.lt_succ_self m
    · exact fun pair hpair => (mem_rowPairs.mp hpair).2
  · intro pair hpair hold
    have hlt := h.fst_lt pair hold
    rw [(mem_rowPairs.mp hpair).1] at hlt
    exact Nat.lt_irrefl m hlt

theorem InGrid.addColumn (h : InGrid pairs m n) :
    InGrid (pairs ++ columnPairs m n) m (n + 1) := by
  apply (h.mono (Nat.le_refl m) (Nat.le_succ n)).append
  · refine ⟨?_, ?_, ?_⟩
    · exact List.nodup_range.map fun _ _ heq => congrArg Prod.fst heq
    · exact fun pair hpair => (mem_columnPairs.mp hpair).1
    · intro pair hpair
      rw [(mem_columnPairs.mp hpair).2]
      exact Nat.lt_succ_self n
  · intro pair hpair hold
    have hlt := h.snd_lt pair hold
    rw [(mem_columnPairs.mp hpair).2] at hlt
    exact Nat.lt_irrefl n hlt

/-- Two tables without repeated entries make pairs of entries that are different too. -/
theorem InGrid.map_nodup {α β : Type*} (h : InGrid pairs m n) {first : List α} {second : List β}
    (hm : first.length = m) (hn : second.length = n) (hfirst : first.Nodup)
    (hsecond : second.Nodup) :
    (pairs.map fun pair => (first[pair.1]?, second[pair.2]?)).Nodup := by
  apply h.nodup.map_on
  intro pair hpair other hother heq
  obtain ⟨hfst, hsnd⟩ := Prod.ext_iff.mp heq
  have hlt := h.fst_lt pair hpair
  have hlt' := h.snd_lt pair hpair
  rw [← hm] at hlt
  rw [← hn] at hlt'
  exact Prod.ext ((List.getElem?_inj hlt hfirst).mp hfst) ((List.getElem?_inj hlt' hsecond).mp hsnd)

end TinyRtc.PairGrid
