import Mathlib.Data.List.Nodup
import Mathlib.Logic.Function.Iterate

namespace TinyRtc.CounterMode

variable {β : Type*}

/-- Counter mode over a text in pieces of `k` bytes: the counter blocks that are
enciphered, and the text XORed with the cipher's output. -/
def ctr (k : Nat) (cipher : β → List UInt8) (next : β → β) :
    (fuel : Nat) → β → List UInt8 → List β × List UInt8
  | 0, _, _ => ([], [])
  | fuel + 1, block, text =>
      if text.length = 0 then ([], [])
      else
        let rest := ctr k cipher next fuel (next block) (text.drop k)
        (block :: rest.1, List.zipWith (· ^^^ ·) (text.take k) (cipher block) ++ rest.2)

theorem zipWith_xor_cancel {text key : List UInt8} (h : text.length ≤ key.length) :
    List.zipWith (· ^^^ ·) (List.zipWith (· ^^^ ·) text key) key = text := by
  induction text generalizing key with
  | nil => rfl
  | cons c text ih =>
      cases key with
      | nil => simp at h
      | cons d key =>
          simp only [List.length_cons, Nat.add_le_add_iff_right] at h
          simp only [List.zipWith_cons_cons, ih h, UInt8.xor_assoc, UInt8.xor_self, UInt8.xor_zero]

@[simp] theorem ctr_nil (k : Nat) (cipher : β → List UInt8) (next : β → β) (fuel : Nat)
    (block : β) : ctr k cipher next fuel block [] = ([], []) := by
  cases fuel <;> rfl

section

variable {k : Nat} {cipher : β → List UInt8} (next : β → β)

theorem ctr_succ (fuel : Nat) (block : β) {text : List UInt8} (h : text ≠ []) :
    ctr k cipher next (fuel + 1) block text =
      (block :: (ctr k cipher next fuel (next block) (text.drop k)).1,
        List.zipWith (· ^^^ ·) (text.take k) (cipher block) ++
          (ctr k cipher next fuel (next block) (text.drop k)).2) := by
  rw [ctr, if_neg]
  intro hzero
  exact h (List.eq_nil_of_length_eq_zero hzero)

theorem ctr_length (hcipher : ∀ block, (cipher block).length = k) (hk : 0 < k) {fuel : Nat}
    {text : List UInt8} (hfuel : text.length ≤ fuel) (block : β) :
    (ctr k cipher next fuel block text).2.length = text.length := by
  induction fuel generalizing text block with
  | zero =>
      rw [List.eq_nil_of_length_eq_zero (Nat.le_zero.mp hfuel)]
      rfl
  | succ fuel ih =>
      by_cases hne : text = []
      · rw [hne]
        rfl
      · have hdrop : (text.drop k).length ≤ fuel := by
          rw [List.length_drop]
          omega
        rw [ctr_succ next fuel block hne]
        simp only [List.length_append, List.length_zipWith, List.length_take, hcipher, ih hdrop,
          List.length_drop]
        omega

theorem ctr_take_drop (hcipher : ∀ block, (cipher block).length = k) (fuel : Nat) (block : β)
    {text : List UInt8} (h : text ≠ []) :
    (ctr k cipher next (fuel + 1) block text).2.take k =
        List.zipWith (· ^^^ ·) (text.take k) (cipher block) ∧
      (ctr k cipher next (fuel + 1) block text).2.drop k =
        (ctr k cipher next fuel (next block) (text.drop k)).2 := by
  have hpiece : (List.zipWith (· ^^^ ·) (text.take k) (cipher block)).length =
      min k text.length := by
    rw [List.length_zipWith, List.length_take, hcipher]
    omega
  rw [ctr_succ next fuel block h]
  rcases Nat.le_total k text.length with hlong | hshort
  · rw [Nat.min_eq_left hlong] at hpiece
    exact ⟨List.take_left' hpiece, List.drop_left' hpiece⟩
  · have hrest : (ctr k cipher next fuel (next block) (text.drop k)).2 = [] := by
      rw [List.drop_eq_nil_of_le hshort]
      simp
    have hle : (List.zipWith (· ^^^ ·) (text.take k) (cipher block)).length ≤ k :=
      hpiece ▸ Nat.min_le_left _ _
    rw [hrest, List.append_nil]
    constructor
    · exact List.take_of_length_le hle
    · exact List.drop_eq_nil_of_le hle

/-- Deciphering is enciphering again, with the same counter blocks. -/
theorem ctr_ctr (hcipher : ∀ block, (cipher block).length = k) (hk : 0 < k) {fuel : Nat}
    {text : List UInt8} (hfuel : text.length ≤ fuel) (block : β) :
    ctr k cipher next fuel block (ctr k cipher next fuel block text).2 =
      ((ctr k cipher next fuel block text).1, text) := by
  induction fuel generalizing text block with
  | zero =>
      rw [List.eq_nil_of_length_eq_zero (Nat.le_zero.mp hfuel)]
      rfl
  | succ fuel ih =>
      by_cases hne : text = []
      · rw [hne]
        simp
      · have hdrop : (text.drop k).length ≤ fuel := by
          rw [List.length_drop]
          omega
        have hlen := ctr_length next hcipher hk hfuel block
        have houtput : (ctr k cipher next (fuel + 1) block text).2 ≠ [] := by
          intro hnil
          rw [hnil] at hlen
          exact hne (List.eq_nil_of_length_eq_zero hlen.symm)
        obtain ⟨htake, hskip⟩ := ctr_take_drop next hcipher fuel block hne
        have hcancel : List.zipWith (· ^^^ ·)
            (List.zipWith (· ^^^ ·) (text.take k) (cipher block)) (cipher block) = text.take k :=
          zipWith_xor_cancel (by rw [List.length_take, hcipher]; omega)
        rw [ctr_succ next fuel block houtput, htake, hskip, ih hdrop, hcancel, ctr_succ next fuel block hne]
        simp

/-- The counter blocks are the iterates of the first one, as many as the text has
pieces. -/
theorem ctr_inputs (hk : 0 < k) {fuel : Nat} {text : List UInt8} (hfuel : text.length ≤ fuel)
    (block : β) :
    (ctr k cipher next fuel block text).1 =
      (List.range ((text.length + (k - 1)) / k)).map fun i => next^[i] block := by
  induction fuel generalizing text block with
  | zero =>
      rw [List.eq_nil_of_length_eq_zero (Nat.le_zero.mp hfuel)]
      simp [Nat.div_eq_of_lt (Nat.sub_lt hk Nat.one_pos)]
  | succ fuel ih =>
      by_cases hne : text = []
      · rw [hne]
        simp [Nat.div_eq_of_lt (Nat.sub_lt hk Nat.one_pos)]
      · have hpos := List.length_pos_iff.mpr hne
        have hpieces : (text.length + (k - 1)) / k = (text.length - k + (k - 1)) / k + 1 := by
          rcases Nat.le_total k text.length with hlong | hshort
          · rw [← Nat.add_div_right _ hk]
            congr 1
            omega
          · rw [Nat.sub_eq_zero_of_le hshort, Nat.zero_add,
              Nat.div_eq_of_lt (Nat.sub_lt hk Nat.one_pos)]
            apply Nat.div_eq_of_lt_le <;> omega
        rw [ctr_succ next fuel block hne, ih (by rw [List.length_drop]; omega), List.length_drop,
          hpieces, List.range_succ_eq_map]
        simp [Function.comp_def]

end

end TinyRtc.CounterMode
