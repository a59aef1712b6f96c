import Mathlib.Data.List.Basic

namespace TinyRtc.LabelledRuns

variable {σ β : Type*} {Step : σ → β → σ → Prop}

/-- A finite run of a labelled transition system. -/
inductive Run (Step : σ → β → σ → Prop) : σ → List β → σ → Prop
  | nil (s : σ) : Run Step s [] s
  | cons {s s' s'' : σ} {b : β} {bs : List β} :
      Step s b s' → Run Step s' bs s'' → Run Step s (b :: bs) s''

theorem Run.singleton {s s' : σ} {b : β} (h : Step s b s') : Run Step s [b] s' :=
  .cons h (.nil s')

theorem Run.append {s s' s'' : σ} {first second : List β} (hfirst : Run Step s first s')
    (hsecond : Run Step s' second s'') : Run Step s (first ++ second) s'' := by
  induction hfirst with
  | nil s => exact hsecond
  | cons hstep _ ih => exact .cons hstep (ih hsecond)

theorem Run.of_append {s s'' : σ} {first second : List β} (h : Run Step s (first ++ second) s'') :
    ∃ s', Run Step s first s' ∧ Run Step s' second s'' := by
  induction first generalizing s with
  | nil => exact ⟨s, .nil s, h⟩
  | cons b first ih =>
      cases h with
      | cons hstep hrest =>
          obtain ⟨s', hfirst, hsecond⟩ := ih hrest
          exact ⟨s', .cons hstep hfirst, hsecond⟩

theorem Run.exists_step {s s' : σ} {b : β} {bs : List β} (h : Run Step s bs s') (hb : b ∈ bs) :
    ∃ before t t', Run Step s before t ∧ Step t b t' := by
  obtain ⟨before, after, rfl⟩ := List.append_of_mem hb
  obtain ⟨t, hbefore, hrest⟩ := h.of_append
  cases hrest with
  | cons hstep _ => exact ⟨before, t, _, hbefore, hstep⟩

theorem Run.mono {Step' : σ → β → σ → Prop} (h : ∀ s b s', Step s b s' → Step' s b s')
    {s s' : σ} {bs : List β} (hrun : Run Step s bs s') : Run Step' s bs s' := by
  induction hrun with
  | nil s => exact .nil s
  | cons hstep _ ih => exact .cons (h _ _ _ hstep) ih

/-- What every step keeps, every run keeps. -/
theorem Run.invariant {I : σ → Prop} (hstep : ∀ s b s', I s → Step s b s' → I s')
    {s s' : σ} {bs : List β} (hrun : Run Step s bs s') (hs : I s) : I s' := by
  induction hrun with
  | nil s => exact hs
  | cons h _ ih => exact ih (hstep _ _ _ hs h)

/-- Where a step depends on its input alone, a run depends on its inputs alone. -/
theorem Run.eq_of_inputs {ι ο : Type*} {Step : σ → ι × ο → σ → Prop}
    (hstep : ∀ s input output output' s' s'', Step s (input, output) s' →
      Step s (input, output') s'' → output = output' ∧ s' = s'')
    {s s' s'' : σ} {first second : List (ι × ο)} (hfirst : Run Step s first s')
    (hsecond : Run Step s second s'') (hinputs : first.map Prod.fst = second.map Prod.fst) :
    first = second ∧ s' = s'' := by
  induction hfirst generalizing second with
  | nil s =>
      cases List.map_eq_nil_iff.mp hinputs.symm
      cases hsecond
      exact ⟨rfl, rfl⟩
  | @cons s next s' label labels hlabel _ ih =>
      cases hsecond with
      | nil => cases hinputs
      | @cons _ next' _ label' labels' hlabel' hrest' =>
          obtain ⟨input, output⟩ := label
          obtain ⟨input', output'⟩ := label'
          rw [List.map_cons, List.map_cons, List.cons.injEq] at hinputs
          obtain ⟨hinput, hinputs⟩ := hinputs
          cases hinput
          obtain ⟨rfl, rfl⟩ := hstep _ _ _ _ _ _ hlabel hlabel'
          obtain ⟨rfl, rfl⟩ := ih hrest' hinputs
          exact ⟨rfl, rfl⟩

/-- Two kinds of steps that agree under an invariant of the second have the same
runs. -/
theorem Run.congr_of_invariant {Step' : σ → β → σ → Prop} {I : σ → Prop}
    (hagree : ∀ s b s', I s → (Step s b s' ↔ Step' s b s'))
    (hstep : ∀ s b s', I s → Step' s b s' → I s') {s s' : σ} {bs : List β} (hs : I s) :
    Run Step s bs s' ↔ Run Step' s bs s' := by
  constructor
  · intro hrun
    induction hrun with
    | nil s => exact .nil s
    | cons h _ ih =>
        have h' := (hagree _ _ _ hs).mp h
        exact .cons h' (ih (hstep _ _ _ hs h'))
  · intro hrun
    induction hrun with
    | nil s => exact .nil s
    | cons h' _ ih => exact .cons ((hagree _ _ _ hs).mpr h') (ih (hstep _ _ _ hs h'))

end TinyRtc.LabelledRuns
