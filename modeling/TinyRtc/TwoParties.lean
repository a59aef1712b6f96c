import TinyRtc.LabelledRuns

namespace TinyRtc.TwoParties

open TinyRtc.LabelledRuns

variable {σ μ α : Type*}

inductive Side where
  | left
  | right
  deriving DecidableEq, Repr

def Side.other : Side → Side
  | .left => .right
  | .right => .left

@[simp] theorem Side.other_other (side : Side) : side.other.other = side := by
  cases side <;> rfl

theorem Side.eq_or_eq_other (side side' : Side) : side' = side ∨ side' = side.other := by
  cases side <;> cases side' <;> simp [Side.other]

/-- A party, with all that it has ever sent. -/
structure Party (σ μ : Type*) where
  state : σ
  sent : List μ

def Party.after (party : Party σ μ) (result : σ × List μ) : Party σ μ :=
  ⟨result.1, party.sent ++ result.2⟩

/-- One of two parties acts. What it may do depends on what either has sent so far, all of it:
a network between them may lose, double, delay and reorder what it carries. -/
structure Acts (act : σ → α → σ × List μ) (May : Side → List μ → List μ → α → Prop)
    (s : Side → Party σ μ) (label : Side × α) (s' : Side → Party σ μ) : Prop where
  may : May label.1 (s label.1).sent (s label.1.other).sent label.2
  acts : s' label.1 = (s label.1).after (act (s label.1).state label.2)
  waits : s' label.1.other = s label.1.other

variable {act : σ → α → σ × List μ} {May : Side → List μ → List μ → α → Prop}

/-- The parties behind an action. -/
def step (act : σ → α → σ × List μ) (s : Side → Party σ μ) (label : Side × α) :
    Side → Party σ μ :=
  fun side => if side = label.1 then (s side).after (act (s side).state label.2) else s side

theorem acts_step {s : Side → Party σ μ} {label : Side × α}
    (hmay : May label.1 (s label.1).sent (s label.1.other).sent label.2) :
    Acts act May s label (step act s label) := by
  refine ⟨hmay, if_pos rfl, if_neg ?_⟩
  cases label.1 <;> decide

/-- An invariant of either party that relies on what the other has sent, and on the other's
invariant for it. -/
theorem run_invariant {Holds : Side → Party σ μ → List μ → Prop}
    (hgrow : ∀ side party heard more, Holds side party heard → Holds side party (heard ++ more))
    (hstep : ∀ side own other a, Holds side own other.sent → Holds side.other other own.sent →
      May side own.sent other.sent a → Holds side (own.after (act own.state a)) other.sent)
    {s s' : Side → Party σ μ} {labels : List (Side × α)} (hrun : Run (Acts act May) s labels s')
    (hs : ∀ side, Holds side (s side) (s side.other).sent) (side : Side) :
    Holds side (s' side) (s' side.other).sent := by
  induction hrun with
  | nil s => exact hs side
  | @cons s s' _ label _ hstep' _ ih =>
      apply ih
      obtain ⟨acting, a⟩ := label
      obtain ⟨hmay, hacts, hwaits⟩ := hstep'
      dsimp only at hmay hacts hwaits
      intro side
      rcases Side.eq_or_eq_other acting side with rfl | rfl
      · rw [hacts, hwaits]
        have hother := hs side.other
        rw [Side.other_other] at hother
        exact hstep _ _ _ _ (hs side) hother hmay
      · rw [Side.other_other, hacts, hwaits]
        have hother := hs acting.other
        rw [Side.other_other] at hother
        exact hgrow _ _ _ _ hother

end TinyRtc.TwoParties
