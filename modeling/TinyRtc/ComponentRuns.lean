import TinyRtc.LabelledRuns

namespace TinyRtc.ComponentRuns

open TinyRtc.LabelledRuns

variable {σ β α γ : Type*}

/-- What a label of a system means for one of its components, if that one is there: it begins
anew, it is given up, or it makes steps of its own. -/
inductive Effect (α γ : Type*) where
  | starts (a : α)
  | ends
  | steps (labels : List γ)

/-- A component that lives: the state it began in and its own labels since then. -/
abbrev Life (α γ : Type*) :=
  Option (α × List γ)

def Effect.extend : Effect α γ → Life α γ → Life α γ
  | .starts a, _ => some (a, [])
  | .ends, _ => none
  | .steps labels, life => life.map fun (start, past) => (start, past ++ labels)

/-- The life of a component behind a list of labels, of which only what follows its last start
counts. -/
def lifeAfter (effect : β → Effect α γ) (labels : List β) (life : Life α γ) : Life α γ :=
  labels.foldl (fun life label => (effect label).extend life) life

theorem lifeAfter_steps (own : β → List γ) (labels : List β) (start : α) (past : List γ) :
    lifeAfter (fun label => .steps (own label)) labels (some (start, past)) =
      some (start, past ++ labels.flatMap own) := by
  induction labels generalizing past with
  | nil =>
      rw [List.flatMap_nil, List.append_nil]
      rfl
  | cons label labels ih =>
      rw [List.flatMap_cons, ← List.append_assoc]
      exact ih (past ++ own label)

/-- A component in a state its life explains: it is there exactly as long as it lives, and in a
state that its own labels lead to. -/
inductive Explains (Local : α → γ → α → Prop) : Life α γ → Option α → Prop
  | absent : Explains Local none none
  | present {start state : α} {past : List γ} (hrun : Run Local start past state) :
      Explains Local (some (start, past)) (some state)

/-- How one step of a system shows in a component of it. -/
inductive Shows (Local : α → γ → α → Prop) : Effect α γ → Option α → Option α → Prop
  | starts {before : Option α} (a : α) : Shows Local (.starts a) before (some a)
  | ends {before : Option α} : Shows Local .ends before none
  | absent (labels : List γ) : Shows Local (.steps labels) none none
  | steps {a a' : α} {labels : List γ} (hrun : Run Local a labels a') :
      Shows Local (.steps labels) (some a) (some a')

theorem Shows.still {Local : α → γ → α → Prop} (component : Option α) :
    Shows Local (.steps []) component component := by
  cases component with
  | none => exact .absent []
  | some a => exact .steps (.nil a)

theorem Explains.extend {Local : α → γ → α → Prop} {effect : Effect α γ} {life : Life α γ}
    {before after : Option α} (h : Explains Local life before)
    (hshows : Shows Local effect before after) : Explains Local (effect.extend life) after := by
  cases hshows with
  | starts a => exact .present (.nil a)
  | ends => exact .absent
  | absent labels =>
      cases h
      exact .absent
  | steps hrun =>
      cases h with
      | present hpast => exact .present (hpast.append hrun)

/-- A run of a system, seen at one component: the rest of the system never touches it. -/
theorem explains_of_run {Step : σ → β → σ → Prop} {Local : α → γ → α → Prop} {I : σ → Prop}
    (effect : β → Effect α γ) (component : σ → Option α)
    (hkeeps : ∀ s b s', I s → Step s b s' → I s')
    (hshows : ∀ s b s', I s → Step s b s' → Shows Local (effect b) (component s) (component s'))
    {s s' : σ} {labels : List β} (hrun : Run Step s labels s') (hs : I s) {life : Life α γ}
    (hlife : Explains Local life (component s)) :
    Explains Local (lifeAfter effect labels life) (component s') := by
  induction hrun generalizing life with
  | nil s => exact hlife
  | cons hstep _ ih => exact ih (hkeeps _ _ _ hs hstep) (hlife.extend (hshows _ _ _ hs hstep))

/-- What holds where a component may begin, and is kept by its own steps, holds of it in every
run of the system. -/
theorem Explains.invariant {Local : α → γ → α → Prop} {J : α → Prop} {life : Life α γ}
    {component : Option α} (h : Explains Local life component)
    (hstart : ∀ start past, life = some (start, past) → J start)
    (hstep : ∀ a c a', J a → Local a c a' → J a') : ∀ a, component = some a → J a := by
  intro a ha
  cases h with
  | absent => cases ha
  | present hrun =>
      cases ha
      exact hrun.invariant hstep (hstart _ _ rfl)

end TinyRtc.ComponentRuns
