import Mathlib.Data.List.Basic

namespace TinyRtc.TracedPrograms

universe u v

/-- A program that records events on its way, and that may not come back. -/
structure Traced (ε : Type v) (α : Type u) where
  trace : List ε
  result : Option α

variable {ε : Type v} {α β σ : Type u} {P : ε → Prop} {Q : α → Prop} {R : β → Prop}

def record (events : List ε) : Traced ε PUnit :=
  ⟨events, some ⟨⟩⟩

def ofOption (a : Option α) : Traced ε α :=
  ⟨[], a⟩

instance : Monad (Traced ε) where
  pure a := ⟨[], some a⟩
  bind x f :=
    match x.result with
    | none => ⟨x.trace, none⟩
    | some a => ⟨x.trace ++ (f a).trace, (f a).result⟩

@[simp] theorem result_pure (a : α) : (pure a : Traced ε α).result = some a := rfl

@[simp] theorem result_ofOption (a : Option α) : (ofOption a : Traced ε α).result = a := rfl

@[simp] theorem result_record (events : List ε) : (record events).result = some ⟨⟩ := rfl

@[simp] theorem result_bind (x : Traced ε α) (f : α → Traced ε β) :
    (x >>= f).result = x.result.bind fun a => (f a).result := by
  change (match x.result with
    | none => (⟨x.trace, none⟩ : Traced ε β)
    | some a => ⟨x.trace ++ (f a).trace, (f a).result⟩).result = _
  cases x.result <;> rfl

/-- The result of a loop whose turns all come back. -/
theorem result_foldlM {γ : Type u} {f : σ → γ → Traced ε σ} {g : σ → γ → σ}
    (h : ∀ s turn, (f s turn).result = some (g s turn)) (turns : List γ) (s : σ) :
    (turns.foldlM f s).result = some (turns.foldl g s) := by
  induction turns generalizing s with
  | nil => rfl
  | cons turn turns ih =>
      rw [List.foldlM_cons, result_bind, h, Option.bind_some, ih, List.foldl_cons]

/-- Every event on the way is as required, and so is the result if there is one. -/
structure Meets (P : ε → Prop) (Q : α → Prop) (x : Traced ε α) : Prop where
  trace : ∀ event ∈ x.trace, P event
  result : ∀ a, x.result = some a → Q a

theorem Meets.pure {a : α} (h : Q a) : Meets P Q (pure a) := by
  refine ⟨fun event hevent => absurd hevent List.not_mem_nil, ?_⟩
  rintro a' ha
  cases ha
  exact h

theorem Meets.ofOption {a : Option α} (h : ∀ a', a = some a' → Q a') :
    Meets P Q (ofOption a) :=
  ⟨fun _ hevent => absurd hevent List.not_mem_nil, h⟩

theorem Meets.bind {x : Traced ε α} {f : α → Traced ε β} (hx : Meets P Q x)
    (hf : ∀ a, Q a → Meets P R (f a)) : Meets P R (x >>= f) := by
  obtain ⟨trace, result⟩ := x
  cases result with
  | none => exact ⟨hx.trace, fun _ hb => absurd hb (by simp)⟩
  | some a =>
      have ha := hf a (hx.result a rfl)
      refine ⟨?_, ha.result⟩
      intro event hevent
      rcases List.mem_append.mp hevent with hevent | hevent
      · exact hx.trace event hevent
      · exact ha.trace event hevent

theorem Meets.record_bind {events : List ε} {f : PUnit → Traced ε β}
    (h : ∀ event ∈ events, P event) (hf : Meets P R (f ⟨⟩)) : Meets P R (record events >>= f) :=
  .bind (Q := fun _ => True) ⟨h, fun _ _ => trivial⟩ fun _ _ => hf

theorem Meets.mono {Q' : α → Prop} {x : Traced ε α} (h : Meets P Q x) (hQ : ∀ a, Q a → Q' a) :
    Meets P Q' x :=
  ⟨h.trace, fun a ha => hQ a (h.result a ha)⟩

/-- A loop over a list keeps what each of its turns keeps. -/
theorem Meets.foldlM {γ : Type u} {I : σ → Prop} {f : σ → γ → Traced ε σ} {turns : List γ}
    (h : ∀ turn ∈ turns, ∀ s, I s → Meets P I (f s turn)) {s : σ} (hs : I s) :
    Meets P I (turns.foldlM f s) := by
  induction turns generalizing s with
  | nil => exact .pure hs
  | cons turn turns ih =>
      rw [List.foldlM_cons]
      refine .bind (h turn List.mem_cons_self s hs) fun s' hs' => ih ?_ hs'
      intro turn' hturn'
      exact h turn' (List.mem_cons_of_mem _ hturn')

end TinyRtc.TracedPrograms
