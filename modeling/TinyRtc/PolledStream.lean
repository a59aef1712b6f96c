import Mathlib.Data.List.Basic

namespace TinyRtc.PolledStream

variable {α β γ σ : Type*}

/-- What a source that does not block answers to one poll. -/
inductive Poll (α : Type*) where
  | item (a : α)
  | notYet
  | failed
  deriving DecidableEq

/-- What becomes of a number of polls in a row. -/
inductive Outcome (α : Type*) where
  | read (items : List α)
  | notYet
  | failed

/-- Where there is no answer left, nothing can be read yet. -/
def poll : List (Poll α) → Poll α × List (Poll α)
  | [] => (.notYet, [])
  | answer :: rest => (answer, rest)

/-- `n` items, one poll for each. The items of the polls before the last one are gone
when there is no next item. -/
def pollN : Nat → List (Poll α) → Outcome α × List (Poll α)
  | 0, answers => (.read [], answers)
  | n + 1, answers =>
      match poll answers with
      | (.item a, rest) =>
          match pollN n rest with
          | (.read items, rest) => (.read (a :: items), rest)
          | stopped => stopped
      | (.notYet, rest) => (.notYet, rest)
      | (.failed, rest) => (.failed, rest)

theorem pollN_items (items : List α) (rest : List (Poll α)) :
    pollN items.length (items.map .item ++ rest) = (.read items, rest) := by
  induction items with
  | nil => rfl
  | cons a items ih =>
      rw [List.length_cons, List.map_cons, List.cons_append, pollN, poll]
      dsimp only
      rw [ih]

/-- The answers are the units' items, and the source keeps the consumer waiting between two
units only. -/
inductive WaitsBetween (encode : γ → List α) : List γ → List (Poll α) → Prop
  | nil : WaitsBetween encode [] []
  | wait {units : List γ} {answers : List (Poll α)} :
      WaitsBetween encode units answers → WaitsBetween encode units (.notYet :: answers)
  | unit (u : γ) {units : List γ} {answers : List (Poll α)} :
      WaitsBetween encode units answers →
        WaitsBetween encode (u :: units) ((encode u).map .item ++ answers)

def itemsOf : List (Poll α) → List α :=
  List.filterMap fun
    | .item a => some a
    | _ => none

theorem waitsBetween_flatMap (encode : γ → List α) (units : List γ) :
    WaitsBetween encode units ((units.flatMap encode).map .item) := by
  induction units with
  | nil => exact .nil
  | cons u units ih =>
      rw [List.flatMap_cons, List.map_append]
      exact .unit u ih

/-- What one call of a consumer leaves behind. -/
structure Turn (α β σ : Type*) where
  out : List β
  state : σ
  rest : List (Poll α)

/-- A number of calls of a consumer in a row. -/
def calls (step : σ → List (Poll α) → Option (Turn α β σ)) :
    Nat → σ → List (Poll α) → Option (Turn α β σ)
  | 0, s, answers => some ⟨[], s, answers⟩
  | n + 1, s, answers =>
      (step s answers).bind fun turn =>
        (calls step n turn.state turn.rest).map fun last =>
          { last with out := turn.out ++ last.out }

/-- What the calls put out, and the state that they lead to. -/
def delivered (step : σ → List (Poll α) → Option (Turn α β σ)) (n : Nat) (s : σ)
    (answers : List (Poll α)) : Option (List β × σ) :=
  (calls step n s answers).map fun last => (last.out, last.state)

/-- The units one after the other, as long as the consumer is active. -/
def handleAll (active : σ → Bool) (handle : σ → γ → Option (List β × σ)) :
    σ → List γ → Option (List β × σ)
  | s, [] => some ([], s)
  | s, u :: units =>
      if active s then
        (handle s u).bind fun handled =>
          (handleAll active handle handled.2 units).map fun last =>
            (handled.1 ++ last.1, last.2)
      else some ([], s)

/-- A consumer that handles one unit a call where the source does not keep it waiting. -/
structure HandlesUnits (step : σ → List (Poll α) → Option (Turn α β σ))
    (encode : γ → List α) (active : σ → Bool) (handle : σ → γ → Option (List β × σ)) :
    Prop where
  encode_ne_nil : ∀ u, encode u ≠ []
  idle : ∀ s answers, active s = false → step s answers = some ⟨[], s, answers⟩
  empty : ∀ s, active s = true → step s [] = some ⟨[], s, []⟩
  wait : ∀ s rest, active s = true → step s (.notYet :: rest) = some ⟨[], s, rest⟩
  unit : ∀ s u rest, active s = true → step s ((encode u).map .item ++ rest) =
    (handle s u).map fun handled => ⟨handled.1, handled.2, rest⟩

section

variable {step : σ → List (Poll α) → Option (Turn α β σ)}
  {encode : γ → List α} {active : σ → Bool} {handle : σ → γ → Option (List β × σ)}

theorem delivered_succ (n : Nat) (s : σ) (answers : List (Poll α)) :
    delivered step (n + 1) s answers =
      (step s answers).bind fun turn =>
        (delivered step n turn.state turn.rest).map fun last =>
          (turn.out ++ last.1, last.2) := by
  rw [delivered, calls, Option.map_bind]
  congr 1
  funext turn
  simp only [delivered, Function.comp_apply, Option.map_map]
  rfl

theorem delivered_of_still {s : σ} {answers : List (Poll α)}
    (h : step s answers = some ⟨[], s, answers⟩) (n : Nat) :
    delivered step n s answers = some ([], s) := by
  induction n with
  | zero => rfl
  | succ n ih =>
      rw [delivered_succ, h, Option.bind_some, ih]
      rfl

theorem handleAll_of_inactive {s : σ} (h : active s = false) (units : List γ) :
    handleAll active handle s units = some ([], s) := by
  cases units with
  | nil => rfl
  | cons u units => rw [handleAll, h, if_neg Bool.false_ne_true]

theorem handleAll_append (s : σ) (first second : List γ) :
    handleAll active handle s (first ++ second) =
      (handleAll active handle s first).bind fun handled =>
        (handleAll active handle handled.2 second).map fun last =>
          (handled.1 ++ last.1, last.2) := by
  induction first generalizing s with
  | nil =>
      rw [List.nil_append, handleAll, Option.bind_some]
      cases handleAll active handle s second <;> rfl
  | cons u first ih =>
      cases hactive : active s with
      | true =>
          rw [List.cons_append, handleAll, handleAll, hactive, if_pos rfl, if_pos rfl]
          cases handle s u with
          | none => rfl
          | some handled =>
              rw [Option.bind_some, Option.bind_some, ih]
              cases handleAll active handle handled.2 first with
              | none => rfl
              | some middle =>
                  rw [Option.bind_some, Option.map_some, Option.bind_some, Option.map_map]
                  congr 1
                  funext last
                  exact congrArg (fun out => (out, last.2)) (List.append_assoc _ _ _).symm
      | false =>
          rw [handleAll_of_inactive hactive, handleAll_of_inactive hactive, Option.bind_some,
            handleAll_of_inactive hactive]
          rfl

/-- Enough calls deliver what the units do, wherever the source makes the consumer wait
between them. -/
theorem HandlesUnits.delivered_eq (h : HandlesUnits step encode active handle)
    {units : List γ} {answers : List (Poll α)} (hwaits : WaitsBetween encode units answers)
    {n : Nat} (hn : answers.length ≤ n) (s : σ) :
    delivered step n s answers = handleAll active handle s units := by
  induction hwaits generalizing n s with
  | nil =>
      cases hactive : active s with
      | true => exact delivered_of_still (h.empty s hactive) n
      | false => exact delivered_of_still (h.idle s [] hactive) n
  | @wait units answers _ ih =>
      cases hactive : active s with
      | true =>
          obtain ⟨n, rfl⟩ := Nat.exists_eq_add_one_of_ne_zero (n := n) (by
            rw [List.length_cons] at hn
            omega)
          rw [delivered_succ, h.wait s _ hactive, Option.bind_some, ih (by simpa using hn)]
          cases handleAll active handle s units <;> rfl
      | false =>
          rw [delivered_of_still (h.idle s _ hactive), handleAll_of_inactive hactive]
  | @unit u units answers _ ih =>
      cases hactive : active s with
      | true =>
          have hlength := List.length_pos_of_ne_nil (h.encode_ne_nil u)
          rw [List.length_append, List.length_map] at hn
          obtain ⟨n, rfl⟩ := Nat.exists_eq_add_one_of_ne_zero (n := n) (by omega)
          rw [delivered_succ, h.unit s u _ hactive, handleAll, if_pos hactive]
          cases handle s u with
          | none => rfl
          | some handled =>
              rw [Option.map_some, Option.bind_some, Option.bind_some, ih (by omega)]
      | false =>
          rw [delivered_of_still (h.idle s _ hactive), handleAll_of_inactive hactive]

/-- So the waits between units make no difference. -/
theorem HandlesUnits.delivered_congr (h : HandlesUnits step encode active handle)
    {units : List γ} {answers : List (Poll α)} (hwaits : WaitsBetween encode units answers)
    {n m : Nat} (hn : answers.length ≤ n) (hm : (units.flatMap encode).length ≤ m) (s : σ) :
    delivered step n s answers =
      delivered step m s ((units.flatMap encode).map .item) := by
  rw [h.delivered_eq hwaits hn, h.delivered_eq (waitsBetween_flatMap encode units)]
  rwa [List.length_map]

end

end TinyRtc.PolledStream
