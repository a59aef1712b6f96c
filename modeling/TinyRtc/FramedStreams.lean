import TinyRtc.LabelledRuns
import TinyRtc.PolledStream

namespace TinyRtc.FramedStreams

open TinyRtc.LabelledRuns
open TinyRtc.PolledStream

variable {α β γ δ σ : Type*}

/-- What a writer has written: whole units, and behind them at most the front of one more. -/
structure Written (encode : γ → List α) (wire : List α) (units : List γ) (torn : List α) :
    Prop where
  eq : wire = units.flatMap encode ++ torn
  torn : torn = [] ∨ ∃ u, torn <+: encode u ∧ torn ≠ encode u

section

variable {encode : γ → List α}

theorem Written.nil : Written encode [] [] [] :=
  ⟨rfl, .inl rfl⟩

theorem Written.unit (u : γ) : Written encode (encode u) [u] [] :=
  ⟨by rw [List.flatMap_singleton, List.append_nil], .inl rfl⟩

theorem Written.front {u : γ} {torn : List α} (h : torn <+: encode u) (hne : torn ≠ encode u) :
    Written encode torn [] torn :=
  ⟨rfl, .inr ⟨u, h, hne⟩⟩

theorem Written.append {first second torn : List α} {units units' : List γ}
    (hfirst : Written encode first units []) (hsecond : Written encode second units' torn) :
    Written encode (first ++ second) (units ++ units') torn := by
  refine ⟨?_, hsecond.torn⟩
  rw [hfirst.eq, hsecond.eq, List.append_nil, List.flatMap_append, List.append_assoc]

end

/-- The front of two parts that is not all of them ends in one of the two. -/
theorem front_cases {front first second : List α} (h : front <+: first ++ second)
    (hne : front ≠ first ++ second) :
    front.length < first.length ∨
      ∃ front', front = first ++ front' ∧ front' <+: second ∧ front' ≠ second := by
  rcases Nat.lt_or_ge front.length first.length with hlt | hge
  · exact .inl hlt
  · obtain ⟨front', rfl⟩ := List.prefix_of_prefix_length_le (List.prefix_append _ _) h hge
    refine .inr ⟨front', rfl, (List.prefix_append_right_inj first).mp h, ?_⟩
    rintro rfl
    exact hne rfl

/-- A writer that tells what it has sent, and that never writes again once it has left a unit
torn. -/
structure StopsWhenTorn (Step : σ → β → σ → Prop) (active : σ → Prop) (written : β → List α)
    (sent : β → List δ) (encode : γ → List α) (seen : γ → δ) : Prop where
  idle : ∀ {s b s'}, Step s b s' → ¬ active s → written b = [] ∧ sent b = [] ∧ ¬ active s'
  writes : ∀ {s b s'}, Step s b s' → active s → ∃ units torn,
    Written encode (written b) units torn ∧ units.map seen = sent b ∧ (active s' → torn = [])

section

variable {Step : σ → β → σ → Prop} {active : σ → Prop} {written : β → List α}
  {sent : β → List δ} {encode : γ → List α} {seen : γ → δ}

theorem StopsWhenTorn.idle_run (h : StopsWhenTorn Step active written sent encode seen)
    {s s' : σ} {bs : List β} (hrun : Run Step s bs s') (hs : ¬ active s) :
    bs.flatMap written = [] ∧ bs.flatMap sent = [] ∧ ¬ active s' := by
  induction hrun with
  | nil s => exact ⟨rfl, rfl, hs⟩
  | cons hstep _ ih =>
      obtain ⟨hwritten, hsent, hs'⟩ := h.idle hstep hs
      obtain ⟨hwritten', hsent', hlast⟩ := ih hs'
      rw [List.flatMap_cons, List.flatMap_cons, hwritten, hsent, hwritten', hsent']
      exact ⟨rfl, rfl, hlast⟩

/-- Over a whole run too, what has been written is what has been told, in whole units and in
order. -/
theorem StopsWhenTorn.run (h : StopsWhenTorn Step active written sent encode seen) {s s' : σ}
    {bs : List β} (hrun : Run Step s bs s') (hs : active s) : ∃ units torn,
      Written encode (bs.flatMap written) units torn ∧ units.map seen = bs.flatMap sent ∧
        (active s' → torn = []) := by
  induction hrun with
  | nil s => exact ⟨[], [], .nil, rfl, fun _ => rfl⟩
  | @cons s t s' b bs hstep hrest ih =>
      obtain ⟨units, torn, hwritten, hsent, htorn⟩ := h.writes hstep hs
      rw [List.flatMap_cons, List.flatMap_cons]
      by_cases ht : active t
      · obtain ⟨units', torn', hwritten', hsent', htorn'⟩ := ih ht
        cases htorn ht
        exact ⟨units ++ units', torn', hwritten.append hwritten',
          by rw [List.map_append, hsent, hsent'], htorn'⟩
      · obtain ⟨hwritten', hsent', hlast⟩ := h.idle_run hrest ht
        rw [hwritten', hsent', List.append_nil, List.append_nil]
        exact ⟨units, torn, hwritten, hsent, fun hs' => absurd hs' hlast⟩

end

section

variable {step : σ → List (Poll α) → Option (Turn α β σ)} {encode : γ → List α}
  {active : σ → Bool} {handle : σ → γ → Option (List β × σ)}

/-- A reader that takes nothing from what is torn off reads the whole units only. -/
theorem delivered_torn (h : HandlesUnits step encode active handle)
    {rest : List (Poll α)} (hrest : ∀ s, active s = true → step s rest = some ⟨[], s, []⟩)
    (units : List γ) {n : Nat} (hn : (units.flatMap encode).length < n) (s : σ) :
    delivered step n s ((units.flatMap encode).map .item ++ rest) =
      handleAll active handle s units := by
  induction units generalizing n s with
  | nil =>
      rw [List.flatMap_nil, List.map_nil, List.nil_append]
      obtain ⟨n, rfl⟩ := Nat.exists_eq_add_one_of_ne_zero (Nat.ne_zero_of_lt hn)
      cases hactive : active s with
      | true =>
          rw [delivered_succ, hrest s hactive, Option.bind_some,
            delivered_of_still (h.empty s hactive)]
          rfl
      | false => rw [delivered_of_still (h.idle s rest hactive)]; rfl
  | cons u units ih =>
      cases hactive : active s with
      | true =>
          have hlength := List.length_pos_of_ne_nil (h.encode_ne_nil u)
          rw [List.flatMap_cons, List.length_append] at hn
          obtain ⟨n, rfl⟩ := Nat.exists_eq_add_one_of_ne_zero (Nat.ne_zero_of_lt hn)
          rw [List.flatMap_cons, List.map_append, List.append_assoc, delivered_succ,
            h.unit s u _ hactive, handleAll, if_pos hactive]
          cases handle s u with
          | none => rfl
          | some handled =>
              rw [Option.map_some, Option.bind_some, Option.bind_some, ih (by omega)]
      | false => rw [delivered_of_still (h.idle s _ hactive), handleAll_of_inactive hactive]

end

end TinyRtc.FramedStreams
