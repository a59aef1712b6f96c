import Mathlib.Data.List.Basic
import Mathlib.Data.List.Induction

namespace TinyRtc.MarkedRuns

/-- Marked at the end, and nowhere else. -/
def MarkedAtEnd (flags : List Bool) : Prop :=
  flags = List.replicate (flags.length - 1) false ++ [true]

theorem MarkedAtEnd.ne_nil {flags : List Bool} (h : MarkedAtEnd flags) : flags ≠ [] := by
  rw [h]
  simp

theorem markedAtEnd_replicate_iff {n : Nat} {flag : Bool} :
    MarkedAtEnd (List.replicate n false ++ [flag]) ↔ flag = true := by
  rw [MarkedAtEnd, List.length_append, List.length_replicate, List.length_singleton,
    Nat.add_sub_cancel, List.append_cancel_left_eq]
  simp

theorem markedAtEnd_append_iff {n : Nat} {flag : Bool} {rest : List Bool} (hne : rest ≠ []) :
    MarkedAtEnd (List.replicate n false ++ [flag] ++ rest) ↔
      flag = false ∧ MarkedAtEnd rest := by
  have hpos := List.length_pos_iff.mpr hne
  have hlen : (List.replicate n false ++ [flag] ++ rest).length - 1 =
      n + (1 + (rest.length - 1)) := by
    simp only [List.length_append, List.length_replicate, List.length_singleton]
    omega
  rw [MarkedAtEnd, hlen, List.replicate_add, List.replicate_add, List.append_assoc,
    List.append_assoc, List.append_cancel_left_eq, List.append_assoc, MarkedAtEnd]
  simp

variable {β ι : Type*} (label : β → ι) (isFinal : β → Bool)

/-- Items of one label, none of them final. -/
def IsOpenRun (l : ι) (run : List β) : Prop :=
  ∀ x ∈ run, label x = l ∧ isFinal x = false

/-- Items of one label, of which the last alone is final. -/
def IsFinishedRun (l : ι) (run : List β) : Prop :=
  ∃ init final, run = init ++ [final] ∧ IsOpenRun label isFinal l init ∧ label final = l ∧
    isFinal final = true

/-- An item of this label starts a run here. -/
def IsRunStart (l : ι) (before : List β) : Prop :=
  ∀ y ∈ before.getLast?, label y = l → isFinal y = true

variable {label isFinal}

theorem IsFinishedRun.ne_nil {l : ι} {run : List β} (h : IsFinishedRun label isFinal l run) :
    run ≠ [] := by
  obtain ⟨init, final, rfl, -⟩ := h
  simp

theorem IsFinishedRun.label_eq {l : ι} {run : List β} (h : IsFinishedRun label isFinal l run) :
    ∀ x ∈ run, label x = l := by
  obtain ⟨init, final, rfl, hinit, hfinal, -⟩ := h
  intro x hx
  rcases List.mem_append.mp hx with hx | hx
  · exact (hinit x hx).1
  · rw [List.mem_singleton.mp hx, hfinal]

/-- Among items of one label, a finished run is one that is marked at its end only. -/
theorem isFinishedRun_iff {l : ι} {run : List β} (hlabel : ∀ x ∈ run, label x = l) :
    IsFinishedRun label isFinal l run ↔
      MarkedAtEnd (run.map isFinal) := by
  rw [MarkedAtEnd, List.length_map]
  constructor
  · rintro ⟨init, final, hsplit, hinit, -, hfinal⟩
    rw [hsplit, List.map_append, List.map_singleton, hfinal, List.length_append,
      List.length_singleton, Nat.add_sub_cancel]
    congr 1
    exact List.map_eq_replicate_iff.mpr fun x hx => (hinit x hx).2
  · intro hflags
    rcases List.eq_nil_or_concat run with rfl | ⟨init, final, rfl⟩
    · simp at hflags
    · rw [List.concat_eq_append] at hlabel hflags ⊢
      rw [List.map_append, List.map_singleton, List.length_append, List.length_singleton,
        Nat.add_sub_cancel] at hflags
      obtain ⟨hinit, hfinal⟩ := List.append_inj hflags (by simp)
      refine ⟨init, final, rfl, ?_, hlabel final (by simp), (List.cons.inj hfinal).1⟩
      intro x hx
      exact ⟨hlabel x (List.mem_append_left _ hx), List.map_eq_replicate_iff.mp hinit x hx⟩

variable (label isFinal) [DecidableEq ι]

/-- The run that `x` goes on with: it starts a new one behind an item with another
label. -/
def extendRun (run : List β) (x : β) : List β :=
  if ∀ y ∈ run.getLast?, label y = label x then run ++ [x] else [x]

/-- One item of a stream: the run that stays open, and the run that it completes. -/
def collect (run : List β) (x : β) : List β × Option (List β) :=
  if isFinal x then ([], some (extendRun label run x)) else (extendRun label run x, none)

/-- What each item of a stream completes. -/
def collectAll : (run : List β) → List β → List (Option (List β))
  | _, [] => []
  | run, x :: xs =>
      (collect label isFinal run x).2 :: collectAll (collect label isFinal run x).1 xs

/-- The run that is open behind a stream. -/
def openRun (run xs : List β) : List β :=
  xs.foldl (fun run x => (collect label isFinal run x).1) run

variable {label isFinal}

theorem extendRun_of_ne {l : ι} {run : List β} {x : β} (hx : label x = l)
    (h : ∀ y ∈ run.getLast?, label y ≠ l) : extendRun label run x = [x] := by
  rw [extendRun]
  split
  · next hsame =>
    cases hlast : run.getLast? with
    | none => rw [List.getLast?_eq_none_iff.mp hlast, List.nil_append]
    | some y => exact absurd ((hsame y hlast).trans hx) (h y hlast)
  · rfl

theorem extendRun_of_eq {l : ι} {run : List β} {x : β} (hrun : ∀ y ∈ run, label y = l)
    (hx : label x = l) : extendRun label run x = run ++ [x] := by
  rw [extendRun, if_pos]
  intro y hy
  rw [hrun y (List.mem_of_mem_getLast? hy), hx]

theorem getLast?_extendRun (run : List β) (x : β) :
    (extendRun label run x).getLast? = some x := by
  rw [extendRun]
  split
  · rw [List.getLast?_append, List.getLast?_singleton, Option.some_or]
  · rfl

theorem getLast?_of_collect {run out : List β} {x : β}
    (h : (collect label isFinal run x).2 = some out) : out.getLast? = some x := by
  rw [collect] at h
  split at h
  · cases h
    exact getLast?_extendRun run x
  · cases h

theorem openRun_append (run xs ys : List β) :
    openRun label isFinal run (xs ++ ys) =
      openRun label isFinal (openRun label isFinal run xs) ys := by
  rw [openRun, List.foldl_append]
  rfl

theorem openRun_singleton (run : List β) (x : β) :
    openRun label isFinal run [x] = (collect label isFinal run x).1 := rfl

theorem collectAll_append (run xs ys : List β) :
    collectAll label isFinal run (xs ++ ys) =
      collectAll label isFinal run xs ++
        collectAll label isFinal (openRun label isFinal run xs) ys := by
  induction xs generalizing run with
  | nil => rfl
  | cons x xs ih =>
      rw [List.cons_append, collectAll, collectAll, ih, List.cons_append]
      rfl

@[simp] theorem collectAll_length (run xs : List β) :
    (collectAll label isFinal run xs).length = xs.length := by
  induction xs generalizing run with
  | nil => rfl
  | cons x xs ih => rw [collectAll, List.length_cons, List.length_cons, ih]

theorem collect_isSome (run : List β) (x : β) :
    (collect label isFinal run x).2.isSome = isFinal x := by
  rw [collect]
  split
  · next h => rw [h]; rfl
  · next h => rw [eq_false_of_ne_true h]; rfl

/-- The final items, and no others, complete a run. -/
theorem collectAll_isSome (run xs : List β) :
    (collectAll label isFinal run xs).map Option.isSome = xs.map isFinal := by
  induction xs generalizing run with
  | nil => rfl
  | cons x xs ih => rw [collectAll, List.map_cons, List.map_cons, collect_isSome, ih]

theorem openRun_of_isOpenRun {l : ι} {run init : List β} (hrun : ∀ y ∈ run, label y = l)
    (hinit : IsOpenRun label isFinal l init) :
    openRun label isFinal run init = run ++ init ∧
      collectAll label isFinal run init = List.replicate init.length none := by
  induction init generalizing run with
  | nil => exact ⟨(List.append_nil run).symm, rfl⟩
  | cons x init ih =>
      obtain ⟨hx, hopen⟩ := hinit x List.mem_cons_self
      have hcollect : collect label isFinal run x = (run ++ [x], none) := by
        rw [collect, extendRun_of_eq hrun hx, hopen]
        rfl
      have hlabels : ∀ y ∈ run ++ [x], label y = l := by
        intro y hy
        rcases List.mem_append.mp hy with hy | hy
        · exact hrun y hy
        · rw [List.mem_singleton.mp hy, hx]
      obtain ⟨hrest, houts⟩ := ih hlabels fun y hy => hinit y (List.mem_cons_of_mem x hy)
      constructor
      · change openRun label isFinal (collect label isFinal run x).1 init = _
        rw [hcollect, hrest, List.append_assoc, List.singleton_append]
      · rw [collectAll, hcollect, houts]
        rfl

/-- The open run, if there is one, ends where the stream does. -/
theorem getLast?_openRun (xs : List β) :
    (openRun label isFinal [] xs).getLast? = xs.getLast?.filter fun x => !isFinal x := by
  rcases List.eq_nil_or_concat xs with rfl | ⟨xs, x, rfl⟩
  · rfl
  · rw [List.concat_eq_append, openRun_append, openRun_singleton, List.getLast?_append,
      List.getLast?_singleton, Option.some_or, collect]
    split
    · next hx => simp [Option.filter_some, hx]
    · next hx => simp [Option.filter_some, hx, getLast?_extendRun]

/-- Where a run starts, what is open has another label. -/
theorem openRun_of_isRunStart {l : ι} {before : List β}
    (h : IsRunStart label isFinal l before) :
    ∀ y ∈ (openRun label isFinal [] before).getLast?, label y ≠ l := by
  intro y hy hlabel
  rw [getLast?_openRun] at hy
  obtain ⟨hy, hopen⟩ := Option.filter_eq_some_iff.mp hy
  rw [h y hy hlabel] at hopen
  cases hopen

/-- A finished run comes out with its last item, behind a run of another label. -/
theorem collectAll_of_ne {l : ι} {before run : List β} (hother : ∀ y ∈ before.getLast?, label y ≠ l)
    (hrun : IsFinishedRun label isFinal l run) :
    collectAll label isFinal before run = List.replicate (run.length - 1) none ++ [some run] := by
  obtain ⟨init, final, rfl, hinit, hfinal, hlast⟩ := hrun
  rw [List.length_append, List.length_singleton, Nat.add_sub_cancel]
  cases init with
  | nil =>
      have hnew := extendRun_of_ne hfinal hother
      rw [List.nil_append, collectAll, collect, hlast, if_pos rfl, hnew]
      rfl
  | cons x init =>
      obtain ⟨hx, hopen⟩ := hinit x List.mem_cons_self
      have hnew := extendRun_of_ne hx hother
      have hcollect : collect label isFinal before x = ([x], none) := by
        rw [collect, hopen, hnew]
        rfl
      have hsingle : ∀ y ∈ [x], label y = l := by
        intro y hy
        rw [List.mem_singleton.mp hy, hx]
      have hrest : IsOpenRun label isFinal l init := fun y hy => hinit y (List.mem_cons_of_mem x hy)
      obtain ⟨hgrown, houts⟩ := openRun_of_isOpenRun hsingle hrest
      have hall : ∀ y ∈ x :: init, label y = l := fun y hy => (hinit y hy).1
      rw [List.cons_append, collectAll, hcollect, collectAll_append, houts, hgrown, collectAll,
        collect, hlast, if_pos rfl, List.singleton_append, extendRun_of_eq hall hfinal]
      rfl

theorem collectAll_of_isFinishedRun {l : ι} {before run : List β}
    (hstart : IsRunStart label isFinal l before) (hrun : IsFinishedRun label isFinal l run) :
    collectAll label isFinal (openRun label isFinal [] before) run =
      List.replicate (run.length - 1) none ++ [some run] :=
  collectAll_of_ne (openRun_of_isRunStart hstart) hrun

/-- Finished runs behind each other come out one by one. -/
theorem collectAll_flatten {runs : List (List β)}
    (hruns : ∀ run ∈ runs, ∃ l, IsFinishedRun label isFinal l run) {before : List β}
    (hbefore : ∀ y ∈ before.getLast?, isFinal y = true) :
    (collectAll label isFinal (openRun label isFinal [] before) runs.flatten).filterMap id =
      runs := by
  induction runs generalizing before with
  | nil => rfl
  | cons run runs ih =>
      obtain ⟨hrun, hruns⟩ := List.forall_mem_cons.mp hruns
      obtain ⟨l, hrun⟩ := hrun
      have hstart : IsRunStart label isFinal l before := fun y hy _ => hbefore y hy
      have hlast : ∀ y ∈ (before ++ run).getLast?, isFinal y = true := by
        obtain ⟨init, final, rfl, -, -, hfinal⟩ := hrun
        intro y hy
        rw [← List.append_assoc, List.getLast?_append, List.getLast?_singleton,
          Option.some_or] at hy
        cases hy
        exact hfinal
      rw [List.flatten_cons, collectAll_append, ← openRun_append, List.filterMap_append,
        collectAll_of_isFinishedRun hstart hrun, ih hruns hlast]
      simp [List.filterMap_append]

/-- As many runs come out as there are final items. -/
theorem length_collectAll (run xs : List β) :
    ((collectAll label isFinal run xs).filterMap id).length = xs.countP isFinal := by
  induction xs generalizing run with
  | nil => rfl
  | cons x xs ih =>
      rw [collectAll, List.filterMap_cons, List.countP_cons]
      have hsome := @collect_isSome _ _ label isFinal _ run x
      cases hcollect : (collect label isFinal run x).2 with
      | none =>
          rw [hcollect] at hsome
          rw [← hsome, id]
          exact (ih _).trans (Nat.add_zero _).symm
      | some out =>
          rw [hcollect] at hsome
          rw [← hsome, id]
          exact congrArg (· + 1) (ih _)

/-- The run that an item goes on with is the end of the stream, from where the run
started. -/
theorem exists_extendRun {xs before : List β} (hsplit : xs = before ++ openRun label isFinal [] xs)
    (hopen : ∀ y ∈ (openRun label isFinal [] xs).getLast?,
      IsOpenRun label isFinal (label y) (openRun label isFinal [] xs) ∧
        IsRunStart label isFinal (label y) before) (x : β) :
    ∃ before init, xs = before ++ init ∧
      extendRun label (openRun label isFinal [] xs) x = init ++ [x] ∧
      IsOpenRun label isFinal (label x) init ∧ IsRunStart label isFinal (label x) before := by
  by_cases hsame : ∃ y ∈ (openRun label isFinal [] xs).getLast?, label y = label x
  · obtain ⟨y, hy, hlabel⟩ := hsame
    obtain ⟨hrun, hstart⟩ := hopen y hy
    rw [hlabel] at hrun hstart
    exact ⟨before, _, hsplit, extendRun_of_eq (fun z hz => (hrun z hz).1) rfl, hrun, hstart⟩
  · refine ⟨xs, [], (List.append_nil xs).symm, ?_, fun y hy => absurd hy List.not_mem_nil, ?_⟩
    · exact extendRun_of_ne rfl fun y hy hlabel => hsame ⟨y, hy, hlabel⟩
    · -- An item that is not final is in the open run.
      intro y hy hlabel
      by_contra hne
      refine hsame ⟨y, ?_, hlabel⟩
      rw [getLast?_openRun]
      exact Option.filter_eq_some_iff.mpr ⟨hy, by simp [hne]⟩

/-- The run that is open behind a stream is the end of it. -/
theorem exists_openRun (label : β → ι) (isFinal : β → Bool) (xs : List β) :
    ∃ before, xs = before ++ openRun label isFinal [] xs ∧
      ∀ y ∈ (openRun label isFinal [] xs).getLast?,
        IsOpenRun label isFinal (label y) (openRun label isFinal [] xs) ∧
          IsRunStart label isFinal (label y) before := by
  induction xs using List.reverseRecOn with
  | nil => exact ⟨[], rfl, fun y hy => by cases hy⟩
  | append_singleton xs x ih =>
      obtain ⟨before, hsplit, hopen⟩ := ih
      obtain ⟨before, init, hxs, hextend, hinit, hstart⟩ := exists_extendRun hsplit hopen x
      rw [openRun_append, openRun_singleton, collect]
      split
      · exact ⟨xs ++ [x], (List.append_nil _).symm, fun y hy => by cases hy⟩
      · next hx =>
        refine ⟨before, ?_, ?_⟩
        · rw [hextend, ← List.append_assoc, ← hxs]
        · intro y hy
          rw [getLast?_extendRun] at hy
          cases hy
          refine ⟨?_, hstart⟩
          rw [hextend]
          intro z hz
          rcases List.mem_append.mp hz with hz | hz
          · exact hinit z hz
          · rw [List.mem_singleton.mp hz]
            exact ⟨rfl, eq_false_of_ne_true hx⟩

/-- The runs that a stream completes are its finished runs, each from where it
starts. -/
theorem mem_collectAll_iff (xs run : List β) :
    some run ∈ collectAll label isFinal [] xs ↔
      ∃ l before after, xs = before ++ run ++ after ∧ IsFinishedRun label isFinal l run ∧
        IsRunStart label isFinal l before := by
  constructor
  · intro hmem
    induction xs using List.reverseRecOn with
    | nil => cases hmem
    | append_singleton xs x ih =>
        rw [collectAll_append] at hmem
        rcases List.mem_append.mp hmem with hmem | hmem
        · obtain ⟨l, before, after, hsplit, hrun⟩ := ih hmem
          exact ⟨l, before, after ++ [x], by rw [hsplit, ← List.append_assoc], hrun⟩
        · obtain ⟨before, hsplit, hopen⟩ := exists_openRun label isFinal xs
          obtain ⟨before, init, hxs, hextend, hinit, hstart⟩ := exists_extendRun hsplit hopen x
          rw [collectAll, collectAll, List.mem_singleton, collect] at hmem
          split at hmem
          · next hx =>
            cases hmem
            refine ⟨label x, before, [], ?_, ?_, hstart⟩
            · rw [List.append_nil, hextend, ← List.append_assoc, ← hxs]
            · exact ⟨init, x, hextend, hinit, rfl, hx⟩
          · cases hmem
  · intro ⟨l, before, after, hsplit, hrun, hstart⟩
    rw [hsplit, List.append_assoc, collectAll_append, collectAll_append,
      collectAll_of_isFinishedRun hstart hrun]
    simp

end TinyRtc.MarkedRuns
