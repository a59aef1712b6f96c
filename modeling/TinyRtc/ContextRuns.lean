import TinyRtc.ContextEvents

namespace TinyRtc.ContextRuns

open TinyRtc.ComponentRuns
open TinyRtc.Connection
open TinyRtc.ContextEvents
open TinyRtc.LabelledRuns
open TinyRtc.PeerList
open TinyRtc.PolledStream
open TinyRtc.ProcessEvents
open TinyRtc.Srtp

/-- What a call on the context is for the connection at an address. -/
def effectOn (pc : Nat) :
    ContextCall × List ContextEvent → Effect PeerConnection (PcCall × List PcEvent)
  | (.create owner config, _) =>
      if owner = pc then .starts (Connection.tinyrtcPeerConnectionCreate config) else .steps []
  | (.destroy owner, _) => if owner = pc then .ends else .steps []
  | (.peerCall owner call, events) =>
      if owner = pc then .steps [(call, eventsOf pc events)] else .steps []
  | (.processEvents _ inputs, events) =>
      .steps [(.processEvents (inputs pc), eventsOf pc events)]

theorem eventsOf_map (pc : Nat) (events : List PcEvent) :
    eventsOf pc (events.map (.peer pc)) = events := by
  induction events with
  | nil => rfl
  | cons event events ih =>
      have hhead : eventsOf pc ((event :: events).map (.peer pc)) =
          event :: eventsOf pc (events.map (.peer pc)) := by
        simp [eventsOf]
      rw [hhead, ih]

theorem eventsOf_map_of_ne {pc owner : Nat} (hne : owner ≠ pc) (events : List PcEvent) :
    eventsOf pc (events.map (.peer owner)) = [] := by
  rw [eventsOf, List.filterMap_map, List.filterMap_eq_nil_iff]
  exact fun event _ => if_neg hne

theorem eventsOf_append (pc : Nat) (first second : List ContextEvent) :
    eventsOf pc (first ++ second) = eventsOf pc first ++ eventsOf pc second :=
  List.filterMap_append

/-- Of the events that the connections raise in turn, those of one of them. -/
theorem eventsOf_flatMap {live : List Nat} (hnodup : live.Nodup) (raised : Nat → List PcEvent)
    {pc : Nat} (hpc : pc ∈ live) :
    eventsOf pc (live.flatMap fun owner => (raised owner).map (.peer owner)) = raised pc := by
  have hothers : ∀ others : List Nat, pc ∉ others →
      eventsOf pc (others.flatMap fun owner => (raised owner).map (.peer owner)) = [] := by
    intro others hothers
    induction others with
    | nil => rfl
    | cons owner others ih =>
        obtain ⟨hne, hothers⟩ := not_or.mp (List.mem_cons.not.mp hothers)
        rw [List.flatMap_cons, eventsOf_append, ih hothers, eventsOf_map_of_ne (Ne.symm hne),
          List.append_nil]
  induction live with
  | nil => exact absurd hpc List.not_mem_nil
  | cons owner live ih =>
      obtain ⟨hfresh, hnodup⟩ := List.nodup_cons.mp hnodup
      rw [List.flatMap_cons, eventsOf_append]
      rcases List.mem_cons.mp hpc with rfl | hpc
      · rw [eventsOf_map, hothers live hfresh, List.append_nil]
      · have hne : owner ≠ pc := fun heq => hfresh (heq ▸ hpc)
        rw [eventsOf_map_of_ne hne, List.nil_append, ih hnodup hpc]

/-- The live connections of a context, in the order of their creation. -/
structure Consistent (ctx : RtcContext) (live : List Nat) : Prop where
  keeps : Keeps ctx.table live
  mem_live : ∀ pc, pc ∈ live ↔ (ctx.heap pc).isSome = true
  signaling : ctx.signaling = none

theorem tinyrtcInit_consistent : Consistent tinyrtcInit [] :=
  ⟨tinyrtcInit_keeps, fun pc => ⟨fun h => absurd h List.not_mem_nil, fun h => by cases h⟩, rfl⟩

section

variable {crypto : Crypto} {hostOrder : UInt32 → List UInt8} {ctx ctx' : RtcContext}
  {live : List Nat} {label : ContextCall × List ContextEvent}

theorem Consistent.heap_eq_none (h : Consistent ctx live) {pc : Nat} (hpc : pc ∉ live) :
    ctx.heap pc = none := by
  rw [h.mem_live, Bool.not_eq_true, Option.isSome_eq_false_iff, Option.isNone_iff_eq_none] at hpc
  exact hpc

theorem Consistent.readPeers_eq (h : Consistent ctx live) :
    readPeers ctx.table = some (live.map some) := by
  have hlists := h.keeps.listsExactly
  have hcount : ctx.table.numPeers.toNatClampNeg = live.length := by
    rw [Int32.toNatClampNeg, h.keeps.numPeers_eq, Int.toNat_natCast]
  rw [readPeers, if_pos (hcount ▸ h.keeps.live_le), hlists.listed]

/-- What a round does with a context in which every pointer leads to its connection. -/
theorem Consistent.processEvents_eq (h : Consistent ctx live) (recv : List (Poll UInt8))
    (inputs : Nat → EventInput) :
    ctx.processEvents crypto hostOrder recv inputs =
      if ∀ pc ∈ live, (turnOf crypto hostOrder inputs ctx.heap pc).isSome then
        some ((live.map (countOf crypto inputs ctx.heap)).sum,
          { ctx with
            heap := fun pc => (turnOf crypto hostOrder inputs ctx.heap pc).map Prod.fst },
          live.flatMap fun pc => (raisedBy crypto hostOrder inputs ctx.heap pc).map (.peer pc))
      else none := by
  rw [RtcContext.processEvents, h.signaling, processSignaling, Option.bind_some]
  dsimp only
  rw [h.readPeers_eq, Option.bind_some, processPeers_eq h.keeps.nodup]
  split
  · rw [Option.map_some, List.nil_append, ← h.signaling]
    refine congrArg some (Prod.ext rfl (Prod.ext ?_ rfl))
    have hheap : (fun pc =>
        if pc ∈ live then (turnOf crypto hostOrder inputs ctx.heap pc).map Prod.fst
        else ctx.heap pc) =
        fun pc => (turnOf crypto hostOrder inputs ctx.heap pc).map Prod.fst := by
      funext pc
      by_cases hpc : pc ∈ live
      · rw [if_pos hpc]
      · rw [if_neg hpc, turnOf, h.heap_eq_none hpc, Option.bind_none, Option.map_none]
    dsimp only
    rw [hheap]
  · rfl

theorem Consistent.createPeer {pc : Nat} {config : PcConfig} (h : Consistent ctx live)
    (hfresh : ctx.heap pc = none) (hcreate : ctx.createPeer pc config = .ok ctx') :
    Consistent ctx' (live ++ [pc]) ∧
      ctx'.heap =
        Function.update ctx.heap pc (some (Connection.tinyrtcPeerConnectionCreate config)) := by
  rw [RtcContext.createPeer] at hcreate
  have hpc : pc ∉ live := by
    rw [h.mem_live, hfresh]
    exact Bool.false_ne_true
  rcases create_spec h.keeps pc with hfull | ⟨table, hok, hkeeps⟩
  · rw [hfull] at hcreate
    cases hcreate
  · rw [hok] at hcreate
    cases hcreate
    refine ⟨⟨hkeeps hpc, fun other => ?_, h.signaling⟩, rfl⟩
    rw [List.mem_append, List.mem_singleton]
    dsimp only
    by_cases hother : other = pc
    · rw [hother, Function.update_self]
      exact ⟨fun _ => rfl, fun _ => .inr rfl⟩
    · rw [Function.update_of_ne hother, ← h.mem_live, or_iff_left hother]

theorem Consistent.destroyPeer {pc : Nat} {events : List ContextEvent} (h : Consistent ctx live)
    (hdestroy : ctx.destroyPeer pc = .ok (ctx', events)) :
    Consistent ctx' (live.erase pc) ∧ ctx'.heap = Function.update ctx.heap pc none := by
  rw [RtcContext.destroyPeer] at hdestroy
  cases hconn : ctx.heap pc with
  | none =>
      rw [hconn] at hdestroy
      cases hdestroy
  | some conn =>
      rw [hconn] at hdestroy
      have hpc : pc ∈ live := by
        rw [h.mem_live, hconn]
        rfl
      obtain ⟨table, hok, hkeeps⟩ := destroy_spec h.keeps hpc
      dsimp only at hdestroy
      rw [hok] at hdestroy
      cases hdestroy
      refine ⟨⟨hkeeps, fun other => ?_, h.signaling⟩, rfl⟩
      rw [h.keeps.nodup.mem_erase_iff]
      dsimp only
      by_cases hother : other = pc
      · rw [hother, Function.update_self]
        exact ⟨fun hmem => absurd rfl hmem.1, fun hsome => by cases hsome⟩
      · rw [Function.update_of_ne hother, ← h.mem_live, and_iff_right hother]

theorem Consistent.peerCall {pc : Nat} {call : PcCall} {events : List ContextEvent}
    (h : Consistent ctx live)
    (hcall : ctx.peerCall crypto hostOrder pc call = some (ctx', events)) :
    Consistent ctx' live ∧
      ∃ conn conn' raised, ctx.heap pc = some conn ∧
        pcCall crypto hostOrder conn call = some (conn', raised) ∧
        ctx'.heap = Function.update ctx.heap pc (some conn') ∧ events = raised.map (.peer pc) := by
  obtain ⟨conn, hconn, hresult⟩ := Option.bind_eq_some_iff.mp hcall
  obtain ⟨⟨conn', raised⟩, hraised, hctx⟩ := Option.map_eq_some_iff.mp hresult
  cases hctx
  refine ⟨⟨h.keeps, fun other => ?_, h.signaling⟩, conn, conn', raised, hconn, hraised, rfl, rfl⟩
  rw [h.mem_live]
  dsimp only
  by_cases hother : other = pc
  · rw [hother, Function.update_self, hconn]
    rfl
  · rw [Function.update_of_ne hother]

theorem Consistent.processEvents {recv : List (Poll UInt8)} {inputs : Nat → EventInput}
    {count : Int} {events : List ContextEvent} (h : Consistent ctx live)
    (hround : ctx.processEvents crypto hostOrder recv inputs = some (count, ctx', events)) :
    Consistent ctx' live ∧
      (∀ pc ∈ live, (turnOf crypto hostOrder inputs ctx.heap pc).isSome) ∧
      (ctx'.heap = fun pc => (turnOf crypto hostOrder inputs ctx.heap pc).map Prod.fst) ∧
      events = live.flatMap fun pc =>
        (raisedBy crypto hostOrder inputs ctx.heap pc).map (.peer pc) := by
  rw [h.processEvents_eq] at hround
  split at hround
  · next hall =>
    cases hround
    refine ⟨⟨h.keeps, fun pc => ?_, h.signaling⟩, hall, rfl, rfl⟩
    rw [Option.isSome_map]
    refine ⟨hall pc, fun hsome => ?_⟩
    rw [h.mem_live]
    obtain ⟨result, hresult⟩ := Option.isSome_iff_exists.mp hsome
    obtain ⟨conn, hconn, -⟩ := Option.bind_eq_some_iff.mp hresult
    rw [hconn]
    rfl
  · cases hround

theorem Consistent.step (h : Consistent ctx live)
    (hstep : ContextStep crypto hostOrder ctx label ctx') : ∃ live', Consistent ctx' live' := by
  cases hstep with
  | create hfresh hcreate => exact ⟨_, (h.createPeer hfresh hcreate).1⟩
  | destroy hdestroy => exact ⟨_, (h.destroyPeer hdestroy).1⟩
  | peerCall _ hcall => exact ⟨_, (h.peerCall hcall).1⟩
  | processEvents hround => exact ⟨_, (h.processEvents hround).1⟩

/-- A call on the context shows in a connection as what it is for that one. -/
theorem Consistent.shows (h : Consistent ctx live)
    (hstep : ContextStep crypto hostOrder ctx label ctx') (pc : Nat) :
    Shows (PcStep crypto hostOrder) (effectOn pc label) (ctx.heap pc) (ctx'.heap pc) := by
  cases hstep with
  | @create _ owner config hfresh hcreate =>
      rw [(h.createPeer hfresh hcreate).2, effectOn]
      split
      · next howner =>
        rw [howner, Function.update_self]
        exact .starts _
      · next howner =>
        rw [Function.update_of_ne (Ne.symm howner)]
        exact .still _
  | @destroy _ owner events hdestroy =>
      rw [(h.destroyPeer hdestroy).2, effectOn]
      split
      · next howner =>
        rw [howner, Function.update_self]
        exact .ends
      · next howner =>
        rw [Function.update_of_ne (Ne.symm howner)]
        exact .still _
  | @peerCall _ owner call events hcall hresult =>
      obtain ⟨-, conn, conn', raised, hconn, hraised, hheap, hevents⟩ := h.peerCall hresult
      rw [hheap, effectOn]
      split
      · next howner =>
        rw [hevents, howner, Function.update_self, eventsOf_map, ← howner, hconn]
        exact .steps (.singleton hraised)
      · next howner =>
        rw [Function.update_of_ne (Ne.symm howner)]
        exact .still _
  | @processEvents _ recv inputs count events hround =>
      obtain ⟨-, hall, hheap, hevents⟩ := h.processEvents hround
      rw [hheap, effectOn]
      dsimp only
      cases hconn : ctx.heap pc with
      | none =>
          rw [turnOf, hconn]
          exact .absent _
      | some conn =>
          have hpc : pc ∈ live := by
            rw [h.mem_live, hconn]
            rfl
          obtain ⟨⟨conn', raised⟩, hturn⟩ := Option.isSome_iff_exists.mp (hall pc hpc)
          rw [hevents, eventsOf_flatMap h.keeps.nodup _ hpc, raisedBy, hturn, Option.elim_some,
            Option.map_some]
          rw [turnOf, hconn, Option.bind_some] at hturn
          exact .steps (.singleton hturn)

theorem consistent_of_run {labels : List (ContextCall × List ContextEvent)}
    (hrun : Run (ContextStep crypto hostOrder) tinyrtcInit labels ctx) :
    ∃ live, Consistent ctx live :=
  hrun.invariant (I := fun ctx => ∃ live, Consistent ctx live)
    (fun _ _ _ ⟨_, h⟩ hstep => h.step hstep) ⟨[], tinyrtcInit_consistent⟩

theorem explains_connection {labels : List (ContextCall × List ContextEvent)}
    (hrun : Run (ContextStep crypto hostOrder) tinyrtcInit labels ctx) (pc : Nat) :
    Explains (PcStep crypto hostOrder) (lifeAfter (effectOn pc) labels none) (ctx.heap pc) :=
  explains_of_run (effectOn pc) (fun ctx => ctx.heap pc)
    (I := fun ctx => ∃ live, Consistent ctx live) (fun _ _ _ ⟨_, h⟩ hstep => h.step hstep)
    (fun _ _ _ ⟨_, h⟩ hstep => h.shows hstep pc) hrun ⟨[], tinyrtcInit_consistent⟩ .absent

end

def silentConfig : PcConfig :=
  ⟨none, ⟨false, false, false, false, false⟩, false⟩

/-- Two connections are created, and the first one is closed and destroyed. -/
def oneLeft : List (ContextCall × List ContextEvent) :=
  [(.create 7 silentConfig, []), (.create 9 silentConfig, []), (.peerCall 7 .close, []),
    (.destroy 7, [])]

theorem oneLeft_run : ∃ ctx, Run (ContextStep toyCrypto fun _ => []) tinyrtcInit oneLeft ctx ∧
    ∀ pc, (ctx.heap pc).isSome = true ↔ pc = 9 := by
  refine ⟨_, .cons (.create rfl rfl) <| .cons (.create rfl rfl) <|
    .cons (.peerCall (fun _ h => by cases h) rfl) <| .cons (.destroy rfl) <| .nil _, ?_⟩
  intro pc
  constructor
  · intro hsome
    by_contra hother
    rcases eq_or_ne pc 7 with rfl | hfirst
    · cases hsome
    · have hnone : (tinyrtcInit.heap pc).isSome = true := by
        simpa [Function.update_of_ne hfirst, Function.update_of_ne hother] using hsome
      cases hnone
  · rintro rfl
    rfl

/-- In every run of a context, each connection is in a state that its own calls and its own turns
have led it to since it was created. What the others send, receive or are told, and when they come
and go, makes no difference to it. -/
theorem connections_isolated {crypto : Crypto} {hostOrder : UInt32 → List UInt8}
    {ctx : RtcContext} {labels : List (ContextCall × List ContextEvent)}
    (hrun : Run (ContextStep crypto hostOrder) tinyrtcInit labels ctx) (pc : Nat) :
    Explains (PcStep crypto hostOrder) (lifeAfter (effectOn pc) labels none) (ctx.heap pc) :=
  explains_connection hrun pc

theorem connections_isolated_oneLeft :
    ∃ ctx : RtcContext, (ctx.heap 9).isSome = true ∧
      Explains (PcStep toyCrypto fun _ => []) (lifeAfter (effectOn 9) oneLeft none)
        (ctx.heap 9) := by
  obtain ⟨ctx, hrun, hlive⟩ := oneLeft_run
  exact ⟨ctx, (hlive 9).mpr rfl, connections_isolated hrun 9⟩

/-- In every run of a context, a round follows no pointer to a connection that is gone and reads
nothing behind the array. It is undefined only if the turn of some connection, taken alone, is; it
gives each connection what its own turn gives it, raises the events in the order in which the
connections were created, and its result counts their datagrams. -/
theorem rounds_compose {crypto : Crypto} {hostOrder : UInt32 → List UInt8}
    {ctx : RtcContext} {labels : List (ContextCall × List ContextEvent)}
    (hrun : Run (ContextStep crypto hostOrder) tinyrtcInit labels ctx) :
    ∃ live : List Nat, live.Nodup ∧ (∀ pc, pc ∈ live ↔ (ctx.heap pc).isSome = true) ∧
      ∀ (recv : List (Poll UInt8)) (inputs : Nat → EventInput),
        ctx.processEvents crypto hostOrder recv inputs =
          if ∀ pc ∈ live, (turnOf crypto hostOrder inputs ctx.heap pc).isSome then
            some ((live.map (countOf crypto inputs ctx.heap)).sum,
              { ctx with
                heap := fun pc => (turnOf crypto hostOrder inputs ctx.heap pc).map Prod.fst },
              live.flatMap fun pc => (raisedBy crypto hostOrder inputs ctx.heap pc).map (.peer pc))
          else none := by
  obtain ⟨live, h⟩ := consistent_of_run hrun
  exact ⟨live, h.keeps.nodup, h.mem_live, h.processEvents_eq⟩

/-- A round is the turn of the connection that is left. -/
theorem rounds_compose_oneLeft :
    ∃ ctx, Run (ContextStep toyCrypto fun _ => []) tinyrtcInit oneLeft ctx ∧
      ∀ (recv : List (Poll UInt8)) (inputs : Nat → EventInput),
        ctx.processEvents toyCrypto (fun _ => []) recv inputs =
          (turnOf toyCrypto (fun _ => []) inputs ctx.heap 9).map fun turn =>
            (countOf toyCrypto inputs ctx.heap 9,
              { ctx with
                heap := fun pc => (turnOf toyCrypto (fun _ => []) inputs ctx.heap pc).map Prod.fst },
              turn.2.map (.peer 9)) := by
  obtain ⟨ctx, hrun, hsome⟩ := oneLeft_run
  obtain ⟨live, hnodup, hlive, hround⟩ := rounds_compose hrun
  have hone : live = [9] := by
    apply List.perm_singleton.mp
    apply (List.perm_ext_iff_of_nodup hnodup (List.nodup_singleton 9)).mpr
    intro pc
    rw [hlive, hsome, List.mem_singleton]
  subst hone
  refine ⟨ctx, hrun, fun recv inputs => ?_⟩
  rw [hround]
  cases hturn : turnOf toyCrypto (fun _ => []) inputs ctx.heap 9 with
  | none =>
      rw [if_neg (by simp [hturn])]
      rfl
  | some turn =>
      rw [if_pos (by simp [hturn]), Option.map_some, List.flatMap_singleton, raisedBy, hturn,
        List.map_singleton, List.sum_singleton]
      rfl

end TinyRtc.ContextRuns
