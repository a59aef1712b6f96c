import TinyRtc.ArrayRemoval
import TinyRtc.LabelledRuns
import TinyRtc.SizeConversions

namespace TinyRtc.PeerList

open TinyRtc.ArrayRemoval
open TinyRtc.LabelledRuns
open TinyRtc.SizeConversions

/-- What `tinyrtc_context` has of its connections. A connection is its address; `none` is a NULL
pointer, also for the array itself. -/
structure PeerContext where
  numPeers : Int32
  peersAlloc : Int32
  peers : Option (List (Option Nat))

/-- The context as `tinyrtc_init` leaves it. -/
def tinyrtcInit : PeerContext :=
  ⟨0, 0, none⟩

inductive PeerFault where
  | noMemory
  | outOfBounds
  deriving DecidableEq

def inBounds {α : Type} : Option α → Except PeerFault α
  | none => .error .outOfBounds
  | some x => .ok x

/-- `tinyrtc_calloc` for an array of pointers. Only a size that no `size_t` holds cannot be
had. -/
def tinyrtcCalloc (count : Int32) : Option (List (Option Nat)) :=
  if asSize count * 8 < 2 ^ 64 then some (List.replicate (asSize count) none) else none

/-- `memcpy` of the first pointers of an array over those of another one. -/
def copySlots (count : Nat) (source dest : List (Option Nat)) : Option (List (Option Nat)) :=
  if count ≤ source.length ∧ count ≤ dest.length then
    some (source.take count ++ dest.drop count)
  else none

def growPeers (ctx : PeerContext) : Except PeerFault PeerContext :=
  if ctx.numPeers > ctx.peersAlloc then
    let newAlloc := if ctx.peersAlloc = 0 then 4 else ctx.peersAlloc * 2
    match tinyrtcCalloc newAlloc with
    | none => .error .noMemory
    | some newPeers =>
        match ctx.peers with
        | none => .ok { ctx with peers := some newPeers, peersAlloc := newAlloc }
        | some peers =>
            (inBounds (copySlots (asSize ctx.peersAlloc) peers newPeers)).map fun copied =>
              { ctx with peers := some copied, peersAlloc := newAlloc }
  else .ok ctx

/-- What `tinyrtc_peer_connection_create` does with the context for the connection it has
allocated. -/
def tinyrtcPeerConnectionCreate (ctx : PeerContext) (pc : Nat) : Except PeerFault PeerContext :=
  (growPeers { ctx with numPeers := ctx.numPeers + 1 }).bind fun ctx =>
    (inBounds (ctx.peers.bind fun peers =>
      setAt? peers (asSize (ctx.numPeers - 1)) (some pc))).map fun peers =>
        { ctx with peers := some peers }

/-- What `tinyrtc_peer_connection_destroy` does with the context. -/
def tinyrtcPeerConnectionDestroy (ctx : PeerContext) (pc : Nat) : Except PeerFault PeerContext :=
  let n := ctx.numPeers.toNatClampNeg
  (inBounds (ctx.peers.bind fun peers => removeFrom (some pc) none n n 0 peers)).map fun peers =>
    { ctx with peers := some peers, numPeers := ctx.numPeers - 1 }

inductive PeerCall where
  | create (pc : Nat)
  | destroy (pc : Nat)

/-- A call that finds the memory it needs, and the connections that are alive, in the order of
their creation. A new connection does not lie where a live one does, and only a live one is
destroyed. -/
inductive PeerStep : PeerContext × List Nat → PeerCall → PeerContext × List Nat → Prop
  | create {ctx ctx' : PeerContext} {live : List Nat} {pc : Nat} (hfresh : pc ∉ live)
      (hcreate : tinyrtcPeerConnectionCreate ctx pc = .ok ctx') :
      PeerStep (ctx, live) (.create pc) (ctx', live ++ [pc])
  | destroy {ctx ctx' : PeerContext} {live : List Nat} {pc : Nat} (hlive : pc ∈ live)
      (hdestroy : tinyrtcPeerConnectionDestroy ctx pc = .ok ctx') :
      PeerStep (ctx, live) (.destroy pc) (ctx', live.erase pc)

/-- `ctx->peers[0..num_peers)`. -/
def PeerContext.listed (ctx : PeerContext) : List (Option Nat) :=
  (ctx.peers.getD []).take ctx.numPeers.toNatClampNeg

/-- The array begins with the live connections. Its length is even, so that one more of them
cannot make the counter wrap around. -/
structure Keeps (ctx : PeerContext) (live : List Nat) : Prop where
  numPeers_eq : ctx.numPeers.toInt = live.length
  alloc_eq : ctx.peersAlloc.toInt = (ctx.peers.getD []).length
  alloc_even : 2 ∣ (ctx.peers.getD []).length
  begins : live.map some <+: ctx.peers.getD []
  nodup : live.Nodup

theorem tinyrtcInit_keeps : Keeps tinyrtcInit [] :=
  ⟨rfl, rfl, ⟨0, rfl⟩, List.nil_prefix, List.nodup_nil⟩

section

variable {ctx : PeerContext} {live : List Nat}

theorem Keeps.live_le (h : Keeps ctx live) : live.length ≤ (ctx.peers.getD []).length := by
  simpa using h.begins.length_le

/-- One more connection does not make the counter wrap around. -/
theorem Keeps.numPeers_succ (h : Keeps ctx live) :
    (ctx.numPeers + 1).toInt = live.length + 1 := by
  have hle := h.live_le
  have halloc := h.alloc_eq
  have hlt := ctx.peersAlloc.toInt_lt
  have heven := h.alloc_even
  have hone : (1 : Int32).toInt = 1 := rfl
  rw [Int32.toInt_add, h.numPeers_eq, hone, Int.bmod_eq_of_le (by omega) (by omega)]

/-- A doubled length is a length, unless it wraps around and no array of that size can be
had. -/
theorem newAlloc_cases {alloc : Int32} (hpos : 0 < alloc.toInt) :
    tinyrtcCalloc (alloc * 2) = none ∨
      (alloc * 2).toInt = 2 * alloc.toInt ∧
        tinyrtcCalloc (alloc * 2) = some (List.replicate (2 * alloc.toInt).toNat none) := by
  have hlt := alloc.toInt_lt
  have htwo : (2 : Int32).toInt = 2 := rfl
  have hdoubled := Int32.toInt_mul alloc 2
  rw [htwo] at hdoubled
  by_cases hfits : alloc.toInt < 2 ^ 30
  · rw [Int.bmod_eq_of_le (by omega) (by omega), Int.mul_comm] at hdoubled
    have hsize := @asSize_of_nonneg (alloc * 2) (by omega)
    refine .inr ⟨hdoubled, ?_⟩
    have hcount : asSize (alloc * 2) = (2 * alloc.toInt).toNat := by omega
    rw [tinyrtcCalloc, hcount, if_pos (by omega)]
  · have hnegative : (alloc * 2).toInt < 0 := by
      rw [hdoubled, Int.bmod_def]
      split <;> omega
    have hsize := asSize_of_neg hnegative
    exact .inl (if_neg (by omega))

/-- The array that replaces one of the given length, if it can be had. -/
theorem grown_cases {alloc : Int32} {length : Nat} (halloc : alloc.toInt = length) :
    tinyrtcCalloc (if alloc = 0 then 4 else alloc * 2) = none ∨
      ∃ n, tinyrtcCalloc (if alloc = 0 then 4 else alloc * 2) = some (List.replicate n none) ∧
        (if alloc = 0 then 4 else alloc * 2).toInt = n ∧ 2 ∣ n ∧ length < n := by
  by_cases hzero : alloc = 0
  · rw [if_pos hzero]
    rw [hzero] at halloc
    have hzero : (0 : Int32).toInt = 0 := rfl
    exact .inr ⟨4, rfl, rfl, by omega, by omega⟩
  · rw [if_neg hzero]
    have hpos : 0 < alloc.toInt := by
      have hne : alloc.toInt ≠ 0 := fun hint => hzero (Int32.toInt.inj hint)
      omega
    rcases newAlloc_cases hpos with hnone | ⟨hdoubled, hsome⟩
    · exact .inl hnone
    · exact .inr ⟨_, hsome, by omega, by omega, by omega⟩

theorem growPeers_spec (h : Keeps ctx live) :
    growPeers { ctx with numPeers := ctx.numPeers + 1 } = .error .noMemory ∨
      ∃ peersAlloc peers,
        growPeers { ctx with numPeers := ctx.numPeers + 1 } =
          .ok ⟨ctx.numPeers + 1, peersAlloc, some peers⟩ ∧
        peersAlloc.toInt = peers.length ∧ 2 ∣ peers.length ∧ live.map some <+: peers ∧
        live.length < peers.length := by
  have hnext := h.numPeers_succ
  have hle := h.live_le
  have halloc := h.alloc_eq
  have hbegins := h.begins
  have heven := h.alloc_even
  obtain ⟨numPeers, peersAlloc, peers?⟩ := ctx
  rw [growPeers]
  dsimp only at hnext hle halloc hbegins heven ⊢
  by_cases hgrow : numPeers + 1 > peersAlloc
  · rw [if_pos hgrow]
    rw [gt_iff_lt, Int32.lt_iff_toInt_lt, hnext, halloc] at hgrow
    have hcases := grown_cases halloc
    generalize (if peersAlloc = 0 then 4 else peersAlloc * 2) = newAlloc at hcases ⊢
    rcases hcases with hnone | ⟨n, hsome, hsize, hdvd, hlarger⟩
    · rw [hnone]
      exact .inl rfl
    · rw [hsome]
      refine .inr ⟨newAlloc, ?_⟩
      cases peers? with
      | none =>
          have hempty : live = [] := by simpa using hbegins
          refine ⟨_, rfl, by simpa using hsize, by rwa [List.length_replicate], ?_, ?_⟩
          · rw [hempty]
            exact List.nil_prefix
          · rw [hempty, List.length_replicate]
            exact Nat.zero_lt_of_lt hlarger
      | some peers =>
          dsimp only [Option.getD_some] at hbegins halloc hlarger hle hgrow ⊢
          have hcount : asSize peersAlloc = peers.length := by
            have hnonneg := @asSize_of_nonneg peersAlloc (by omega)
            omega
          rw [hcount, copySlots, if_pos ⟨le_rfl, by rw [List.length_replicate]; omega⟩,
            List.take_length]
          have hlength : (peers ++ (List.replicate n none).drop peers.length).length = n := by
            rw [List.length_append, List.length_drop, List.length_replicate]
            omega
          refine ⟨_, rfl, ?_, ?_, ?_, ?_⟩
          · rw [hlength, hsize]
          · rwa [hlength]
          · exact hbegins.trans (List.prefix_append _ _)
          · rw [hlength]
            omega
  · rw [if_neg hgrow]
    rw [gt_iff_lt, Int32.lt_iff_toInt_lt, hnext, halloc] at hgrow
    cases peers? with
    | none => exact absurd hgrow (by simp)
    | some peers =>
        exact .inr ⟨peersAlloc, peers, rfl, halloc, heven, hbegins, by
          dsimp only [Option.getD_some] at hgrow
          omega⟩

/-- A new connection comes last, unless its place cannot be had. -/
theorem create_spec (h : Keeps ctx live) (pc : Nat) :
    tinyrtcPeerConnectionCreate ctx pc = .error .noMemory ∨
      ∃ ctx', tinyrtcPeerConnectionCreate ctx pc = .ok ctx' ∧
        (pc ∉ live → Keeps ctx' (live ++ [pc])) := by
  have hnext := h.numPeers_succ
  rw [tinyrtcPeerConnectionCreate]
  rcases growPeers_spec h with hfull | ⟨peersAlloc, peers, hgrown, halloc, heven, hbegins, hroom⟩
  · rw [hfull]
    exact .inl rfl
  · rw [hgrown]
    obtain ⟨rest, rfl⟩ := hbegins
    rw [List.length_append, List.length_map] at hroom
    have hplace : asSize (ctx.numPeers + 1 - 1) = live.length := by
      have hback : ctx.numPeers + 1 - 1 = ctx.numPeers := by
        rw [Int32.add_sub_cancel]
      have hsize := @asSize_of_nonneg ctx.numPeers (by rw [h.numPeers_eq]; omega)
      rw [hback]
      rw [h.numPeers_eq] at hsize
      omega
    obtain ⟨slot, rest, rfl⟩ : ∃ slot rest', rest = slot :: rest' := by
      cases rest with
      | nil => simp at hroom
      | cons slot rest => exact ⟨slot, rest, rfl⟩
    have hset : setAt? (live.map some ++ slot :: rest) live.length (some pc) =
        some ((live ++ [pc]).map some ++ rest) := by
      rw [setAt?, if_pos (by simp)]
      simp
    refine .inr ⟨⟨ctx.numPeers + 1, peersAlloc, some ((live ++ [pc]).map some ++ rest)⟩, ?_, ?_⟩
    · change (inBounds (setAt? _ (asSize (ctx.numPeers + 1 - 1)) _)).map _ = _
      rw [hplace, hset]
      rfl
    · intro hfresh
      have hlength : ((live ++ [pc]).map some ++ rest).length =
          (live.map some ++ slot :: rest).length := by
        simp
      refine ⟨?_, ?_, ?_, List.prefix_append _ _, ?_⟩
      · rw [hnext, List.length_append, List.length_singleton]
        rfl
      · rw [Option.getD_some, hlength, halloc]
      · rwa [Option.getD_some, hlength]
      · refine List.nodup_append.mpr ⟨h.nodup, List.pairwise_singleton _ pc, ?_⟩
        intro x hx y hy heq
        rw [List.mem_singleton.mp hy] at heq
        exact hfresh (heq ▸ hx)

/-- A connection that goes is taken out of its place. -/
theorem destroy_spec (h : Keeps ctx live) {pc : Nat} (hlive : pc ∈ live) :
    ∃ ctx', tinyrtcPeerConnectionDestroy ctx pc = .ok ctx' ∧ Keeps ctx' (live.erase pc) := by
  have hpos := List.length_pos_of_mem hlive
  have hcount := h.numPeers_eq
  obtain ⟨rest, hrest⟩ := h.begins
  have hpeers : ctx.peers = some (live.map some ++ rest) := by
    cases hpeers : ctx.peers with
    | none =>
        rw [hpeers, Option.getD_none, List.append_eq_nil_iff, List.map_eq_nil_iff] at hrest
        exact absurd hrest.1 (List.ne_nil_of_mem hlive)
    | some peers =>
        rw [hpeers, Option.getD_some] at hrest
        rw [hrest]
  have hn : ctx.numPeers.toNatClampNeg = live.length := by
    rw [Int32.toNatClampNeg, hcount, Int.toNat_natCast]
  have hremoved := @removeFrom_append _ _ _ _ (some pc) none [] _ rest
    (List.mem_map_of_mem (f := some) hlive)
  rw [List.nil_append, List.nil_append, List.length_map, List.length_nil,
    ← List.map_erase (Option.some_injective _)] at hremoved
  refine ⟨⟨ctx.numPeers - 1, ctx.peersAlloc, some ((live.erase pc).map some ++ none :: rest)⟩,
    ?_, ?_⟩
  · rw [tinyrtcPeerConnectionDestroy, hn, hpeers, Option.bind_some, hremoved]
    rfl
  · have herased := List.length_erase_of_mem hlive
    have hlength : ((live.erase pc).map some ++ none :: rest).length =
        (live.map some ++ rest).length := by
      rw [List.length_append, List.length_append, List.length_cons, List.length_map,
        List.length_map, herased]
      omega
    have halloc := h.alloc_eq
    have heven := h.alloc_even
    rw [hpeers, Option.getD_some, ← hlength] at halloc heven
    refine ⟨?_, halloc, heven, List.prefix_append _ _, h.nodup.erase pc⟩
    have hlt := ctx.numPeers.toInt_lt
    have hone : (1 : Int32).toInt = 1 := rfl
    rw [Int32.toInt_sub, hcount, hone, herased, Int.bmod_eq_of_le (by omega) (by omega)]
    omega

end

/-- What the array shows of the connections. -/
structure ListsExactly (ctx : PeerContext) (live : List Nat) : Prop where
  listed : ctx.listed = live.map some
  nodup : live.Nodup
  count : ctx.numPeers.toInt = live.length
  numPeers_le : ctx.numPeers ≤ ctx.peersAlloc
  allocated : ctx.peersAlloc.toInt = (ctx.peers.getD []).length

theorem Keeps.listsExactly {ctx : PeerContext} {live : List Nat} (h : Keeps ctx live) :
    ListsExactly ctx live := by
  have hle := h.live_le
  have hn : ctx.numPeers.toNatClampNeg = live.length := by
    rw [Int32.toNatClampNeg, h.numPeers_eq, Int.toNat_natCast]
  refine ⟨?_, h.nodup, h.numPeers_eq, ?_, h.alloc_eq⟩
  · obtain ⟨rest, hrest⟩ := h.begins
    rw [PeerContext.listed, hn, ← hrest, List.take_left' (List.length_map _)]
  · rw [Int32.le_iff_toInt_le, h.numPeers_eq, h.alloc_eq]
    exact_mod_cast hle

theorem keeps_step {s s' : PeerContext × List Nat} {call : PeerCall} (h : Keeps s.1 s.2)
    (hstep : PeerStep s call s') : Keeps s'.1 s'.2 := by
  cases hstep with
  | create hfresh hcreate =>
      rename_i pc
      rcases create_spec h pc with hfull | ⟨ctx, hok, hkeeps⟩
      · rw [hcreate] at hfull
        cases hfull
      · rw [hcreate] at hok
        cases hok
        exact hkeeps hfresh
  | destroy hlive hdestroy =>
      obtain ⟨ctx, hok, hkeeps⟩ := destroy_spec h hlive
      rw [hdestroy] at hok
      cases hok
      exact hkeeps

/-- In every run the array begins with exactly the live connections, in the order of their
creation; and no call that follows leaves the array. -/
theorem peers_exact {calls : List PeerCall} {ctx : PeerContext} {live : List Nat}
    (hrun : Run PeerStep (tinyrtcInit, []) calls (ctx, live)) :
    ListsExactly ctx live ∧
      (∀ pc, tinyrtcPeerConnectionCreate ctx pc = .error .noMemory ∨
        ∃ ctx', tinyrtcPeerConnectionCreate ctx pc = .ok ctx') ∧
      ∀ pc ∈ live, ∃ ctx', tinyrtcPeerConnectionDestroy ctx pc = .ok ctx' := by
  have hkeeps : Keeps ctx live :=
    hrun.invariant (I := fun s => Keeps s.1 s.2) (fun _ _ _ => keeps_step) tinyrtcInit_keeps
  refine ⟨hkeeps.listsExactly, fun pc => ?_, fun pc hlive => ?_⟩
  · rcases create_spec hkeeps pc with hfull | ⟨ctx', hok, -⟩
    · exact .inl hfull
    · exact .inr ⟨ctx', hok⟩
  · obtain ⟨ctx', hok, -⟩ := destroy_spec hkeeps hlive
    exact ⟨ctx', hok⟩

/-- The second connection moves down when the first one goes. -/
theorem peers_exact_two :
    ∃ ctx, Run PeerStep (tinyrtcInit, []) [.create 16, .create 32, .destroy 16] (ctx, [32]) ∧
      ListsExactly ctx [32] := by
  have hfirst : tinyrtcPeerConnectionCreate tinyrtcInit 16 =
      .ok ⟨1, 4, some [some 16, none, none, none]⟩ := rfl
  have hsecond : tinyrtcPeerConnectionCreate ⟨1, 4, some [some 16, none, none, none]⟩ 32 =
      .ok ⟨2, 4, some [some 16, some 32, none, none]⟩ := rfl
  have hgone : tinyrtcPeerConnectionDestroy ⟨2, 4, some [some 16, some 32, none, none]⟩ 16 =
      .ok ⟨1, 4, some [some 32, none, none, none]⟩ := rfl
  have hrun : Run PeerStep (tinyrtcInit, []) [.create 16, .create 32, .destroy 16]
      (⟨1, 4, some [some 32, none, none, none]⟩, [32]) :=
    .cons (.create (by decide) hfirst) (.cons (.create (by decide) hsecond)
      (.cons (.destroy (by decide) hgone) (.nil _)))
  exact ⟨_, hrun, (peers_exact hrun).1⟩

end TinyRtc.PeerList
