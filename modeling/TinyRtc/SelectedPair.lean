import TinyRtc.CandidateTables
import TinyRtc.ClosedState

namespace TinyRtc.SelectedPair

open TinyRtc.CandidateTables
open TinyRtc.ClosedState
open TinyRtc.Common
open TinyRtc.Ice
open TinyRtc.IceEffects
open TinyRtc.IceMatching
open TinyRtc.Inet
open TinyRtc.LabelledRuns
open TinyRtc.PairGrid
open TinyRtc.Sdp
open TinyRtc.SlotArray
open TinyRtc.Srtp
open TinyRtc.Stun

/-- A pair that has succeeded is not touched any more. -/
def PairsKept (items items' : List IceCheckPair) : Prop :=
  ∀ (i : Nat) (pair : IceCheckPair), items[i]? = some pair → pair.succeeded = true →
    items'[i]? = some pair

theorem PairsKept.refl (items : List IceCheckPair) : PairsKept items items :=
  fun _ _ hpair _ => hpair

theorem PairsKept.trans {items items' items'' : List IceCheckPair} (hfirst : PairsKept items items')
    (hsecond : PairsKept items' items'') : PairsKept items items'' :=
  fun i pair hpair hsucceeded => hsecond i pair (hfirst i pair hpair hsucceeded) hsucceeded

theorem PairsKept.append (items added : List IceCheckPair) : PairsKept items (items ++ added) := by
  intro i pair hpair _
  rw [List.getElem?_append_left (List.getElem?_eq_some_iff.mp hpair).1]
  exact hpair

theorem pairsKept_markFirst (transactionId : List UInt8) (items : List IceCheckPair) :
    PairsKept items (markFirst transactionId items) := by
  intro i pair hpair hsucceeded
  rw [markFirst_getElem?, hpair, Option.map_some]
  split
  · rw [← hsucceeded]
  · rfl

structure SelectionUnchanged (ice ice' : IceSession) : Prop where
  state : ice'.state = ice.state
  selectedPair : ice'.selectedPair = ice.selectedPair
  pairs : PairsKept ice.checkPairs.items ice'.checkPairs.items

theorem SelectionUnchanged.refl (ice : IceSession) : SelectionUnchanged ice ice :=
  ⟨rfl, rfl, .refl _⟩

theorem SelectionUnchanged.trans {ice ice' ice'' : IceSession}
    (hfirst : SelectionUnchanged ice ice') (hsecond : SelectionUnchanged ice' ice'') :
    SelectionUnchanged ice ice'' :=
  ⟨hsecond.state.trans hfirst.state, hsecond.selectedPair.trans hfirst.selectedPair,
    hfirst.pairs.trans hsecond.pairs⟩

theorem selectionUnchanged_iceAddCheckPairs (ice : IceSession) (pairs : List (Nat × Nat)) :
    SelectionUnchanged ice (iceAddCheckPairs ice pairs) := by
  obtain ⟨added, hitems, -⟩ := iceAddCheckPairs_items ice pairs
  refine ⟨rfl, rfl, ?_⟩
  rw [hitems]
  exact .append _ _

theorem selectionUnchanged_iceAddRemoteCandidate (ice : IceSession) (candidate : SdpCandidate) :
    SelectionUnchanged ice (iceAddRemoteCandidate ice candidate).2 := by
  rw [iceAddRemoteCandidate]
  split
  · exact .refl ice
  · split
    · exact .refl ice
    · split
      · exact .refl ice
      · next pushed _ =>
        have hadded := selectionUnchanged_iceAddCheckPairs
          { ice with remoteCandidates := pushed }
          ((List.range ice.localCandidates.count).map fun i => (i, ice.remoteCandidates.count))
        exact ⟨hadded.state, hadded.selectedPair, hadded.pairs⟩

theorem selectionUnchanged_iceAddReflexiveCandidate (peer : IcePeer) (ice : IceSession)
    (mapped : MappedAddress) :
    SelectionUnchanged ice (iceAddReflexiveCandidate peer ice mapped).1 := by
  rw [iceAddReflexiveCandidate]
  dsimp only
  split
  · exact .refl ice
  · next pushed _ =>
    have hadded := selectionUnchanged_iceAddCheckPairs
      { ice with localCandidates := pushed }
      ((List.range ice.remoteCandidates.count).map fun i => (ice.localCandidates.count, i))
    exact ⟨hadded.state, hadded.selectedPair, hadded.pairs⟩

theorem selectionUnchanged_iceMarkSource (ice : IceSession) (source : SockAddr) :
    SelectionUnchanged ice (iceMarkSource ice source) := by
  refine ⟨rfl, rfl, ?_⟩
  intro i pair hpair hsucceeded
  simp only [iceMarkSource, Slots.mapItems, List.getElem?_map, hpair, Option.map_some,
    Option.some.injEq]
  split
  · rw [← hsucceeded]
  · rfl

theorem selectionUnchanged_iceMarkResponse (ice : IceSession) (transactionId : List UInt8) :
    SelectionUnchanged ice (iceMarkResponse ice transactionId) := by
  rw [iceMarkResponse]
  split
  · exact .refl ice
  · exact ⟨rfl, rfl, pairsKept_markFirst _ _⟩

theorem selectionUnchanged_iceProcessPacket (crypto : Crypto) (peer : IcePeer) (ice : IceSession)
    (datagram : Datagram) :
    SelectionUnchanged ice (iceProcessPacket crypto peer ice datagram).2.1 := by
  by_cases hresponse : IsBindingResponse datagram
  · have hmarked := selectionUnchanged_iceMarkResponse ice (transactionIdAt datagram.byteAt)
    rw [iceProcessPacket_eq_of_response crypto peer ice hresponse]
    split
    · exact hmarked
    · exact hmarked.trans (selectionUnchanged_iceAddReflexiveCandidate peer _ _)
  · rcases iceProcessPacket_other crypto peer ice hresponse with hsame | ⟨_, hmarked⟩
    · rw [hsame]
      exact .refl ice
    · rw [hmarked]
      exact selectionUnchanged_iceMarkSource ice datagram.source

theorem selectionUnchanged_iceSendChecks (crypto : Crypto) (peer : IcePeer) (ice : IceSession)
    (now : UInt64) (clock : Nat → UInt64) :
    SelectionUnchanged ice (iceSendChecks crypto peer ice now clock).1 := by
  refine ⟨rfl, rfl, ?_⟩
  intro i pair hpair hsucceeded
  have hsame : (iceCheckPair crypto peer ice now (clock i) pair).1 = pair := by
    rw [iceCheckPair, hsucceeded]
    rfl
  simp only [iceSendChecks, Slots.mapItems, List.getElem?_mapIdx, hpair, Option.map_some, hsame]

/-- The session is done exactly when a pair is selected, and that is one of its pairs and
has succeeded. -/
structure SelectionSound (ice : IceSession) : Prop where
  state : ice.state = 4 ↔ ice.selectedPair.isSome = true
  selected : ∀ i, ice.selectedPair = some i →
    i < ice.checkPairs.count ∧ Succeeded ice.checkPairs.items i

theorem SelectionSound.isConnected {ice : IceSession} (h : SelectionSound ice)
    (hselected : ice.selectedPair ≠ none) : iceIsConnected ice = true := by
  obtain ⟨i, hi⟩ := Option.ne_none_iff_exists'.mp hselected
  exact iceIsConnected_iff.mpr ⟨i, hi, (h.selected i hi).2⟩

theorem SelectionUnchanged.sound {ice ice' : IceSession} (h : SelectionUnchanged ice ice')
    (hsound : SelectionSound ice) : SelectionSound ice' := by
  refine ⟨?_, ?_⟩
  · rw [h.state, h.selectedPair]
    exact hsound.state
  · intro i hselected
    rw [h.selectedPair] at hselected
    obtain ⟨-, pair, hpair, hsucceeded⟩ := hsound.selected i hselected
    have hpair' := h.pairs i pair hpair hsucceeded
    exact ⟨(List.getElem?_eq_some_iff.mp hpair').1, pair, hpair', hsucceeded⟩

theorem selectionSound_startChecks {ice : IceSession} (h : SelectionSound ice) :
    SelectionSound (if ice.state = 2 then { ice with state := 3 } else ice) := by
  split
  · next hstate =>
    have hnot : ¬ ice.selectedPair.isSome = true := by
      rw [← h.state, hstate]
      decide
    exact ⟨iff_of_false (by decide : (3 : Nat) ≠ 4) hnot, h.selected⟩
  · exact h

theorem selectionSound_iceSelectPair {ice : IceSession} (h : SelectionSound ice) :
    SelectionSound (iceSelectPair ice) := by
  rw [iceSelectPair]
  split
  · exact h
  · split
    · exact h
    · next i hsome =>
      obtain ⟨hlt, hsucceeded, -⟩ := List.findIdx?_eq_some_iff_getElem.mp hsome
      refine ⟨iff_of_true rfl rfl, ?_⟩
      rintro j hj
      cases hj
      exact ⟨hlt, _, List.getElem?_eq_getElem hlt, hsucceeded⟩

structure SelectionKept (ice ice' : IceSession) : Prop where
  selectedPair : ∀ i, ice.selectedPair = some i → ice'.selectedPair = some i
  pairs : PairsKept ice.checkPairs.items ice'.checkPairs.items

theorem SelectionUnchanged.kept {ice ice' : IceSession} (h : SelectionUnchanged ice ice') :
    SelectionKept ice ice' :=
  ⟨fun _ hselected => h.selectedPair.trans hselected, h.pairs⟩

theorem SelectionKept.trans {ice ice' ice'' : IceSession} (hfirst : SelectionKept ice ice')
    (hsecond : SelectionKept ice' ice'') : SelectionKept ice ice'' :=
  ⟨fun i hselected => hsecond.selectedPair i (hfirst.selectedPair i hselected),
    hfirst.pairs.trans hsecond.pairs⟩

theorem selectionKept_iceSelectPair (ice : IceSession) :
    SelectionKept ice (iceSelectPair ice) := by
  refine ⟨?_, ?_⟩
  · intro i hselected
    rw [iceSelectPair, hselected]
    exact hselected
  · rw [iceSelectPair_checkPairs]
    exact .refl _

theorem iceCheckConnectivity_selection (crypto : Crypto) (peer : IcePeer) {ice : IceSession}
    (now : UInt64) (clock : Nat → UInt64) (h : SelectionSound ice) :
    SelectionSound (iceCheckConnectivity crypto peer ice now clock).1 ∧
      SelectionKept ice (iceCheckConnectivity crypto peer ice now clock).1 := by
  rw [iceCheckConnectivity]
  split
  · exact ⟨h, (SelectionUnchanged.refl ice).kept⟩
  · have hchecking : SelectionKept ice
        (if ice.state = 2 then { ice with state := 3 } else ice) := by
      split <;> exact ⟨fun _ => id, .refl _⟩
    have hsent := selectionUnchanged_iceSendChecks crypto peer
      (if ice.state = 2 then { ice with state := 3 } else ice) now clock
    constructor
    · exact selectionSound_iceSelectPair (hsent.sound (selectionSound_startChecks h))
    · exact (hchecking.trans hsent.kept).trans (selectionKept_iceSelectPair _)

theorem checkStep_selection {crypto : Crypto} {ice ice' : IceSession} {call : IceCall}
    (hstep : CheckStep crypto ice call ice') (h : SelectionSound ice) :
    SelectionSound ice' ∧ SelectionKept ice ice' := by
  obtain ⟨rfl, hcall⟩ := hstep
  cases call with
  | startGathering env stunUrl => exact absurd trivial hcall
  | addRemoteCandidate candidate =>
      have hadded := selectionUnchanged_iceAddRemoteCandidate ice candidate
      exact ⟨hadded.sound h, hadded.kept⟩
  | processPacket peer datagram =>
      have hprocessed := selectionUnchanged_iceProcessPacket crypto peer ice datagram
      exact ⟨hprocessed.sound h, hprocessed.kept⟩
  | checkConnectivity peer now clock =>
      exact iceCheckConnectivity_selection crypto peer now clock h

theorem selectionSound_gathered (env : GatheringEnv) (stunUrl : Option (List UInt8)) :
    SelectionSound (gathered env stunUrl) := by
  have hstate : (gathered env stunUrl).state = 2 := by
    rw [gathered, iceStartGathering]
    split
    · rfl
    · split <;> rfl
  have hnone : (gathered env stunUrl).selectedPair = none := by
    refine iceStartGathering_induct (P := fun ice => ice.selectedPair = none) ?_ ?_ env
      iceSessionCreate stunUrl rfl
    · intro ice ip port priority _ hice
      rw [iceAddLocalCandidate]
      split
      · exact hice
      · split <;> exact hice
    · exact fun _ _ _ _ _ _ hice => hice
  refine ⟨?_, ?_⟩
  · rw [hstate, hnone]
    decide
  · intro i hselected
    rw [hnone] at hselected
    cases hselected

theorem selectionSound_run {crypto : Crypto} {ice ice' : IceSession} {calls : List IceCall}
    (hrun : Run (CheckStep crypto) ice calls ice') (h : SelectionSound ice) :
    SelectionSound ice' :=
  hrun.invariant (I := SelectionSound)
    (fun _ _ _ hice hstep => (checkStep_selection hstep hice).1) h

theorem selectionKept_run {crypto : Crypto} {ice ice' : IceSession} {calls : List IceCall}
    (hrun : Run (CheckStep crypto) ice calls ice') (h : SelectionSound ice) :
    SelectionKept ice ice' := by
  induction hrun with
  | nil ice => exact (SelectionUnchanged.refl ice).kept
  | cons hstep _ ih =>
      obtain ⟨hsound, hkept⟩ := checkStep_selection hstep h
      exact hkept.trans (ih hsound)

structure TablesGrow (tables tables' : CheckTables) : Prop where
  locals : tables.locals <+: tables'.locals
  remotes : tables.remotes <+: tables'.remotes

theorem TablesGrow.refl (tables : CheckTables) : TablesGrow tables tables :=
  ⟨List.prefix_refl _, List.prefix_refl _⟩

theorem tablesGrow_tablesStep {tables tables' : CheckTables} (h : TablesStep tables tables') :
    TablesGrow tables tables' := by
  cases h with
  | same => exact .refl tables
  | addLocal address => exact ⟨List.prefix_append _ _, List.prefix_refl _⟩
  | addRemote address => exact ⟨List.prefix_refl _, List.prefix_append _ _⟩

theorem tablesGrow_run {crypto : Crypto} {ice ice' : IceSession} {calls : List IceCall}
    (hgrid : (checkTables ice).PairsInGrid) (hrun : Run (CheckStep crypto) ice calls ice') :
    TablesGrow (checkTables ice) (checkTables ice') := by
  induction hrun with
  | nil ice => exact .refl _
  | cons hstep _ ih =>
      have htables := tablesStep_checkStep hgrid hstep
      have hgrow := tablesGrow_tablesStep htables
      have hrest := ih (pairsInGrid_tablesStep hgrid htables)
      exact ⟨hgrow.locals.trans hrest.locals, hgrow.remotes.trans hrest.remotes⟩

theorem candidateAddress_of_prefix {items items' : List IceCandidateInternal}
    (h : items.map candidateAddress <+: items'.map candidateAddress) {i : Nat}
    (hi : i < items.length) :
    candidateAddress (items'[i]?.getD .zero) = candidateAddress (items[i]?.getD .zero) := by
  have hlength := h.length_le
  rw [List.length_map, List.length_map] at hlength
  apply Option.some.inj
  rw [← candidateAddress_getD hi, ← candidateAddress_getD (Nat.lt_of_lt_of_le hi hlength)]
  obtain ⟨added, hadded⟩ := h
  rw [← hadded, List.getElem?_append_left]
  rwa [List.length_map]

/-- The selected pair is the one it was, between the same two addresses, and the session
is connected. -/
structure SelectionStays (ice ice' : IceSession) (i : Nat) (pair : IceCheckPair) : Prop where
  selectedPair : ice'.selectedPair = some i
  pair_eq : ice'.checkPairs.items[i]? = some pair
  localAddress : candidateAddress (ice'.localOf pair) = candidateAddress (ice.localOf pair)
  remoteAddress : candidateAddress (ice'.remoteOf pair) = candidateAddress (ice.remoteOf pair)
  connected : iceIsConnected ice' = true

theorem selection_stable {crypto : Crypto} {env : GatheringEnv} {stunUrl : Option (List UInt8)}
    {calls later : List IceCall} {ice ice' : IceSession}
    (hrun : Run (CheckStep crypto) (gathered env stunUrl) calls ice)
    (hlater : Run (CheckStep crypto) ice later ice') :
    SelectionSound ice ∧ ∀ i, ice.selectedPair = some i →
      ∃ pair, ice.checkPairs.items[i]? = some pair ∧ pair.succeeded = true ∧
        SelectionStays ice ice' i pair := by
  have hsound := selectionSound_run hrun (selectionSound_gathered env stunUrl)
  refine ⟨hsound, ?_⟩
  intro i hselected
  obtain ⟨-, pair, hpair, hsucceeded⟩ := hsound.selected i hselected
  have hkept := selectionKept_run hlater hsound
  have hselected' := hkept.selectedPair i hselected
  have hpair' := hkept.pairs i pair hpair hsucceeded
  have hgrid := (checkTables_run hrun).1
  have hgrow := tablesGrow_run hgrid hlater
  have hplace : (pair.localIdx, pair.remoteIdx) ∈ pairPlaces ice.checkPairs.items :=
    List.mem_map_of_mem (List.mem_of_getElem? hpair)
  have hlocal : pair.localIdx < ice.localCandidates.items.length := by
    simpa only [checkTables, List.length_map] using hgrid.fst_lt _ hplace
  have hremote : pair.remoteIdx < ice.remoteCandidates.items.length := by
    simpa only [checkTables, List.length_map] using hgrid.snd_lt _ hplace
  exact ⟨pair, hpair, hsucceeded, hselected', hpair',
    candidateAddress_of_prefix hgrow.locals hlocal,
    candidateAddress_of_prefix hgrow.remotes hremote,
    iceIsConnected_iff.mpr ⟨i, hselected', pair, hpair', hsucceeded⟩⟩

def sampleRequest : Datagram where
  bytes := stunHeader stunBindingRequest (List.replicate 12 0x07)
  stale _ := 0
  source := ⟨0x0A000001, 5000⟩

def connectedSession : IceSession :=
  let ice := (iceAddRemoteCandidate (gathered gatheringEnv none) (sampleRemote "10.0.0.1")).2
  let ice := (iceProcessPacket toyCrypto samplePeer ice sampleRequest).2.1
  (iceCheckConnectivity toyCrypto samplePeer ice 1 fun _ => 1).1

theorem selection_stable_connectedSession :
    SelectionSound connectedSession ∧
      iceIsConnected (iceProcessPacket toyCrypto samplePeer connectedSession sampleRequest).2.1 =
        true := by
  have hrun : Run (CheckStep toyCrypto) (gathered gatheringEnv none)
      [.addRemoteCandidate (sampleRemote "10.0.0.1"), .processPacket samplePeer sampleRequest,
        .checkConnectivity samplePeer 1 fun _ => 1] connectedSession :=
    .cons ⟨rfl, id⟩ (.cons ⟨rfl, id⟩ (.singleton ⟨rfl, id⟩))
  have hlater : Run (CheckStep toyCrypto) connectedSession
      [.processPacket samplePeer sampleRequest]
      (iceProcessPacket toyCrypto samplePeer connectedSession sampleRequest).2.1 :=
    .singleton ⟨rfl, id⟩
  obtain ⟨hsound, hstable⟩ := selection_stable hrun hlater
  obtain ⟨_, _, _, hstays⟩ := hstable 0 (by decide +kernel)
  exact ⟨hsound, hstays.connected⟩

end TinyRtc.SelectedPair
