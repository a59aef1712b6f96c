import TinyRtc.IceEffects

namespace TinyRtc.CandidateTables

open TinyRtc.Common
open TinyRtc.CString
open TinyRtc.Ice
open TinyRtc.IceEffects
open TinyRtc.IceMatching
open TinyRtc.LabelledRuns
open TinyRtc.PairGrid
open TinyRtc.SlotArray
open TinyRtc.Srtp
open TinyRtc.Stun

section

variable {tables tables' : CheckTables} {address : CStr 64 × UInt16}

theorem pairsInGrid_addLocal (h : tables.PairsInGrid) :
    (tables.addLocal address).PairsInGrid := by
  have hrow := InGrid.addRow h
  simpa only [CheckTables.PairsInGrid, CheckTables.addLocal, List.length_append,
    List.length_singleton] using hrow

theorem pairsInGrid_addRemote (h : tables.PairsInGrid) :
    (tables.addRemote address).PairsInGrid := by
  have hcolumn := InGrid.addColumn h
  simpa only [CheckTables.PairsInGrid, CheckTables.addRemote, List.length_append,
    List.length_singleton] using hcolumn

theorem pairsInGrid_gather (h : tables.PairsInGrid)
    (hgathers : GathersLocals tables tables') : tables'.PairsInGrid := by
  rw [CheckTables.PairsInGrid, hgathers.pairs, hgathers.remotes]
  exact InGrid.mono h hgathers.length_le (Nat.le_refl _)

theorem pairsInGrid_tablesStep (h : tables.PairsInGrid) (hstep : TablesStep tables tables') :
    tables'.PairsInGrid := by
  cases hstep with
  | same => exact h
  | addLocal address => exact pairsInGrid_addLocal h
  | addRemote address => exact pairsInGrid_addRemote h

end

theorem pairsInGrid_create : (checkTables iceSessionCreate).PairsInGrid :=
  .nil _ _

theorem pairsInGrid_iceCall {ice : IceSession} (h : (checkTables ice).PairsInGrid)
    (crypto : Crypto) (call : IceCall) :
    (checkTables (iceCall crypto ice call).1).PairsInGrid := by
  by_cases hcall : IsGathering call
  · cases call with
    | startGathering env stunUrl =>
        exact pairsInGrid_gather h (gathersLocals_iceStartGathering env ice stunUrl)
    | _ => exact hcall.elim
  · exact pairsInGrid_tablesStep h (tablesStep_iceCall h crypto hcall)

/-- No candidate is there twice, and no two pairs test the same two addresses. -/
structure NoDuplicates (ice : IceSession) : Prop where
  locals : (ice.localCandidates.items.map candidateAddress).Nodup
  remotes : (ice.remoteCandidates.items.map candidateAddress).Nodup
  tests : (ice.checkPairs.items.map fun pair =>
    (candidateAddress (ice.localOf pair), candidateAddress (ice.remoteOf pair))).Nodup

theorem candidateAddress_getD {items : List IceCandidateInternal} {i : Nat}
    (h : i < items.length) :
    (items.map candidateAddress)[i]? = some (candidateAddress (items[i]?.getD .zero)) := by
  rw [List.getElem?_map, List.getElem?_eq_getElem h]
  rfl

theorem noDuplicates_iff {ice : IceSession} (hgrid : (checkTables ice).PairsInGrid) :
    NoDuplicates ice ↔ (checkTables ice).locals.Nodup ∧ (checkTables ice).remotes.Nodup := by
  constructor
  · exact fun h => ⟨h.locals, h.remotes⟩
  · rintro ⟨hlocals, hremotes⟩
    refine ⟨hlocals, hremotes, ?_⟩
    have hplaces := InGrid.map_nodup hgrid rfl rfl hlocals hremotes
    rw [checkTables, pairPlaces, List.map_map] at hplaces
    apply List.Nodup.of_map (fun addresses => (some addresses.1, some addresses.2))
    rw [List.map_map]
    convert hplaces using 1
    apply List.map_congr_left
    intro pair hpair
    have hplace : (pair.localIdx, pair.remoteIdx) ∈ pairPlaces ice.checkPairs.items :=
      List.mem_map_of_mem hpair
    have hlocal : pair.localIdx < ice.localCandidates.items.length := by
      simpa only [checkTables, List.length_map] using hgrid.fst_lt _ hplace
    have hremote : pair.remoteIdx < ice.remoteCandidates.items.length := by
      simpa only [checkTables, List.length_map] using hgrid.snd_lt _ hplace
    simp only [Function.comp_apply]
    rw [candidateAddress_getD hlocal, candidateAddress_getD hremote]
    rfl

def BringsNewAddress (ice : IceSession) : IceCall → Prop
  | .addRemoteCandidate candidate =>
      ice.remoteCandidates.count < iceMaxCandidates ∧
          strcaseEq candidate.protocol.bytes (ascii "udp") = true →
        (candidate.ip, candidate.port) ∉ ice.remoteCandidates.items.map candidateAddress
  | .processPacket _ datagram =>
      ∀ mapped, reportedAddress datagram = some mapped →
        ice.localCandidates.count < iceMaxCandidates →
          (CStr.strncpy mapped.addr, mapped.port) ∉
            ice.localCandidates.items.map candidateAddress
  | .startGathering _ _ => True
  | .checkConnectivity _ _ _ => True

theorem nodup_concat_iff {α : Type*} {items : List α} {item : α} (h : items.Nodup) :
    (items ++ [item]).Nodup ↔ item ∉ items := by
  rw [List.nodup_append]
  simp only [h, List.nodup_singleton, true_and, List.mem_singleton, forall_eq, ne_eq]
  exact ⟨fun hall hmem => hall item hmem rfl, fun hnot other hother heq => hnot (heq ▸ hother)⟩

theorem noDuplicates_iceCall_iff {ice : IceSession} (hgrid : (checkTables ice).PairsInGrid)
    (h : NoDuplicates ice) (crypto : Crypto) (call : IceCall) :
    NoDuplicates (iceCall crypto ice call).1 ↔ BringsNewAddress ice call := by
  rw [noDuplicates_iff (pairsInGrid_iceCall hgrid crypto call)]
  have hlocals : (checkTables ice).locals.Nodup := h.locals
  have hremotes : (checkTables ice).remotes.Nodup := h.remotes
  cases call with
  | startGathering env stunUrl =>
      have hgathers := gathersLocals_iceStartGathering env ice stunUrl
      refine iff_of_true ⟨hgathers.nodup hlocals, ?_⟩ trivial
      rw [iceCall, hgathers.remotes]
      exact hremotes
  | addRemoteCandidate candidate =>
      rw [iceCall, checkTables_iceAddRemoteCandidate hgrid, BringsNewAddress]
      split
      · next hroom =>
        rw [CheckTables.addRemote, nodup_concat_iff hremotes]
        exact ⟨fun hnew _ => hnew.2, fun hnew => ⟨hlocals, hnew hroom⟩⟩
      · next hroom => exact iff_of_true ⟨hlocals, hremotes⟩ fun hadded => absurd hadded hroom
  | processPacket peer datagram =>
      rw [iceCall, checkTables_iceProcessPacket hgrid, BringsNewAddress]
      split
      · next hnone =>
        exact iff_of_true ⟨hlocals, hremotes⟩ fun _ hreported => by
          rw [hnone] at hreported
          cases hreported
      · next mapped hmapped =>
        rw [hmapped]
        split
        · next hroom =>
          rw [CheckTables.addLocal, nodup_concat_iff hlocals]
          constructor
          · rintro ⟨hnew, -⟩ other hother _
            cases hother
            exact hnew
          · exact fun hnew => ⟨hnew mapped rfl hroom, hremotes⟩
        · next hroom => exact iff_of_true ⟨hlocals, hremotes⟩ fun _ _ hadded => absurd hadded hroom
  | checkConnectivity peer now clock =>
      rw [iceCall, (addsNothing_iceCheckConnectivity crypto peer ice now clock).tables_eq]
      exact iff_of_true ⟨hlocals, hremotes⟩ trivial

def UniqueStep (crypto : Crypto) (ice : IceSession) (call : IceCall) (ice' : IceSession) : Prop :=
  IceStep crypto ice call ice' ∧ NoDuplicates ice'

def FreshStep (crypto : Crypto) (ice : IceSession) (call : IceCall) (ice' : IceSession) : Prop :=
  IceStep crypto ice call ice' ∧ BringsNewAddress ice call

theorem uniqueRun_iff (crypto : Crypto) (calls : List IceCall) (ice : IceSession) :
    Run (UniqueStep crypto) iceSessionCreate calls ice ↔
      Run (FreshStep crypto) iceSessionCreate calls ice := by
  have hagree : ∀ ice call ice', NoDuplicates ice ∧ (checkTables ice).PairsInGrid →
      (UniqueStep crypto ice call ice' ↔ FreshStep crypto ice call ice') := by
    rintro ice call ice' ⟨hnone, hgrid⟩
    refine and_congr_right fun hstep => ?_
    rw [hstep]
    exact noDuplicates_iceCall_iff hgrid hnone crypto call
  apply Run.congr_of_invariant (I := fun ice => NoDuplicates ice ∧ (checkTables ice).PairsInGrid)
  · exact hagree
  · rintro ice call ice' hice hstep
    refine ⟨((hagree ice call ice' hice).mpr hstep).2, ?_⟩
    rw [hstep.1]
    exact pairsInGrid_iceCall hice.2 crypto call
  · exact ⟨⟨List.nodup_nil, List.nodup_nil, List.nodup_nil⟩, pairsInGrid_create⟩

/-- A candidate that is signaled twice is in the table twice. -/
theorem noDuplicates_fails :
    ∃ calls ice, Run (IceStep toyCrypto) iceSessionCreate calls ice ∧ ¬ NoDuplicates ice := by
  refine ⟨[.addRemoteCandidate (sampleRemote "10.0.0.1"),
    .addRemoteCandidate (sampleRemote "10.0.0.1")], _, .cons rfl (.cons rfl (.nil _)), ?_⟩
  rintro ⟨-, hremotes, -⟩
  revert hremotes
  decide +kernel

/-- The check list is the product of the two tables, and the pair table has room for it. -/
structure ChecksEveryPair (ice : IceSession) : Prop where
  places : (pairPlaces ice.checkPairs.items).Perm
    (List.range ice.localCandidates.count ×ˢ List.range ice.remoteCandidates.count)
  count : ice.checkPairs.count = ice.localCandidates.count * ice.remoteCandidates.count
  room : ice.checkPairs.count ≤ iceMaxCandidates * iceMaxCandidates

section

variable {tables tables' : CheckTables} {address : CStr 64 × UInt16}

theorem pairsFillGrid_addLocal (h : tables.PairsFillGrid) :
    (tables.addLocal address).PairsFillGrid := by
  rw [CheckTables.PairsFillGrid, CheckTables.addLocal]
  rw [List.length_append, rowPairs_length, List.length_append, List.length_singleton,
    Nat.succ_mul, h]

theorem pairsFillGrid_addRemote (h : tables.PairsFillGrid) :
    (tables.addRemote address).PairsFillGrid := by
  rw [CheckTables.PairsFillGrid, CheckTables.addRemote]
  rw [List.length_append, columnPairs_length, List.length_append, List.length_singleton,
    Nat.mul_succ, h]

theorem pairsFillGrid_tablesStep (h : tables.PairsFillGrid) (hstep : TablesStep tables tables') :
    tables'.PairsFillGrid := by
  cases hstep with
  | same => exact h
  | addLocal address => exact pairsFillGrid_addLocal h
  | addRemote address => exact pairsFillGrid_addRemote h

end

theorem pairsFillGrid_gathered (env : GatheringEnv) (stunUrl : Option (List UInt8)) :
    (checkTables (gathered env stunUrl)).PairsFillGrid := by
  have hgathers := gathersLocals_iceStartGathering env iceSessionCreate stunUrl
  rw [CheckTables.PairsFillGrid, gathered, hgathers.pairs, hgathers.remotes]
  rfl

theorem checkTables_run {crypto : Crypto} {env : GatheringEnv} {stunUrl : Option (List UInt8)}
    {calls : List IceCall} {ice : IceSession}
    (hrun : Run (CheckStep crypto) (gathered env stunUrl) calls ice) :
    (checkTables ice).PairsInGrid ∧ (checkTables ice).PairsFillGrid := by
  refine hrun.invariant
    (I := fun ice => (checkTables ice).PairsInGrid ∧
      (checkTables ice).PairsFillGrid) ?_ ?_
  · rintro ice call ice' ⟨hgrid, hfill⟩ hstep
    have htables := tablesStep_checkStep hgrid hstep
    exact ⟨pairsInGrid_tablesStep hgrid htables, pairsFillGrid_tablesStep hfill htables⟩
  · exact ⟨pairsInGrid_iceCall pairsInGrid_create toyCrypto (.startGathering env stunUrl),
      pairsFillGrid_gathered env stunUrl⟩

theorem checksEveryPair {crypto : Crypto} {env : GatheringEnv} {stunUrl : Option (List UInt8)}
    {calls : List IceCall} {ice : IceSession}
    (hrun : Run (CheckStep crypto) (gathered env stunUrl) calls ice) : ChecksEveryPair ice := by
  obtain ⟨hgrid, hfill⟩ := checkTables_run hrun
  have hplaces := InGrid.perm_product hgrid hfill
  refine ⟨?_, ?_, ice.checkPairs.length_le⟩
  · simpa only [checkTables, List.length_map, Slots.count] using hplaces
  · simpa only [CheckTables.PairsFillGrid, checkTables, pairPlaces, List.length_map,
      Slots.count] using hfill

/-- A local candidate that the STUN server reports, between two remote ones. -/
def reflexiveCalls : List IceCall :=
  [.addRemoteCandidate (sampleRemote "10.0.0.1"), .processPacket samplePeer serverResponse,
    .addRemoteCandidate (sampleRemote "10.0.0.2")]

theorem checksEveryPair_reflexive :
    ∃ ice, Run (CheckStep toyCrypto) (gathered serverEnv serverUrl) reflexiveCalls ice ∧
      pairPlaces ice.checkPairs.items = [(0, 0), (1, 0), (0, 1), (1, 1)] ∧
      ChecksEveryPair ice := by
  have hrun : Run (CheckStep toyCrypto) (gathered serverEnv serverUrl) reflexiveCalls _ :=
    .cons ⟨rfl, id⟩ (.cons ⟨rfl, id⟩ (.singleton ⟨rfl, id⟩))
  refine ⟨_, hrun, ?_, checksEveryPair hrun⟩
  decide +kernel

end TinyRtc.CandidateTables
