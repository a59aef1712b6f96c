import TinyRtc.IceMatching
import TinyRtc.PairGrid

namespace TinyRtc.IceEffects

open TinyRtc.Common
open TinyRtc.CString
open TinyRtc.Ice
open TinyRtc.IceMatching
open TinyRtc.Inet
open TinyRtc.PairGrid
open TinyRtc.Sdp
open TinyRtc.SlotArray
open TinyRtc.Srtp
open TinyRtc.Stun

/-- The mapped address that `ice_process_packet` makes a candidate of. -/
def reportedAddress (datagram : Datagram) : Option MappedAddress :=
  match stunProcessResponse datagram.byteAt datagram.bytes.length ⟨[], 0, false⟩ 64 with
  | (.ok, mapped) => if mapped.addr ≠ [] then some mapped else none
  | (_, _) => none

theorem stunProcessResponse_ok {datagram : Datagram} {mapped mapped' : MappedAddress}
    {mappedAddrLen : Nat}
    (h : stunProcessResponse datagram.byteAt datagram.bytes.length mapped mappedAddrLen =
      (.ok, mapped')) : IsBindingResponse datagram := by
  rw [stunProcessResponse] at h
  split at h
  · cases h
  · next hlen =>
    split at h
    · cases h
    · next hmagic =>
      split at h
      · cases h
      · split at h
        · cases h
        · next htype =>
          rw [stunHeaderLen] at hlen
          exact ⟨by omega, not_not.mp hmagic, not_not.mp htype⟩

theorem isBindingResponse_of_reportedAddress {datagram : Datagram} {mapped : MappedAddress}
    (h : reportedAddress datagram = some mapped) : IsBindingResponse datagram := by
  rw [reportedAddress] at h
  split at h
  · next hprocess => exact stunProcessResponse_ok hprocess
  · cases h

theorem iceProcessPacket_eq_of_response (crypto : Crypto) (peer : IcePeer) (ice : IceSession)
    {datagram : Datagram} (h : IsBindingResponse datagram) :
    (iceProcessPacket crypto peer ice datagram).2 =
      match reportedAddress datagram with
      | none => (iceMarkResponse ice (transactionIdAt datagram.byteAt), [])
      | some mapped =>
          iceAddReflexiveCandidate peer (iceMarkResponse ice (transactionIdAt datagram.byteAt))
            mapped := by
  rw [iceProcessPacket, if_neg (Nat.not_lt.mpr h.len_ge), if_neg (not_not.mpr h.magic),
    reportedAddress]
  simp only [h.type, if_neg (by decide : stunBindingResponse ≠ stunBindingRequest), if_true]
  generalize stunProcessResponse datagram.byteAt datagram.bytes.length ⟨[], 0, false⟩ 64 = result
  obtain ⟨err, mapped⟩ := result
  cases err with
  | ok =>
      by_cases haddr : mapped.addr = []
      · simp only [haddr, ne_eq, not_true_eq_false, if_false]
      · simp only [haddr, ne_eq, not_false_eq_true, if_true]
  | _ => rfl

theorem iceProcessPacket_other (crypto : Crypto) (peer : IcePeer) (ice : IceSession)
    {datagram : Datagram} (h : ¬ IsBindingResponse datagram) :
    (iceProcessPacket crypto peer ice datagram).2 = (ice, []) ∨
      ∃ message, (iceProcessPacket crypto peer ice datagram).2 =
        (iceMarkSource ice datagram.source, [.bindingResponse datagram.source message]) := by
  rw [iceProcessPacket]
  split
  · exact .inl rfl
  · next hlen =>
    split
    · exact .inl rfl
    · next hmagic =>
      dsimp only
      split
      · exact .inr ⟨_, rfl⟩
      · left
        rw [if_neg fun htype => h ⟨Nat.not_lt.mp hlen, not_not.mp hmagic, htype⟩]
        split
        · next hprocess => exact absurd (stunProcessResponse_ok hprocess) h
        · rfl

/-- A pair stays the pair of two candidates, and a success is never taken back. -/
structure Follows (pair pair' : IceCheckPair) : Prop where
  localIdx : pair'.localIdx = pair.localIdx
  remoteIdx : pair'.remoteIdx = pair.remoteIdx
  succeeded : pair.succeeded = true → pair'.succeeded = true

theorem Follows.refl (pair : IceCheckPair) : Follows pair pair :=
  ⟨rfl, rfl, id⟩

structure PairsFollow (items items' : List IceCheckPair) : Prop where
  length_eq : items'.length = items.length
  follows : ∀ (i : Nat) (pair : IceCheckPair), items[i]? = some pair →
    ∃ pair', items'[i]? = some pair' ∧ Follows pair pair'

theorem PairsFollow.refl (items : List IceCheckPair) : PairsFollow items items :=
  ⟨rfl, fun _ pair hpair => ⟨pair, hpair, .refl pair⟩⟩

theorem PairsFollow.map {f : IceCheckPair → IceCheckPair} (hf : ∀ pair, Follows pair (f pair))
    (items : List IceCheckPair) : PairsFollow items (items.map f) := by
  refine ⟨List.length_map _, fun i pair hpair => ⟨f pair, ?_, hf pair⟩⟩
  rw [List.getElem?_map, hpair, Option.map_some]

theorem PairsFollow.mapIdx {f : Nat → IceCheckPair → IceCheckPair}
    (hf : ∀ i pair, Follows pair (f i pair)) (items : List IceCheckPair) :
    PairsFollow items (items.mapIdx f) := by
  refine ⟨List.length_mapIdx, fun i pair hpair => ⟨f i pair, ?_, hf i pair⟩⟩
  rw [List.getElem?_mapIdx, hpair, Option.map_some]

theorem pairsFollow_markFirst (transactionId : List UInt8) (items : List IceCheckPair) :
    PairsFollow items (markFirst transactionId items) := by
  refine ⟨markFirst_length _ _, ?_⟩
  intro i pair hpair
  rw [markFirst_getElem?, hpair, Option.map_some]
  refine ⟨_, rfl, ?_⟩
  split
  · exact ⟨rfl, rfl, fun _ => rfl⟩
  · exact .refl pair

/-- The places of a pair's candidates in the two tables. -/
def pairPlaces (items : List IceCheckPair) : List (Nat × Nat) :=
  items.map fun pair => (pair.localIdx, pair.remoteIdx)

theorem PairsFollow.places_eq {items items' : List IceCheckPair} (h : PairsFollow items items') :
    pairPlaces items' = pairPlaces items := by
  apply List.ext_getElem?
  intro i
  rw [pairPlaces, pairPlaces, List.getElem?_map, List.getElem?_map]
  cases hpair : items[i]? with
  | none =>
      have hlength := List.getElem?_eq_none_iff.mp hpair
      rw [← h.length_eq] at hlength
      rw [List.getElem?_eq_none hlength]
  | some pair =>
      obtain ⟨pair', hpair', hfollows⟩ := h.follows i pair hpair
      rw [hpair', Option.map_some, Option.map_some, hfollows.localIdx, hfollows.remoteIdx]

def candidateAddress (cand : IceCandidateInternal) : CStr 64 × UInt16 :=
  (cand.ip, cand.port)

/-- What an ICE session is about: the addresses in its two tables, and the pairs of places
in them that it tests. -/
structure CheckTables where
  locals : List (CStr 64 × UInt16)
  remotes : List (CStr 64 × UInt16)
  pairs : List (Nat × Nat)

def checkTables (ice : IceSession) : CheckTables where
  locals := ice.localCandidates.items.map candidateAddress
  remotes := ice.remoteCandidates.items.map candidateAddress
  pairs := pairPlaces ice.checkPairs.items

def CheckTables.addLocal (tables : CheckTables) (address : CStr 64 × UInt16) : CheckTables where
  locals := tables.locals ++ [address]
  remotes := tables.remotes
  pairs := tables.pairs ++ rowPairs tables.locals.length tables.remotes.length

def CheckTables.addRemote (tables : CheckTables) (address : CStr 64 × UInt16) : CheckTables where
  locals := tables.locals
  remotes := tables.remotes ++ [address]
  pairs := tables.pairs ++ columnPairs tables.locals.length tables.remotes.length

/-- Every pair is one of places that are in use, and none is there twice. -/
def CheckTables.PairsInGrid (tables : CheckTables) : Prop :=
  InGrid tables.pairs tables.locals.length tables.remotes.length

def CheckTables.PairsFillGrid (tables : CheckTables) : Prop :=
  tables.pairs.length = tables.locals.length * tables.remotes.length

/-- What a call does to the tables of a session that has gathered. -/
inductive TablesStep (tables : CheckTables) : CheckTables → Prop
  | same : TablesStep tables tables
  | addLocal (address : CStr 64 × UInt16) : TablesStep tables (tables.addLocal address)
  | addRemote (address : CStr 64 × UInt16) : TablesStep tables (tables.addRemote address)

/-- What does not add: the pairs follow, and no address changes. -/
structure AddsNothing (ice ice' : IceSession) : Prop where
  pairs : PairsFollow ice.checkPairs.items ice'.checkPairs.items
  locals : ice'.localCandidates.items.map candidateAddress =
    ice.localCandidates.items.map candidateAddress
  remotes : ice'.remoteCandidates = ice.remoteCandidates

theorem AddsNothing.refl (ice : IceSession) : AddsNothing ice ice :=
  ⟨.refl _, rfl, rfl⟩

theorem AddsNothing.tables_eq {ice ice' : IceSession} (h : AddsNothing ice ice') :
    checkTables ice' = checkTables ice := by
  rw [checkTables, checkTables, h.pairs.places_eq, h.locals, h.remotes]

theorem addsNothing_iceMarkSource (ice : IceSession) (source : SockAddr) :
    AddsNothing ice (iceMarkSource ice source) := by
  refine ⟨.map ?_ _, rfl, rfl⟩
  intro pair
  split
  · exact ⟨rfl, rfl, fun _ => rfl⟩
  · exact .refl pair

theorem addsNothing_iceMarkResponse (ice : IceSession) (transactionId : List UInt8) :
    AddsNothing ice (iceMarkResponse ice transactionId) := by
  rw [iceMarkResponse]
  split
  · exact .refl ice
  · exact ⟨pairsFollow_markFirst _ _, rfl, rfl⟩

theorem addsNothing_iceSendChecks (crypto : Crypto) (peer : IcePeer) (ice : IceSession)
    (now : UInt64) (clock : Nat → UInt64) :
    AddsNothing ice (iceSendChecks crypto peer ice now clock).1 := by
  refine ⟨.mapIdx ?_ _, rfl, rfl⟩
  intro i pair
  dsimp only
  rcases iceCheckPair_cases crypto peer ice now (clock i) pair with hsame | ⟨_, _, hsent, -⟩
  · rw [hsame]
    exact .refl pair
  · rw [hsent]
    exact ⟨rfl, rfl, id⟩

theorem addsNothing_iceSelectPair (ice : IceSession) : AddsNothing ice (iceSelectPair ice) := by
  rw [iceSelectPair]
  split
  · exact .refl ice
  · split
    · exact .refl ice
    · refine ⟨.refl _, ?_, rfl⟩
      apply List.ext_getElem?
      intro i
      simp only [Slots.mapItems, List.getElem?_map, List.getElem?_modify]
      cases ice.localCandidates.items[i]? with
      | none => rfl
      | some cand =>
          simp only [Option.map_eq_map, Option.map_some]
          split <;> rfl

theorem AddsNothing.trans {ice ice' ice'' : IceSession} (hfirst : AddsNothing ice ice')
    (hsecond : AddsNothing ice' ice'') : AddsNothing ice ice'' := by
  refine ⟨⟨?_, ?_⟩, hsecond.locals.trans hfirst.locals, hsecond.remotes.trans hfirst.remotes⟩
  · exact hsecond.pairs.length_eq.trans hfirst.pairs.length_eq
  · intro i pair hpair
    obtain ⟨pair', hpair', hfollows'⟩ := hfirst.pairs.follows i pair hpair
    obtain ⟨pair'', hpair'', hfollows''⟩ := hsecond.pairs.follows i pair' hpair'
    exact ⟨pair'', hpair'', hfollows''.localIdx.trans hfollows'.localIdx,
      hfollows''.remoteIdx.trans hfollows'.remoteIdx, hfollows''.succeeded ∘ hfollows'.succeeded⟩

theorem addsNothing_iceCheckConnectivity (crypto : Crypto) (peer : IcePeer) (ice : IceSession)
    (now : UInt64) (clock : Nat → UInt64) :
    AddsNothing ice (iceCheckConnectivity crypto peer ice now clock).1 := by
  rw [iceCheckConnectivity]
  split
  · exact .refl ice
  · have hchecking : AddsNothing ice (if ice.state = 2 then { ice with state := 3 } else ice) := by
      split <;> exact ⟨.refl _, rfl, rfl⟩
    exact (hchecking.trans (addsNothing_iceSendChecks crypto peer _ now clock)).trans
      (addsNothing_iceSelectPair _)

theorem iceAddCheckPairs_of_room (ice : IceSession) {pairs : List (Nat × Nat)}
    (h : ice.checkPairs.items.length + pairs.length ≤ iceMaxCandidates * iceMaxCandidates) :
    pairPlaces (iceAddCheckPairs ice pairs).checkPairs.items =
      pairPlaces ice.checkPairs.items ++ pairs := by
  simp only [iceAddCheckPairs]
  generalize ice.checkPairs = checkPairs at h ⊢
  induction pairs generalizing checkPairs with
  | nil => rw [List.foldl_nil, List.append_nil]
  | cons pair pairs ih =>
      rw [List.length_cons] at h
      obtain ⟨pushed, hpush, hitems⟩ := checkPairs.push?_of_lt
        (by omega) (IceCheckPair.fresh pair.1 pair.2)
      rw [List.foldl_cons, hpush, Option.getD_some, ih, hitems, pairPlaces, pairPlaces,
        List.map_append, List.append_assoc]
      · rfl
      · rw [hitems, List.length_append, List.length_singleton]
        omega

section

variable {ice : IceSession}

/-- The pair table has room for the grid of two full tables. -/
theorem columnPairs_fit (hgrid : (checkTables ice).PairsInGrid)
    (hroom : ice.remoteCandidates.count < iceMaxCandidates) :
    ice.checkPairs.items.length +
      (columnPairs ice.localCandidates.count ice.remoteCandidates.count).length ≤
        iceMaxCandidates * iceMaxCandidates := by
  have hle := (InGrid.addColumn hgrid).length_le
  simp only [checkTables, pairPlaces, List.length_append, List.length_map] at hle
  exact hle.trans (Nat.mul_le_mul ice.localCandidates.length_le hroom)

theorem rowPairs_fit (hgrid : (checkTables ice).PairsInGrid)
    (hroom : ice.localCandidates.count < iceMaxCandidates) :
    ice.checkPairs.items.length +
      (rowPairs ice.localCandidates.count ice.remoteCandidates.count).length ≤
        iceMaxCandidates * iceMaxCandidates := by
  have hle := (InGrid.addRow hgrid).length_le
  simp only [checkTables, pairPlaces, List.length_append, List.length_map] at hle
  exact hle.trans (Nat.mul_le_mul hroom ice.remoteCandidates.length_le)

theorem checkTables_iceAddRemoteCandidate (hgrid : (checkTables ice).PairsInGrid)
    (candidate : SdpCandidate) :
    checkTables (iceAddRemoteCandidate ice candidate).2 =
      if ice.remoteCandidates.count < iceMaxCandidates ∧
          strcaseEq candidate.protocol.bytes (ascii "udp") = true then
        (checkTables ice).addRemote (candidate.ip, candidate.port)
      else checkTables ice := by
  rw [iceAddRemoteCandidate]
  split
  · next hfull =>
    rw [if_neg fun hroom => Nat.not_lt.mpr hfull hroom.1]
  · next hroom =>
    rw [ge_iff_le, Nat.not_le] at hroom
    split
    · next hprotocol =>
      rw [if_neg fun hudp => by simp [hudp.2] at hprotocol]
    · next hprotocol =>
      rw [if_pos ⟨hroom, by simpa using hprotocol⟩]
      obtain ⟨pushed, hpush, hitems⟩ := ice.remoteCandidates.push?_of_lt
        hroom (iceCandidateFromSdp candidate)
      have hfit := columnPairs_fit hgrid hroom
      have hplaces := iceAddCheckPairs_of_room { ice with remoteCandidates := pushed } hfit
      simp only [hpush]
      rw [checkTables, CheckTables.addRemote]
      congr 1
      · change pushed.items.map candidateAddress = _
        rw [hitems, List.map_append]
        rfl
      · refine hplaces.trans ?_
        simp only [checkTables, List.length_map]
        rfl

theorem checkTables_iceAddReflexiveCandidate (hgrid : (checkTables ice).PairsInGrid)
    (peer : IcePeer) (mapped : MappedAddress) :
    checkTables (iceAddReflexiveCandidate peer ice mapped).1 =
      if ice.localCandidates.count < iceMaxCandidates then
        (checkTables ice).addLocal (CStr.strncpy mapped.addr, mapped.port)
      else checkTables ice := by
  by_cases hroom : ice.localCandidates.count < iceMaxCandidates
  · rw [if_pos hroom, iceAddReflexiveCandidate]
    obtain ⟨pushed, hpush, hitems⟩ := ice.localCandidates.push?_of_lt hroom
      { type := .srflx
        priority := iceCalculatePriority .srflx
        ip := CStr.strncpy mapped.addr
        port := mapped.port
        protocol := CStr.strncpy (ascii "udp")
        isIpv6 := mapped.addr.contains 0x3A
        selected := false }
    have hfit := rowPairs_fit hgrid hroom
    have hplaces := iceAddCheckPairs_of_room { ice with localCandidates := pushed } hfit
    simp only [hpush]
    rw [checkTables, CheckTables.addLocal]
    congr 1
    · change pushed.items.map candidateAddress = _
      rw [hitems, List.map_append]
      rfl
    · refine hplaces.trans ?_
      simp only [checkTables, List.length_map]
      rfl
  · have hfull : ice.localCandidates.items.length = iceMaxCandidates :=
      Nat.le_antisymm ice.localCandidates.length_le (Nat.not_lt.mp hroom)
    rw [if_neg hroom, iceAddReflexiveCandidate]
    dsimp only
    rw [Slots.push?_eq_none_iff.mpr hfull]

theorem checkTables_iceProcessPacket (hgrid : (checkTables ice).PairsInGrid) (crypto : Crypto)
    (peer : IcePeer) (datagram : Datagram) :
    checkTables (iceProcessPacket crypto peer ice datagram).2.1 =
      match reportedAddress datagram with
      | none => checkTables ice
      | some mapped =>
          if ice.localCandidates.count < iceMaxCandidates then
            (checkTables ice).addLocal (CStr.strncpy mapped.addr, mapped.port)
          else checkTables ice := by
  by_cases hresponse : IsBindingResponse datagram
  · have hmarked := (addsNothing_iceMarkResponse ice
      (transactionIdAt datagram.byteAt)).tables_eq
    have hcount : (iceMarkResponse ice (transactionIdAt datagram.byteAt)).localCandidates.count =
        ice.localCandidates.count := by
      have hlocals := congrArg (fun tables => tables.locals.length) hmarked
      simpa only [checkTables, List.length_map, Slots.count] using hlocals
    rw [iceProcessPacket_eq_of_response crypto peer ice hresponse]
    split
    · exact hmarked
    · rw [checkTables_iceAddReflexiveCandidate (hmarked ▸ hgrid), hmarked, hcount]
  · have hnone : reportedAddress datagram = none := by
      cases hreported : reportedAddress datagram with
      | none => rfl
      | some mapped => exact absurd (isBindingResponse_of_reportedAddress hreported) hresponse
    rw [hnone]
    rcases iceProcessPacket_other crypto peer ice hresponse with hsame | ⟨_, hmarked⟩
    · rw [hsame]
    · rw [hmarked]
      exact (addsNothing_iceMarkSource ice datagram.source).tables_eq

end

/-- Gathering adds local candidates, none of them twice, and no pairs. -/
structure GathersLocals (tables tables' : CheckTables) : Prop where
  length_le : tables.locals.length ≤ tables'.locals.length
  nodup : tables.locals.Nodup → tables'.locals.Nodup
  remotes : tables'.remotes = tables.remotes
  pairs : tables'.pairs = tables.pairs

theorem GathersLocals.refl (tables : CheckTables) : GathersLocals tables tables :=
  ⟨Nat.le_refl _, id, rfl, rfl⟩

theorem GathersLocals.trans {tables tables' tables'' : CheckTables}
    (hfirst : GathersLocals tables tables') (hsecond : GathersLocals tables' tables'') :
    GathersLocals tables tables'' :=
  ⟨hfirst.length_le.trans hsecond.length_le, hsecond.nodup ∘ hfirst.nodup,
    hsecond.remotes.trans hfirst.remotes, hsecond.pairs.trans hfirst.pairs⟩

theorem gathersLocals_iceAddLocalCandidate (ice : IceSession) {ip : List UInt8}
    (hip : StoredWhole ip) (port : UInt16) (priority : UInt32) :
    GathersLocals (checkTables ice) (checkTables (iceAddLocalCandidate ice ip port priority)) := by
  rw [iceAddLocalCandidate]
  split
  · exact .refl _
  · next hknown =>
    split
    · exact .refl _
    · next pushed hpush =>
      have hlocals : pushed.items.map candidateAddress =
          ice.localCandidates.items.map candidateAddress ++ [(CStr.strncpy ip, port)] := by
        rw [Slots.push?_items hpush, List.map_append]
        rfl
      refine ⟨?_, fun hnodup => ?_, rfl, rfl⟩
      · change _ ≤ (pushed.items.map candidateAddress).length
        rw [hlocals, List.length_append]
        exact Nat.le_add_right _ _
      · change (pushed.items.map candidateAddress).Nodup
        rw [hlocals]
        refine List.Nodup.append hnodup (List.nodup_singleton _) ?_
        intro address hold hnew
        rw [List.mem_singleton.mp hnew] at hold
        obtain ⟨cand, hcand, haddress⟩ := List.mem_map.mp hold
        -- Texts that are stored whole are told apart as they are stored.
        apply hknown
        rw [List.any_eq_true]
        refine ⟨cand, hcand, ?_⟩
        obtain ⟨hcandIp, hcandPort⟩ := Prod.ext_iff.mp haddress
        have hbytes : cand.ip.bytes = ip := (congrArg CStr.bytes hcandIp).trans hip
        rw [Bool.and_eq_true, beq_iff_eq, beq_iff_eq]
        exact ⟨hbytes, hcandPort⟩

theorem gathersLocals_iceStartGathering (env : GatheringEnv) (ice : IceSession)
    (stunUrl : Option (List UInt8)) :
    GathersLocals (checkTables ice) (checkTables (iceStartGathering env ice stunUrl).2.1) := by
  refine iceStartGathering_induct
    (P := fun ice' => GathersLocals (checkTables ice) (checkTables ice')) ?_ ?_ env ice stunUrl
    (.refl _)
  · intro ice' ip port priority hip hice'
    exact hice'.trans (gathersLocals_iceAddLocalCandidate ice' hip port priority)
  · exact fun _ _ _ _ _ _ hice' => hice'

def IceStep (crypto : Crypto) (ice : IceSession) (call : IceCall) (ice' : IceSession) : Prop :=
  ice' = (iceCall crypto ice call).1

def IsGathering : IceCall → Prop
  | .startGathering _ _ => True
  | _ => False

/-- A session as `create_offer` and `create_answer` make it. -/
def gathered (env : GatheringEnv) (stunUrl : Option (List UInt8)) : IceSession :=
  (iceStartGathering env iceSessionCreate stunUrl).2.1

/-- A call on a session that has gathered. -/
def CheckStep (crypto : Crypto) (ice : IceSession) (call : IceCall) (ice' : IceSession) : Prop :=
  IceStep crypto ice call ice' ∧ ¬ IsGathering call

theorem tablesStep_iceCall {ice : IceSession} (hgrid : (checkTables ice).PairsInGrid)
    (crypto : Crypto) {call : IceCall} (hcall : ¬ IsGathering call) :
    TablesStep (checkTables ice) (checkTables (iceCall crypto ice call).1) := by
  cases call with
  | startGathering env stunUrl => exact absurd trivial hcall
  | addRemoteCandidate candidate =>
      rw [iceCall, checkTables_iceAddRemoteCandidate hgrid]
      split
      · exact .addRemote _
      · exact .same
  | processPacket peer datagram =>
      rw [iceCall, checkTables_iceProcessPacket hgrid]
      split
      · exact .same
      · split
        · exact .addLocal _
        · exact .same
  | checkConnectivity peer now clock =>
      rw [iceCall, (addsNothing_iceCheckConnectivity crypto peer ice now clock).tables_eq]
      exact .same

theorem tablesStep_checkStep {crypto : Crypto} {ice ice' : IceSession} {call : IceCall}
    (hgrid : (checkTables ice).PairsInGrid) (hstep : CheckStep crypto ice call ice') :
    TablesStep (checkTables ice) (checkTables ice') := by
  obtain ⟨rfl, hcall⟩ := hstep
  exact tablesStep_iceCall hgrid crypto hcall

def gatheringEnv : GatheringEnv :=
  ⟨some 3, true, 4000, [0xC0A80001, 0xC0A80002], 1, fun _ _ => none⟩

/-- One interface, and a STUN server that can be asked. -/
def serverEnv : GatheringEnv :=
  ⟨some 3, true, 4000, [0xC0A80001], 1, fun _ _ => some ⟨0xC0000201, 3478⟩⟩

def serverUrl : Option (List UInt8) :=
  some (ascii "stun:192.0.2.1:3478")

/-- The answer of the server, with the address that it sees. -/
def serverResponse : Datagram where
  bytes := stunCreateBindingResponse toyCrypto 512 (stunTransactionId 1)
    (some ⟨0xCB007101, 61000⟩) []
  stale _ := 0
  source := ⟨0xC0000201, 3478⟩

end TinyRtc.IceEffects
