import TinyRtc.IceCallEffects

namespace TinyRtc.IceRoundTrips

open TinyRtc.CandidateTables
open TinyRtc.CheckAddresses
open TinyRtc.ClosedState
open TinyRtc.Ice
open TinyRtc.IceCallEffects
open TinyRtc.IceEffects
open TinyRtc.IceMatching
open TinyRtc.Inet
open TinyRtc.LabelledRuns
open TinyRtc.SelectedPair
open TinyRtc.SlotArray
open TinyRtc.Srtp
open TinyRtc.Stun
open TinyRtc.StunMessages

/-- A pair of a session has succeeded. -/
def HasSucceeded (ice : IceSession) : Prop :=
  ∃ i, Succeeded ice.checkPairs.items i

/-- A session that checks, or will with its next tick. -/
structure Ready (ice : IceSession) : Prop where
  state_ge : 2 ≤ ice.state
  sound : SelectionSound ice

section

variable {crypto : Crypto} {ice ice' : IceSession} {calls : List IceCall}

theorem state_ge_iceCheckConnectivity (peer : IcePeer) (now : UInt64) (clock : Nat → UInt64)
    (h : 2 ≤ ice.state) : 2 ≤ (iceCheckConnectivity crypto peer ice now clock).1.state := by
  have hselect : ∀ ice : IceSession, 2 ≤ ice.state → 2 ≤ (iceSelectPair ice).state := by
    intro ice hice
    rw [iceSelectPair]
    split
    · exact hice
    · split
      · exact hice
      · exact (by decide : 2 ≤ 4)
  rw [iceCheckConnectivity, if_neg (Nat.not_lt.mpr h)]
  apply hselect
  change 2 ≤ (if ice.state = 2 then { ice with state := 3 } else ice).state
  split
  · exact (by decide : 2 ≤ 3)
  · exact h

theorem ready_step {call : IceCall} (h : Ready ice) (hstep : CheckStep crypto ice call ice') :
    Ready ice' := by
  refine ⟨?_, (checkStep_selection hstep h.sound).1⟩
  obtain ⟨rfl, hcall⟩ := hstep
  cases call with
  | startGathering env stunUrl => exact absurd trivial hcall
  | addRemoteCandidate candidate =>
      exact h.state_ge.trans_eq (selectionUnchanged_iceAddRemoteCandidate ice candidate).state.symm
  | processPacket peer datagram =>
      exact h.state_ge.trans_eq
        (selectionUnchanged_iceProcessPacket crypto peer ice datagram).state.symm
  | checkConnectivity peer now clock =>
      exact state_ge_iceCheckConnectivity peer now clock h.state_ge

theorem ready_run (hrun : Run (CheckStep crypto) ice calls ice') (h : Ready ice) : Ready ice' :=
  hrun.invariant (fun _ _ _ hs hstep => ready_step hs hstep) h

theorem gathered_state (env : GatheringEnv) (stunUrl : Option (List UInt8)) :
    (gathered env stunUrl).state = 2 := by
  rw [gathered, iceStartGathering]
  split
  · rfl
  · split <;> rfl

theorem ready_gathered (env : GatheringEnv) (stunUrl : Option (List UInt8)) :
    Ready (gathered env stunUrl) :=
  ⟨(gathered_state env stunUrl).ge, selectionSound_gathered env stunUrl⟩

theorem hasSucceeded_run (hrun : Run (CheckStep crypto) ice calls ice') (h : Ready ice)
    (hsucceeded : HasSucceeded ice) : HasSucceeded ice' := by
  obtain ⟨i, pair, hpair, hpairSucceeded⟩ := hsucceeded
  exact ⟨i, pair, (selectionKept_run hrun h.sound).pairs i pair hpair hpairSucceeded,
    hpairSucceeded⟩

/-- A tick after a pair has succeeded leaves the session connected. -/
theorem connected_of_tick (peer : IcePeer) (now : UInt64) (clock : Nat → UInt64) (h : Ready ice)
    (hsucceeded : HasSucceeded ice) :
    iceIsConnected (iceCheckConnectivity crypto peer ice now clock).1 = true := by
  have hstep : CheckStep crypto ice (.checkConnectivity peer now clock)
      (iceCheckConnectivity crypto peer ice now clock).1 := ⟨rfl, id⟩
  obtain ⟨hsound, hkept⟩ := checkStep_selection hstep h.sound
  obtain ⟨i, pair, hpair, hpairSucceeded⟩ := hsucceeded
  have hpair' := hkept.pairs i pair hpair hpairSucceeded
  apply hsound.isConnected
  intro hnone
  rw [iceCheckConnectivity, if_neg (Nat.not_lt.mpr h.state_ge)] at hnone hpair'
  dsimp only at hnone hpair'
  rw [iceSelectPair_checkPairs] at hpair'
  rw [iceSelectPair] at hnone
  split at hnone
  · next hselected =>
    rw [hselected] at hnone
    cases hnone
  · split at hnone
    · next hfind =>
      rw [List.findIdx?_eq_none_iff] at hfind
      rw [hfind pair (List.mem_of_getElem? hpair')] at hpairSucceeded
      cases hpairSucceeded
    · cases hnone

end

/-- The pair in place `i` waits for the answer to its last check, which the server cannot give. -/
def Waits (i : Nat) (transactionId : List UInt8) (ice : IceSession) : Prop :=
  ¬ (ice.stunServerTransactionIdValid = true ∧ ice.stunServerTransactionId = transactionId) ∧
    ∃ pair : IceCheckPair, ice.checkPairs.items[i]? = some pair ∧
      pair.lastTransactionIdValid = true ∧ pair.lastTransactionId = transactionId

/-- A call that sends no check for the pair in place `i`. -/
def SparesPair (crypto : Crypto) (i : Nat) (ice : IceSession) (call : IceCall)
    (ice' : IceSession) : Prop :=
  CheckStep crypto ice call ice' ∧
    ∀ dest message, .check i dest message ∉ (iceCall crypto ice call).2

section

variable {crypto : Crypto} {ice ice' : IceSession} {i : Nat} {transactionId : List UInt8}

theorem Waits.of_keeps {Marked : IceCheckPair → Prop} (h : Waits i transactionId ice)
    (hkeeps : Keeps Marked ice ice') : Waits i transactionId ice' := by
  obtain ⟨hserver, pair, hpair, hvalid, hid⟩ := h
  refine ⟨?_, ?_⟩
  · rwa [hkeeps.serverValid, hkeeps.serverId]
  · have hi := (List.getElem?_eq_some_iff.mp hpair).1
    have hi' := Nat.lt_of_lt_of_le hi hkeeps.length_le
    rcases hkeeps.pairs i _ (List.getElem?_eq_getElem hi') with
      ⟨hge, -⟩ | ⟨pair', hpair', -, hvalid', hid', -⟩
    · exact absurd hi (Nat.not_lt.mpr hge)
    · rw [hpair] at hpair'
      cases hpair'
      exact ⟨_, List.getElem?_eq_getElem hi', hvalid'.trans hvalid, hid'.trans hid⟩

theorem waits_step {call : IceCall} (h : Waits i transactionId ice)
    (hstep : SparesPair crypto i ice call ice') : Waits i transactionId ice' := by
  obtain ⟨⟨rfl, hgathering⟩, hspares⟩ := hstep
  cases call with
  | startGathering env stunUrl => exact absurd trivial hgathering
  | addRemoteCandidate candidate => exact h.of_keeps (keeps_iceAddRemoteCandidate ice candidate)
  | processPacket peer datagram =>
      by_cases hresponse : IsBindingResponse datagram
      · exact h.of_keeps (keeps_iceProcessPacket_response crypto peer ice hresponse)
      · rcases iceProcessPacket_other crypto peer ice hresponse with hsame | ⟨message, hmarked⟩
        · rw [iceCall, hsame]
          exact h
        · rw [iceCall, hmarked]
          exact h.of_keeps (keeps_iceMarkSource ice datagram.source)
  | checkConnectivity peer now clock =>
      obtain ⟨hserver, pair, hpair, hvalid, hid⟩ := h
      obtain ⟨hserverValid, hserverId⟩ := iceCheckConnectivity_server crypto peer ice now clock
      have hlength :=
        (addsNothing_iceCheckConnectivity crypto peer ice now clock).pairs.length_eq
      have hi := (List.getElem?_eq_some_iff.mp hpair).1
      obtain ⟨pair', hpair'⟩ : ∃ pair',
          (iceCheckConnectivity crypto peer ice now clock).1.checkPairs.items[i]? = some pair' :=
        ⟨_, List.getElem?_eq_getElem (by omega)⟩
      obtain ⟨_, hsame, -, -, ⟨hvalid', hid'⟩ | ⟨message, hsent, -⟩⟩ :=
        iceCheckConnectivity_pair hpair'
      · rw [hpair] at hsame
        cases hsame
        refine ⟨?_, pair', hpair', hvalid'.trans hvalid, hid'.trans hid⟩
        rwa [iceCall, hserverValid, hserverId]
      · exact absurd hsent (hspares _ message)

theorem waits_of_check {peer : IcePeer} {now : UInt64} {clock : Nat → UInt64} {dest : SockAddr}
    {message : List UInt8}
    (hsent : .check i dest message ∈ (iceCheckConnectivity crypto peer ice now clock).2)
    (hserver : ¬ (ice.stunServerTransactionIdValid = true ∧
      ice.stunServerTransactionId = messageTransactionId message)) :
    Waits i (messageTransactionId message) (iceCheckConnectivity crypto peer ice now clock).1 := by
  obtain ⟨hvalid, hid⟩ := iceCheckConnectivity_server crypto peer ice now clock
  refine ⟨by rwa [hvalid, hid], ?_⟩
  rw [iceCheckConnectivity] at hsent ⊢
  split at hsent
  · cases hsent
  · next hstate =>
    rw [if_neg hstate]
    dsimp only at hsent ⊢
    rw [iceSelectPair_checkPairs]
    generalize (if ice.state = 2 then { ice with state := 3 } else ice) = checking at *
    simp only [iceSendChecks, List.mem_flatten, List.mem_mapIdx] at hsent
    obtain ⟨_, ⟨j, hj, rfl⟩, hmem⟩ := hsent
    have hplace : (iceSendChecks crypto peer checking now clock).1.checkPairs.items[j]? =
        some (iceCheckPair crypto peer checking now (clock j) checking.checkPairs.items[j]).1 := by
      simp only [iceSendChecks, Slots.mapItems, List.getElem?_mapIdx, List.getElem?_eq_getElem hj,
        Option.map_some]
    rcases iceCheckPair_cases crypto peer checking now (clock j) checking.checkPairs.items[j] with
      hsame | ⟨dest', message', hchecks, hmessage⟩
    · rw [hsame] at hmem
      cases hmem
    · rw [hchecks] at hmem hplace
      cases List.mem_singleton.mp hmem
      exact ⟨_, hplace, rfl, hmessage.symm⟩

theorem hasSucceeded_answer (peer : IcePeer) {datagram : Datagram}
    (h : Waits i transactionId ice) (hresponse : IsBindingResponse datagram)
    (hid : transactionIdAt datagram.byteAt = transactionId) :
    HasSucceeded (iceProcessPacket crypto peer ice datagram).2.1 := by
  obtain ⟨hserver, pair, hpair, hvalid, hpairId⟩ := h
  obtain ⟨added, hitems, -⟩ := iceProcessPacket_response crypto peer ice hresponse
  rw [hid, iceMarkResponse, if_neg (by simpa using hserver)] at hitems
  change _ = markFirst transactionId ice.checkPairs.items ++ added at hitems
  have hmatches : pair.matches transactionId = true := by
    rw [IceCheckPair.matches, hvalid, hpairId, Bool.true_and, beq_self_eq_true]
  obtain ⟨first, hfirst⟩ :=
    Option.isSome_iff_exists.mp (List.find?_isSome.mpr ⟨pair, List.mem_of_getElem? hpair, hmatches⟩)
  obtain ⟨place, -, hmarked⟩ := markFirst_of_find? hfirst
  refine ⟨place, { first with succeeded := true }, ?_, rfl⟩
  rw [hitems, List.getElem?_append_left (List.getElem?_eq_some_iff.mp hmarked).1, hmarked]

theorem hasSucceeded_request (peer : IcePeer) {datagram : Datagram}
    (hrequest : Reads datagram stunBindingRequest) {pair : IceCheckPair}
    (hpair : pair ∈ ice.checkPairs.items) (hfrom : ice.isFrom pair datagram.source = true) :
    HasSucceeded (iceProcessPacket crypto peer ice datagram).2.1 := by
  rw [iceProcessPacket_request crypto peer ice hrequest]
  obtain ⟨i, hi⟩ := List.mem_iff_getElem?.mp hpair
  refine ⟨i, { pair with succeeded := true }, ?_, rfl⟩
  simp only [iceMarkSource, Slots.mapItems]
  rw [List.getElem?_map, hi, Option.map_some, if_pos hfrom]

end

/-- A connectivity check that gets through is answered. An agent that gets the answer before it
checks the pair again is connected with its next tick, whatever else has happened by then, and so
is the one that was asked, if it knows the address that the check came from. -/
theorem check_connects {crypto : Crypto} {env env' : GatheringEnv}
    {stunUrl stunUrl' : Option (List UInt8)} {calls calls' waiting : List IceCall}
    {asking answering waited : IceSession} {peer peer' : IcePeer} {now : UInt64}
    {clock : Nat → UInt64} {i : Nat} {dest : SockAddr} {request : Datagram}
    (hasking : Run (CheckStep crypto) (gathered env stunUrl) calls asking)
    (hanswering : Run (CheckStep crypto) (gathered env' stunUrl') calls' answering)
    (hsent : .check i dest request.bytes ∈ (iceCheckConnectivity crypto peer asking now clock).2)
    (hserver : ¬ (asking.stunServerTransactionIdValid = true ∧
      asking.stunServerTransactionId = messageTransactionId request.bytes))
    (hwaiting : Run (SparesPair crypto i) (iceCheckConnectivity crypto peer asking now clock).1
      waiting waited) :
    ∃ response, (iceProcessPacket crypto peer' answering request).2.2 =
        [.bindingResponse request.source response] ∧
      (∀ (answer : Datagram) (peer'' : IcePeer) (later : List IceCall) (ice : IceSession)
          (now' : UInt64) (clock' : Nat → UInt64), answer.bytes = response →
        Run (CheckStep crypto) (iceProcessPacket crypto peer'' waited answer).2.1 later ice →
          iceIsConnected (iceCheckConnectivity crypto peer'' ice now' clock').1 = true) ∧
      ∀ (pair : IceCheckPair) (peer'' : IcePeer) (later : List IceCall) (ice : IceSession)
          (now' : UInt64) (clock' : Nat → UInt64), pair ∈ answering.checkPairs.items →
        answering.isFrom pair request.source = true →
        Run (CheckStep crypto) (iceProcessPacket crypto peer' answering request).2.1 later ice →
          iceIsConnected (iceCheckConnectivity crypto peer'' ice now' clock').1 = true := by
  have hrequest : Reads request stunBindingRequest := by
    obtain ⟨_, _, _, _, hcheck, hfinal⟩ := mem_iceCheckConnectivity hsent
    cases hcheck
    exact (isMessage_check hfinal).reads
  have hprocess := iceProcessPacket_request crypto peer' answering hrequest
  obtain ⟨hmessage, hid⟩ := isMessage_response crypto request peer'.localPwd.bytes
  refine ⟨_, congrArg Prod.snd hprocess, ?_, ?_⟩
  · intro answer peer'' later ice now' clock' hbytes hlater
    have hreads : Reads answer stunBindingResponse := IsMessage.reads (hbytes ▸ hmessage)
    have hanswers : transactionIdAt answer.byteAt = messageTransactionId request.bytes := by
      rw [hreads.transactionId_eq, hbytes, hid, hrequest.transactionId_eq]
    have hticked : CheckStep crypto asking (.checkConnectivity peer now clock)
        (iceCheckConnectivity crypto peer asking now clock).1 := ⟨rfl, id⟩
    have hready := ready_run (hwaiting.mono fun _ _ _ h => h.1)
      (ready_step (ready_run hasking (ready_gathered env stunUrl)) hticked)
    have hwaits : Waits i (messageTransactionId request.bytes) waited :=
      hwaiting.invariant (fun _ _ _ h hstep => waits_step h hstep) (waits_of_check hsent hserver)
    have hstep : CheckStep crypto waited (.processPacket peer'' answer)
        (iceProcessPacket crypto peer'' waited answer).2.1 := ⟨rfl, id⟩
    have hsucceeded :=
    @hasSucceeded_answer crypto _ _ _ peer'' _ hwaits hreads.isBindingResponse hanswers
    have hnext := ready_step hready hstep
    exact connected_of_tick peer'' now' clock' (ready_run hlater hnext)
      (hasSucceeded_run hlater hnext hsucceeded)
  · intro pair peer'' later ice now' clock' hpair hfrom hlater
    have hstep : CheckStep crypto answering (.processPacket peer' request)
        (iceProcessPacket crypto peer' answering request).2.1 := ⟨rfl, id⟩
    have hsucceeded := @hasSucceeded_request crypto _ peer' _ hrequest _ hpair hfrom
    have hnext := ready_step (ready_run hanswering (ready_gathered env' stunUrl')) hstep
    exact connected_of_tick peer'' now' clock' (ready_run hlater hnext)
      (hasSucceeded_run hlater hnext hsucceeded)

/-- A session with one local address that knows one remote address. -/
def twoAddresses (ip : String) : IceSession :=
  (iceAddRemoteCandidate (gathered gatheringEnv none) (sampleRemote ip)).2

theorem run_twoAddresses (ip : String) : Run (CheckStep toyCrypto) (gathered gatheringEnv none)
    [.addRemoteCandidate (sampleRemote ip)] (twoAddresses ip) :=
  .singleton ⟨rfl, id⟩

theorem check_connects_sample : ∃ request answer,
    .check 0 ⟨0x0A000001, 5000⟩ request.bytes ∈
        (iceCheckConnectivity toyCrypto samplePeer (twoAddresses "10.0.0.1") 1 fun _ => 1).2 ∧
      (iceProcessPacket toyCrypto samplePeer (twoAddresses "10.0.0.2") request).2.2 =
        [.bindingResponse request.source answer.bytes] ∧
      iceIsConnected (iceCheckConnectivity toyCrypto samplePeer
        (iceProcessPacket toyCrypto samplePeer (iceCheckConnectivity toyCrypto samplePeer
          (twoAddresses "10.0.0.1") 1 fun _ => 1).1 answer).2.1 2 fun _ => 2).1 = true ∧
      iceIsConnected (iceCheckConnectivity toyCrypto samplePeer
        (iceProcessPacket toyCrypto samplePeer (twoAddresses "10.0.0.2") request).2.1 2
          fun _ => 2).1 = true := by
  obtain ⟨pair, hpair, hdue, haddress⟩ : ∃ pair,
      (twoAddresses "10.0.0.1").checkPairs.items[0]? = some pair ∧ isDue 1 pair = true ∧
        pairAddress (twoAddresses "10.0.0.1") pair = ⟨0x0A000001, 5000⟩ :=
    ⟨.fresh 0 0, by decide +kernel, by decide, by decide +kernel⟩
  have hstate : (twoAddresses "10.0.0.1").state = 2 := rfl
  obtain ⟨message, hsent⟩ : ∃ message, .check 0 ⟨0x0A000001, 5000⟩ message ∈
      (iceCheckConnectivity toyCrypto samplePeer (twoAddresses "10.0.0.1") 1 fun _ => 1).2 := by
    rw [iceCheckConnectivity, if_neg (by decide +kernel), if_pos hstate, ← haddress]
    exact @mem_iceSendChecks_of_due toyCrypto samplePeer { twoAddresses "10.0.0.1" with state := 3 }
      1 (fun _ => 1) 0 pair hpair hdue
  have hserver : ¬ ((twoAddresses "10.0.0.1").stunServerTransactionIdValid = true ∧
      (twoAddresses "10.0.0.1").stunServerTransactionId = messageTransactionId message) :=
    fun h => by cases h.1
  obtain ⟨known, hknown, hfrom⟩ : ∃ pair ∈ (twoAddresses "10.0.0.2").checkPairs.items,
      (twoAddresses "10.0.0.2").isFrom pair ⟨0x0A000002, 5000⟩ = true := by
    decide +kernel
  obtain ⟨response, hresponse, hasking, hanswering⟩ := @check_connects toyCrypto gatheringEnv
    gatheringEnv none none _ _ [] _ _ _ samplePeer samplePeer 1 (fun _ => 1) 0 ⟨0x0A000001, 5000⟩
    ⟨message, fun _ => 0, ⟨0x0A000002, 5000⟩⟩ (run_twoAddresses "10.0.0.1")
    (run_twoAddresses "10.0.0.2") hsent hserver (.nil _)
  exact ⟨_, ⟨response, fun _ => 0, ⟨0x0A000001, 5000⟩⟩, hsent, hresponse,
    hasking ⟨response, fun _ => 0, ⟨0x0A000001, 5000⟩⟩ samplePeer [] _ 2 (fun _ => 2) rfl (.nil _),
    hanswering known samplePeer [] _ 2 (fun _ => 2) hknown hfrom (.nil _)⟩

end TinyRtc.IceRoundTrips
