import TinyRtc.IceEffects

namespace TinyRtc.ReflexiveCandidates

open TinyRtc.Common
open TinyRtc.Ice
open TinyRtc.IceEffects
open TinyRtc.IceMatching
open TinyRtc.Inet
open TinyRtc.LabelledRuns
open TinyRtc.SlotArray
open TinyRtc.Srtp
open TinyRtc.Stun

def serverRequests (outputs : List IceOutput) : List (List UInt8) :=
  outputs.filterMap fun output =>
    match output with
    | .serverRequest _ message => some message
    | _ => none

def ServerRequestCarries (sent : List IceOutput) (transactionId : List UInt8) : Prop :=
  (serverRequests sent).getLast?.map messageTransactionId = some transactionId

def AddsCandidate (ice ice' : IceSession) (outputs : List IceOutput) : Prop :=
  ice.localCandidates.count < ice'.localCandidates.count ∨
    ice.checkPairs.count < ice'.checkPairs.count ∨ ∃ cand, IceOutput.candidate cand ∈ outputs

/-- Only an answer of the STUN server adds a candidate, and a response that answers nothing
changes nothing. -/
structure OnlyServerAdds (s : LoggedSession) (datagram : Datagram)
    (result : IceSession × List IceOutput) : Prop where
  adds : AddsCandidate s.ice result.1 result.2 →
    ServerRequestCarries s.sent (transactionIdAt datagram.byteAt)
  unsolicited : ¬ ServerRequestCarries s.sent (transactionIdAt datagram.byteAt) →
    (∀ i, ¬ LastCheckCarries s.sent i (transactionIdAt datagram.byteAt)) → result.1 = s.ice

section

variable {transactionId : List UInt8}

theorem markFirst_of_unmatched {items : List IceCheckPair}
    (h : ∀ pair ∈ items, pair.matches transactionId = false) :
    markFirst transactionId items = items := by
  apply List.ext_getElem?
  intro i
  rw [markFirst_getElem?, List.findIdx?_eq_none_iff.mpr h]
  simp

theorem iceMarkResponse_of_unmatched {ice : IceSession}
    (h : ∀ pair ∈ ice.checkPairs.items, pair.matches transactionId = false) :
    iceMarkResponse ice transactionId = ice := by
  have hsame : ice.checkPairs.mapItems (markFirst transactionId) (markFirst_length _) =
      ice.checkPairs := Slots.ext (markFirst_of_unmatched h)
  rw [iceMarkResponse, hsame]
  split <;> rfl

theorem iceMarkResponse_counts (ice : IceSession) (transactionId : List UInt8) :
    (iceMarkResponse ice transactionId).localCandidates = ice.localCandidates ∧
      (iceMarkResponse ice transactionId).checkPairs.count = ice.checkPairs.count := by
  rw [iceMarkResponse]
  split
  · exact ⟨rfl, rfl⟩
  · exact ⟨rfl, markFirst_length _ _⟩

end

section

variable {ice : IceSession} (peer : IcePeer) (mapped : MappedAddress)

theorem iceAddReflexiveCandidate_of_full (h : ice.localCandidates.count = iceMaxCandidates) :
    iceAddReflexiveCandidate peer ice mapped = (ice, []) := by
  rw [iceAddReflexiveCandidate]
  dsimp only
  rw [Slots.push?_eq_none_iff.mpr h]

theorem iceAddReflexiveCandidate_of_room (h : ice.localCandidates.count < iceMaxCandidates) :
    (iceAddReflexiveCandidate peer ice mapped).1.localCandidates.count =
      ice.localCandidates.count + 1 := by
  rw [iceAddReflexiveCandidate]
  dsimp only
  split
  · next hpush => exact absurd (Slots.push?_eq_none_iff.mp hpush) (Nat.ne_of_lt h)
  · next pushed hpush =>
    change pushed.items.length = _
    rw [Slots.push?_items hpush, List.length_append]
    rfl

end

/-- The source looks for a mapped address in whatever response comes, so a candidate is
added for any that has one. -/
theorem onlyServerAdds_iff {crypto : Crypto} {calls : List IceCall} {s : LoggedSession}
    (hrun : Run (LoggedStep crypto) .start calls s) (peer : IcePeer) {datagram : Datagram}
    (hresponse : IsBindingResponse datagram) :
    OnlyServerAdds s datagram (iceProcessPacket crypto peer s.ice datagram).2 ↔
      ServerRequestCarries s.sent (transactionIdAt datagram.byteAt) ∨
        reportedAddress datagram = none ∨ s.ice.localCandidates.count = iceMaxCandidates := by
  obtain ⟨hlocal, hpairs⟩ := iceMarkResponse_counts s.ice (transactionIdAt datagram.byteAt)
  have heq := iceProcessPacket_eq_of_response crypto peer s.ice hresponse
  constructor
  · intro honly
    by_contra hcondition
    obtain ⟨hserver, hothers⟩ := not_or.mp hcondition
    obtain ⟨hreported, hfull⟩ := not_or.mp hothers
    obtain ⟨mapped, hmapped⟩ := Option.ne_none_iff_exists'.mp hreported
    rw [hmapped] at heq
    have hroom : s.ice.localCandidates.count < iceMaxCandidates :=
      Nat.lt_of_le_of_ne s.ice.localCandidates.length_le hfull
    have hadded := iceAddReflexiveCandidate_of_room peer mapped (hlocal ▸ hroom)
    apply hserver
    apply honly.adds
    left
    rw [heq, hadded, hlocal]
    exact Nat.lt_succ_self _
  · rintro (hserver | hothers)
    · exact ⟨fun _ => hserver, fun hnot => absurd hserver hnot⟩
    · have hmarked : (iceProcessPacket crypto peer s.ice datagram).2 =
          (iceMarkResponse s.ice (transactionIdAt datagram.byteAt), []) := by
        rw [heq]
        rcases hothers with hnone | hfull
        · rw [hnone]
        · split
          · rfl
          · exact iceAddReflexiveCandidate_of_full peer _ (hlocal ▸ hfull)
      rw [hmarked]
      constructor
      · rintro (hlt | hlt | ⟨cand, hcand⟩)
        · rw [hlocal] at hlt
          exact absurd hlt (Nat.lt_irrefl _)
        · rw [hpairs] at hlt
          exact absurd hlt (Nat.lt_irrefl _)
        · cases hcand
      · intro _ hchecks
        apply iceMarkResponse_of_unmatched
        intro pair hpair
        obtain ⟨i, hi⟩ := List.mem_iff_getElem?.mp hpair
        -- A pair that matches has sent its last check with this transaction ID.
        by_contra hmatch
        rw [Bool.not_eq_false, IceCheckPair.matches, Bool.and_eq_true, beq_iff_eq] at hmatch
        apply hchecks i
        rw [← hmatch.2]
        exact checksRecorded_run hrun i pair hi hmatch.1

theorem sampleCalls_serverRequests :
    serverRequests (afterCalls toyCrypto sampleCalls .start).sent = [] := by
  decide +kernel

/-- A session that has asked a STUN server, and has made one tick since. -/
def serverCalls : List IceCall :=
  [.startGathering serverEnv serverUrl, .addRemoteCandidate (sampleRemote "10.0.0.1"),
    .checkConnectivity samplePeer 2 fun _ => 2]

theorem onlyServerAdds_serverResponse :
    AddsCandidate (afterCalls toyCrypto serverCalls .start).ice
        (iceProcessPacket toyCrypto samplePeer (afterCalls toyCrypto serverCalls .start).ice
          serverResponse).2.1
        (iceProcessPacket toyCrypto samplePeer (afterCalls toyCrypto serverCalls .start).ice
          serverResponse).2.2 ∧
      OnlyServerAdds (afterCalls toyCrypto serverCalls .start) serverResponse
        (iceProcessPacket toyCrypto samplePeer (afterCalls toyCrypto serverCalls .start).ice
          serverResponse).2 := by
  have hresponse : 8 ≤ serverResponse.bytes.length ∧
      stunRead32 serverResponse.byteAt 4 = stunMagicCookie ∧
      stunRead16 serverResponse.byteAt 0 = stunBindingResponse := by
    decide +kernel
  have hserver : (serverRequests (afterCalls toyCrypto serverCalls .start).sent).getLast?.map
      messageTransactionId = some (transactionIdAt serverResponse.byteAt) := by
    decide +kernel
  have hadds : (afterCalls toyCrypto serverCalls .start).ice.localCandidates.count <
      (iceProcessPacket toyCrypto samplePeer (afterCalls toyCrypto serverCalls .start).ice
        serverResponse).2.1.localCandidates.count := by
    decide +kernel
  exact ⟨.inl hadds, (onlyServerAdds_iff (run_afterCalls toyCrypto serverCalls .start) samplePeer
    ⟨hresponse.1, hresponse.2.1, hresponse.2.2⟩).mpr (.inl hserver)⟩

def unsolicitedResponse : Datagram where
  bytes := stunCreateBindingResponse toyCrypto 512 (List.replicate 12 0x00)
    (some ⟨0x0A000009, 6000⟩) []
  stale _ := 0
  source := ⟨0x0A000063, 3478⟩

theorem onlyServerAdds_fails :
    ∃ calls s datagram, Run (LoggedStep toyCrypto) .start calls s ∧ IsBindingResponse datagram ∧
      ¬ OnlyServerAdds s datagram (iceProcessPacket toyCrypto samplePeer s.ice datagram).2 := by
  have htype : 8 ≤ unsolicitedResponse.bytes.length ∧
      stunRead32 unsolicitedResponse.byteAt 4 = stunMagicCookie ∧
      stunRead16 unsolicitedResponse.byteAt 0 = stunBindingResponse := by
    decide +kernel
  refine ⟨sampleCalls, _, unsolicitedResponse, run_afterCalls toyCrypto sampleCalls .start,
    ⟨htype.1, htype.2.1, htype.2.2⟩, ?_⟩
  intro honly
  have hadds : (afterCalls toyCrypto sampleCalls .start).ice.localCandidates.count <
      (iceProcessPacket toyCrypto samplePeer (afterCalls toyCrypto sampleCalls .start).ice
        unsolicitedResponse).2.1.localCandidates.count := by
    decide +kernel
  have hserver := honly.adds (.inl hadds)
  rw [ServerRequestCarries, sampleCalls_serverRequests] at hserver
  cases hserver

end TinyRtc.ReflexiveCandidates
