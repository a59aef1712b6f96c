import TinyRtc.CandidateTables
import TinyRtc.StunMessages

namespace TinyRtc.CheckAddresses

open TinyRtc.CandidateTables
open TinyRtc.CString
open TinyRtc.Ice
open TinyRtc.IceEffects
open TinyRtc.IceMatching
open TinyRtc.Inet
open TinyRtc.LabelledRuns
open TinyRtc.Srtp
open TinyRtc.Stun
open TinyRtc.StunMessages

/-- A check for a pair, to the IPv4 address and the port that stand in its remote
candidate. -/
def GoesToRemote (ice : IceSession) (output : IceOutput) : Prop :=
  ∃ i dest message pair, output = .check i dest message ∧
    ice.checkPairs.items[i]? = some pair ∧
    inetPton (ice.remoteOf pair).ip.bytes = some dest.addr ∧
    dest.port = (ice.remoteOf pair).port

/-- All that a tick sends goes to the remote of its pair. -/
def ChecksGoToRemote (crypto : Crypto) (ice : IceSession) : IceCall → Prop
  | .checkConnectivity peer now clock =>
      ∀ output ∈ (iceCheckConnectivity crypto peer ice now clock).2, GoesToRemote ice output
  | .startGathering _ _ => True
  | .addRemoteCandidate _ => True
  | .processPacket _ _ => True

/-- The test of the checking loop. -/
def isDue (now : UInt64) (pair : IceCheckPair) : Bool :=
  !pair.succeeded && (pair.lastPingMs == 0 || now - pair.lastPingMs > iceRetryMs)

/-- Every pair whose check is due at a tick has an IPv4 literal for a remote. -/
def DueAreLiterals (ice : IceSession) : IceCall → Prop
  | .checkConnectivity _ now _ =>
      2 ≤ ice.state → ∀ pair ∈ ice.checkPairs.items, isDue now pair = true →
        inetPton (ice.remoteOf pair).ip.bytes ≠ none
  | .startGathering _ _ => True
  | .addRemoteCandidate _ => True
  | .processPacket _ _ => True

section

variable {crypto : Crypto} {peer : IcePeer} {ice : IceSession} {now : UInt64}

/-- A turn sends a check exactly if the pair is due: there is always room for the message. -/
theorem iceCheckPair_sends (clock : UInt64) (pair : IceCheckPair) :
    ∃ message, (iceCheckPair crypto peer ice now clock pair).2 =
      if isDue now pair then
        some (⟨(inetPton (ice.remoteOf pair).ip.bytes).getD 0, (ice.remoteOf pair).port⟩, message)
      else none := by
  rw [iceCheckPair, stunFinalizeMessage_check, isDue]
  split
  · exact ⟨_, rfl⟩
  · exact ⟨[], rfl⟩

theorem mem_iceSendChecks_of_due {clock : Nat → UInt64} {i : Nat} {pair : IceCheckPair}
    (hpair : ice.checkPairs.items[i]? = some pair) (hdue : isDue now pair = true) :
    ∃ message, IceOutput.check i
        ⟨(inetPton (ice.remoteOf pair).ip.bytes).getD 0, (ice.remoteOf pair).port⟩ message ∈
      (iceSendChecks crypto peer ice now clock).2 := by
  obtain ⟨message, hsends⟩ := @iceCheckPair_sends crypto peer ice now (clock i) pair
  rw [if_pos hdue] at hsends
  obtain ⟨hi, rfl⟩ := List.getElem?_eq_some_iff.mp hpair
  refine ⟨message, List.mem_flatten.mpr ⟨_, List.mem_mapIdx.mpr ⟨i, hi, rfl⟩, ?_⟩⟩
  rw [hsends]
  exact List.mem_singleton_self _

theorem due_of_mem_iceSendChecks {clock : Nat → UInt64} {output : IceOutput}
    (h : output ∈ (iceSendChecks crypto peer ice now clock).2) :
    ∃ i pair message, ice.checkPairs.items[i]? = some pair ∧ isDue now pair = true ∧
      output = .check i
        ⟨(inetPton (ice.remoteOf pair).ip.bytes).getD 0, (ice.remoteOf pair).port⟩ message := by
  obtain ⟨outputs, houtputs, hmem⟩ := List.mem_flatten.mp h
  obtain ⟨i, hi, rfl⟩ := List.mem_mapIdx.mp houtputs
  obtain ⟨message, hsends⟩ :=
    @iceCheckPair_sends crypto peer ice now (clock i) ice.checkPairs.items[i]
  rw [hsends] at hmem
  split at hmem
  · next hdue =>
    exact ⟨i, _, message, List.getElem?_eq_getElem hi, hdue, List.mem_singleton.mp hmem⟩
  · cases hmem

/-- The loop's checks go to their remotes exactly if the due ones have literals. -/
theorem iceSendChecks_goToRemote (clock : Nat → UInt64) :
    (∀ output ∈ (iceSendChecks crypto peer ice now clock).2, GoesToRemote ice output) ↔
      ∀ pair ∈ ice.checkPairs.items, isDue now pair = true →
        inetPton (ice.remoteOf pair).ip.bytes ≠ none := by
  constructor
  · intro hall pair hmem hdue
    obtain ⟨i, hpair⟩ := List.mem_iff_getElem?.mp hmem
    obtain ⟨message, hsent⟩ := @mem_iceSendChecks_of_due crypto peer ice now clock i pair hpair hdue
    obtain ⟨i', dest, _, pair', hcheck, hpair', haddr, -⟩ := hall _ hsent
    cases hcheck
    rw [hpair] at hpair'
    cases hpair'
    rw [haddr]
    exact Option.some_ne_none _
  · intro hliterals output houtput
    obtain ⟨i, pair, message, hpair, hdue, rfl⟩ := due_of_mem_iceSendChecks houtput
    obtain ⟨addr, haddr⟩ :=
      Option.ne_none_iff_exists'.mp (hliterals pair (List.mem_of_getElem? hpair) hdue)
    refine ⟨i, _, message, pair, rfl, hpair, ?_, rfl⟩
    rw [haddr]
    rfl

theorem checksGoToRemote_iff (crypto : Crypto) (ice : IceSession) (call : IceCall) :
    ChecksGoToRemote crypto ice call ↔ DueAreLiterals ice call := by
  cases call with
  | startGathering env stunUrl => exact Iff.rfl
  | addRemoteCandidate candidate => exact Iff.rfl
  | processPacket peer datagram => exact Iff.rfl
  | checkConnectivity peer now clock =>
      rw [ChecksGoToRemote, DueAreLiterals, iceCheckConnectivity]
      by_cases hearly : ice.state < 2
      · rw [if_pos hearly]
        exact iff_of_true (List.forall_mem_nil _) fun hlate => absurd hlate (Nat.not_le.mpr hearly)
      · have hlate : 2 ≤ ice.state := Nat.not_lt.mp hearly
        rw [if_neg hearly, forall_prop_of_true hlate]
        dsimp only
        split
        · exact @iceSendChecks_goToRemote crypto peer { ice with state := 3 } now clock
        · exact iceSendChecks_goToRemote clock

end

def RemoteStep (crypto : Crypto) (ice : IceSession) (call : IceCall) (ice' : IceSession) : Prop :=
  IceStep crypto ice call ice' ∧ ChecksGoToRemote crypto ice call

def LiteralStep (crypto : Crypto) (ice : IceSession) (call : IceCall) (ice' : IceSession) : Prop :=
  IceStep crypto ice call ice' ∧ DueAreLiterals ice call

/-- In a run every check goes to its pair's remote exactly if at every tick the remotes of the
pairs that are due are literals. -/
theorem remoteRun_iff (crypto : Crypto) (calls : List IceCall) (ice : IceSession) :
    Run (RemoteStep crypto) iceSessionCreate calls ice ↔
      Run (LiteralStep crypto) iceSessionCreate calls ice := by
  have hagree : ∀ ice call ice',
      RemoteStep crypto ice call ice' ↔ LiteralStep crypto ice call ice' :=
    fun ice call _ => and_congr_right fun _ => checksGoToRemote_iff crypto ice call
  constructor
  · exact Run.mono fun ice call ice' => (hagree ice call ice').mp
  · exact Run.mono fun ice call ice' => (hagree ice call ice').mpr

/-- One host candidate, and an IPv6 literal for a remote. -/
def dualStackSession : IceSession :=
  (iceAddRemoteCandidate (gathered ⟨some 3, true, 4000, [0xC0A80001], 1, fun _ _ => none⟩ none)
    (sampleRemote "2001:db8::1")).2

theorem dualStackSession_pairs :
    dualStackSession.checkPairs.items = [IceCheckPair.fresh 0 0] ∧ dualStackSession.state = 2 ∧
      inetPton (dualStackSession.remoteOf (IceCheckPair.fresh 0 0)).ip.bytes = none ∧
      (dualStackSession.remoteOf (IceCheckPair.fresh 0 0)).port = 5000 := by
  decide +kernel

/-- The next tick sends that pair's check to port 5000 of 0.0.0.0. -/
theorem remoteRun_fails :
    (∃ calls, Run (IceStep toyCrypto) iceSessionCreate calls dualStackSession) ∧
      (∃ message, IceOutput.check 0 ⟨0, 5000⟩ message ∈
        (iceSendChecks toyCrypto samplePeer dualStackSession 1 fun _ => 1).2) ∧
      ¬ ChecksGoToRemote toyCrypto dualStackSession
        (.checkConnectivity samplePeer 1 fun _ => 1) := by
  obtain ⟨hpairs, hstate, haddr, hport⟩ := dualStackSession_pairs
  have hpair : dualStackSession.checkPairs.items[0]? = some (IceCheckPair.fresh 0 0) := by
    rw [hpairs]
    rfl
  refine ⟨⟨[.startGathering ⟨some 3, true, 4000, [0xC0A80001], 1, fun _ _ => none⟩ none,
    .addRemoteCandidate (sampleRemote "2001:db8::1")], .cons rfl (.cons rfl (.nil _))⟩, ?_, ?_⟩
  · obtain ⟨message, hsent⟩ := @mem_iceSendChecks_of_due toyCrypto samplePeer dualStackSession 1
      (fun _ => 1) 0 (IceCheckPair.fresh 0 0) hpair (by decide)
    rw [haddr, hport] at hsent
    exact ⟨message, hsent⟩
  · rw [checksGoToRemote_iff]
    intro hliterals
    have hmem : IceCheckPair.fresh 0 0 ∈ dualStackSession.checkPairs.items := by
      rw [hpairs]
      exact List.mem_singleton_self _
    exact hliterals (Nat.le_of_eq hstate.symm) _ hmem (by decide) haddr

end TinyRtc.CheckAddresses
