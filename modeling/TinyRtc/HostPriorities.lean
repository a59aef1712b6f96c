import Mathlib.Data.Finset.Card
import TinyRtc.IceEffects

namespace TinyRtc.HostPriorities

open TinyRtc.BigEndian
open TinyRtc.CString
open TinyRtc.Decimal
open TinyRtc.Ice
open TinyRtc.IceEffects
open TinyRtc.Inet
open TinyRtc.SlotArray

/-- The entry for the address of an interface, with `n` host candidates in front of it. -/
def hostCandidate (port : UInt16) (n : Nat) (addr : UInt32) : IceCandidateInternal where
  type := .host
  priority := icePriorityHostMinus (n * 10).toUInt32
  ip := CStr.strncpy (inetNtop addr)
  port := port
  protocol := CStr.strncpy (ascii "udp")
  isIpv6 := (inetNtop addr).contains 0x3A
  selected := false

def hostTable (port : UInt16) (addrs : List UInt32) : List IceCandidateInternal :=
  addrs.mapIdx (hostCandidate port)

/-- An address is recorded once, as long as there is room. -/
def recordAddr (addrs : List UInt32) (addr : UInt32) : List UInt32 :=
  if addr ∈ addrs ∨ iceMaxCandidates ≤ addrs.length then addrs else addrs ++ [addr]

theorem hostTable_any (port : UInt16) (addrs : List UInt32) (addr : UInt32) :
    ((hostTable port addrs).any fun cand =>
      cand.ip.bytes == inetNtop addr && cand.port == port) = true ↔ addr ∈ addrs := by
  rw [List.any_eq_true]
  constructor
  · rintro ⟨cand, hcand, hsame⟩
    obtain ⟨i, hi, rfl⟩ := List.mem_mapIdx.mp hcand
    rw [Bool.and_eq_true, beq_iff_eq] at hsame
    have htext : inetNtop addrs[i] = inetNtop addr := by
      rw [← hsame.1]
      exact (strncpy_inetNtop addrs[i]).symm
    rw [← inetNtop_injective htext]
    exact List.getElem_mem hi
  · intro hmem
    obtain ⟨i, hi, rfl⟩ := List.getElem_of_mem hmem
    refine ⟨hostCandidate port i addrs[i], List.mem_mapIdx.mpr ⟨i, hi, rfl⟩, ?_⟩
    rw [Bool.and_eq_true, beq_iff_eq, beq_iff_eq]
    exact ⟨strncpy_inetNtop addrs[i], rfl⟩

/-- One turn of the loop over the interfaces. -/
theorem iceAddLocalCandidate_hostTable {ice : IceSession} {port : UInt16} {addrs : List UInt32}
    (h : ice.localCandidates.items = hostTable port addrs) (addr : UInt32) :
    (iceAddLocalCandidate ice (inetNtop addr) port
        (icePriorityHostMinus (ice.localCandidates.count * 10).toUInt32)).localCandidates.items =
      hostTable port (recordAddr addrs addr) := by
  have hcount : ice.localCandidates.items.length = addrs.length := by
    rw [h, hostTable, List.length_mapIdx]
  rw [iceAddLocalCandidate, h, recordAddr]
  by_cases hmem : addr ∈ addrs
  · rw [if_pos ((hostTable_any port addrs addr).mpr hmem), if_pos (.inl hmem), h]
  · rw [if_neg fun hany => hmem ((hostTable_any port addrs addr).mp hany)]
    split
    · next hfull =>
      have hlength := Slots.push?_eq_none_iff.mp hfull
      rw [if_pos (.inr (by omega)), h]
    · next pushed hpush =>
      have hroom : ¬ iceMaxCandidates ≤ addrs.length := by
        intro hle
        rw [Slots.push?_eq_none_iff.mpr (by have := ice.localCandidates.length_le; omega)] at hpush
        cases hpush
      rw [if_neg (not_or.mpr ⟨hmem, hroom⟩), hostTable, List.mapIdx_concat]
      change pushed.items = _
      rw [Slots.push?_items hpush, h, Slots.count, hcount]
      rfl

theorem foldl_interfaces {ice : IceSession} {port : UInt16} {addrs : List UInt32}
    (h : ice.localCandidates.items = hostTable port addrs) (interfaces : List UInt32) :
    (interfaces.foldl
        (fun ice addr => iceAddLocalCandidate ice (inetNtop addr) port
          (icePriorityHostMinus (ice.localCandidates.count * 10).toUInt32))
        ice).localCandidates.items = hostTable port (interfaces.foldl recordAddr addrs) := by
  induction interfaces generalizing ice addrs with
  | nil => exact h
  | cons addr interfaces ih => exact ih (iceAddLocalCandidate_hostTable h addr)

/-- As many addresses are recorded as there are different ones, up to the size of the table. -/
theorem length_foldl_recordAddr {addrs : List UInt32} (hnodup : addrs.Nodup)
    (hle : addrs.length ≤ iceMaxCandidates) (interfaces : List UInt32) :
    (interfaces.foldl recordAddr addrs).length =
      min iceMaxCandidates (addrs ++ interfaces).toFinset.card := by
  induction interfaces generalizing addrs with
  | nil =>
      rw [List.append_nil, List.toFinset_card_of_nodup hnodup, Nat.min_eq_right hle]
      rfl
  | cons addr interfaces ih =>
      rw [List.foldl_cons, recordAddr]
      split
      · next hkept =>
        rw [ih hnodup hle]
        rcases hkept with hmem | hfull
        · have hsame : (addrs ++ addr :: interfaces).toFinset = (addrs ++ interfaces).toFinset := by
            ext other
            simp only [List.mem_toFinset, List.mem_append, List.mem_cons]
            constructor
            · rintro (hold | rfl | hnew)
              · exact .inl hold
              · exact .inl hmem
              · exact .inr hnew
            · rintro (hold | hnew)
              · exact .inl hold
              · exact .inr (.inr hnew)
          rw [hsame]
        · have hcard : ∀ more : List UInt32,
              min iceMaxCandidates (addrs ++ more).toFinset.card = iceMaxCandidates := by
            intro more
            have hsub : addrs.toFinset ⊆ (addrs ++ more).toFinset := by
              rw [List.toFinset_append]
              exact Finset.subset_union_left
            have hall := Finset.card_le_card hsub
            rw [List.toFinset_card_of_nodup hnodup] at hall
            exact Nat.min_eq_left (hfull.trans hall)
          rw [hcard, hcard]
      · next hnew =>
        obtain ⟨hmem, hroom⟩ := not_or.mp hnew
        rw [ih (List.Nodup.append hnodup (List.nodup_singleton addr) (by simpa using hmem))
            (by rw [List.length_append, List.length_singleton]; omega),
          List.append_assoc, List.singleton_append]

/-- What a list of host candidates promises about its priorities. -/
structure PrioritiesOrdered (cands : List IceCandidateInternal) : Prop where
  decreasing : cands.Pairwise fun cand next => next.priority < cand.priority
  typePreference : ∀ cand ∈ cands, cand.priority >>> 24 = 126
  distinct : (cands.map IceCandidateInternal.priority).Nodup
  lt : ∀ cand ∈ cands, cand.priority < 0x80000000

/-- The place where the difference wraps, and sets all the bits above it. -/
theorem icePriorityHostMinus_thirteen :
    ¬ icePriorityHostMinus (13 * 10 : Nat).toUInt32 < 0x80000000 := by
  decide

theorem priorities_of_length_le {addrs : List UInt32} (port : UInt16) (h : addrs.length ≤ 13) :
    PrioritiesOrdered (hostTable port addrs) := by
  have hless : ∀ i j : Fin 13, i < j → icePriorityHostMinus (j.val * 10).toUInt32 <
      icePriorityHostMinus (i.val * 10).toUInt32 := by
    decide
  have hfields : ∀ i : Fin 13, icePriorityHostMinus (i.val * 10).toUInt32 >>> 24 = 126 ∧
      icePriorityHostMinus (i.val * 10).toUInt32 < 0x80000000 := by
    decide
  have hplace : ∀ cand ∈ hostTable port addrs, ∃ i : Fin 13,
      cand.priority = icePriorityHostMinus (i.val * 10).toUInt32 := by
    intro cand hcand
    obtain ⟨i, hi, rfl⟩ := List.mem_mapIdx.mp hcand
    exact ⟨⟨i, by omega⟩, rfl⟩
  have hdecreasing : (hostTable port addrs).Pairwise fun cand next =>
      next.priority < cand.priority := by
    rw [List.pairwise_iff_getElem]
    intro i j hi hj hij
    simp only [hostTable, List.length_mapIdx, List.getElem_mapIdx] at hi hj ⊢
    exact hless ⟨i, by omega⟩ ⟨j, by omega⟩ hij
  constructor
  · exact hdecreasing
  · intro cand hcand
    obtain ⟨i, hi⟩ := hplace cand hcand
    rw [hi]
    exact (hfields i).1
  · rw [List.Nodup, List.pairwise_map]
    exact hdecreasing.imp fun hless => (UInt32.ne_of_lt hless).symm
  · intro cand hcand
    obtain ⟨i, hi⟩ := hplace cand hcand
    rw [hi]
    exact (hfields i).2

theorem prioritiesOrdered_hostTable_iff (port : UInt16) (addrs : List UInt32) :
    PrioritiesOrdered (hostTable port addrs) ↔ addrs.length ≤ 13 := by
  constructor
  · intro h
    by_contra hlong
    have hplace : 13 < addrs.length := Nat.not_le.mp hlong
    refine icePriorityHostMinus_thirteen (h.lt (hostCandidate port 13 addrs[13]) ?_)
    exact List.mem_mapIdx.mpr ⟨13, hplace, rfl⟩
  · exact priorities_of_length_le port

/-- The addresses in the table of local candidates. Without one of an interface, the loopback
address stands for the host. -/
def hostAddrs (env : GatheringEnv) : List UInt32 :=
  if env.socket.isSome && env.bindOk then
    let addrs := env.interfaces.foldl recordAddr []
    if addrs = [] then [0x7F000001] else addrs
  else []

theorem gathered_localCandidates (env : GatheringEnv) (stunUrl : Option (List UInt8)) :
    (gathered env stunUrl).localCandidates.items = hostTable env.localPort (hostAddrs env) := by
  rw [gathered, iceStartGathering, hostAddrs]
  cases hsocket : env.socket with
  | none => rfl
  | some sock =>
      cases hbind : env.bindOk with
      | false => rfl
      | true =>
          have hempty : { iceSessionCreate with socket := some sock }.localCandidates.items =
              hostTable env.localPort [] := rfl
          have hfold := foldl_interfaces hempty env.interfaces
          simp only [Option.isSome_some, Bool.and_self, if_true, Bool.not_true, Bool.false_eq_true,
            if_false]
          generalize env.interfaces.foldl
            (fun ice addr => iceAddLocalCandidate ice (inetNtop addr) env.localPort
              (icePriorityHostMinus (ice.localCandidates.count * 10).toUInt32))
            { iceSessionCreate with socket := some sock } = ice at hfold ⊢
          generalize env.interfaces.foldl recordAddr [] = addrs at hfold ⊢
          have hcount : ice.localCandidates.count = addrs.length := by
            rw [Slots.count, hfold, hostTable, List.length_mapIdx]
          have hloopback : (if ice.localCandidates.count = 0 then
              iceAddLocalCandidate ice (ascii "127.0.0.1") env.localPort icePriorityHost
            else ice).localCandidates.items =
              hostTable env.localPort (if addrs = [] then [0x7F000001] else addrs) := by
            by_cases hnil : addrs = []
            · have htext : ascii "127.0.0.1" = inetNtop 0x7F000001 := by decide +kernel
              have hfirst : icePriorityHost =
                  icePriorityHostMinus (ice.localCandidates.count * 10).toUInt32 := by
                rw [hcount, hnil]
                rfl
              rw [if_pos hnil, if_pos (by rw [hcount, hnil]; rfl), htext, hfirst,
                iceAddLocalCandidate_hostTable hfold, hnil]
              rfl
            · rw [if_neg hnil, if_neg (by rw [hcount]; exact mt List.length_eq_zero_iff.mp hnil),
                hfold]
          generalize (if ice.localCandidates.count = 0 then
              iceAddLocalCandidate ice (ascii "127.0.0.1") env.localPort icePriorityHost
            else ice) = ice' at hloopback ⊢
          rw [← hloopback]
          split
          · rfl
          · rw [stunSendBindingRequest]
            split <;> rfl

/-- The priorities are ordered exactly up to 13 different addresses: from the 14th one on the
difference in the macro wraps. -/
theorem prioritiesOrdered_gathered_iff (env : GatheringEnv) (stunUrl : Option (List UInt8)) :
    PrioritiesOrdered (gathered env stunUrl).localCandidates.items ↔
      (env.socket.isSome = true → env.bindOk = true → env.interfaces.toFinset.card ≤ 13) := by
  rw [gathered_localCandidates, prioritiesOrdered_hostTable_iff, hostAddrs]
  by_cases hready : (env.socket.isSome && env.bindOk) = true
  · obtain ⟨hsocket, hbind⟩ := Bool.and_eq_true_iff.mp hready
    have hlength := length_foldl_recordAddr List.nodup_nil (Nat.zero_le _) env.interfaces
    rw [List.nil_append, iceMaxCandidates, Common.tinyrtcMaxCandidates] at hlength
    rw [if_pos hready]
    dsimp only
    split
    · next hnil =>
      rw [hnil, List.length_nil] at hlength
      exact iff_of_true (by decide) fun _ _ => by omega
    · exact ⟨fun hle _ _ => by omega, fun hcard => by have := hcard hsocket hbind; omega⟩
  · rw [if_neg hready]
    refine iff_of_true (by decide) fun hsocket hbind => ?_
    exact absurd (Bool.and_eq_true_iff.mpr ⟨hsocket, hbind⟩) hready

/-- On a host with 14 addresses. -/
theorem prioritiesOrdered_fails : ¬ PrioritiesOrdered
    (gathered ⟨some 3, true, 4000, (List.range 14).map fun i => 0x0A000001 + i.toUInt32, 1,
      fun _ _ => none⟩ none).localCandidates.items := by
  rintro ⟨-, -, -, hlt⟩
  revert hlt
  decide +kernel

end TinyRtc.HostPriorities
