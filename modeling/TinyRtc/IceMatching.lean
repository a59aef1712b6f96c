import TinyRtc.Ice
import TinyRtc.LabelledRuns

namespace TinyRtc.IceMatching

open TinyRtc.BigEndian
open TinyRtc.Common
open TinyRtc.CString
open TinyRtc.Ice
open TinyRtc.Inet
open TinyRtc.LabelledRuns
open TinyRtc.Sdp
open TinyRtc.SlotArray
open TinyRtc.Srtp
open TinyRtc.Stun

/-- A call on an ICE session, with what the world answers to it. -/
inductive IceCall where
  | startGathering (env : GatheringEnv) (stunUrl : Option (List UInt8))
  | addRemoteCandidate (candidate : SdpCandidate)
  | processPacket (peer : IcePeer) (datagram : Datagram)
  | checkConnectivity (peer : IcePeer) (now : UInt64) (clock : Nat → UInt64)

def iceCall (crypto : Crypto) (ice : IceSession) : IceCall → IceSession × List IceOutput
  | .startGathering env stunUrl => (iceStartGathering env ice stunUrl).2
  | .addRemoteCandidate candidate => ((iceAddRemoteCandidate ice candidate).2, [])
  | .processPacket peer datagram => (iceProcessPacket crypto peer ice datagram).2
  | .checkConnectivity peer now clock => iceCheckConnectivity crypto peer ice now clock

/-- A session together with all that it has sent. -/
structure LoggedSession where
  ice : IceSession
  sent : List IceOutput

def LoggedSession.start : LoggedSession :=
  ⟨iceSessionCreate, []⟩

def LoggedStep (crypto : Crypto) (s : LoggedSession) (call : IceCall) (s' : LoggedSession) : Prop :=
  s'.ice = (iceCall crypto s.ice call).1 ∧ s'.sent = s.sent ++ (iceCall crypto s.ice call).2

/-- The connectivity checks that were sent for the pair in place `i`. -/
def checksOf (i : Nat) (outputs : List IceOutput) : List (List UInt8) :=
  outputs.filterMap fun output =>
    match output with
    | .check j _ message => if j = i then some message else none
    | _ => none

def messageTransactionId (message : List UInt8) : List UInt8 :=
  (message.drop 8).take 12

/-- The last check sent for the pair in place `i` carries this transaction ID. -/
def LastCheckCarries (sent : List IceOutput) (i : Nat) (transactionId : List UInt8) : Prop :=
  (checksOf i sent).getLast?.map messageTransactionId = some transactionId

/-- Every recorded transaction ID is that of the last check sent for the pair. -/
def ChecksRecorded (s : LoggedSession) : Prop :=
  ∀ i pair, s.ice.checkPairs.items[i]? = some pair → pair.lastTransactionIdValid = true →
    LastCheckCarries s.sent i pair.lastTransactionId

@[simp] theorem checksOf_append (i : Nat) (first second : List IceOutput) :
    checksOf i (first ++ second) = checksOf i first ++ checksOf i second :=
  List.filterMap_append

/-- Outputs of one list of items, in which only item `i` speaks of pair `i`. -/
theorem checksOf_mapIdx {α : Type*} {f : Nat → α → List IceOutput}
    (hf : ∀ j item i, j ≠ i → checksOf i (f j item) = []) (items : List α) (i : Nat) :
    checksOf i (items.mapIdx f).flatten =
      ((items[i]?).map fun item => checksOf i (f i item)).getD [] := by
  induction items using List.reverseRecOn with
  | nil => rfl
  | append_singleton items item ih =>
      rw [List.mapIdx_append, List.flatten_append, checksOf_append, ih]
      simp only [List.mapIdx_cons, List.mapIdx_nil, List.flatten_cons, List.flatten_nil,
        List.append_nil, Nat.zero_add]
      rcases Nat.lt_trichotomy i items.length with hlt | heq | hgt
      · rw [hf _ _ _ (by omega), List.getElem?_append_left hlt, List.append_nil]
      · rw [heq, List.getElem?_eq_none (Nat.le_refl _), List.getElem?_concat_length]
        rfl
      · rw [hf _ _ _ (by omega), List.getElem?_eq_none (by omega),
          List.getElem?_eq_none (by rw [List.length_append, List.length_singleton]; omega)]
        rfl

section

variable {items items' items'' : List IceCheckPair}

/-- Every pair keeps its transaction ID, or has none. -/
def KeepsIds (items items' : List IceCheckPair) : Prop :=
  ∀ (i : Nat) (pair' : IceCheckPair), items'[i]? = some pair' →
    pair'.lastTransactionIdValid = true →
      ∃ pair : IceCheckPair, items[i]? = some pair ∧ pair.lastTransactionIdValid = true ∧
        pair'.lastTransactionId = pair.lastTransactionId

theorem KeepsIds.refl (items : List IceCheckPair) : KeepsIds items items :=
  fun _ pair' h hvalid => ⟨pair', h, hvalid, rfl⟩

theorem KeepsIds.trans (hfirst : KeepsIds items items') (hsecond : KeepsIds items' items'') :
    KeepsIds items items'' := by
  intro i pair'' h'' hvalid''
  obtain ⟨pair', h', hvalid', hid'⟩ := hsecond i pair'' h'' hvalid''
  obtain ⟨pair, h, hvalid, hid⟩ := hfirst i pair' h' hvalid'
  exact ⟨pair, h, hvalid, hid'.trans hid⟩

theorem KeepsIds.map {f : IceCheckPair → IceCheckPair}
    (hvalid : ∀ pair, (f pair).lastTransactionIdValid = pair.lastTransactionIdValid)
    (hid : ∀ pair, (f pair).lastTransactionId = pair.lastTransactionId)
    (items : List IceCheckPair) : KeepsIds items (items.map f) := by
  intro i pair' h hv
  rw [List.getElem?_map, Option.map_eq_some_iff] at h
  obtain ⟨pair, hpair, rfl⟩ := h
  exact ⟨pair, hpair, hvalid pair ▸ hv, hid pair⟩

theorem KeepsIds.append (items : List IceCheckPair) {added : List IceCheckPair}
    (h : ∀ pair ∈ added, pair.lastTransactionIdValid = false) :
    KeepsIds items (items ++ added) := by
  intro i pair' hpair' hvalid
  rcases Nat.lt_or_ge i items.length with hlt | hge
  · rw [List.getElem?_append_left hlt] at hpair'
    exact ⟨pair', hpair', hvalid, rfl⟩
  · rw [List.getElem?_append_right hge] at hpair'
    rw [h pair' (List.mem_of_getElem? hpair')] at hvalid
    cases hvalid

theorem keepsIds_markFirst (transactionId : List UInt8) (items : List IceCheckPair) :
    KeepsIds items (markFirst transactionId items) := by
  intro i pair' h hvalid
  rw [markFirst_getElem?, Option.map_eq_some_iff] at h
  obtain ⟨pair, hpair, rfl⟩ := h
  refine ⟨pair, hpair, ?_⟩
  split at hvalid
  · next hfirst =>
    rw [if_pos hfirst]
    exact ⟨hvalid, rfl⟩
  · next hother =>
    rw [if_neg hother]
    exact ⟨hvalid, rfl⟩

end

theorem iceAddCheckPairs_items (ice : IceSession) (pairs : List (Nat × Nat)) :
    ∃ added, (iceAddCheckPairs ice pairs).checkPairs.items = ice.checkPairs.items ++ added ∧
      ∀ pair ∈ added, pair.lastTransactionIdValid = false ∧ pair.succeeded = false := by
  simp only [iceAddCheckPairs]
  generalize ice.checkPairs = checkPairs
  induction pairs generalizing checkPairs with
  | nil => exact ⟨[], by simp⟩
  | cons pair pairs ih =>
      rw [List.foldl_cons]
      cases hpush : checkPairs.push? (IceCheckPair.fresh pair.1 pair.2) with
      | none => exact ih checkPairs
      | some pushed =>
          obtain ⟨added, hitems, hadded⟩ := ih pushed
          refine ⟨IceCheckPair.fresh pair.1 pair.2 :: added, ?_, ?_⟩
          · rw [Option.getD_some, hitems, Slots.push?_items hpush, List.append_assoc]
            rfl
          · intro other hother
            rcases List.mem_cons.mp hother with rfl | hother
            · exact ⟨rfl, rfl⟩
            · exact hadded other hother

theorem iceAddReflexiveCandidate_items (peer : IcePeer) (ice : IceSession) (mapped : MappedAddress) :
    ∃ added, (iceAddReflexiveCandidate peer ice mapped).1.checkPairs.items =
        ice.checkPairs.items ++ added ∧
      ∀ pair ∈ added, pair.lastTransactionIdValid = false ∧ pair.succeeded = false := by
  simp only [iceAddReflexiveCandidate]
  split
  · exact ⟨[], by simp⟩
  · exact iceAddCheckPairs_items _ _

theorem iceAddReflexiveCandidate_checksOf (peer : IcePeer) (ice : IceSession)
    (mapped : MappedAddress) (i : Nat) :
    checksOf i (iceAddReflexiveCandidate peer ice mapped).2 = [] := by
  simp only [iceAddReflexiveCandidate]
  split
  · rfl
  · dsimp only
    split <;> rfl

/-- A binding response: what `ice_process_packet` tests before it looks for the
pair. -/
structure IsBindingResponse (datagram : Datagram) : Prop where
  len_ge : 8 ≤ datagram.bytes.length
  magic : stunRead32 datagram.byteAt 4 = stunMagicCookie
  type : stunRead16 datagram.byteAt 0 = stunBindingResponse

/-- The pairs after a binding response: one may be marked, and new ones may follow. -/
theorem iceProcessPacket_response (crypto : Crypto) (peer : IcePeer) (ice : IceSession)
    {datagram : Datagram} (h : IsBindingResponse datagram) :
    ∃ added, (iceProcessPacket crypto peer ice datagram).2.1.checkPairs.items =
        (iceMarkResponse ice (transactionIdAt datagram.byteAt)).checkPairs.items ++ added ∧
      ∀ pair ∈ added, pair.lastTransactionIdValid = false ∧ pair.succeeded = false := by
  rw [iceProcessPacket, if_neg (Nat.not_lt.mpr h.len_ge), if_neg (not_not.mpr h.magic)]
  simp only [h.type, if_neg (by decide : stunBindingResponse ≠ stunBindingRequest), if_true]
  split
  · split
    · exact iceAddReflexiveCandidate_items _ _ _
    · exact ⟨[], by simp⟩
  · exact ⟨[], by simp⟩

theorem keepsIds_iceMarkResponse (ice : IceSession) (transactionId : List UInt8) :
    KeepsIds ice.checkPairs.items (iceMarkResponse ice transactionId).checkPairs.items := by
  rw [iceMarkResponse]
  split
  · exact .refl _
  · exact keepsIds_markFirst _ _

theorem keepsIds_iceMarkSource (ice : IceSession) (source : SockAddr) :
    KeepsIds ice.checkPairs.items (iceMarkSource ice source).checkPairs.items := by
  apply KeepsIds.map
  · intro pair
    split <;> rfl
  · intro pair
    split <;> rfl

theorem iceProcessPacket_keepsIds (crypto : Crypto) (peer : IcePeer) (ice : IceSession)
    (datagram : Datagram) :
    KeepsIds ice.checkPairs.items
        (iceProcessPacket crypto peer ice datagram).2.1.checkPairs.items ∧
      ∀ i, checksOf i (iceProcessPacket crypto peer ice datagram).2.2 = [] := by
  rw [iceProcessPacket]
  split
  · exact ⟨.refl _, fun _ => rfl⟩
  · split
    · exact ⟨.refl _, fun _ => rfl⟩
    · dsimp only
      split
      · exact ⟨keepsIds_iceMarkSource _ _, fun _ => rfl⟩
      · have hmark : KeepsIds ice.checkPairs.items
            (if stunRead16 datagram.byteAt 0 = stunBindingResponse then
              iceMarkResponse ice (transactionIdAt datagram.byteAt) else ice).checkPairs.items := by
          split
          · exact keepsIds_iceMarkResponse _ _
          · exact .refl _
        split
        · split
          · obtain ⟨added, hitems, hadded⟩ := iceAddReflexiveCandidate_items peer _ _
            constructor
            · dsimp only
              rw [hitems]
              exact hmark.trans (.append _ fun pair hpair => (hadded pair hpair).1)
            · intro i
              exact iceAddReflexiveCandidate_checksOf _ _ _ _
          · exact ⟨hmark, fun _ => rfl⟩
        · exact ⟨hmark, fun _ => rfl⟩

/-- Gathering is about the local side. -/
structure KeepsRemoteSide (ice ice' : IceSession) : Prop where
  checkPairs : ice'.checkPairs = ice.checkPairs
  remoteCandidates : ice'.remoteCandidates = ice.remoteCandidates

theorem KeepsRemoteSide.trans {ice ice' ice'' : IceSession} (hfirst : KeepsRemoteSide ice ice')
    (hsecond : KeepsRemoteSide ice' ice'') : KeepsRemoteSide ice ice'' :=
  ⟨hsecond.checkPairs.trans hfirst.checkPairs,
    hsecond.remoteCandidates.trans hfirst.remoteCandidates⟩

theorem iceAddLocalCandidate_keeps (ice : IceSession) (ip : List UInt8) (port : UInt16)
    (priority : UInt32) : KeepsRemoteSide ice (iceAddLocalCandidate ice ip port priority) := by
  rw [iceAddLocalCandidate]
  split
  · exact ⟨rfl, rfl⟩
  · split <;> exact ⟨rfl, rfl⟩

/-- An IP text that gathering stores as it is: no cutting, no NUL. -/
def StoredWhole (ip : List UInt8) : Prop :=
  (CStr.strncpy ip : CStr 64).bytes = ip

/-- What adding host candidates keeps, gathering keeps, if it says nothing about the
fields that gathering sets. -/
theorem iceStartGathering_induct {P : IceSession → Prop}
    (hadd : ∀ ice ip port priority, StoredWhole ip → P ice →
      P (iceAddLocalCandidate ice ip port priority))
    (hset : ∀ ice state socket complete transactionId valid, P ice →
      P { ice with
          state := state
          socket := socket
          gatheringComplete := complete
          stunServerTransactionId := transactionId
          stunServerTransactionIdValid := valid })
    (env : GatheringEnv) (ice : IceSession) (stunUrl : Option (List UInt8)) (h : P ice) :
    P (iceStartGathering env ice stunUrl).2.1 := by
  have hfold : ∀ (interfaces : List UInt32) (ice : IceSession), P ice →
      P (interfaces.foldl (fun ice addr =>
        iceAddLocalCandidate ice (inetNtop addr) env.localPort
          (icePriorityHostMinus (ice.localCandidates.count * 10).toUInt32)) ice) := by
    intro interfaces
    induction interfaces with
    | nil => exact fun _ => id
    | cons addr interfaces ih =>
        intro ice hice
        exact ih _ (hadd _ _ _ _ (strncpy_inetNtop addr) hice)
  have hdefault : ∀ ice : IceSession, P ice →
      P (if ice.localCandidates.count = 0 then
        iceAddLocalCandidate ice (ascii "127.0.0.1") env.localPort icePriorityHost
      else ice) := by
    intro ice hice
    split
    · have hloopback : StoredWhole (ascii "127.0.0.1") := by
        rw [StoredWhole]
        decide
      exact hadd _ _ _ _ hloopback hice
    · exact hice
  have hserver : ∀ (ice : IceSession) (host : List UInt8) (port : UInt16), P ice →
      P (stunSendBindingRequest env ice host port).1 := by
    intro ice host port hice
    rw [stunSendBindingRequest]
    split <;> exact hset ice ice.state ice.socket ice.gatheringComplete _ _ hice
  have hfailed : ∀ ice : IceSession, P ice →
      P { ice with state := 2, gatheringComplete := true } := fun ice hice =>
    hset ice 2 ice.socket true ice.stunServerTransactionId ice.stunServerTransactionIdValid hice
  rw [iceStartGathering]
  split
  · exact hfailed ice h
  · next sock _ =>
    split
    · exact hfailed ice h
    · have hlocal := hdefault _ (hfold env.interfaces { ice with socket := some sock }
        (hset ice ice.state (some sock) ice.gatheringComplete ice.stunServerTransactionId
          ice.stunServerTransactionIdValid h))
      dsimp only
      split
      · exact hfailed _ hlocal
      · exact hfailed _ (hserver _ _ _ hlocal)

theorem iceStartGathering_checksOf (env : GatheringEnv) (ice : IceSession)
    (stunUrl : Option (List UInt8)) (i : Nat) :
    checksOf i (iceStartGathering env ice stunUrl).2.2 = [] := by
  rw [iceStartGathering]
  split
  · rfl
  · split
    · rfl
    · dsimp only
      split
      · rfl
      · rw [stunSendBindingRequest]
        split <;> rfl

theorem iceStartGathering_keeps (env : GatheringEnv) (ice : IceSession)
    (stunUrl : Option (List UInt8)) :
    KeepsRemoteSide ice (iceStartGathering env ice stunUrl).2.1 := by
  refine iceStartGathering_induct (P := KeepsRemoteSide ice) ?_ ?_ env ice stunUrl ⟨rfl, rfl⟩
  · exact fun _ _ _ _ _ hice => hice.trans (iceAddLocalCandidate_keeps ..)
  · exact fun _ _ _ _ _ _ hice => ⟨hice.checkPairs, hice.remoteCandidates⟩

theorem iceAddRemoteCandidate_keepsIds (ice : IceSession) (candidate : SdpCandidate) :
    KeepsIds ice.checkPairs.items
      (iceAddRemoteCandidate ice candidate).2.checkPairs.items := by
  rw [iceAddRemoteCandidate]
  split
  · exact .refl _
  · split
    · exact .refl _
    · split
      · exact .refl _
      · obtain ⟨added, hitems, hadded⟩ := iceAddCheckPairs_items _ _
        dsimp only
        rw [hitems]
        exact .append _ fun pair hpair => (hadded pair hpair).1

theorem iceSelectPair_checkPairs (ice : IceSession) :
    (iceSelectPair ice).checkPairs = ice.checkPairs := by
  rw [iceSelectPair]
  split
  · rfl
  · split <;> rfl

/-- The transaction ID survives the attributes that are added behind it. -/
theorem messageTransactionId_finalize {crypto : Crypto} {message password final : List UInt8}
    {bufSize : Nat} (hlen : 20 ≤ message.length)
    (h : stunFinalizeMessage crypto message bufSize password = .ok final) :
    messageTransactionId final = messageTransactionId message := by
  rw [stunFinalizeMessage] at h
  split at h
  · cases h
  · cases h
    rw [messageTransactionId, List.drop_append_of_le_length, stunSetLength_drop _ _ (by omega),
      List.append_assoc, List.append_assoc, List.drop_append_of_le_length (by omega),
      List.append_assoc, List.take_append_of_le_length, messageTransactionId]
    · rw [List.length_drop]
      omega
    · simp only [List.length_append]
      omega
    · rw [stunSetLength_length (by simp only [List.length_append]; omega)]
      simp only [List.length_append]
      omega

theorem connectivityCheck_length (peer : IcePeer) (clock : UInt64) (priority : UInt32) :
    20 ≤ (connectivityCheck peer clock priority).length ∧
      (connectivityCheck peer clock priority).length ≤ 174 := by
  have hremote := peer.remoteUfrag.length_le
  have hlocal := peer.localUfrag.length_le
  have hcolon : (ascii ":").length = 1 := rfl
  simp only [connectivityCheck, stunHeader, stunAttrHeader, List.length_append, write16_length,
    write32_length, write64_length, stunTransactionId_length, List.length_replicate, hcolon]
  omega

theorem messageTransactionId_connectivityCheck (peer : IcePeer) (clock : UInt64)
    (priority : UInt32) :
    messageTransactionId (connectivityCheck peer clock priority) = stunTransactionId clock := by
  simp only [messageTransactionId, connectivityCheck, stunHeader, List.append_assoc]
  rfl

theorem stunFinalizeMessage_connectivityCheck (crypto : Crypto) (peer : IcePeer) (clock : UInt64)
    (priority : UInt32) (password : List UInt8) :
    ∃ final, stunFinalizeMessage crypto (connectivityCheck peer clock priority) 512 password =
      .ok final ∧ messageTransactionId final = stunTransactionId clock := by
  obtain ⟨hge, hle⟩ := connectivityCheck_length peer clock priority
  obtain ⟨final, hfinal⟩ : ∃ final,
      stunFinalizeMessage crypto (connectivityCheck peer clock priority) 512 password =
        .ok final := by
    rw [stunFinalizeMessage, if_neg (by omega)]
    exact ⟨_, rfl⟩
  refine ⟨final, hfinal, ?_⟩
  rw [messageTransactionId_finalize hge hfinal, messageTransactionId_connectivityCheck]

theorem iceCheckPair_cases (crypto : Crypto) (peer : IcePeer) (ice : IceSession)
    (now clock : UInt64) (pair : IceCheckPair) :
    iceCheckPair crypto peer ice now clock pair = (pair, none) ∨
      ∃ dest message, iceCheckPair crypto peer ice now clock pair =
          ({ pair with
              lastPingMs := now
              lastTransactionId := stunTransactionId clock
              lastTransactionIdValid := true }, some (dest, message)) ∧
        messageTransactionId message = stunTransactionId clock := by
  rw [iceCheckPair]
  split
  · obtain ⟨final, hfinal, hid⟩ := stunFinalizeMessage_connectivityCheck crypto peer clock
      (ice.localOf pair).priority peer.remotePwd.bytes
    right
    simp only [hfinal]
    exact ⟨_, _, rfl, hid⟩
  · exact .inl rfl

theorem checksRecorded_of_keepsIds {s s' : LoggedSession} {outputs : List IceOutput}
    (hs : ChecksRecorded s) (hsent : s'.sent = s.sent ++ outputs)
    (hpairs : KeepsIds s.ice.checkPairs.items s'.ice.checkPairs.items)
    (hchecks : ∀ i, checksOf i outputs = []) : ChecksRecorded s' := by
  intro i pair' hpair' hvalid'
  obtain ⟨pair, hpair, hvalid, hid⟩ := hpairs i pair' hpair' hvalid'
  rw [LastCheckCarries, hsent, checksOf_append, hchecks, List.append_nil, hid]
  exact hs i pair hpair hvalid

theorem checksRecorded_iceSendChecks (crypto : Crypto) (peer : IcePeer) {ice : IceSession}
    {sent : List IceOutput} (now : UInt64) (clock : Nat → UInt64)
    (hs : ChecksRecorded ⟨ice, sent⟩) :
    ChecksRecorded ⟨(iceSendChecks crypto peer ice now clock).1,
      sent ++ (iceSendChecks crypto peer ice now clock).2⟩ := by
  intro i pair' hpair' hvalid'
  change (ice.checkPairs.items.mapIdx fun i pair =>
    (iceCheckPair crypto peer ice now (clock i) pair).1)[i]? = some pair' at hpair'
  rw [List.getElem?_mapIdx, Option.map_eq_some_iff] at hpair'
  obtain ⟨pair, hpair, rfl⟩ := hpair'
  rw [LastCheckCarries, checksOf_append]
  simp only [iceSendChecks]
  rw [checksOf_mapIdx, hpair, Option.map_some, Option.getD_some]
  · rcases iceCheckPair_cases crypto peer ice now (clock i) pair with hsame | ⟨dest, message, hsent, hid⟩
    · rw [hsame] at hvalid' ⊢
      simp only [Option.map_none, Option.toList_none]
      change (checksOf i sent ++ []).getLast?.map messageTransactionId = _
      rw [List.append_nil]
      exact hs i pair hpair hvalid'
    · rw [hsent]
      simp [checksOf, hid]
  · intro j item k hjk
    rcases iceCheckPair_cases crypto peer ice now (clock j) item with hsame | ⟨dest, message, hsent, -⟩
    · rw [hsame]
      rfl
    · rw [hsent]
      simp [checksOf, hjk]

theorem checksRecorded_step {crypto : Crypto} {s s' : LoggedSession} {call : IceCall}
    (hs : ChecksRecorded s) (hstep : LoggedStep crypto s call s') : ChecksRecorded s' := by
  obtain ⟨hice, hsent⟩ := hstep
  cases call with
  | startGathering env stunUrl =>
      have hkeeps := iceStartGathering_keeps env s.ice stunUrl
      apply checksRecorded_of_keepsIds hs hsent _ (iceStartGathering_checksOf env s.ice stunUrl)
      rw [hice, iceCall, hkeeps.checkPairs]
      exact .refl _
  | addRemoteCandidate candidate =>
      apply checksRecorded_of_keepsIds hs hsent _ fun _ => rfl
      rw [hice]
      exact iceAddRemoteCandidate_keepsIds s.ice candidate
  | processPacket peer datagram =>
      obtain ⟨hpairs, hchecks⟩ := iceProcessPacket_keepsIds crypto peer s.ice datagram
      apply checksRecorded_of_keepsIds hs hsent _ hchecks
      rw [hice]
      exact hpairs
  | checkConnectivity peer now clock =>
      rw [iceCall, iceCheckConnectivity] at hice hsent
      split at hice
      · next hstate =>
          rw [if_pos hstate] at hsent
          apply checksRecorded_of_keepsIds hs hsent _ fun _ => rfl
          rw [hice]
          exact .refl _
      · next hstate =>
          rw [if_neg hstate] at hsent
          have hchecking : ChecksRecorded
              ⟨if s.ice.state = 2 then { s.ice with state := 3 } else s.ice, s.sent⟩ := by
            intro i pair hpair
            apply hs i pair
            revert hpair
            dsimp only
            split <;> exact id
          have hrecorded := checksRecorded_iceSendChecks crypto peer now clock hchecking
          intro i pair hpair
          rw [hice] at hpair
          rw [hsent]
          rw [iceSelectPair_checkPairs] at hpair
          exact hrecorded i pair hpair

theorem checksRecorded_run {crypto : Crypto} {calls : List IceCall} {s : LoggedSession}
    (hrun : Run (LoggedStep crypto) .start calls s) : ChecksRecorded s := by
  refine hrun.invariant (I := ChecksRecorded) (fun _ _ _ => checksRecorded_step) ?_
  intro i pair hpair
  cases hpair

/-- A pair is marked because it is the first one with the transaction ID. -/
theorem find?_of_markFirst {transactionId : List UInt8} {items : List IceCheckPair} {i : Nat}
    {pair pair' : IceCheckPair} (hpair : items[i]? = some pair)
    (hpair' : (markFirst transactionId items)[i]? = some pair') (hbefore : pair.succeeded = false)
    (hafter : pair'.succeeded = true) : items.find? (·.matches transactionId) = some pair := by
  rw [markFirst_getElem?, hpair, Option.map_some] at hpair'
  obtain rfl := Option.some.inj hpair'
  have hfirst : items.findIdx? (·.matches transactionId) = some i := by
    by_contra hother
    rw [if_neg hother, hbefore] at hafter
    cases hafter
  rw [List.find?_eq_bind_findIdx?_getElem?, hfirst, Option.bind_some, hpair]

theorem markFirst_of_find? {transactionId : List UInt8} {items : List IceCheckPair}
    {pair : IceCheckPair} (h : items.find? (·.matches transactionId) = some pair) :
    ∃ i : Nat, items[i]? = some pair ∧
      (markFirst transactionId items)[i]? = some { pair with succeeded := true } := by
  rw [List.find?_eq_bind_findIdx?_getElem?, Option.bind_eq_some_iff] at h
  obtain ⟨i, hfirst, hpair⟩ := h
  refine ⟨i, hpair, ?_⟩
  rw [markFirst_getElem?, hpair, Option.map_some, if_pos hfirst]

/-- Every pair that the step marks is the one whose last check is answered, from
where that check was sent. -/
def MarksOnlyResponder (s : LoggedSession) (datagram : Datagram) (ice' : IceSession) : Prop :=
  ∀ (i : Nat) (pair pair' : IceCheckPair), s.ice.checkPairs.items[i]? = some pair →
    ice'.checkPairs.items[i]? = some pair' → pair.succeeded = false → pair'.succeeded = true →
      LastCheckCarries s.sent i (transactionIdAt datagram.byteAt) ∧
        s.ice.isFrom pair datagram.source = true

/-- The first pair whose transaction ID the response carries has succeeded before,
or has the source of the response as its remote candidate. -/
def FirstMatchIsResponder (ice : IceSession) (datagram : Datagram) : Prop :=
  (ice.stunServerTransactionIdValid = true ∧
      ice.stunServerTransactionId = transactionIdAt datagram.byteAt) ∨
    ∀ pair, ice.checkPairs.items.find? (·.matches (transactionIdAt datagram.byteAt)) = some pair →
      pair.succeeded = true ∨ ice.isFrom pair datagram.source = true

theorem marksOnlyResponder_iff {crypto : Crypto} {calls : List IceCall} {s : LoggedSession}
    (hrun : Run (LoggedStep crypto) .start calls s) (peer : IcePeer) {datagram : Datagram}
    (hresponse : IsBindingResponse datagram) :
    MarksOnlyResponder s datagram (iceProcessPacket crypto peer s.ice datagram).2.1 ↔
      FirstMatchIsResponder s.ice datagram := by
  obtain ⟨added, hitems, -⟩ := iceProcessPacket_response crypto peer s.ice hresponse
  rw [iceMarkResponse] at hitems
  by_cases hserver : s.ice.stunServerTransactionIdValid = true ∧
      s.ice.stunServerTransactionId = transactionIdAt datagram.byteAt
  · -- A response of the STUN server marks nothing.
    refine iff_of_true ?_ (.inl hserver)
    intro i pair pair' hpair hpair' hbefore hafter
    rw [if_pos (by simpa using hserver)] at hitems
    rw [hitems, List.getElem?_append_left (List.getElem?_eq_some_iff.mp hpair).1, hpair] at hpair'
    cases hpair'
    rw [hbefore] at hafter
    cases hafter
  · rw [if_neg (by simpa using hserver)] at hitems
    change _ = markFirst _ s.ice.checkPairs.items ++ added at hitems
    have hplace : ∀ (i : Nat) (pair : IceCheckPair), s.ice.checkPairs.items[i]? = some pair →
        (iceProcessPacket crypto peer s.ice datagram).2.1.checkPairs.items[i]? =
          (markFirst (transactionIdAt datagram.byteAt) s.ice.checkPairs.items)[i]? := by
      intro i pair hpair
      rw [hitems, List.getElem?_append_left]
      rw [markFirst_length]
      exact (List.getElem?_eq_some_iff.mp hpair).1
    constructor
    · intro hmarks
      refine .inr fun pair hfind => ?_
      obtain ⟨i, hi, hi'⟩ := markFirst_of_find? hfind
      cases hbefore : pair.succeeded with
      | true => exact .inl rfl
      | false =>
          exact .inr (hmarks i pair _ hi ((hplace i pair hi).trans hi') hbefore rfl).2
    · rintro (hfirst | hfirst)
      · exact absurd hfirst hserver
      · intro i pair pair' hpair hpair' hbefore hafter
        rw [hplace i pair hpair] at hpair'
        have hfind := find?_of_markFirst hpair hpair' hbefore hafter
        have hmatch := List.find?_some hfind
        rw [IceCheckPair.matches, Bool.and_eq_true, beq_iff_eq] at hmatch
        constructor
        · rw [← hmatch.2]
          exact checksRecorded_run hrun i pair hpair hmatch.1
        · rcases hfirst pair hfind with hsucceeded | hfrom
          · rw [hbefore] at hsucceeded
            cases hsucceeded
          · exact hfrom

def afterCalls (crypto : Crypto) (calls : List IceCall) (s : LoggedSession) : LoggedSession :=
  calls.foldl (fun s call => ⟨(iceCall crypto s.ice call).1, s.sent ++ (iceCall crypto s.ice call).2⟩) s

theorem run_afterCalls (crypto : Crypto) (calls : List IceCall) (s : LoggedSession) :
    Run (LoggedStep crypto) s calls (afterCalls crypto calls s) := by
  induction calls generalizing s with
  | nil => exact .nil s
  | cons call calls ih => exact .cons ⟨rfl, rfl⟩ (ih _)

def samplePeer : IcePeer where
  localUfrag := .empty
  localPwd := .empty
  remoteUfrag := .empty
  remotePwd := .empty
  isInitiator := true
  onIceCandidate := false

def sampleRemote (ip : String) : SdpCandidate where
  foundation := .empty
  priority := 1
  ip := CStr.strncpy (ascii ip)
  port := 5000
  type := CStr.strncpy (ascii "host")
  protocol := CStr.strncpy (ascii "udp")
  isIpv6 := false

/-- One host candidate, two remote ones, and a tick in which the clock stands
still. -/
def sampleCalls : List IceCall :=
  [.startGathering ⟨some 3, true, 4000, [0xC0A80001], 1, fun _ _ => none⟩ none,
    .addRemoteCandidate (sampleRemote "10.0.0.1"), .addRemoteCandidate (sampleRemote "10.0.0.2"),
    .checkConnectivity samplePeer 1 fun _ => 1]

/-- The answer to a check of that tick. -/
def sampleResponse (addr : UInt32) : Datagram where
  bytes := stunHeader stunBindingResponse (stunTransactionId 1)
  stale _ := 0
  source := ⟨addr, 5000⟩

theorem sampleResponse_isBindingResponse (addr : UInt32) :
    IsBindingResponse (sampleResponse addr) := by
  have hbytes : (sampleResponse addr).byteAt = (sampleResponse 0).byteAt := rfl
  refine ⟨Nat.le_of_ble_eq_true rfl, ?_, ?_⟩
  · rw [hbytes]
    decide
  · rw [hbytes]
    decide

def samplePair (remoteIdx : Nat) : IceCheckPair :=
  ⟨0, remoteIdx, false, 1, stunTransactionId 1, true⟩

theorem sampleCalls_pairs :
    (afterCalls toyCrypto sampleCalls .start).ice.checkPairs.items =
      [samplePair 0, samplePair 1] := by
  decide +kernel

theorem marksOnlyResponder_sampleResponse :
    MarksOnlyResponder (afterCalls toyCrypto sampleCalls .start) (sampleResponse 0x0A000001)
      (iceProcessPacket toyCrypto samplePeer (afterCalls toyCrypto sampleCalls .start).ice
        (sampleResponse 0x0A000001)).2.1 := by
  refine (marksOnlyResponder_iff (run_afterCalls toyCrypto sampleCalls .start) samplePeer
    (sampleResponse_isBindingResponse _)).mpr (.inr ?_)
  intro pair hfind
  rw [sampleCalls_pairs] at hfind
  cases hfind
  right
  decide +kernel

/-- Both pairs are checked with one transaction ID, so the answer of the second
remote candidate marks the pair of the first. -/
theorem marksOnlyResponder_fails :
    ∃ calls s datagram, Run (LoggedStep toyCrypto) .start calls s ∧ IsBindingResponse datagram ∧
      ¬ MarksOnlyResponder s datagram (iceProcessPacket toyCrypto samplePeer s.ice datagram).2.1 := by
  refine ⟨sampleCalls, _, sampleResponse 0x0A000002, run_afterCalls toyCrypto sampleCalls .start,
    sampleResponse_isBindingResponse _, ?_⟩
  intro hmarks
  have hbefore : (afterCalls toyCrypto sampleCalls .start).ice.checkPairs.items[0]? =
      some (samplePair 0) := by
    rw [sampleCalls_pairs]
    rfl
  have hafter : (iceProcessPacket toyCrypto samplePeer (afterCalls toyCrypto sampleCalls .start).ice
      (sampleResponse 0x0A000002)).2.1.checkPairs.items[0]? =
        some { samplePair 0 with succeeded := true } := by
    decide +kernel
  obtain ⟨-, hfrom⟩ := hmarks 0 _ _ hbefore hafter rfl rfl
  revert hfrom
  decide +kernel

end TinyRtc.IceMatching
