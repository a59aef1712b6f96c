import TinyRtc.CheckAddresses
import TinyRtc.DottedQuads
import TinyRtc.SelectedPair

namespace TinyRtc.IceCallEffects

open TinyRtc.BigEndian
open TinyRtc.BoundedReads
open TinyRtc.CheckAddresses
open TinyRtc.DottedQuads
open TinyRtc.Ice
open TinyRtc.IceEffects
open TinyRtc.IceMatching
open TinyRtc.Inet
open TinyRtc.Sdp
open TinyRtc.SelectedPair
open TinyRtc.SlotArray
open TinyRtc.Srtp
open TinyRtc.Stun
open TinyRtc.StunMessages
open TinyRtc.TypeLengthValue

/-- A whole message of a type. -/
def IsMessage (type : UInt16) (message : List UInt8) : Prop :=
  ∃ transactionId attrs, transactionId.length = 12 ∧ message = stunMessage type transactionId attrs

theorem messageTransactionId_stunMessage (type : UInt16) {transactionId : List UInt8}
    (hid : transactionId.length = 12) (attrs : List Attribute) :
    messageTransactionId (stunMessage type transactionId attrs) = transactionId := by
  have hfront : (write16 type ++ write16 (encode 4 attrs).length.toUInt16 ++
      write32 stunMagicCookie).length = 8 := rfl
  rw [messageTransactionId, stunMessage, List.append_assoc _ transactionId, List.drop_left' hfront,
    List.take_left' hid]

/-- What a datagram that brings a whole message reads as. -/
structure Reads (datagram : Datagram) (type : UInt16) : Prop where
  length_ge : stunHeaderLen ≤ datagram.bytes.length
  magic : stunRead32 datagram.byteAt 4 = stunMagicCookie
  type_eq : stunRead16 datagram.byteAt 0 = type
  transactionId_eq : transactionIdAt datagram.byteAt = messageTransactionId datagram.bytes

theorem byteAt_beginsWith (datagram : Datagram) : BeginsWith datagram.bytes datagram.byteAt := by
  intro i hi
  rw [Datagram.byteAt, List.getElem?_eq_getElem hi, Option.getD_some]

theorem IsMessage.reads {type : UInt16} {datagram : Datagram}
    (h : IsMessage type datagram.bytes) : Reads datagram type := by
  obtain ⟨transactionId, attrs, hid, hbytes⟩ := h
  have hwhole : BeginsWith (stunMessage type transactionId attrs)
      fun k => datagram.byteAt (0 + k) := by
    have hbegins := byteAt_beginsWith datagram
    rw [hbytes] at hbegins
    simpa only [Nat.zero_add] using hbegins
  obtain ⟨hheader, -⟩ := beginsWith_append.mp hwhole
  obtain ⟨hheader, htransaction⟩ := beginsWith_append.mp hheader
  obtain ⟨hheader, hcookie⟩ := beginsWith_append.mp hheader
  obtain ⟨htype, -⟩ := beginsWith_append.mp hheader
  refine ⟨?_, read32_of_beginsWith hcookie, read16_of_beginsWith htype, ?_⟩
  · rw [hbytes, stunMessage_length _ hid, stunHeaderLen]
    omega
  · rw [hbytes, messageTransactionId_stunMessage type hid, transactionIdAt]
    refine List.ext_getElem (by simp [hid]) fun i hi hi' => ?_
    have hbyte := htransaction i hi'
    simp only [List.length_append, write16_length, write32_length] at hbyte
    rw [← hbyte]
    simp

theorem Reads.isBindingResponse {datagram : Datagram} (h : Reads datagram stunBindingResponse) :
    IsBindingResponse datagram :=
  ⟨(by decide : 8 ≤ stunHeaderLen).trans h.length_ge, h.magic, h.type_eq⟩

theorem isMessage_stunHeader (clock : UInt64) :
    IsMessage stunBindingRequest (stunHeader stunBindingRequest (stunTransactionId clock)) :=
  ⟨stunTransactionId clock, [], stunTransactionId_length clock, (List.append_nil _).symm⟩

theorem isMessage_check {crypto : Crypto} {peer : IcePeer} {clock : UInt64} {priority : UInt32}
    {password message : List UInt8}
    (h : stunFinalizeMessage crypto (connectivityCheck peer clock priority) 512 password =
      .ok message) :
    IsMessage stunBindingRequest message := by
  rw [stunFinalizeMessage_check] at h
  cases h
  exact ⟨_, _, stunTransactionId_length clock, rfl⟩

theorem isMessage_response (crypto : Crypto) (datagram : Datagram) (password : List UInt8) :
    IsMessage stunBindingResponse (stunCreateBindingResponse crypto 512
        (transactionIdAt datagram.byteAt) (some datagram.source) password) ∧
      messageTransactionId (stunCreateBindingResponse crypto 512 (transactionIdAt datagram.byteAt)
        (some datagram.source) password) = transactionIdAt datagram.byteAt := by
  have hid : (transactionIdAt datagram.byteAt).length = 12 := rfl
  rw [stunCreateBindingResponse_eq crypto (by decide) hid]
  exact ⟨⟨_, _, hid, rfl⟩, messageTransactionId_stunMessage _ hid _⟩

/-- Where the checks of a pair go. -/
def pairAddress (ice : IceSession) (pair : IceCheckPair) : SockAddr :=
  ⟨(inetPton (ice.remoteOf pair).ip.bytes).getD 0, (ice.remoteOf pair).port⟩

theorem pairAddress_of_isFrom {ice : IceSession} {pair : IceCheckPair} {source : SockAddr}
    (h : ice.isFrom pair source = true) : pairAddress ice pair = source := by
  rw [IceSession.isFrom, Bool.and_eq_true, beq_iff_eq, beq_iff_eq] at h
  rw [pairAddress, h.1, h.2, inetPton_inetNtop, Option.getD_some]

theorem iceProcessPacket_request (crypto : Crypto) (peer : IcePeer) (ice : IceSession)
    {datagram : Datagram} (h : Reads datagram stunBindingRequest) :
    (iceProcessPacket crypto peer ice datagram).2 =
      (iceMarkSource ice datagram.source,
        [.bindingResponse datagram.source (stunCreateBindingResponse crypto 512
          (transactionIdAt datagram.byteAt) (some datagram.source) peer.localPwd.bytes)]) := by
  have hlength : ¬ datagram.bytes.length < 8 :=
    Nat.not_lt.mpr ((by decide : 8 ≤ stunHeaderLen).trans h.length_ge)
  rw [iceProcessPacket, if_neg hlength, if_neg (not_not.mpr h.magic)]
  dsimp only
  rw [if_pos h.type_eq]

theorem iceProcessPacket_unrelated (crypto : Crypto) (peer : IcePeer) (ice : IceSession)
    {datagram : Datagram} (hresponse : ¬ IsBindingResponse datagram)
    (hrequest : datagram.bytes.length < 8 ∨ stunRead32 datagram.byteAt 4 ≠ stunMagicCookie ∨
      stunRead16 datagram.byteAt 0 ≠ stunBindingRequest) :
    (iceProcessPacket crypto peer ice datagram).2 = (ice, []) := by
  rcases iceProcessPacket_other crypto peer ice hresponse with hsame | ⟨message, hmarked⟩
  · exact hsame
  · rw [iceProcessPacket] at hmarked ⊢
    split
    · rfl
    · next hlength =>
      split
      · rfl
      · next hmagic =>
        have htype : stunRead16 datagram.byteAt 0 ≠ stunBindingRequest :=
          (hrequest.resolve_left hlength).resolve_left (not_not.mpr (not_not.mp hmagic))
        rw [if_neg hlength, if_neg hmagic] at hmarked
        dsimp only at hmarked
        rw [if_neg htype, if_neg fun hresponseType => hresponse
          ⟨Nat.not_lt.mp hlength, not_not.mp hmagic, hresponseType⟩] at hmarked
        split at hmarked
        · next hprocess => exact absurd (stunProcessResponse_ok hprocess) hresponse
        · exact absurd (congrArg Prod.snd hmarked) (List.cons_ne_nil _ _).symm

/-- What a call that checks nothing does to the pairs: old ones stay where they are, and have
succeeded only if they had before or are marked now; new ones are fresh. -/
structure Keeps (Marked : IceCheckPair → Prop) (ice ice' : IceSession) : Prop where
  serverValid : ice'.stunServerTransactionIdValid = ice.stunServerTransactionIdValid
  serverId : ice'.stunServerTransactionId = ice.stunServerTransactionId
  length_le : ice.checkPairs.items.length ≤ ice'.checkPairs.items.length
  pairs : ∀ (i : Nat) (pair' : IceCheckPair), ice'.checkPairs.items[i]? = some pair' →
    (ice.checkPairs.items.length ≤ i ∧ pair'.lastTransactionIdValid = false ∧
        pair'.succeeded = false) ∨
      ∃ pair : IceCheckPair, ice.checkPairs.items[i]? = some pair ∧
        pair'.remoteIdx = pair.remoteIdx ∧
        pair'.lastTransactionIdValid = pair.lastTransactionIdValid ∧
        pair'.lastTransactionId = pair.lastTransactionId ∧
        (pair'.succeeded = true → pair.succeeded = true ∨ Marked pair)

section

variable {Marked : IceCheckPair → Prop} {ice ice' ice'' : IceSession}

theorem Keeps.refl (Marked : IceCheckPair → Prop) (ice : IceSession) : Keeps Marked ice ice :=
  ⟨rfl, rfl, Nat.le_refl _, fun _ pair hpair => .inr ⟨pair, hpair, rfl, rfl, rfl, .inl⟩⟩

theorem Keeps.adds (h : Keeps Marked ice ice') {added : List IceCheckPair}
    (hitems : ice''.checkPairs.items = ice'.checkPairs.items ++ added)
    (hadded : ∀ pair ∈ added, pair.lastTransactionIdValid = false ∧ pair.succeeded = false)
    (hvalid : ice''.stunServerTransactionIdValid = ice'.stunServerTransactionIdValid)
    (hid : ice''.stunServerTransactionId = ice'.stunServerTransactionId) :
    Keeps Marked ice ice'' := by
  refine ⟨hvalid.trans h.serverValid, hid.trans h.serverId, ?_, fun i pair' hpair' => ?_⟩
  · rw [hitems, List.length_append]
    exact h.length_le.trans (Nat.le_add_right _ _)
  rw [hitems] at hpair'
  rcases Nat.lt_or_ge i ice'.checkPairs.items.length with hlt | hge
  · rw [List.getElem?_append_left hlt] at hpair'
    exact h.pairs i pair' hpair'
  · rw [List.getElem?_append_right hge] at hpair'
    exact .inl ⟨h.length_le.trans hge, hadded pair' (List.mem_of_getElem? hpair')⟩

theorem keeps_iceMarkSource (ice : IceSession) (source : SockAddr) :
    Keeps (fun pair => ice.isFrom pair source = true) ice (iceMarkSource ice source) := by
  refine ⟨rfl, rfl, (List.length_map _).ge, fun i pair' hpair' => .inr ?_⟩
  simp only [iceMarkSource, Slots.mapItems, List.getElem?_map, Option.map_eq_some_iff] at hpair'
  obtain ⟨pair, hpair, rfl⟩ := hpair'
  refine ⟨pair, hpair, ?_⟩
  split
  · next hfrom => exact ⟨rfl, rfl, rfl, fun _ => .inr hfrom⟩
  · exact ⟨rfl, rfl, rfl, .inl⟩

/-- The pairs that an answer can mark: it is not from the server, and they have its
transaction ID. -/
def Answered (ice : IceSession) (transactionId : List UInt8) (pair : IceCheckPair) : Prop :=
  ¬ (ice.stunServerTransactionIdValid = true ∧ ice.stunServerTransactionId = transactionId) ∧
    pair.lastTransactionIdValid = true ∧ pair.lastTransactionId = transactionId

theorem keeps_iceMarkResponse (ice : IceSession) (transactionId : List UInt8) :
    Keeps (Answered ice transactionId) ice (iceMarkResponse ice transactionId) := by
  rw [iceMarkResponse]
  split
  · exact .refl _ ice
  · next hserver =>
    refine ⟨rfl, rfl, (markFirst_length _ _).ge, fun i pair' hpair' => .inr ?_⟩
    simp only [Slots.mapItems] at hpair'
    rw [markFirst_getElem?, Option.map_eq_some_iff] at hpair'
    obtain ⟨pair, hpair, rfl⟩ := hpair'
    refine ⟨pair, hpair, ?_⟩
    split
    · next hfirst =>
      refine ⟨rfl, rfl, rfl, fun _ => .inr ⟨by simpa using hserver, ?_⟩⟩
      obtain ⟨hi, hmatch, -⟩ := List.findIdx?_eq_some_iff_getElem.mp hfirst
      obtain ⟨-, rfl⟩ := List.getElem?_eq_some_iff.mp hpair
      simpa [IceCheckPair.matches] using hmatch
    · exact ⟨rfl, rfl, rfl, .inl⟩

theorem keeps_iceAddRemoteCandidate (ice : IceSession) (candidate : SdpCandidate) :
    Keeps (fun _ => False) ice (iceAddRemoteCandidate ice candidate).2 := by
  rw [iceAddRemoteCandidate]
  split
  · exact .refl _ ice
  · split
    · exact .refl _ ice
    · split
      · exact .refl _ ice
      · next remoteCandidates hpush =>
        obtain ⟨added, hitems, hadded⟩ := iceAddCheckPairs_items
          { ice with remoteCandidates := remoteCandidates }
          ((List.range ice.localCandidates.count).map fun i => (i, ice.remoteCandidates.count))
        exact (Keeps.refl _ ice).adds hitems hadded rfl rfl

theorem iceAddReflexiveCandidate_server (peer : IcePeer) (ice : IceSession)
    (mapped : MappedAddress) :
    (iceAddReflexiveCandidate peer ice mapped).1.stunServerTransactionIdValid =
        ice.stunServerTransactionIdValid ∧
      (iceAddReflexiveCandidate peer ice mapped).1.stunServerTransactionId =
        ice.stunServerTransactionId := by
  rw [iceAddReflexiveCandidate]
  dsimp only
  split <;> exact ⟨rfl, rfl⟩

theorem keeps_iceProcessPacket_response (crypto : Crypto) (peer : IcePeer) (ice : IceSession)
    {datagram : Datagram} (h : IsBindingResponse datagram) :
    Keeps (Answered ice (transactionIdAt datagram.byteAt)) ice
      (iceProcessPacket crypto peer ice datagram).2.1 := by
  have hmarked := keeps_iceMarkResponse ice (transactionIdAt datagram.byteAt)
  rw [iceProcessPacket_eq_of_response crypto peer ice h]
  split
  · exact hmarked
  · next mapped _ =>
    obtain ⟨added, hitems, hadded⟩ := iceAddReflexiveCandidate_items peer
      (iceMarkResponse ice (transactionIdAt datagram.byteAt)) mapped
    obtain ⟨hvalid, hid⟩ := iceAddReflexiveCandidate_server peer
      (iceMarkResponse ice (transactionIdAt datagram.byteAt)) mapped
    exact hmarked.adds hitems hadded hvalid hid

/-- A call moves no pair to another address. -/
theorem pairAddress_step {crypto : Crypto} {call : IceCall}
    (hgrid : (checkTables ice).PairsInGrid) (hstep : CheckStep crypto ice call ice') {i : Nat}
    {pair pair' : IceCheckPair} (hpair : ice.checkPairs.items[i]? = some pair)
    (hplace : pair'.remoteIdx = pair.remoteIdx) :
    pairAddress ice' pair' = pairAddress ice pair := by
  have hgrow := tablesGrow_tablesStep (tablesStep_checkStep hgrid hstep)
  have hremote : pair.remoteIdx < ice.remoteCandidates.items.length := by
    have hmem : (pair.localIdx, pair.remoteIdx) ∈ pairPlaces ice.checkPairs.items :=
      List.mem_map_of_mem (List.mem_of_getElem? hpair)
    simpa only [checkTables, List.length_map] using hgrid.snd_lt _ hmem
  have haddress := candidateAddress_of_prefix hgrow.remotes hremote
  rw [← hplace] at haddress
  have hsame : candidateAddress (ice'.remoteOf pair') = candidateAddress (ice.remoteOf pair) := by
    rw [IceSession.remoteOf, IceSession.remoteOf, haddress, hplace]
  obtain ⟨hip, hport⟩ := Prod.ext_iff.mp hsame
  have hip : (ice'.remoteOf pair').ip = (ice.remoteOf pair).ip := hip
  have hport : (ice'.remoteOf pair').port = (ice.remoteOf pair).port := hport
  rw [pairAddress, pairAddress, hip, hport]

end

/-- A tick leaves a pair as it was, or sends a check for it and notes its transaction ID. -/
theorem iceCheckConnectivity_pair {crypto : Crypto} {peer : IcePeer} {ice : IceSession}
    {now : UInt64} {clock : Nat → UInt64} {i : Nat} {pair' : IceCheckPair}
    (hpair' : (iceCheckConnectivity crypto peer ice now clock).1.checkPairs.items[i]? =
      some pair') :
    ∃ pair, ice.checkPairs.items[i]? = some pair ∧ pair'.remoteIdx = pair.remoteIdx ∧
      pair'.succeeded = pair.succeeded ∧
      ((pair'.lastTransactionIdValid = pair.lastTransactionIdValid ∧
          pair'.lastTransactionId = pair.lastTransactionId) ∨
        ∃ message, .check i (pairAddress ice pair) message ∈
            (iceCheckConnectivity crypto peer ice now clock).2 ∧
          messageTransactionId message = pair'.lastTransactionId) := by
  rw [iceCheckConnectivity] at hpair' ⊢
  split
  · next hstate =>
    rw [if_pos hstate] at hpair'
    exact ⟨pair', hpair', rfl, rfl, .inl ⟨rfl, rfl⟩⟩
  · next hstate =>
    rw [if_neg hstate] at hpair'
    dsimp only at hpair' ⊢
    rw [iceSelectPair_checkPairs] at hpair'
    have hremotes : ∀ pair, pairAddress
        (if ice.state = 2 then { ice with state := 3 } else ice) pair = pairAddress ice pair := by
      intro pair
      split <;> rfl
    have hitems : (if ice.state = 2 then { ice with state := 3 } else ice).checkPairs =
        ice.checkPairs := by
      split <;> rfl
    generalize (if ice.state = 2 then { ice with state := 3 } else ice) = checking at *
    simp only [iceSendChecks, Slots.mapItems, List.getElem?_mapIdx, Option.map_eq_some_iff] at hpair'
    obtain ⟨pair, hpair, rfl⟩ := hpair'
    refine ⟨pair, hitems ▸ hpair, ?_⟩
    rcases iceCheckPair_cases crypto peer checking now (clock i) pair with
      hsame | ⟨dest, message, hsent, hid⟩
    · rw [hsame]
      exact ⟨rfl, rfl, .inl ⟨rfl, rfl⟩⟩
    · rw [hsent]
      refine ⟨rfl, rfl, .inr ⟨message, ?_, hid⟩⟩
      obtain ⟨hi, rfl⟩ := List.getElem?_eq_some_iff.mp hpair
      have hdest : dest = pairAddress checking checking.checkPairs.items[i] := by
        obtain ⟨sent, hsends⟩ :=
          @iceCheckPair_sends crypto peer checking now (clock i) checking.checkPairs.items[i]
        rw [hsent] at hsends
        dsimp only at hsends
        split at hsends
        · cases hsends
          rfl
        · cases hsends
      rw [← hremotes, ← hdest]
      refine List.mem_flatten.mpr ⟨_, List.mem_mapIdx.mpr ⟨i, hi, rfl⟩, ?_⟩
      dsimp only
      rw [hsent]
      exact List.mem_singleton_self _

theorem iceCheckConnectivity_server (crypto : Crypto) (peer : IcePeer) (ice : IceSession)
    (now : UInt64) (clock : Nat → UInt64) :
    (iceCheckConnectivity crypto peer ice now clock).1.stunServerTransactionIdValid =
        ice.stunServerTransactionIdValid ∧
      (iceCheckConnectivity crypto peer ice now clock).1.stunServerTransactionId =
        ice.stunServerTransactionId := by
  have hselect : ∀ ice : IceSession,
      (iceSelectPair ice).stunServerTransactionIdValid = ice.stunServerTransactionIdValid ∧
        (iceSelectPair ice).stunServerTransactionId = ice.stunServerTransactionId := by
    intro ice
    rw [iceSelectPair]
    split
    · exact ⟨rfl, rfl⟩
    · split <;> exact ⟨rfl, rfl⟩
  rw [iceCheckConnectivity]
  split
  · exact ⟨rfl, rfl⟩
  · obtain ⟨hvalid, hid⟩ := hselect (iceSendChecks crypto peer
      (if ice.state = 2 then { ice with state := 3 } else ice) now clock).1
    refine ⟨hvalid.trans ?_, hid.trans ?_⟩
    · change (if ice.state = 2 then { ice with state := 3 } else ice).stunServerTransactionIdValid = _
      split <;> rfl
    · change (if ice.state = 2 then { ice with state := 3 } else ice).stunServerTransactionId = _
      split <;> rfl

theorem iceProcessPacket_response_outputs (crypto : Crypto) (peer : IcePeer) (ice : IceSession)
    {datagram : Datagram} (h : IsBindingResponse datagram) :
    ∀ output ∈ (iceProcessPacket crypto peer ice datagram).2.2,
      ∃ candidate, output = .candidate candidate := by
  rw [iceProcessPacket_eq_of_response crypto peer ice h]
  split
  · exact fun _ hmem => absurd hmem List.not_mem_nil
  · rw [iceAddReflexiveCandidate]
    dsimp only
    split
    · exact fun _ hmem => absurd hmem List.not_mem_nil
    · dsimp only
      split
      · exact fun _ hmem => ⟨_, List.mem_singleton.mp hmem⟩
      · exact fun _ hmem => absurd hmem List.not_mem_nil

/-- What gathering sends to the server, and that the session knows it. -/
theorem iceStartGathering_output {env : GatheringEnv} {ice : IceSession}
    {stunUrl : Option (List UInt8)} {output : IceOutput}
    (h : output ∈ (iceStartGathering env ice stunUrl).2.2) :
    (∃ dest, output =
        .serverRequest dest (stunHeader stunBindingRequest (stunTransactionId env.now))) ∧
      (iceStartGathering env ice stunUrl).2.1.stunServerTransactionIdValid = true ∧
      (iceStartGathering env ice stunUrl).2.1.stunServerTransactionId =
        stunTransactionId env.now := by
  rw [iceStartGathering] at h ⊢
  split at h
  · exact absurd h List.not_mem_nil
  · split at h
    · exact absurd h List.not_mem_nil
    · next hbind =>
      rw [if_neg hbind]
      dsimp only at h ⊢
      split at h
      · exact absurd h List.not_mem_nil
      · rw [stunSendBindingRequest] at h ⊢
        split at h
        · exact absurd h List.not_mem_nil
        · exact ⟨⟨_, List.mem_singleton.mp h⟩, rfl, rfl⟩

end TinyRtc.IceCallEffects
