import TinyRtc.IceMatching
import TinyRtc.SecureMedia

namespace TinyRtc.ClosedState

open TinyRtc.BigEndian
open TinyRtc.CallEffects
open TinyRtc.Common
open TinyRtc.Connection
open TinyRtc.CString
open TinyRtc.Dtls
open TinyRtc.Ice
open TinyRtc.IceMatching
open TinyRtc.IncomingRtp
open TinyRtc.Inet
open TinyRtc.LabelledRuns
open TinyRtc.MediaSend
open TinyRtc.Negotiation
open TinyRtc.ProcessEvents
open TinyRtc.SecureMedia
open TinyRtc.Srtp
open TinyRtc.Stun

def Succeeded (items : List IceCheckPair) (i : Nat) : Prop :=
  ∃ pair : IceCheckPair, items[i]? = some pair ∧ pair.succeeded = true

/-- The datagram shows that check pair `i` works: it is a request of the pair's
remote candidate, or the pair is the first one whose check it answers. -/
def ShowsPair (ice : IceSession) (datagram : Datagram) (i : Nat) : Prop :=
  IsStun datagram ∧
    ((stunRead16 datagram.byteAt 0 = stunBindingRequest ∧
        ∃ pair, ice.checkPairs.items[i]? = some pair ∧ ice.isFrom pair datagram.source = true) ∨
      (stunRead16 datagram.byteAt 0 = stunBindingResponse ∧
        ¬ (ice.stunServerTransactionIdValid = true ∧
          ice.stunServerTransactionId = transactionIdAt datagram.byteAt) ∧
        ice.checkPairs.items.findIdx? (·.matches (transactionIdAt datagram.byteAt)) = some i))

section

variable {items : List IceCheckPair} {i : Nat}

theorem succeeded_append {added : List IceCheckPair}
    (h : ∀ pair ∈ added, pair.succeeded = false) :
    Succeeded (items ++ added) i ↔ Succeeded items i := by
  constructor
  · rintro ⟨pair, hpair, hsucceeded⟩
    rcases Nat.lt_or_ge i items.length with hlt | hge
    · rw [List.getElem?_append_left hlt] at hpair
      exact ⟨pair, hpair, hsucceeded⟩
    · rw [List.getElem?_append_right hge] at hpair
      rw [h pair (List.mem_of_getElem? hpair)] at hsucceeded
      cases hsucceeded
  · rintro ⟨pair, hpair, hsucceeded⟩
    refine ⟨pair, ?_, hsucceeded⟩
    rw [List.getElem?_append_left (List.getElem?_eq_some_iff.mp hpair).1]
    exact hpair

theorem succeeded_mark {items' : List IceCheckPair} {marked : IceCheckPair → Prop}
    [DecidablePred marked]
    (h : items'[i]? = items[i]?.map fun pair =>
      if marked pair then { pair with succeeded := true } else pair) :
    Succeeded items' i ↔ Succeeded items i ∨ ∃ pair, items[i]? = some pair ∧ marked pair := by
  rw [Succeeded, h]
  simp only [Option.map_eq_some_iff]
  constructor
  · rintro ⟨pair', ⟨pair, hpair, rfl⟩, hsucceeded⟩
    by_cases hmarked : marked pair
    · exact .inr ⟨pair, hpair, hmarked⟩
    · rw [if_neg hmarked] at hsucceeded
      exact .inl ⟨pair, hpair, hsucceeded⟩
  · rintro (⟨pair, hpair, hsucceeded⟩ | ⟨pair, hpair, hmarked⟩)
    · refine ⟨_, ⟨pair, hpair, rfl⟩, ?_⟩
      split
      · rfl
      · exact hsucceeded
    · exact ⟨_, ⟨pair, hpair, rfl⟩, by rw [if_pos hmarked]⟩

theorem succeeded_map_mark {p : IceCheckPair → Bool} :
    Succeeded (items.map fun pair => if p pair then { pair with succeeded := true } else pair) i ↔
      Succeeded items i ∨ ∃ pair, items[i]? = some pair ∧ p pair = true :=
  succeeded_mark List.getElem?_map

theorem succeeded_markFirst {transactionId : List UInt8} :
    Succeeded (markFirst transactionId items) i ↔
      Succeeded items i ∨ items.findIdx? (·.matches transactionId) = some i := by
  rw [succeeded_mark (markFirst_getElem? transactionId items i)]
  refine or_congr_right ⟨fun ⟨_, _, hfirst⟩ => hfirst, fun hfirst => ?_⟩
  obtain ⟨hlt, -, -⟩ := List.findIdx?_eq_some_iff_getElem.mp hfirst
  exact ⟨_, List.getElem?_eq_getElem hlt, hfirst⟩

end

/-- The session with its pairs changed by a datagram: some have succeeded, and new
ones may follow. What decides about the selection is as it was. -/
structure PairsShown (ice : IceSession) (shown : Nat → Prop) (ice' : IceSession) : Prop where
  selectedPair : ice'.selectedPair = ice.selectedPair
  state : ice'.state = ice.state
  succeeded : ∀ i, Succeeded ice'.checkPairs.items i ↔ Succeeded ice.checkPairs.items i ∨ shown i

theorem PairsShown.addReflexive {ice ice' : IceSession} {shown : Nat → Prop}
    (h : PairsShown ice shown ice') (peer : IcePeer) (mapped : MappedAddress) :
    PairsShown ice shown (iceAddReflexiveCandidate peer ice' mapped).1 := by
  obtain ⟨added, hitems, hadded⟩ := iceAddReflexiveCandidate_items peer ice' mapped
  refine ⟨?_, ?_, fun i => ?_⟩
  · rw [← h.selectedPair, iceAddReflexiveCandidate]
    dsimp only
    split <;> rfl
  · rw [← h.state, iceAddReflexiveCandidate]
    dsimp only
    split <;> rfl
  · rw [hitems, succeeded_append fun pair hpair => (hadded pair hpair).2]
    exact h.succeeded i

theorem pairsShown_iceMarkSource {ice : IceSession} {datagram : Datagram} (hstun : IsStun datagram)
    (htype : stunRead16 datagram.byteAt 0 = stunBindingRequest) :
    PairsShown ice (ShowsPair ice datagram) (iceMarkSource ice datagram.source) := by
  refine ⟨rfl, rfl, fun i => ?_⟩
  have hshows : ShowsPair ice datagram i ↔ ∃ pair, ice.checkPairs.items[i]? = some pair ∧
      ice.isFrom pair datagram.source = true := by
    rw [ShowsPair]
    constructor
    · rintro ⟨-, ⟨-, hfrom⟩ | ⟨hresponse, -⟩⟩
      · exact hfrom
      · rw [htype] at hresponse
        exact absurd hresponse (by decide)
    · exact fun hfrom => ⟨hstun, .inl ⟨htype, hfrom⟩⟩
  rw [hshows]
  exact succeeded_map_mark

theorem pairsShown_iceMarkResponse (ice : IceSession) {datagram : Datagram}
    (hstun : IsStun datagram) (htype : stunRead16 datagram.byteAt 0 ≠ stunBindingRequest) :
    PairsShown ice (ShowsPair ice datagram)
      (if stunRead16 datagram.byteAt 0 = stunBindingResponse then
        iceMarkResponse ice (transactionIdAt datagram.byteAt) else ice) := by
  split
  · next hresponse =>
    rw [iceMarkResponse]
    split
    · next hserver =>
      rw [Bool.and_eq_true, beq_iff_eq] at hserver
      exact ⟨rfl, rfl, fun i => by simp [ShowsPair, htype, hserver]⟩
    · next hserver =>
      rw [Bool.and_eq_true, beq_iff_eq] at hserver
      refine ⟨rfl, rfl, fun i => ?_⟩
      have hshows : ShowsPair ice datagram i ↔
          ice.checkPairs.items.findIdx? (·.matches (transactionIdAt datagram.byteAt)) = some i := by
        rw [ShowsPair]
        constructor
        · rintro ⟨-, ⟨hrequest, -⟩ | ⟨-, -, hfirst⟩⟩
          · exact absurd hrequest htype
          · exact hfirst
        · exact fun hfirst => ⟨hstun, .inr ⟨hresponse, hserver, hfirst⟩⟩
      rw [hshows]
      exact succeeded_markFirst
  · next hresponse =>
    refine ⟨rfl, rfl, fun i => ?_⟩
    simp [ShowsPair, htype, hresponse]

theorem iceProcessPacket_pairsShown (crypto : Crypto) (peer : IcePeer) (ice : IceSession)
    (datagram : Datagram) :
    PairsShown ice (ShowsPair ice datagram) (iceProcessPacket crypto peer ice datagram).2.1 := by
  by_cases hstun : IsStun datagram
  · rw [iceProcessPacket, if_neg (Nat.not_lt.mpr hstun.1), if_neg (not_not.mpr hstun.2)]
    dsimp only
    split
    · next htype => exact pairsShown_iceMarkSource hstun htype
    · next htype =>
      have hmarked := pairsShown_iceMarkResponse ice hstun htype
      split
      · split
        · exact hmarked.addReflexive peer _
        · exact hmarked
      · exact hmarked
  · rw [iceProcessPacket_media crypto peer ice hstun]
    refine ⟨rfl, rfl, fun i => ?_⟩
    simp [ShowsPair, hstun]

/-- The session is connected, given which of its pairs work: the selected pair is
one of them, or one of them can be selected. -/
def Connects (ice : IceSession) (works : Nat → Prop) : Prop :=
  match ice.selectedPair with
  | some i => works i
  | none => 2 ≤ ice.state ∧ ∃ i, works i

theorem iceCheckPair_succeeded (crypto : Crypto) (peer : IcePeer) (ice : IceSession)
    (now clock : UInt64) (pair : IceCheckPair) :
    (iceCheckPair crypto peer ice now clock pair).1.succeeded = pair.succeeded := by
  rcases iceCheckPair_cases crypto peer ice now clock pair with h | ⟨dest, message, h, -⟩
  · rw [h]
  · rw [h]

theorem iceSendChecks_succeeded (crypto : Crypto) (peer : IcePeer) (ice : IceSession)
    (now : UInt64) (clock : Nat → UInt64) (i : Nat) :
    Succeeded (iceSendChecks crypto peer ice now clock).1.checkPairs.items i ↔
      Succeeded ice.checkPairs.items i := by
  have hitems : (iceSendChecks crypto peer ice now clock).1.checkPairs.items =
      ice.checkPairs.items.mapIdx fun i pair =>
        (iceCheckPair crypto peer ice now (clock i) pair).1 := rfl
  rw [hitems]
  simp only [Succeeded, List.getElem?_mapIdx, Option.map_eq_some_iff]
  constructor
  · rintro ⟨pair', ⟨pair, hpair, rfl⟩, hsucceeded⟩
    rw [iceCheckPair_succeeded] at hsucceeded
    exact ⟨pair, hpair, hsucceeded⟩
  · rintro ⟨pair, hpair, hsucceeded⟩
    exact ⟨_, ⟨pair, hpair, rfl⟩, (iceCheckPair_succeeded ..).trans hsucceeded⟩

theorem iceIsConnected_iff {ice : IceSession} :
    iceIsConnected ice = true ↔ ∃ i, ice.selectedPair = some i ∧ Succeeded ice.checkPairs.items i := by
  rw [iceIsConnected]
  cases hselected : ice.selectedPair with
  | none => simp
  | some i =>
      rw [Option.bind_some]
      cases hpair : ice.checkPairs.items[i]? with
      | none => simp [Succeeded, hpair]
      | some pair => simp [Succeeded, hpair]

theorem iceSelectPair_connected (ice : IceSession) :
    iceIsConnected (iceSelectPair ice) = true ↔
      match ice.selectedPair with
      | some i => Succeeded ice.checkPairs.items i
      | none => ∃ i, Succeeded ice.checkPairs.items i := by
  rw [iceIsConnected_iff, iceSelectPair_checkPairs, iceSelectPair]
  cases hselected : ice.selectedPair with
  | some i =>
      rw [hselected]
      simp
  | none =>
      dsimp only
      split
      · next hnone =>
        rw [hselected]
        refine iff_of_false (by simp) ?_
        rintro ⟨i, pair, hpair, hsucceeded⟩
        have hfalse := List.findIdx?_eq_none_iff.mp hnone pair (List.mem_of_getElem? hpair)
        rw [hsucceeded] at hfalse
        cases hfalse
      · next i hsome =>
        obtain ⟨hlt, hsucceeded, -⟩ := List.findIdx?_eq_some_iff_getElem.mp hsome
        have hworks : Succeeded ice.checkPairs.items i :=
          ⟨_, List.getElem?_eq_getElem hlt, hsucceeded⟩
        exact iff_of_true ⟨i, rfl, hworks⟩ ⟨i, hworks⟩

theorem iceCheckConnectivity_connected (crypto : Crypto) (peer : IcePeer) (ice : IceSession)
    (now : UInt64) (clock : Nat → UInt64) :
    iceIsConnected (iceCheckConnectivity crypto peer ice now clock).1 = true ↔
      Connects ice (Succeeded ice.checkPairs.items) := by
  rw [iceCheckConnectivity, Connects]
  split
  · next hstate =>
    rw [iceIsConnected_iff]
    cases ice.selectedPair with
    | none => simp [Nat.not_le.mpr hstate]
    | some i => simp
  · next hstate =>
    have hchecking : ∀ ice₁ : IceSession, ice₁.selectedPair = ice.selectedPair →
        ice₁.checkPairs = ice.checkPairs →
          (iceIsConnected (iceSelectPair (iceSendChecks crypto peer ice₁ now clock).1) = true ↔
            Connects ice (Succeeded ice.checkPairs.items)) := by
      intro ice₁ hselected hpairs
      rw [iceSelectPair_connected, Connects]
      have hkept : (iceSendChecks crypto peer ice₁ now clock).1.selectedPair =
          ice.selectedPair := hselected
      rw [hkept]
      simp only [iceSendChecks_succeeded, hpairs]
      cases ice.selectedPair with
      | none => simp [Nat.le_of_not_lt hstate]
      | some i => rfl
    apply hchecking
    · split <;> rfl
    · split <;> rfl

theorem PairsShown.connects {ice ice' : IceSession} {shown : Nat → Prop}
    (h : PairsShown ice shown ice') :
    Connects ice' (Succeeded ice'.checkPairs.items) ↔
      Connects ice fun i => Succeeded ice.checkPairs.items i ∨ shown i := by
  rw [Connects, Connects, h.selectedPair, h.state]
  cases ice.selectedPair with
  | none => simp only [h.succeeded]
  | some i => exact h.succeeded i

/-- The connection is closed, and nothing else has been reported. -/
def StaysClosed (pc' : PeerConnection) (events : List PcEvent) : Prop :=
  pc'.state = .closed ∧ ∀ state, PcEvent.connectionStateChange state ∈ events → state = .closed

/-- A step that leaves a closed connection closed. -/
def ClosedStep (crypto : Crypto) (hostOrder : UInt32 → List UInt8) (pc : PeerConnection)
    (call : PcCall × List PcEvent) (pc' : PeerConnection) : Prop :=
  PcStep crypto hostOrder pc call pc' ∧ StaysClosed pc' call.2

/-- The round finds the ICE session of the connection connected: a pair is selected
or can be, and it has succeeded, or the datagram of the round shows that it works. -/
def RoundConnects (pc : PeerConnection) (input : EventInput) : Prop :=
  ∃ ice, pc.ice = some ice ∧ ice.socket ≠ none ∧ Connects ice fun i =>
    Succeeded ice.checkPairs.items i ∨
      ∃ datagram, input.datagram = some datagram ∧ ShowsPair ice datagram i

/-- The condition of a call: a round must not find the ICE session connected. -/
def CallFindsUnconnected (pc : PeerConnection) : PcCall → Prop
  | .processEvents input => ¬ RoundConnects pc input
  | _ => True

/-- What raises no change of the connection's state. -/
def IsQuiet (events : List PcEvent) : Prop :=
  ∀ state, PcEvent.connectionStateChange state ∉ events

theorem isQuiet_nil : IsQuiet [] :=
  fun _ => List.not_mem_nil

theorem isQuiet_map_ice (outputs : List IceOutput) : IsQuiet (outputs.map .ice) := by
  intro state hmem
  obtain ⟨output, -, heq⟩ := List.mem_map.mp hmem
  cases heq

theorem IsQuiet.append {first second : List PcEvent} (hfirst : IsQuiet first)
    (hsecond : IsQuiet second) : IsQuiet (first ++ second) := by
  intro state hmem
  rcases List.mem_append.mp hmem with hmem | hmem
  · exact hfirst state hmem
  · exact hsecond state hmem

theorem isQuiet_of_isFrame {events : List PcEvent} (h : ∀ event ∈ events, IsFrame event) :
    IsQuiet events :=
  fun _ hmem => h _ hmem

theorem isQuiet_of_isRtp {events : List PcEvent} (h : ∀ event ∈ events, IsRtp event) :
    IsQuiet events :=
  fun _ hmem => h _ hmem

section

variable {crypto : Crypto} {hostOrder : UInt32 → List UInt8} {pc pc' : PeerConnection}
  {events : List PcEvent}

theorem StaysClosed.of_isQuiet (hstate : pc'.state = .closed) (hquiet : IsQuiet events) :
    StaysClosed pc' events :=
  ⟨hstate, fun state hmem => absurd hmem (hquiet state)⟩

theorem trackSendFrame_staysClosed {env : SendEnv} {track : Nat} {frame : List UInt8}
    {timestamp : UInt32} {err : TinyrtcError} (hclosed : pc.state = .closed)
    (h : trackSendFrame crypto env pc track frame timestamp = some (err, pc', events)) :
    StaysClosed pc' events := by
  obtain ⟨⟨srtp, localTracks, rfl⟩, hevents⟩ := trackSendFrame_cases h
  exact .of_isQuiet hclosed (isQuiet_of_isRtp hevents)

theorem pcCall_staysClosed {call : PcCall} (hclosed : pc.state = .closed)
    (h : pcCall crypto hostOrder pc call = some (pc', events))
    (hcall : ∀ input, call ≠ .processEvents input) : StaysClosed pc' events := by
  cases pcCall_course h with
  | addTrack localTracks => exact .of_isQuiet hclosed isQuiet_nil
  | removeTrack localTracks => exact .of_isQuiet hclosed isQuiet_nil
  | createOffer hoffer =>
      rw [tinyrtcPeerConnectionCreateOffer, if_pos hclosed] at hoffer
      cases hoffer
      exact .of_isQuiet hclosed isQuiet_nil
  | setRemoteDescription hset =>
      rw [tinyrtcPeerConnectionSetRemoteDescription, if_pos hclosed] at hset
      cases hset
      exact .of_isQuiet hclosed isQuiet_nil
  | createAnswer hanswer =>
      rw [tinyrtcPeerConnectionCreateAnswer, if_pos hclosed] at hanswer
      cases hanswer
      exact .of_isQuiet hclosed isQuiet_nil
  | addIceCandidate candidate =>
      obtain ⟨remoteSdp, ice, hadded, -⟩ := addIceCandidate_frame pc candidate
      rw [hadded]
      exact .of_isQuiet hclosed isQuiet_nil
  | close =>
      refine ⟨rfl, fun state hmem => ?_⟩
      cases close_events pc _ hmem
      rfl
  | sendAudioFrame hsend => exact trackSendFrame_staysClosed hclosed hsend
  | sendVideoFrame hsend => exact trackSendFrame_staysClosed hclosed hsend
  | @processEvents input pc' events hround => exact absurd rfl (hcall input)

theorem pollDtls_state (input : EventInput) (pc : PeerConnection) (ice : IceSession) :
    (pollDtls crypto hostOrder input pc ice).state = pc.state := by
  obtain ⟨dtls, srtp, srtpRx, initialized, hpoll⟩ := pollDtls_frame crypto hostOrder input pc ice
  rw [hpoll]

theorem processDatagram_state {input : EventInput} {ice : IceSession} {datagram : Datagram}
    (h : processDatagram crypto input pc ice datagram = some (pc', events)) :
    pc'.state = pc.state ∧
      pc'.ice = some (iceProcessPacket crypto pc.icePeer ice datagram).2.1 ∧ IsQuiet events := by
  obtain ⟨dtls, srtpRx, remoteTracks, media, rfl, rfl, hmedia, -⟩ := processDatagram_parts h
  exact ⟨rfl, rfl, (isQuiet_map_ice _).append (isQuiet_of_isFrame hmedia)⟩

theorem notifyConnected_staysClosed_iff {input : EventInput} {ice : IceSession}
    (hclosed : pc.state = .closed) :
    StaysClosed (notifyConnected crypto input pc ice).1 (notifyConnected crypto input pc ice).2 ↔
      ¬ iceIsConnected ice = true := by
  have hunconnected : pc.state ≠ .connected := by
    rw [hclosed]
    decide
  rw [notifyConnected]
  by_cases hconnected : iceIsConnected ice = true
  · rw [if_pos ⟨hunconnected, hconnected⟩]
    refine iff_of_false ?_ (not_not.mpr hconnected)
    rintro ⟨hstate, -⟩
    cases hstate
  · rw [if_neg fun h => hconnected h.2]
    exact iff_of_true (.of_isQuiet hclosed isQuiet_nil) hconnected

theorem StaysClosed.prepend_iff {quiet : List PcEvent} (hquiet : IsQuiet quiet) :
    StaysClosed pc' (quiet ++ events) ↔ StaysClosed pc' events := by
  constructor
  · rintro ⟨hstate, hevents⟩
    exact ⟨hstate, fun state hmem => hevents state (List.mem_append_right _ hmem)⟩
  · rintro ⟨hstate, hevents⟩
    refine ⟨hstate, fun state hmem => ?_⟩
    rcases List.mem_append.mp hmem with hmem | hmem
    · exact absurd hmem (hquiet state)
    · exact hevents state hmem

theorem processEvents_staysClosed_iff {input : EventInput} (hclosed : pc.state = .closed)
    (h : tinyrtcProcessEvents crypto hostOrder input pc = some (pc', events)) :
    StaysClosed pc' events ↔ ¬ RoundConnects pc input := by
  rw [tinyrtcProcessEvents] at h
  split at h
  · next hnone =>
    cases h
    refine iff_of_true (.of_isQuiet hclosed isQuiet_nil) ?_
    rintro ⟨ice, hice, -⟩
    rw [hnone] at hice
    cases hice
  · next ice hice =>
    split at h
    · next hsocket =>
      cases h
      refine iff_of_true (.of_isQuiet hclosed isQuiet_nil) ?_
      rintro ⟨ice', hice', hsocket', -⟩
      rw [hice] at hice'
      cases hice'
      exact hsocket' hsocket
    · next hsocket =>
      obtain ⟨⟨received, receivedEvents⟩, hreceived, hresult⟩ := Option.map_eq_some_iff.mp h
      have hround : received.state = .closed ∧ IsQuiet receivedEvents ∧
          ∃ ice', received.ice = some ice' ∧
            PairsShown ice
              (fun i => ∃ datagram, input.datagram = some datagram ∧ ShowsPair ice datagram i)
              ice' := by
        split at hreceived
        · next hnone =>
          cases hreceived
          exact ⟨hclosed, isQuiet_nil, ice, hice, rfl, rfl, fun i => by simp [hnone]⟩
        · next datagram hdatagram =>
          have hshown : (fun i => ∃ datagram, input.datagram = some datagram ∧
              ShowsPair ice datagram i) = ShowsPair ice datagram := by
            funext i
            simp [hdatagram]
          rw [hshown]
          split at hreceived
          · next hempty =>
            cases hreceived
            refine ⟨hclosed, isQuiet_nil, ice, hice, rfl, rfl, fun i => ?_⟩
            simp [ShowsPair, IsStun, hempty]
          · obtain ⟨hstate, hice', hquiet⟩ := processDatagram_state hreceived
            exact ⟨hstate.trans hclosed, hquiet, _, hice', iceProcessPacket_pairsShown _ _ _ _⟩
      obtain ⟨hstate, hquiet, ice', hice', hshown⟩ := hround
      dsimp only at hresult
      rw [hice'] at hresult
      cases hresult
      have hconnects : RoundConnects pc input ↔ Connects ice' (Succeeded ice'.checkPairs.items) := by
        rw [hshown.connects]
        constructor
        · rintro ⟨ice₁, hice₁, -, hconnects⟩
          rw [hice] at hice₁
          cases hice₁
          exact hconnects
        · exact fun hconnects => ⟨ice, hice, hsocket, hconnects⟩
      rw [StaysClosed.prepend_iff (hquiet.append (isQuiet_map_ice _)), StaysClosed, pollDtls_state,
        ← StaysClosed, hconnects,
        ← iceCheckConnectivity_connected crypto received.icePeer ice' input.now input.checkClock]
      apply notifyConnected_staysClosed_iff
      exact hstate

theorem closedStep_iff {call : PcCall × List PcEvent} (hclosed : pc.state = .closed) :
    ClosedStep crypto hostOrder pc call pc' ↔
      GuardedStep crypto hostOrder CallFindsUnconnected pc call pc' := by
  obtain ⟨call, events⟩ := call
  apply and_congr_right
  intro hstep
  by_cases hround : ∃ input, call = .processEvents input
  · obtain ⟨input, rfl⟩ := hround
    exact processEvents_staysClosed_iff hclosed hstep
  · refine iff_of_true (pcCall_staysClosed hclosed hstep fun input heq => hround ⟨input, heq⟩) ?_
    cases call with
    | processEvents input => exact absurd ⟨input, rfl⟩ hround
    | _ => trivial

end

/-- After `tinyrtc_peer_connection_close`, the runs in which the connection stays
closed, and reports nothing else, are those in which no round finds its ICE session
connected. -/
theorem closed_run_iff (crypto : Crypto) (hostOrder : UInt32 → List UInt8) (pc : PeerConnection)
    (later : List (PcCall × List PcEvent)) (pc' : PeerConnection) :
    Run (ClosedStep crypto hostOrder) (tinyrtcPeerConnectionClose pc).1 later pc' ↔
      Run (GuardedStep crypto hostOrder CallFindsUnconnected)
        (tinyrtcPeerConnectionClose pc).1 later pc' := by
  apply Run.congr_of_invariant (I := fun pc => pc.state = .closed)
  · exact fun _ _ _ hclosed => closedStep_iff hclosed
  · exact fun _ _ _ hclosed hstep => ((closedStep_iff hclosed).mpr hstep).2.1
  · rfl

def reportedState : PcEvent → Option PcState
  | .connectionStateChange state => some state
  | _ => none

/-- A connection whose state changes are reported. -/
def reportingConfig : PcConfig :=
  { sampleConfig with
    observer := { sampleConfig.observer with onConnectionStateChange := true } }

def sampleCheck : PcCall :=
  sampleRound (stunHeader stunBindingRequest (List.replicate 12 0x00)) handshakeWaits

/-- A call that leaves the connection connected, and says so. -/
def reportsConnected (result : PeerConnection × List PcEvent) : Bool :=
  decide (result.1.state = .connected ∧ PcState.connected ∈ result.2.filterMap reportedState)

/-- The remote candidate checks the connection after it has been closed. -/
theorem closed_run_fails :
    ∃ history pc call events pc',
      Run (PcStep toyCrypto write32) (tinyrtcPeerConnectionCreate reportingConfig) history pc ∧
      PcStep toyCrypto write32 (tinyrtcPeerConnectionClose pc).1 (call, events) pc' ∧
      pc'.state = .connected ∧ PcEvent.connectionStateChange .connected ∈ events := by
  obtain ⟨history, pc, _, closed, hrun, hclose, hp⟩ := exists_step toyCrypto write32
    (tinyrtcPeerConnectionCreate reportingConfig)
    (sampleSetup ++
      [.addIceCandidate ⟨ascii "1", 1, ascii "10.0.0.1", 5000, ascii "host", ascii "udp", false⟩])
    .close
    (fun _ _ closed => (pcCall toyCrypto write32 closed sampleCheck).any
      reportsConnected)
    (by decide +kernel)
  cases hclose
  rw [Option.any_eq_true] at hp
  obtain ⟨⟨pc', events⟩, hround, hp⟩ := hp
  obtain ⟨hstate, hmem⟩ := of_decide_eq_true hp
  obtain ⟨event, hmem, hreported⟩ := List.mem_filterMap.mp hmem
  refine ⟨history, pc, sampleCheck, events, pc', hrun, hround, hstate, ?_⟩
  cases event with
  | connectionStateChange state =>
      cases hreported
      exact hmem
  | _ => cases hreported

end TinyRtc.ClosedState
