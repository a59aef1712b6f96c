import TinyRtc.IceCallEffects
import TinyRtc.TwoParties

namespace TinyRtc.IceNetwork

open TinyRtc.CandidateTables
open TinyRtc.ClosedState
open TinyRtc.Ice
open TinyRtc.IceCallEffects
open TinyRtc.IceEffects
open TinyRtc.IceMatching
open TinyRtc.Inet
open TinyRtc.LabelledRuns
open TinyRtc.SelectedPair
open TinyRtc.Srtp
open TinyRtc.Stun
open TinyRtc.StunMessages
open TinyRtc.TwoParties

/-- What a session has sent is made of whole messages of the types that belong there. -/
structure TalksStun (sent : List IceOutput) : Prop where
  server : ∀ dest message, .serverRequest dest message ∈ sent →
    IsMessage stunBindingRequest message
  check : ∀ i dest message, .check i dest message ∈ sent → IsMessage stunBindingRequest message
  response : ∀ dest message, .bindingResponse dest message ∈ sent →
    IsMessage stunBindingResponse message

/-- An address that was asked by a request with a transaction ID. -/
def Asked (sent : List IceOutput) (dest : SockAddr) (transactionId : List UInt8) : Prop :=
  (∃ i message, .check i dest message ∈ sent ∧ messageTransactionId message = transactionId) ∨
    ∃ message, .serverRequest dest message ∈ sent ∧ messageTransactionId message = transactionId

/-- Checks that carry one transaction ID go to one address. -/
def ChecksApart (sent : List IceOutput) : Prop :=
  ∀ i dest message i' dest' message', .check i dest message ∈ sent →
    .check i' dest' message' ∈ sent →
      messageTransactionId message = messageTransactionId message' → dest = dest'

/-- The address and the message of an output that goes to the network. -/
def packet : IceOutput → Option (SockAddr × List UInt8)
  | .serverRequest dest message => some (dest, message)
  | .bindingResponse dest message => some (dest, message)
  | .check _ dest message => some (dest, message)
  | .candidate _ => none

/-- What may reach a side that has sent `own`, when the other one has sent `heard`: from the
other one what it has sent to an address of this side; from the STUN server answers to what it
was asked; and from anywhere what is no STUN message of the two types that matter. -/
inductive Arrives (home : Side → SockAddr → Prop) (side : Side) (own heard : List IceOutput)
    (datagram : Datagram) : Prop
  | peer {output : IceOutput} {dest : SockAddr} (hsent : output ∈ heard)
      (hpacket : packet output = some (dest, datagram.bytes)) (hdest : home side dest)
      (hsource : home side.other datagram.source)
  | server {dest : SockAddr} {message : List UInt8} (hasked : .serverRequest dest message ∈ own)
      (hresponse : IsBindingResponse datagram)
      (hanswer : transactionIdAt datagram.byteAt = messageTransactionId message)
  | unrelated (hresponse : ¬ IsBindingResponse datagram)
      (hrequest : datagram.bytes.length < 8 ∨ stunRead32 datagram.byteAt 4 ≠ stunMagicCookie ∨
        stunRead16 datagram.byteAt 0 ≠ stunBindingRequest)

/-- What a side may do next. Gathering is over. -/
def May (home : Side → SockAddr → Prop) (side : Side) (own heard : List IceOutput) :
    IceCall → Prop
  | .startGathering _ _ => False
  | .addRemoteCandidate _ => True
  | .processPacket _ datagram => Arrives home side own heard datagram
  | .checkConnectivity _ _ _ => True

/-- The two agents and the network between them. -/
abbrev NetworkStep (crypto : Crypto) (home : Side → SockAddr → Prop) :=
  Acts (iceCall crypto) (May home)

/-- A side whose session has just gathered. -/
def gatheredParty (env : GatheringEnv) (stunUrl : Option (List UInt8)) :
    Party IceSession IceOutput :=
  ⟨gathered env stunUrl, (iceStartGathering env iceSessionCreate stunUrl).2.2⟩

/-- What holds of a side at any time, whatever the network has done. -/
structure Sound (home : Side → SockAddr → Prop) (side : Side) (own : Party IceSession IceOutput)
    (heard : List IceOutput) : Prop where
  grid : (checkTables own.state).PairsInGrid
  talks : TalksStun own.sent
  server : ∀ dest message, .serverRequest dest message ∈ own.sent →
    own.state.stunServerTransactionIdValid = true ∧
      own.state.stunServerTransactionId = messageTransactionId message
  checks : ∀ (i : Nat) (pair : IceCheckPair), own.state.checkPairs.items[i]? = some pair →
    pair.lastTransactionIdValid = true →
      ∃ message, .check i (pairAddress own.state pair) message ∈ own.sent ∧
        messageTransactionId message = pair.lastTransactionId
  answers : ∀ dest message, .bindingResponse dest message ∈ own.sent →
    ∃ asked, home side asked ∧ Asked heard asked (messageTransactionId message)
  succeeded : ChecksApart own.sent → ∀ (i : Nat) (pair : IceCheckPair),
    own.state.checkPairs.items[i]? = some pair → pair.succeeded = true →
      home side.other (pairAddress own.state pair)

theorem Asked.append {sent : List IceOutput} {dest : SockAddr} {transactionId : List UInt8}
    (h : Asked sent dest transactionId) (more : List IceOutput) :
    Asked (sent ++ more) dest transactionId := by
  rcases h with ⟨i, message, hsent, hid⟩ | ⟨message, hsent, hid⟩
  · exact .inl ⟨i, message, List.mem_append_left more hsent, hid⟩
  · exact .inr ⟨message, List.mem_append_left more hsent, hid⟩

theorem ChecksApart.of_append {sent more : List IceOutput} (h : ChecksApart (sent ++ more)) :
    ChecksApart sent :=
  fun i dest message i' dest' message' hsent hsent' =>
    h i dest message i' dest' message' (List.mem_append_left more hsent)
      (List.mem_append_left more hsent')

theorem TalksStun.append {sent more : List IceOutput} (hsent : TalksStun sent)
    (hmore : TalksStun more) : TalksStun (sent ++ more) where
  server dest message h := (List.mem_append.mp h).elim (hsent.server dest message)
    (hmore.server dest message)
  check i dest message h := (List.mem_append.mp h).elim (hsent.check i dest message)
    (hmore.check i dest message)
  response dest message h := (List.mem_append.mp h).elim (hsent.response dest message)
    (hmore.response dest message)

theorem Sound.append {home : Side → SockAddr → Prop} {side : Side}
    {own : Party IceSession IceOutput} {heard : List IceOutput} (h : Sound home side own heard)
    (more : List IceOutput) : Sound home side own (heard ++ more) where
  grid := h.grid
  talks := h.talks
  server := h.server
  checks := h.checks
  answers dest message hsent := by
    obtain ⟨asked, hhome, hasked⟩ := h.answers dest message hsent
    exact ⟨asked, hhome, hasked.append more⟩
  succeeded := h.succeeded

/-- What a call that checks nothing may put out: candidates for the application, and answers to
what the other side has asked this one. -/
def IsReply (home : Side → SockAddr → Prop) (side : Side) (heard : List IceOutput) :
    IceOutput → Prop
  | .candidate _ => True
  | .bindingResponse _ message =>
      IsMessage stunBindingResponse message ∧
        ∃ asked, home side asked ∧ Asked heard asked (messageTransactionId message)
  | _ => False

section

variable {crypto : Crypto} {home : Side → SockAddr → Prop} {side : Side}
  {own other : Party IceSession IceOutput}

theorem Sound.keeps {heard outputs : List IceOutput} {Marked : IceCheckPair → Prop}
    {ice' : IceSession} {call : IceCall} (h : Sound home side own heard)
    (hstep : CheckStep crypto own.state call ice') (hkeeps : Keeps Marked own.state ice')
    (houtputs : ∀ output ∈ outputs, IsReply home side heard output)
    (hmarked : ChecksApart own.sent → ∀ (i : Nat) (pair : IceCheckPair),
      own.state.checkPairs.items[i]? = some pair → Marked pair →
        home side.other (pairAddress own.state pair)) :
    Sound home side ⟨ice', own.sent ++ outputs⟩ heard where
  grid := pairsInGrid_tablesStep h.grid (tablesStep_checkStep h.grid hstep)
  talks := h.talks.append
    { server := fun _ _ hmem => (houtputs _ hmem).elim
      check := fun _ _ _ hmem => (houtputs _ hmem).elim
      response := fun _ _ hmem => (houtputs _ hmem).1 }
  server := by
    intro dest message hmem
    dsimp only
    rw [hkeeps.serverValid, hkeeps.serverId]
    rcases List.mem_append.mp hmem with hold | hnew
    · exact h.server dest message hold
    · exact (houtputs _ hnew).elim
  checks := by
    intro i pair' hpair' hvalid
    rcases hkeeps.pairs i pair' hpair' with ⟨-, hfresh, -⟩ | ⟨pair, hpair, hplace, hvalidEq, hid, -⟩
    · rw [hfresh] at hvalid
      cases hvalid
    · obtain ⟨message, hsent, hmessage⟩ := h.checks i pair hpair (hvalidEq ▸ hvalid)
      rw [pairAddress_step h.grid hstep hpair hplace, hid]
      exact ⟨message, List.mem_append_left _ hsent, hmessage⟩
  answers := by
    intro dest message hmem
    rcases List.mem_append.mp hmem with hold | hnew
    · exact h.answers dest message hold
    · exact (houtputs _ hnew).2
  succeeded := by
    intro hapart i pair' hpair' hsucceeded'
    rcases hkeeps.pairs i pair' hpair' with ⟨-, -, hfresh⟩ | ⟨pair, hpair, hplace, -, -, hmarks⟩
    · rw [hfresh] at hsucceeded'
      cases hsucceeded'
    · rw [pairAddress_step h.grid hstep hpair hplace]
      rcases hmarks hsucceeded' with hsucceeded | hnew
      · exact h.succeeded hapart.of_append i pair hpair hsucceeded
      · exact hmarked hapart.of_append i pair hpair hnew

theorem Sound.ticks {heard : List IceOutput} (h : Sound home side own heard) (peer : IcePeer)
    (now : UInt64) (clock : Nat → UInt64) :
    Sound home side (own.after (iceCheckConnectivity crypto peer own.state now clock)) heard := by
  have hstep : CheckStep crypto own.state (.checkConnectivity peer now clock)
      (iceCheckConnectivity crypto peer own.state now clock).1 := ⟨rfl, id⟩
  have hsent : ∀ output ∈ (iceCheckConnectivity crypto peer own.state now clock).2,
      ∃ i dest message, output = .check i dest message ∧ IsMessage stunBindingRequest message := by
    intro output hmem
    obtain ⟨i, dest, priority, message, rfl, hfinal⟩ := mem_iceCheckConnectivity hmem
    exact ⟨i, dest, message, rfl, isMessage_check hfinal⟩
  obtain ⟨hvalid, hid⟩ := iceCheckConnectivity_server crypto peer own.state now clock
  refine ⟨?_, ?_, ?_, ?_, ?_, ?_⟩
  · exact pairsInGrid_tablesStep h.grid (tablesStep_checkStep h.grid hstep)
  · refine h.talks.append ⟨?_, ?_, ?_⟩
    · intro dest message hmem
      obtain ⟨_, _, _, hcheck, -⟩ := hsent _ hmem
      cases hcheck
    · intro i dest message hmem
      obtain ⟨_, _, _, hcheck, hmessage⟩ := hsent _ hmem
      cases hcheck
      exact hmessage
    · intro dest message hmem
      obtain ⟨_, _, _, hcheck, -⟩ := hsent _ hmem
      cases hcheck
  · intro dest message hmem
    rw [Party.after, hvalid, hid]
    rcases List.mem_append.mp hmem with hold | hnew
    · exact h.server dest message hold
    · obtain ⟨_, _, _, hcheck, -⟩ := hsent _ hnew
      cases hcheck
  · intro i pair' hpair' hvalid'
    obtain ⟨pair, hpair, hplace, -, hkept | ⟨message, hmem, hmessage⟩⟩ :=
      iceCheckConnectivity_pair hpair'
    · obtain ⟨message, hmem, hmessage⟩ := h.checks i pair hpair (hkept.1 ▸ hvalid')
      rw [Party.after, pairAddress_step h.grid hstep hpair hplace, hkept.2]
      exact ⟨message, List.mem_append_left _ hmem, hmessage⟩
    · rw [Party.after, pairAddress_step h.grid hstep hpair hplace]
      exact ⟨message, List.mem_append_right _ hmem, hmessage⟩
  · intro dest message hmem
    rcases List.mem_append.mp hmem with hold | hnew
    · exact h.answers dest message hold
    · obtain ⟨_, _, _, hcheck, -⟩ := hsent _ hnew
      cases hcheck
  · intro hapart i pair' hpair' hsucceeded'
    obtain ⟨pair, hpair, hplace, hsucceeded, -⟩ := iceCheckConnectivity_pair hpair'
    rw [Party.after, pairAddress_step h.grid hstep hpair hplace]
    exact h.succeeded hapart.of_append i pair hpair (hsucceeded ▸ hsucceeded')

/-- What of a side's own arrives back as an answer was asked of an address of the other one. -/
theorem packet_response {output : IceOutput} {dest : SockAddr} {datagram : Datagram}
    (hother : Sound home side.other other own.sent) (hsent : output ∈ other.sent)
    (hpacket : packet output = some (dest, datagram.bytes)) :
    Reads datagram stunBindingRequest ∧
        Asked other.sent dest (transactionIdAt datagram.byteAt) ∨
      Reads datagram stunBindingResponse ∧ ∃ asked, home side.other asked ∧
        Asked own.sent asked (transactionIdAt datagram.byteAt) := by
  cases output with
  | candidate candidate => cases hpacket
  | serverRequest dest' message =>
      cases hpacket
      have hreads := (hother.talks.server _ _ hsent).reads
      exact .inl ⟨hreads, .inr ⟨_, hsent, hreads.transactionId_eq.symm⟩⟩
  | check i dest' message =>
      cases hpacket
      have hreads := (hother.talks.check _ _ _ hsent).reads
      exact .inl ⟨hreads, .inl ⟨i, _, hsent, hreads.transactionId_eq.symm⟩⟩
  | bindingResponse dest' message =>
      cases hpacket
      have hreads := (hother.talks.response _ _ hsent).reads
      obtain ⟨asked, hhome, hasked⟩ := hother.answers _ _ hsent
      rw [← hreads.transactionId_eq] at hasked
      exact .inr ⟨hreads, asked, hhome, hasked⟩

theorem Sound.answered {heard : List IceOutput} (h : Sound home side own heard) (peer : IcePeer)
    {datagram : Datagram} (hresponse : IsBindingResponse datagram)
    (hmarked : ChecksApart own.sent → ∀ (i : Nat) (pair : IceCheckPair),
      own.state.checkPairs.items[i]? = some pair →
        Answered own.state (transactionIdAt datagram.byteAt) pair →
          home side.other (pairAddress own.state pair)) :
    Sound home side (own.after (iceProcessPacket crypto peer own.state datagram).2) heard := by
  have hstep : CheckStep crypto own.state (.processPacket peer datagram)
      (iceProcessPacket crypto peer own.state datagram).2.1 := ⟨rfl, id⟩
  refine h.keeps hstep (keeps_iceProcessPacket_response crypto peer own.state hresponse) ?_ hmarked
  intro output hmem
  obtain ⟨candidate, rfl⟩ :=
    iceProcessPacket_response_outputs crypto peer own.state hresponse output hmem
  trivial

theorem Sound.receives (h : Sound home side own other.sent)
    (hother : Sound home side.other other own.sent) (peer : IcePeer) {datagram : Datagram}
    (harrives : Arrives home side own.sent other.sent datagram) :
    Sound home side (own.after (iceProcessPacket crypto peer own.state datagram).2)
      other.sent := by
  have hstep : CheckStep crypto own.state (.processPacket peer datagram)
      (iceProcessPacket crypto peer own.state datagram).2.1 := ⟨rfl, id⟩
  cases harrives with
  | @peer output dest hsent hpacket hdest hsource =>
      rcases packet_response hother hsent hpacket with
        ⟨hreads, hasked⟩ | ⟨hreads, asked, hhome, hasked⟩
      · have hrequest := iceProcessPacket_request crypto peer own.state hreads
        rw [hrequest] at hstep ⊢
        refine h.keeps hstep (keeps_iceMarkSource own.state datagram.source) ?_ ?_
        · intro output hmem
          rw [List.mem_singleton.mp hmem]
          obtain ⟨hmessage, hid⟩ := isMessage_response crypto datagram peer.localPwd.bytes
          refine ⟨hmessage, dest, hdest, ?_⟩
          rw [hid]
          exact hasked
        · intro _ i pair _ hfrom
          rw [pairAddress_of_isFrom hfrom]
          exact hsource
      · refine h.answered peer hreads.isBindingResponse ?_
        intro hapart i pair hpair ⟨hserver, hvalid, hid⟩
        obtain ⟨message, hcheck, hmessage⟩ := h.checks i pair hpair hvalid
        rcases hasked with ⟨i', message', hcheck', hmessage'⟩ | ⟨message', hrequest, hmessage'⟩
        · -- The check that was answered and the one sent for the pair went to one address.
          have hsame := hapart _ _ _ _ _ _ hcheck hcheck'
            (hmessage.trans (hid.trans hmessage'.symm))
          rw [hsame]
          exact hhome
        · obtain ⟨hserverValid, hserverId⟩ := h.server _ _ hrequest
          exact absurd ⟨hserverValid, hserverId.trans hmessage'⟩ hserver
  | server hasked hresponse hanswer =>
      refine h.answered peer hresponse ?_
      intro _ i pair _ hanswered
      obtain ⟨hserverValid, hserverId⟩ := h.server _ _ hasked
      exact absurd ⟨hserverValid, hserverId.trans hanswer.symm⟩ hanswered.1
  | unrelated hresponse hrequest =>
      rw [iceProcessPacket_unrelated crypto peer own.state hresponse hrequest, Party.after,
        List.append_nil]
      exact h

theorem Sound.acts (h : Sound home side own other.sent)
    (hother : Sound home side.other other own.sent) {call : IceCall}
    (hmay : May home side own.sent other.sent call) :
    Sound home side (own.after (iceCall crypto own.state call)) other.sent := by
  cases call with
  | startGathering env stunUrl => exact hmay.elim
  | addRemoteCandidate candidate =>
      have hstep : CheckStep crypto own.state (.addRemoteCandidate candidate)
          (iceAddRemoteCandidate own.state candidate).2 := ⟨rfl, id⟩
      exact h.keeps hstep (keeps_iceAddRemoteCandidate own.state candidate)
        (fun _ hmem => absurd hmem List.not_mem_nil) fun _ _ _ _ hmarked => hmarked.elim
  | processPacket peer datagram => exact h.receives hother peer hmay
  | checkConnectivity peer now clock => exact h.ticks peer now clock

end

theorem sound_gatheredParty (home : Side → SockAddr → Prop) (side : Side) (env : GatheringEnv)
    (stunUrl : Option (List UInt8)) (heard : List IceOutput) :
    Sound home side (gatheredParty env stunUrl) heard := by
  have hnone : ∀ (i : Nat) (pair : IceCheckPair),
      (gathered env stunUrl).checkPairs.items[i]? ≠ some pair := by
    intro i pair
    rw [gathered, (iceStartGathering_keeps env iceSessionCreate stunUrl).checkPairs]
    exact (Option.some_ne_none pair).symm
  refine ⟨?_, ⟨?_, ?_, ?_⟩, ?_, ?_, ?_, ?_⟩
  · exact pairsInGrid_iceCall pairsInGrid_create toyCrypto (.startGathering env stunUrl)
  · intro dest message hmem
    obtain ⟨⟨_, houtput⟩, -⟩ := iceStartGathering_output hmem
    cases houtput
    exact isMessage_stunHeader env.now
  · intro i dest message hmem
    obtain ⟨⟨_, houtput⟩, -⟩ := iceStartGathering_output hmem
    cases houtput
  · intro dest message hmem
    obtain ⟨⟨_, houtput⟩, -⟩ := iceStartGathering_output hmem
    cases houtput
  · intro dest message hmem
    obtain ⟨⟨_, houtput⟩, hvalid, hid⟩ := iceStartGathering_output hmem
    cases houtput
    exact ⟨hvalid, hid⟩
  · exact fun i pair hpair => absurd hpair (hnone i pair)
  · intro dest message hmem
    obtain ⟨⟨_, houtput⟩, -⟩ := iceStartGathering_output hmem
    cases houtput
  · exact fun _ i pair hpair => absurd hpair (hnone i pair)

theorem sound_run {crypto : Crypto} {home : Side → SockAddr → Prop}
    {env : Side → GatheringEnv} {stunUrl : Side → Option (List UInt8)}
    {labels : List (Side × IceCall)} {agents : Side → Party IceSession IceOutput}
    (hrun : Run (NetworkStep crypto home) (fun side => gatheredParty (env side) (stunUrl side))
      labels agents) (side : Side) :
    Sound home side (agents side) (agents side.other).sent :=
  @run_invariant _ _ _ _ _ (Sound home) (fun _ _ _ more h => h.append more)
    (fun _ _ _ _ h hother hmay => h.acts hother hmay) _ _ _ hrun
    (fun side => sound_gatheredParty home side (env side) (stunUrl side) _) side

/-- Whatever the network loses, doubles, delays or reorders: an agent takes no address for its
peer's that is not one, as long as checks for different addresses can be told apart. -/
theorem succeeds_at_peer {crypto : Crypto} {home : Side → SockAddr → Prop}
    {env : Side → GatheringEnv} {stunUrl : Side → Option (List UInt8)}
    {labels : List (Side × IceCall)} {agents : Side → Party IceSession IceOutput}
    (hrun : Run (NetworkStep crypto home) (fun side => gatheredParty (env side) (stunUrl side))
      labels agents) (side : Side) (hapart : ChecksApart (agents side).sent) :
    (∀ pair ∈ (agents side).state.checkPairs.items, pair.succeeded = true →
        home side.other (pairAddress (agents side).state pair)) ∧
      (iceIsConnected (agents side).state = true → ∃ (i : Nat) (pair : IceCheckPair),
        (agents side).state.selectedPair = some i ∧
          (agents side).state.checkPairs.items[i]? = some pair ∧
            home side.other (pairAddress (agents side).state pair)) := by
  have hsound := sound_run hrun side
  constructor
  · intro pair hmem hsucceeded
    obtain ⟨i, hpair⟩ := List.mem_iff_getElem?.mp hmem
    exact hsound.succeeded hapart i pair hpair hsucceeded
  · intro hconnected
    obtain ⟨i, hselected, pair, hpair, hsucceeded⟩ := iceIsConnected_iff.mp hconnected
    exact ⟨i, pair, hselected, hpair, hsound.succeeded hapart i pair hpair hsucceeded⟩

def sampleHome : Side → SockAddr
  | .left => ⟨0x0A000002, 5000⟩
  | .right => ⟨0x0A000001, 5000⟩

def sampleStart (side : Side) : Party IceSession IceOutput :=
  gatheredParty ⟨some 3, true, 5000, [(sampleHome side).addr], 1, fun _ _ => none⟩ none

/-- The first message in a log, if it is one. -/
def firstPacket (sent : List IceOutput) : Option (SockAddr × List UInt8) :=
  sent.head?.bind packet

/-- The first message of the other side, as it reaches this one. -/
def sampleArrival (agents : Side → Party IceSession IceOutput) (side : Side) : Datagram where
  bytes := ((firstPacket (agents side.other).sent).map Prod.snd).getD []
  stale _ := 0
  source := sampleHome side.other

theorem arrives_sampleArrival {agents : Side → Party IceSession IceOutput} {side : Side}
    {own : List IceOutput}
    (h : (firstPacket (agents side.other).sent).map Prod.fst = some (sampleHome side)) :
    Arrives (fun side addr => addr = sampleHome side) side own (agents side.other).sent
      (sampleArrival agents side) := by
  obtain ⟨⟨dest, message⟩, hfirst, rfl⟩ := Option.map_eq_some_iff.mp h
  obtain ⟨output, hhead, hpacket⟩ := Option.bind_eq_some_iff.mp hfirst
  refine .peer (List.mem_of_mem_head? hhead) (hpacket.trans ?_) rfl rfl
  rw [sampleArrival, hfirst]
  rfl

/-- The left agent learns the address of the right one and checks it. -/
def sampleChecked : Side → Party IceSession IceOutput :=
  [(.left, .addRemoteCandidate (sampleRemote "10.0.0.1")),
    (.left, .checkConnectivity samplePeer 1 fun _ => 1)].foldl (step (iceCall toyCrypto)) sampleStart

/-- The right agent answers. -/
def sampleAnswered : Side → Party IceSession IceOutput :=
  step (iceCall toyCrypto) sampleChecked
    (.right, .processPacket samplePeer (sampleArrival sampleChecked .right))

/-- The answer arrives twice, and the left agent selects its pair. -/
def sampleConnected : Side → Party IceSession IceOutput :=
  [(Side.left, IceCall.processPacket samplePeer (sampleArrival sampleAnswered .left)),
    (.left, .processPacket samplePeer (sampleArrival sampleAnswered .left)),
    (.left, .checkConnectivity samplePeer 2 fun _ => 2)].foldl (step (iceCall toyCrypto))
      sampleAnswered

theorem succeeds_at_peer_sample :
    iceIsConnected (sampleConnected .left).state = true ∧
      ∃ (i : Nat) (pair : IceCheckPair), (sampleConnected .left).state.selectedPair = some i ∧
        (sampleConnected .left).state.checkPairs.items[i]? = some pair ∧
          pairAddress (sampleConnected .left).state pair = sampleHome .right := by
  have hconnected : iceIsConnected (sampleConnected .left).state = true := by decide +kernel
  have hasked : (firstPacket (sampleChecked .left).sent).map Prod.fst = some (sampleHome .right) := by
    decide +kernel
  have hanswered : (firstPacket (sampleAnswered .right).sent).map Prod.fst =
      some (sampleHome .left) := by
    decide +kernel
  have harrives : ∀ own, Arrives (fun side addr => addr = sampleHome side) .left own
      (sampleAnswered .right).sent (sampleArrival sampleAnswered .left) :=
    fun _ => arrives_sampleArrival hanswered
  have hrun : Run (NetworkStep toyCrypto fun side addr => addr = sampleHome side) sampleStart
      [(.left, .addRemoteCandidate (sampleRemote "10.0.0.1")),
        (.left, .checkConnectivity samplePeer 1 fun _ => 1),
        (.right, .processPacket samplePeer (sampleArrival sampleChecked .right)),
        (.left, .processPacket samplePeer (sampleArrival sampleAnswered .left)),
        (.left, .processPacket samplePeer (sampleArrival sampleAnswered .left)),
        (.left, .checkConnectivity samplePeer 2 fun _ => 2)] sampleConnected :=
    .cons (acts_step trivial) (.cons (acts_step trivial)
      (.cons (acts_step (arrives_sampleArrival hasked)) (.cons (acts_step (harrives _))
        (.cons (acts_step (harrives _)) (.singleton (acts_step trivial))))))
  have hdest : ∀ output ∈ (sampleConnected .left).sent,
      (packet output).map Prod.fst = some (sampleHome .right) := by
    decide +kernel
  have hapart : ChecksApart (sampleConnected .left).sent := by
    intro i dest message i' dest' message' hmem hmem' _
    exact Option.some.inj ((hdest _ hmem).trans (hdest _ hmem').symm)
  exact ⟨hconnected, (succeeds_at_peer hrun .left hapart).2 hconnected⟩

end TinyRtc.IceNetwork
