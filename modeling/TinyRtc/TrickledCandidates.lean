import TinyRtc.IceMatching
import TinyRtc.LocalTracks
import TinyRtc.SdpTextLines

namespace TinyRtc.TrickledCandidates

open TinyRtc.AnswerMedia
open TinyRtc.BigEndian
open TinyRtc.CallEffects
open TinyRtc.Common
open TinyRtc.Connection
open TinyRtc.CString
open TinyRtc.Dtls
open TinyRtc.Ice
open TinyRtc.IceMatching
open TinyRtc.Inet
open TinyRtc.LabelledRuns
open TinyRtc.LocalTracks
open TinyRtc.Negotiation
open TinyRtc.ProcessEvents
open TinyRtc.Sdp
open TinyRtc.SdpParser
open TinyRtc.SdpTextLines
open TinyRtc.SecureMedia
open TinyRtc.SlotArray
open TinyRtc.Srtp

/-- What of a list of candidates an ICE session takes: the UDP ones. -/
def udpEntries (candidates : List SdpCandidate) : List IceCandidateInternal :=
  (candidates.filter fun candidate => strcaseEq candidate.protocol.bytes (ascii "udp")).map
    iceCandidateFromSdp

@[simp] theorem udpEntries_nil : udpEntries [] = [] := rfl

theorem udpEntries_append (first second : List SdpCandidate) :
    udpEntries (first ++ second) = udpEntries first ++ udpEntries second := by
  rw [udpEntries, List.filter_append, List.map_append]
  rfl

theorem udpEntries_cons (candidate : SdpCandidate) (candidates : List SdpCandidate) :
    udpEntries (candidate :: candidates) = udpEntries [candidate] ++ udpEntries candidates :=
  udpEntries_append [candidate] candidates

theorem udpEntries_length_le (candidates : List SdpCandidate) :
    (udpEntries candidates).length ≤ candidates.length := by
  rw [udpEntries, List.length_map]
  exact List.length_filter_le _ _

theorem iceAddRemoteCandidate_remote (ice : IceSession) (candidate : SdpCandidate) :
    ((iceAddRemoteCandidate ice candidate).1 = .ok →
      (iceAddRemoteCandidate ice candidate).2.remoteCandidates.items =
        ice.remoteCandidates.items ++ udpEntries [candidate]) ∧
    ((iceAddRemoteCandidate ice candidate).1 ≠ .ok →
      (iceAddRemoteCandidate ice candidate).2 = ice ∧
        ice.remoteCandidates.items.length = iceMaxCandidates) := by
  have hle := ice.remoteCandidates.length_le
  rw [iceAddRemoteCandidate]
  split
  · next hfull =>
    exact ⟨(fun h => by cases h), fun _ => ⟨rfl, Nat.le_antisymm hle hfull⟩⟩
  · split
    · next hprotocol =>
      refine ⟨fun _ => ?_, fun h => absurd rfl h⟩
      rw [udpEntries, List.filter_cons_of_neg (by simpa using hprotocol)]
      simp
    · next hprotocol =>
      split
      · next hpush =>
        exact ⟨(fun h => by cases h), fun _ => ⟨rfl, Slots.push?_eq_none_iff.mp hpush⟩⟩
      · next pushed hpush =>
        refine ⟨fun _ => ?_, fun h => absurd rfl h⟩
        have hitems := Slots.push?_items hpush
        rw [udpEntries, List.filter_cons_of_pos (by simpa using hprotocol)]
        exact hitems

theorem iceAddRemoteCandidate_of_room (ice : IceSession) (candidate : SdpCandidate)
    (hroom : ice.remoteCandidates.items.length + (udpEntries [candidate]).length ≤
      iceMaxCandidates) :
    (iceAddRemoteCandidate ice candidate).2.remoteCandidates.items =
      ice.remoteCandidates.items ++ udpEntries [candidate] := by
  obtain ⟨hok, herror⟩ := iceAddRemoteCandidate_remote ice candidate
  by_cases herr : (iceAddRemoteCandidate ice candidate).1 = .ok
  · exact hok herr
  · obtain ⟨hsame, hfull⟩ := herror herr
    have hnone : udpEntries [candidate] = [] := List.eq_nil_of_length_eq_zero (by omega)
    rw [hsame, hnone, List.append_nil]

theorem foldl_iceAddRemoteCandidate (candidates : List SdpCandidate) (ice : IceSession)
    (hroom : ice.remoteCandidates.items.length + (udpEntries candidates).length ≤
      iceMaxCandidates) :
    (candidates.foldl (fun ice candidate => (iceAddRemoteCandidate ice candidate).2)
      ice).remoteCandidates.items = ice.remoteCandidates.items ++ udpEntries candidates := by
  induction candidates generalizing ice with
  | nil => simp
  | cons candidate candidates ih =>
      rw [udpEntries_cons, List.length_append] at hroom
      have hfirst := iceAddRemoteCandidate_of_room ice candidate (by omega)
      rw [List.foldl_cons, ih, hfirst, udpEntries_cons candidate candidates, List.append_assoc]
      rw [hfirst, List.length_append]
      omega

section

variable {crypto : Crypto} {env : DescriptionEnv} {pc pc' : PeerConnection}
  {text : Except TinyrtcError (List UInt8)} {events : List PcEvent}

theorem pcGatherAndGenerate_remote (h : pcGatherAndGenerate env pc = some (text, pc', events)) :
    pc'.state = pc.state ∧ ∃ ice, pc'.ice = some ice ∧
      ice.remoteCandidates.items = udpEntries pc.remoteSdp.candidates.items := by
  obtain ⟨candidates, outputs, rfl, rfl⟩ := pcGatherAndGenerate_cases h
  have hempty : (iceStartGathering env.gathering iceSessionCreate
      pc.config.stunServer).2.1.remoteCandidates.items = [] := by
    rw [(iceStartGathering_keeps ..).remoteCandidates]
    rfl
  have hreplayed := foldl_iceAddRemoteCandidate pc.remoteSdp.candidates.items
    (iceStartGathering env.gathering iceSessionCreate pc.config.stunServer).2.1 (by
      rw [hempty, List.length_nil, Nat.zero_add]
      exact (udpEntries_length_le _).trans pc.remoteSdp.candidates.length_le)
  rw [hempty, List.nil_append] at hreplayed
  exact ⟨rfl, _, rfl, hreplayed⟩

theorem pcEnsureLocalDtlsMaterial_state (crypto : Crypto) (certificate : Option (List UInt8))
    (pc : PeerConnection) (session : SdpSession) :
    (pcEnsureLocalDtlsMaterial crypto certificate pc session).1.state = pc.state := by
  rw [pcEnsureLocalDtlsMaterial_fst]
  split <;> rfl

theorem makeDescription_remote {session localSdp : SdpSession}
    (h : pcGatherAndGenerate env
      { (pcEnsureLocalDtlsMaterial crypto env.certificate
          { pc with state := .connecting } session).1 with localSdp := localSdp } =
        some (text, pc', events)) :
    pc'.state = .connecting ∧ ∃ ice, pc'.ice = some ice ∧
      ice.remoteCandidates.items = udpEntries pc.remoteSdp.candidates.items := by
  obtain ⟨hstate, ice, hice, hitems⟩ := pcGatherAndGenerate_remote h
  have hremote := (pcEnsureLocalDtlsMaterial_media crypto env.certificate
    { pc with state := .connecting } session).2.1
  refine ⟨hstate.trans (pcEnsureLocalDtlsMaterial_state _ _ _ _), ice, hice, ?_⟩
  rw [hitems]
  exact congrArg (fun sdp : SdpSession => udpEntries sdp.candidates.items) hremote

end

/-- The remote candidates that the connection holds: those of its ICE session, or
those that a new session would get. -/
def storedEntries (pc : PeerConnection) : List IceCandidateInternal :=
  match pc.ice with
  | none => udpEntries pc.remoteSdp.candidates.items
  | some ice => ice.remoteCandidates.items

/-- The UDP candidates that a call comes with: of a description, those of all its candidate
lines. -/
def givenEntries : PcCall → List IceCandidateInternal
  | .addIceCandidate candidate =>
      if strcaseEq candidate.protocol (ascii "udp") then
        [iceCandidateFromSdp (sdpCandidateOfIce candidate)]
      else []
  | .setRemoteDescription _ _ sdp => udpEntries (textCandidates sdp)
  | _ => []

/-- Those of them that there is room for: of a description, those among the first 32
candidates, of any protocol, that the line loop comes to. -/
def takenEntries : PcCall → List IceCandidateInternal
  | .setRemoteDescription locals _ sdp =>
      udpEntries ((visitCandidates (textVisits locals sdp)).take tinyrtcMaxCandidates)
  | call => givenEntries call

theorem takenEntries_sublist (call : PcCall) :
    (takenEntries call).Sublist (givenEntries call) := by
  cases call with
  | setRemoteDescription locals trackOk sdp =>
      have hread := (List.take_sublist tinyrtcMaxCandidates _).trans
        (visitCandidates_sublist locals sdp)
      exact (hread.filter _).map iceCandidateFromSdp
  | _ => exact List.Sublist.refl _

def returnsOk (pc : PeerConnection) : PcCall → Bool
  | .addIceCandidate candidate => (tinyrtcPeerConnectionAddIceCandidate pc candidate).1 == .ok
  | .setRemoteDescription locals trackOk sdp =>
      (tinyrtcPeerConnectionSetRemoteDescription locals trackOk pc sdp).any (·.1 == .ok)
  | _ => false

def promisedEntries (pc : PeerConnection) (call : PcCall) : List IceCandidateInternal :=
  if returnsOk pc call then givenEntries call else []

def keptEntries (pc : PeerConnection) (call : PcCall) : List IceCandidateInternal :=
  if returnsOk pc call then takenEntries call else []

def unreadEntries (pc : PeerConnection) (call : PcCall) : List IceCandidateInternal :=
  (promisedEntries pc call).filter fun entry => decide (entry ∉ takenEntries call)

theorem keptEntries_length_le (pc : PeerConnection) (call : PcCall) :
    (keptEntries pc call).length ≤ (givenEntries call).length := by
  rw [keptEntries]
  split
  · exact (takenEntries_sublist call).length_le
  · exact Nat.zero_le _

/-- What is accepted is kept, or not read. -/
theorem mem_promisedEntries {pc : PeerConnection} {call : PcCall} {entry : IceCandidateInternal}
    (h : entry ∈ promisedEntries pc call) :
    entry ∈ unreadEntries pc call ∨ entry ∈ keptEntries pc call := by
  by_cases htaken : entry ∈ takenEntries call
  · refine .inr ?_
    rw [promisedEntries] at h
    split at h
    · next hok =>
      rw [keptEntries, if_pos hok]
      exact htaken
    · cases h
  · exact .inl (List.mem_filter.mpr ⟨h, decide_eq_true htaken⟩)

theorem toUpper_zero : toUpper 0x00 = 0x00 := by
  decide

theorem strncpy_udp {protocol : List UInt8} (h : strcaseEq protocol (ascii "udp") = true) :
    (CStr.strncpy protocol : CStr 16).bytes = protocol := by
  have hmap : protocol.map toUpper = (ascii "udp").map toUpper := eq_of_beq h
  have hlength : protocol.length = 3 := by
    simpa [ascii] using congrArg List.length hmap
  have hnul : 0x00 ∉ protocol := by
    intro hc
    have hmem : toUpper 0x00 ∈ (ascii "udp").map toUpper := hmap ▸ List.mem_map_of_mem hc
    rw [toUpper_zero] at hmem
    revert hmem
    decide
  change (protocol.takeWhile (· != 0x00)).take 15 = protocol
  rw [List.takeWhile_eq_self_iff.mpr (bne_of_not_mem hnul), List.take_of_length_le (by omega)]

theorem udpEntries_of_udp {candidate : IceCandidate}
    (h : strcaseEq candidate.protocol (ascii "udp") = true) :
    udpEntries [sdpCandidateOfIce candidate] =
      [iceCandidateFromSdp (sdpCandidateOfIce candidate)] := by
  have hprotocol : (sdpCandidateOfIce candidate).protocol.bytes = candidate.protocol :=
    strncpy_udp h
  rw [udpEntries, List.filter_cons_of_pos (by rw [hprotocol]; exact h)]
  rfl

theorem addIceCandidate_stored (pc : PeerConnection) (candidate : IceCandidate) :
    (tinyrtcPeerConnectionAddIceCandidate pc candidate).2.state = pc.state ∧
      storedEntries (tinyrtcPeerConnectionAddIceCandidate pc candidate).2 =
        storedEntries pc ++ keptEntries pc (.addIceCandidate candidate) := by
  have htaken : takenEntries (.addIceCandidate candidate) =
      givenEntries (.addIceCandidate candidate) := rfl
  rw [keptEntries, returnsOk, htaken, givenEntries, tinyrtcPeerConnectionAddIceCandidate]
  by_cases hudp : strcaseEq candidate.protocol (ascii "udp") = true
  · rw [hudp]
    simp only [Bool.not_true, Bool.false_eq_true, if_false, if_true]
    cases hadd : sdpAddCandidate pc.remoteSdp candidate with
    | none => exact ⟨rfl, by simp⟩
    | some remoteSdp =>
        obtain ⟨candidates, hpush, rfl⟩ := Option.map_eq_some_iff.mp hadd
        cases hice : pc.ice with
        | none =>
            refine ⟨rfl, ?_⟩
            simp only [storedEntries, hice, Slots.push?_items hpush, udpEntries_append,
              udpEntries_of_udp hudp, beq_self_eq_true, if_true]
        | some ice =>
            obtain ⟨hok, herror⟩ := iceAddRemoteCandidate_remote ice (sdpCandidateOfIce candidate)
            refine ⟨rfl, ?_⟩
            simp only [storedEntries, hice]
            by_cases herr : (iceAddRemoteCandidate ice (sdpCandidateOfIce candidate)).1 = .ok
            · rw [hok herr, herr, udpEntries_of_udp hudp]
              simp
            · rw [(herror herr).1, beq_false_of_ne herr]
              simp
  · rw [Bool.not_eq_true] at hudp
    simp [hudp]

section

variable {pc pc' : PeerConnection} {locals : Locals} {trackOk : Nat → Bool} {sdp : List UInt8}
  {err : TinyrtcError} {events : List PcEvent}

/-- Without an ICE session a description takes the place of all that is stored. -/
theorem setRemoteDescription_none (hopen : pc.state ≠ .closed) (hice : pc.ice = none)
    (h : tinyrtcPeerConnectionSetRemoteDescription locals trackOk pc sdp =
      some (err, pc', events)) :
    pc'.state = pc.state ∧
      storedEntries pc' = takenEntries (.setRemoteDescription locals trackOk sdp) := by
  rcases setRemoteDescription_cases h with
    ⟨hclosed, -⟩ | ⟨session, hparse, ⟨-, rfl, -⟩ | ⟨-, ⟨remoteTracks, rfl⟩, -⟩⟩
  · exact absurd hclosed hopen
  · rw [takenEntries, ← sdpParse_candidates hparse]
    simp only [storedEntries, hice]
    exact ⟨trivial, trivial⟩
  · rw [takenEntries, ← sdpParse_candidates hparse]
    simp only [storedEntries, hice, Option.map_none]
    exact ⟨trivial, trivial⟩

/-- With an ICE session it adds to what is stored, as long as there is room. -/
theorem setRemoteDescription_some (hopen : pc.state ≠ .closed) {ice : IceSession}
    (hice : pc.ice = some ice)
    (h : tinyrtcPeerConnectionSetRemoteDescription locals trackOk pc sdp =
      some (err, pc', events)) :
    pc'.state = pc.state ∧
      ((storedEntries pc).length +
          (takenEntries (.setRemoteDescription locals trackOk sdp)).length ≤ iceMaxCandidates →
        storedEntries pc' =
          storedEntries pc ++ keptEntries pc (.setRemoteDescription locals trackOk sdp)) := by
  have hresultOk : returnsOk pc (.setRemoteDescription locals trackOk sdp) = (err == .ok) := by
    rw [returnsOk, h]
    rfl
  rw [keptEntries, hresultOk]
  rcases setRemoteDescription_cases h with
    ⟨hclosed, -⟩ | ⟨session, hparse, ⟨herr, rfl, -⟩ | ⟨rfl, ⟨remoteTracks, rfl⟩, -⟩⟩
  · exact absurd hclosed hopen
  · rw [beq_false_of_ne herr]
    simp only [storedEntries, hice, Bool.false_eq_true, if_false, List.append_nil]
    exact ⟨trivial, fun _ => trivial⟩
  · rw [takenEntries, ← sdpParse_candidates hparse]
    simp only [storedEntries, hice, Option.map_some, beq_self_eq_true, if_true]
    exact ⟨trivial, foldl_iceAddRemoteCandidate _ _⟩

end

/-- A connection, with what its calls so far have come with: how many UDP candidates,
which of them have been accepted, which of these came before the last description that
was set without an ICE session, and which of those that came with it and behind it have not
been read, and which have been supplied. -/
structure Trickled where
  pc : PeerConnection
  given : Nat
  promised : List IceCandidateInternal
  overwritten : List IceCandidateInternal
  unread : List IceCandidateInternal
  supplied : List IceCandidateInternal

def Trickled.start (config : PcConfig) : Trickled :=
  ⟨tinyrtcPeerConnectionCreate config, 0, [], [], [], []⟩

/-- A description that is set without an ICE session. -/
def overwrites (pc : PeerConnection) : PcCall → Bool
  | .setRemoteDescription _ _ _ => pc.ice.isNone
  | _ => false

def Trickled.record (s : Trickled) (call : PcCall) (pc' : PeerConnection) : Trickled where
  pc := pc'
  given := s.given + (givenEntries call).length
  promised := s.promised ++ promisedEntries s.pc call
  overwritten := if overwrites s.pc call then s.promised else s.overwritten
  unread :=
    if overwrites s.pc call then unreadEntries s.pc call
    else s.unread ++ unreadEntries s.pc call
  supplied :=
    if overwrites s.pc call then takenEntries call
    else s.supplied ++ keptEntries s.pc call

/-- The calls of these runs, with one call that makes a description. -/
def IsTrickle (pc : PeerConnection) : PcCall → Prop
  | .addTrack _ _ => True
  | .removeTrack _ => True
  | .addIceCandidate _ => True
  | .setRemoteDescription _ _ _ => True
  | .createOffer _ => pc.ice = none
  | .createAnswer _ => pc.ice = none
  | _ => False

def TrickledStep (crypto : Crypto) (hostOrder : UInt32 → List UInt8) (s : Trickled) (call : PcCall)
    (s' : Trickled) : Prop :=
  IsTrickle s.pc call ∧ ∃ events pc', PcStep crypto hostOrder s.pc (call, events) pc' ∧
    s' = s.record call pc'

structure Keeps (s : Trickled) : Prop where
  isOpen : s.pc.state ≠ .closed
  promised : ∀ entry ∈ s.promised, entry ∈ s.overwritten ∨ entry ∈ s.unread ∨ entry ∈ s.supplied
  overwritten : ∀ entry ∈ s.overwritten, entry ∈ s.promised
  unread : ∀ entry ∈ s.unread, entry ∈ s.promised
  supplied_le : s.supplied.length ≤ s.given
  stored : s.given ≤ iceMaxCandidates → storedEntries s.pc = s.supplied

section

variable {s : Trickled} {call : PcCall} {pc' : PeerConnection}

theorem Keeps.of_adds (hs : Keeps s) (hcall : overwrites s.pc call = false)
    (hopen : pc'.state ≠ .closed)
    (hstored : s.given + (givenEntries call).length ≤ iceMaxCandidates →
      storedEntries pc' = storedEntries s.pc ++ keptEntries s.pc call) :
    Keeps (s.record call pc') := by
  have hle := keptEntries_length_le s.pc call
  have hsupplied := hs.supplied_le
  constructor
  · exact hopen
  · simp only [Trickled.record, hcall, Bool.false_eq_true, if_false]
    intro entry hentry
    rcases List.mem_append.mp hentry with hentry | hentry
    · rcases hs.promised entry hentry with hentry | hentry | hentry
      · exact .inl hentry
      · exact .inr (.inl (List.mem_append_left _ hentry))
      · exact .inr (.inr (List.mem_append_left _ hentry))
    · rcases mem_promisedEntries hentry with hentry | hentry
      · exact .inr (.inl (List.mem_append_right _ hentry))
      · exact .inr (.inr (List.mem_append_right _ hentry))
  · simp only [Trickled.record, hcall, Bool.false_eq_true, if_false]
    exact fun entry hentry => List.mem_append_left _ (hs.overwritten entry hentry)
  · simp only [Trickled.record, hcall, Bool.false_eq_true, if_false]
    intro entry hentry
    rcases List.mem_append.mp hentry with hentry | hentry
    · exact List.mem_append_left _ (hs.unread entry hentry)
    · exact List.mem_append_right _ (List.mem_of_mem_filter hentry)
  · simp only [Trickled.record, hcall, Bool.false_eq_true, if_false, List.length_append]
    omega
  · simp only [Trickled.record, hcall, Bool.false_eq_true, if_false]
    intro hgiven
    rw [hstored hgiven, hs.stored (by omega)]

theorem Keeps.of_same (hs : Keeps s) (hcall : overwrites s.pc call = false)
    (hnone : takenEntries call = []) (hopen : pc'.state ≠ .closed)
    (hstored : storedEntries pc' = storedEntries s.pc) : Keeps (s.record call pc') := by
  refine hs.of_adds hcall hopen fun _ => ?_
  rw [hstored, keptEntries, hnone, ite_self, List.append_nil]

theorem keeps_of_overwrites (hcall : overwrites s.pc call = true) (hopen : pc'.state ≠ .closed)
    (hstored : storedEntries pc' = takenEntries call) :
    Keeps (s.record call pc') := by
  constructor
  · exact hopen
  · simp only [Trickled.record, hcall, if_true]
    intro entry hentry
    rcases List.mem_append.mp hentry with hentry | hentry
    · exact .inl hentry
    · rcases mem_promisedEntries hentry with hentry | hentry
      · exact .inr (.inl hentry)
      · rw [keptEntries] at hentry
        split at hentry
        · exact .inr (.inr hentry)
        · cases hentry
  · simp only [Trickled.record, hcall, if_true]
    exact fun entry hentry => List.mem_append_left _ hentry
  · simp only [Trickled.record, hcall, if_true]
    exact fun entry hentry => List.mem_append_right _ (List.mem_of_mem_filter hentry)
  · simp only [Trickled.record, hcall, if_true]
    have hle := (takenEntries_sublist call).length_le
    omega
  · simp only [Trickled.record, hcall, if_true]
    exact fun _ => hstored

variable {crypto : Crypto} {hostOrder : UInt32 → List UInt8} {s' : Trickled}

theorem keeps_step (hs : Keeps s) (h : TrickledStep crypto hostOrder s call s') : Keeps s' := by
  obtain ⟨htrickle, events, pc', hstep, rfl⟩ := h
  cases pcCall_course hstep with
  | addTrack localTracks => exact hs.of_same rfl rfl hs.isOpen rfl
  | removeTrack localTracks => exact hs.of_same rfl rfl hs.isOpen rfl
  | createOffer hoffer =>
      rw [tinyrtcPeerConnectionCreateOffer, if_neg hs.isOpen] at hoffer
      obtain ⟨hstate, ice, hice, hitems⟩ := makeDescription_remote hoffer
      have hnone : s.pc.ice = none := htrickle
      refine hs.of_same rfl rfl (by rw [hstate]; decide) ?_
      simp only [storedEntries, hice, hnone, hitems]
  | createAnswer hanswer =>
      rw [tinyrtcPeerConnectionCreateAnswer, if_neg hs.isOpen] at hanswer
      obtain ⟨hstate, ice, hice, hitems⟩ := makeDescription_remote hanswer
      have hnone : s.pc.ice = none := htrickle
      refine hs.of_same rfl rfl (by rw [hstate]; decide) ?_
      simp only [storedEntries, hice, hnone, hitems]
  | @setRemoteDescription locals trackOk sdp err pc' events hset =>
      cases hice : s.pc.ice with
      | none =>
          obtain ⟨hstate, hstored⟩ := setRemoteDescription_none hs.isOpen hice hset
          refine keeps_of_overwrites ?_ (hstate ▸ hs.isOpen) hstored
          rw [overwrites, hice]
          rfl
      | some ice =>
          obtain ⟨hstate, hstored⟩ := setRemoteDescription_some hs.isOpen hice hset
          refine hs.of_adds ?_ (hstate ▸ hs.isOpen) fun hgiven => hstored ?_
          · rw [overwrites, hice]
            rfl
          · have hsupplied := hs.supplied_le
            have hle := (takenEntries_sublist (.setRemoteDescription locals trackOk sdp)).length_le
            rw [hs.stored (by omega)]
            exact Nat.le_trans (Nat.add_le_add hsupplied hle) hgiven
  | addIceCandidate candidate =>
      obtain ⟨hstate, hstored⟩ := addIceCandidate_stored s.pc candidate
      exact hs.of_adds rfl (hstate ▸ hs.isOpen) fun _ => hstored
  | _ => exact htrickle.elim

end

/-- After a run with one call that makes a description, every candidate that has been
accepted is in the ICE session exactly when those that a description has overwritten
before that call, and those that have not been read, have been supplied again. -/
theorem promised_stored_iff {crypto : Crypto} {hostOrder : UInt32 → List UInt8}
    {config : PcConfig} {calls : List PcCall} {s : Trickled} {ice : IceSession}
    (hrun : Run (TrickledStep crypto hostOrder) (.start config) calls s)
    (hice : s.pc.ice = some ice) (hgiven : s.given ≤ iceMaxCandidates) :
    (∀ entry ∈ s.promised, entry ∈ ice.remoteCandidates.items) ↔
      ∀ entry ∈ s.overwritten ++ s.unread, entry ∈ s.supplied := by
  have hstart : Keeps (.start config) := by
    refine ⟨nofun, ?_, ?_, ?_, Nat.le_refl _, fun _ => rfl⟩
    · exact fun _ hentry => absurd hentry List.not_mem_nil
    · exact fun _ hentry => absurd hentry List.not_mem_nil
    · exact fun _ hentry => absurd hentry List.not_mem_nil
  have hs : Keeps s := hrun.invariant (I := Keeps) (fun _ _ _ => keeps_step) hstart
  have hstored : ice.remoteCandidates.items = s.supplied := by
    have hentries := hs.stored hgiven
    simp only [storedEntries, hice] at hentries
    exact hentries
  rw [hstored]
  constructor
  · intro hall entry hentry
    rcases List.mem_append.mp hentry with hentry | hentry
    · exact hall entry (hs.overwritten entry hentry)
    · exact hall entry (hs.unread entry hentry)
  · intro hagain entry hentry
    rcases hs.promised entry hentry with hentry | hentry | hentry
    · exact hagain entry (List.mem_append_left _ hentry)
    · exact hagain entry (List.mem_append_right _ hentry)
    · exact hentry

instance (pc : PeerConnection) : DecidablePred (IsTrickle pc)
  | .addTrack _ _ | .removeTrack _ | .addIceCandidate _ | .setRemoteDescription _ _ _ =>
      isTrue trivial
  | .createOffer _ | .createAnswer _ => decidable_of_iff _ Option.isNone_iff_eq_none
  | .close | .sendAudioFrame _ _ _ _ | .sendVideoFrame _ _ _ _ | .processEvents _ => isFalse id

def trickle (s : Trickled) : List PcCall → Option Trickled
  | [] => some s
  | call :: calls =>
      if IsTrickle s.pc call then
        (pcCall toyCrypto write32 s.pc call).bind fun (pc', _) => trickle (s.record call pc') calls
      else none

theorem run_trickle {s s' : Trickled} {calls : List PcCall} (h : trickle s calls = some s') :
    Run (TrickledStep toyCrypto write32) s calls s' := by
  induction calls generalizing s with
  | nil =>
      cases h
      exact .nil _
  | cons call calls ih =>
      rw [trickle] at h
      split at h
      · next htrickle =>
        obtain ⟨⟨pc', events⟩, hcall, hrest⟩ := Option.bind_eq_some_iff.mp h
        exact .cons ⟨htrickle, events, pc', hcall, rfl⟩ (ih hrest)
      · cases h

def sampleCandidate : IceCandidate :=
  ⟨ascii "1", 1, ascii "10.0.0.1", 5000, ascii "host", ascii "udp", false⟩

def sampleDescription : PcCall :=
  .setRemoteDescription ⟨fun _ => 0, fun _ => 0⟩ (fun _ => true) (ascii "m=audio 1 UDP 0\n")

theorem exists_trickled (calls : List PcCall) (p : Trickled → IceSession → Bool)
    (h : ((trickle (.start sampleConfig) calls).any fun s => s.pc.ice.any (p s)) = true) :
    ∃ s ice, Run (TrickledStep toyCrypto write32) (.start sampleConfig) calls s ∧
      s.pc.ice = some ice ∧ p s ice = true := by
  rw [Option.any_eq_true] at h
  obtain ⟨s, hcalls, hs⟩ := h
  rw [Option.any_eq_true] at hs
  obtain ⟨ice, hice, hp⟩ := hs
  exact ⟨s, ice, run_trickle hcalls, hice, hp⟩

/-- A description with a candidate of its own. -/
def sampleOffer : PcCall :=
  .setRemoteDescription ⟨fun _ => 0, fun _ => 0⟩ (fun _ => true)
    (ascii "m=audio 1 UDP 0\na=candidate:2 1 udp 9 10.0.0.2 5001 typ host\n")

/-- It is kept, and so is a candidate that comes behind the offer. -/
theorem promised_stored_sampleCandidate :
    ∃ s ice, Run (TrickledStep toyCrypto write32) (.start sampleConfig)
        [sampleOffer, .addIceCandidate sampleCandidate, .createAnswer sampleDescriptionEnv] s ∧
      s.pc.ice = some ice ∧ s.promised.length = 2 ∧
      ∀ entry ∈ s.promised, entry ∈ ice.remoteCandidates.items := by
  obtain ⟨s, ice, hrun, hice, hp⟩ := exists_trickled
    [sampleOffer, .addIceCandidate sampleCandidate, .createAnswer sampleDescriptionEnv]
    (fun s _ => decide (s.promised.length = 2 ∧ s.given ≤ iceMaxCandidates ∧
      ∀ entry ∈ s.overwritten ++ s.unread, entry ∈ s.supplied)) (by decide +kernel)
  obtain ⟨hpromised, hgiven, hagain⟩ := of_decide_eq_true hp
  exact ⟨s, ice, hrun, hice, hpromised, (promised_stored_iff hrun hice hgiven).mpr hagain⟩

/-- One that comes before the offer is lost. -/
theorem promised_stored_fails :
    ∃ s ice, Run (TrickledStep toyCrypto write32) (.start sampleConfig)
        [.addIceCandidate sampleCandidate, sampleDescription, .createAnswer sampleDescriptionEnv] s ∧
      s.pc.ice = some ice ∧ s.given ≤ iceMaxCandidates ∧
      ¬ ∀ entry ∈ s.promised, entry ∈ ice.remoteCandidates.items := by
  obtain ⟨s, ice, hrun, hice, hp⟩ := exists_trickled
    [.addIceCandidate sampleCandidate, sampleDescription, .createAnswer sampleDescriptionEnv]
    (fun s ice => decide (s.given ≤ iceMaxCandidates ∧
      ¬ ∀ entry ∈ s.promised, entry ∈ ice.remoteCandidates.items)) (by decide +kernel)
  obtain ⟨hgiven, hlost⟩ := of_decide_eq_true hp
  exact ⟨s, ice, hrun, hice, hgiven, hlost⟩

end TinyRtc.TrickledCandidates
