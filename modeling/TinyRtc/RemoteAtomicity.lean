import TinyRtc.SecureMedia

namespace TinyRtc.RemoteAtomicity

open TinyRtc.Common
open TinyRtc.Connection
open TinyRtc.CString
open TinyRtc.Ice
open TinyRtc.Negotiation
open TinyRtc.Sdp
open TinyRtc.SdpParser
open TinyRtc.SecureMedia
open TinyRtc.SlotArray

/-- What an ICE session holds of the remote side. -/
def remoteSideOf (ice : IceSession) :
    Slots IceCandidateInternal iceMaxCandidates ×
      Slots IceCheckPair (iceMaxCandidates * iceMaxCandidates) :=
  (ice.remoteCandidates, ice.checkPairs)

/-- Nothing that the connection knows of the remote side has changed. -/
structure RemoteUnchanged (pc pc' : PeerConnection) : Prop where
  remoteSdp : pc'.remoteSdp = pc.remoteSdp
  remoteTracks : pc'.remoteTracks = pc.remoteTracks
  ice : pc'.ice.map remoteSideOf = pc.ice.map remoteSideOf

theorem RemoteUnchanged.refl (pc : PeerConnection) : RemoteUnchanged pc pc :=
  ⟨rfl, rfl, rfl⟩

def SetRemoteAtomic (locals : Locals) (trackOk : Nat → Bool) (pc : PeerConnection)
    (sdp : List UInt8) : Prop :=
  ∀ err pc' events, tinyrtcPeerConnectionSetRemoteDescription locals trackOk pc sdp =
    some (err, pc', events) → err ≠ .ok → RemoteUnchanged pc pc'

def AddCandidateAtomic (pc : PeerConnection) (candidate : IceCandidate) : Prop :=
  (tinyrtcPeerConnectionAddIceCandidate pc candidate).1 ≠ .ok →
    RemoteUnchanged pc (tinyrtcPeerConnectionAddIceCandidate pc candidate).2

/-- If the parser refuses the text, it has written the description that is there already. -/
def RefusedIsStored (locals : Locals) (pc : PeerConnection) (sdp : List UInt8) : Prop :=
  ∀ err session, sdpParse locals sdp = some (err, session) →
    err ≠ .ok → session = pc.remoteSdp

/-- A candidate that the description has room for finds room in the ICE session too. -/
def IceHasRoom (pc : PeerConnection) (candidate : IceCandidate) : Prop :=
  strcaseEq candidate.protocol (ascii "udp") = true →
    pc.remoteSdp.candidates.count < tinyrtcMaxCandidates →
      ∀ ice, pc.ice = some ice → ice.remoteCandidates.count < iceMaxCandidates

theorem setRemoteAtomic_iff (locals : Locals) (trackOk : Nat → Bool) (pc : PeerConnection)
    (sdp : List UInt8) :
    SetRemoteAtomic locals trackOk pc sdp ↔
      pc.state = .closed ∨ RefusedIsStored locals pc sdp := by
  rw [SetRemoteAtomic, tinyrtcPeerConnectionSetRemoteDescription]
  split
  · next hclosed =>
    refine iff_of_true ?_ (.inl hclosed)
    rintro err pc' events hresult -
    cases hresult
    exact .refl pc
  · next hopen =>
    constructor
    · intro hatomic
      refine .inr ?_
      intro err session hparse herr
      have hresult := hatomic err { pc with remoteSdp := session } [] (by
        rw [hparse, Option.map_some]
        dsimp only
        rw [if_pos herr]) herr
      exact hresult.remoteSdp
    · rintro (hclosed | hstored) err pc' events hresult herr
      · exact absurd hclosed hopen
      · obtain ⟨⟨err', session⟩, hparse, heq⟩ := Option.map_eq_some_iff.mp hresult
        dsimp only at heq
        split at heq
        · next hrefused =>
          cases heq
          exact ⟨hstored err session hparse hrefused, rfl, rfl⟩
        · cases heq
          exact absurd rfl herr

theorem iceAddRemoteCandidate_ok_iff (ice : IceSession) (candidate : SdpCandidate) :
    (iceAddRemoteCandidate ice candidate).1 = .ok ↔
      ice.remoteCandidates.count < iceMaxCandidates := by
  rw [iceAddRemoteCandidate]
  split
  · next hfull => exact iff_of_false (by simp) (Nat.not_lt.mpr hfull)
  · next hroom =>
    have hlt : ice.remoteCandidates.count < iceMaxCandidates := Nat.not_le.mp hroom
    refine iff_of_true ?_ hlt
    split
    · rfl
    · obtain ⟨pushed, hpush, -⟩ := Slots.push?_of_lt hlt (iceCandidateFromSdp candidate)
      rw [hpush]

theorem addCandidateAtomic_iff (pc : PeerConnection) (candidate : IceCandidate) :
    AddCandidateAtomic pc candidate ↔ IceHasRoom pc candidate := by
  rw [AddCandidateAtomic, IceHasRoom, tinyrtcPeerConnectionAddIceCandidate, sdpAddCandidate]
  cases hprotocol : strcaseEq candidate.protocol (ascii "udp") with
  | false => exact iff_of_true (fun herr => absurd rfl herr) fun hudp => by cases hudp
  | true =>
      rw [if_neg (by simp)]
      by_cases hroom : pc.remoteSdp.candidates.count < tinyrtcMaxCandidates
      · obtain ⟨pushed, hpush, hitems⟩ := Slots.push?_of_lt hroom (sdpCandidateOfIce candidate)
        rw [hpush, Option.map_some]
        dsimp only
        cases hice : pc.ice with
        | none => exact iff_of_true (fun herr => absurd rfl herr) fun _ _ _ hsome => by cases hsome
        | some ice =>
            have hok := iceAddRemoteCandidate_ok_iff ice (sdpCandidateOfIce candidate)
            constructor
            · rintro hatomic - - ice' hice'
              cases hice'
              by_contra hfull
              have hunchanged := hatomic fun hadded => hfull (hok.mp hadded)
              -- The description has one candidate more.
              have hlength := congrArg (fun sdp => sdp.candidates.items.length)
                hunchanged.remoteSdp
              dsimp only at hlength
              rw [hitems, List.length_append, List.length_singleton] at hlength
              omega
            · intro hhasRoom herr
              exact absurd (hok.mpr (hhasRoom rfl hroom ice rfl)) herr
      · have hfull : pc.remoteSdp.candidates.items.length = tinyrtcMaxCandidates :=
          Nat.le_antisymm pc.remoteSdp.candidates.length_le (Nat.not_lt.mp hroom)
        rw [Slots.push?_eq_none_iff.mpr hfull]
        exact iff_of_true (fun _ => .refl pc) fun _ hlt => absurd hlt hroom

theorem remoteErrors_atomic_iff (pc : PeerConnection) :
    (∀ locals trackOk sdp, SetRemoteAtomic locals trackOk pc sdp ↔
        pc.state = .closed ∨ RefusedIsStored locals pc sdp) ∧
      ∀ candidate, AddCandidateAtomic pc candidate ↔ IceHasRoom pc candidate :=
  ⟨fun locals trackOk sdp => setRemoteAtomic_iff locals trackOk pc sdp,
    addCandidateAtomic_iff pc⟩

/-- A version that is refused is in the session all the same. -/
theorem setRemoteAtomic_fails :
    ∃ config locals trackOk sdp,
      ¬ SetRemoteAtomic locals trackOk (tinyrtcPeerConnectionCreate config) sdp := by
  refine ⟨sampleConfig, ⟨fun _ => 0, fun _ => 0⟩, fun _ => true, ascii "v=1\n", ?_⟩
  rw [setRemoteAtomic_iff]
  rintro (hclosed | hstored)
  · cases hclosed
  · have hparse : (sdpParse ⟨fun _ => 0, fun _ => 0⟩ (ascii "v=1\n")).map
        (fun parsed => (parsed.1, parsed.2.version)) = some (.error, 1) := by
      decide +kernel
    obtain ⟨⟨err, session⟩, hsession, heq⟩ := Option.map_eq_some_iff.mp hparse
    obtain ⟨herr, hversion⟩ : err = .error ∧ session.version = 1 := Prod.mk.inj heq
    have hsame := hstored err session hsession (by rw [herr]; simp)
    rw [hsame] at hversion
    exact absurd hversion (by decide)

end TinyRtc.RemoteAtomicity
