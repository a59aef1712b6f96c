import TinyRtc.SecureMedia

namespace TinyRtc.RemoteTracks

open TinyRtc.CallEffects
open TinyRtc.Common
open TinyRtc.Connection
open TinyRtc.CString
open TinyRtc.LabelledRuns
open TinyRtc.MediaCodec
open TinyRtc.Negotiation
open TinyRtc.Sdp
open TinyRtc.SdpParser
open TinyRtc.SecureMedia
open TinyRtc.SlotArray

structure MediaEntry where
  kind : TrackKind
  codecId : CodecId
  payloadType : Int32
  clockRate : UInt32
  mid : CStr 16
  deriving DecidableEq

def entryOfTrack (track : Track) : MediaEntry :=
  ⟨track.kind, track.codecId, track.payloadType, track.clockRate, track.mid⟩

def entryOfMedia (media : SdpMedia) : MediaEntry :=
  ⟨media.kind, media.codecId, media.payloadType, media.clockRate, media.mid⟩

def trackEntries (pc : PeerConnection) : List MediaEntry :=
  pc.remoteTracks.items.map entryOfTrack

def mediaEntries (session : SdpSession) : List MediaEntry :=
  session.media.items.map entryOfMedia

/-- There is one remote track for each media entry of the remote description, as it says. -/
def TracksMirror (pc : PeerConnection) : Prop :=
  trackEntries pc = mediaEntries pc.remoteSdp

/-- Tracks that are there already do no harm to a description: there are none, or its two
entries repeat them. -/
inductive Repeats {α : Type*} : (old new : List α) → Prop
  | none (new : List α) : Repeats [] new
  | one (a : α) : Repeats [a] [a, a]
  | both (a b : α) : Repeats [a, b] [a, b]

theorem take_two_iff {α : Type*} {old new : List α} (hold : old.length ≤ 2)
    (hnew : new.length ≤ 2) : (old ++ new).take 2 = new ↔ Repeats old new := by
  constructor
  · intro htake
    rcases old with _ | ⟨a, _ | ⟨b, _ | ⟨c, old⟩⟩⟩
    · exact .none new
    · cases new with
      | nil => cases htake
      | cons d new =>
          rw [List.cons_append, List.nil_append, List.take_succ_cons, List.take_succ_cons,
            List.take_zero] at htake
          cases htake
          exact .one a
    · rw [List.cons_append, List.cons_append, List.take_succ_cons, List.take_succ_cons,
        List.take_zero] at htake
      rw [← htake]
      exact .both a b
    · simp only [List.length_cons] at hold
      omega
  · rintro (_ | _ | _)
    · exact List.take_of_length_le hnew
    · rfl
    · rfl

theorem addRemoteTracks_items (media : List SdpMedia) (pc : PeerConnection) :
    (addRemoteTracks (fun _ => true) media pc).1.remoteTracks.items =
      (pc.remoteTracks.items ++ media.map remoteTrackOfMedia).take sdpMaxMedia := by
  have hfold : ∀ (entries : List (SdpMedia × Nat)) (state : PeerConnection × List PcEvent),
      (entries.foldl (addRemoteTrack fun _ => true) state).1.remoteTracks.items =
        (state.1.remoteTracks.items ++ entries.map fun entry => remoteTrackOfMedia entry.1).take
          sdpMaxMedia := by
    intro entries
    induction entries with
    | nil =>
        intro state
        rw [List.foldl_nil, List.map_nil, List.append_nil,
          List.take_of_length_le state.1.remoteTracks.length_le]
    | cons entry entries ih =>
        intro state
        rw [List.foldl_cons, ih, List.map_cons]
        cases hpush : state.1.remoteTracks.push? (remoteTrackOfMedia entry.1) with
        | none =>
            have hfull := Slots.push?_eq_none_iff.mp hpush
            have hsame : addRemoteTrack (fun _ => true) state entry = state := by
              simp only [addRemoteTrack, hpush, Bool.not_true, Bool.false_eq_true, if_false]
            rw [hsame, List.take_left' hfull, List.take_left' hfull]
        | some pushed =>
            have hadded : (addRemoteTrack (fun _ => true) state entry).1.remoteTracks = pushed := by
              simp only [addRemoteTrack, hpush, Bool.not_true, Bool.false_eq_true, if_false]
            rw [hadded, Slots.push?_items hpush, List.append_assoc]
            rfl
  have hmedia : (media.zipIdx.map fun entry => remoteTrackOfMedia entry.1) =
      media.map remoteTrackOfMedia := by
    have hfst := congrArg (List.map remoteTrackOfMedia) (List.zipIdx_map_fst 0 media)
    rwa [List.map_map] at hfst
  rw [addRemoteTracks, hfold, hmedia]

theorem setRemoteDescription_of_parse {locals : Locals} {pc : PeerConnection} {sdp : List UInt8}
    {session : SdpSession} (hopen : pc.state ≠ .closed)
    (hparse : sdpParse locals sdp = some (.ok, session)) :
    ∃ pc' events, tinyrtcPeerConnectionSetRemoteDescription locals (fun _ => true) pc sdp =
        some (.ok, pc', events) ∧
      pc'.state = pc.state ∧ pc'.remoteSdp = session ∧
      trackEntries pc' = (trackEntries pc ++ mediaEntries session).take sdpMaxMedia := by
  obtain ⟨⟨remoteTracks, hadded⟩, -⟩ := addRemoteTracks_cases (fun _ => true)
    session.media.items { pc with remoteSdp := session }
  have hitems := congrArg (List.map entryOfTrack)
    (addRemoteTracks_items session.media.items { pc with remoteSdp := session })
  rw [List.map_take, List.map_append, List.map_map] at hitems
  rw [tinyrtcPeerConnectionSetRemoteDescription, if_neg hopen, hparse, Option.map_some]
  dsimp only
  rw [if_neg (by simp)]
  generalize addRemoteTracks (fun _ => true) session.media.items
    { pc with remoteSdp := session } = result at hadded hitems ⊢
  obtain ⟨added, events⟩ := result
  dsimp only at hadded
  subst hadded
  exact ⟨_, _, rfl, rfl, rfl, hitems⟩

def DescribeStep (pc : PeerConnection) (call : Locals × List UInt8) (pc' : PeerConnection) :
    Prop :=
  ∃ events, tinyrtcPeerConnectionSetRemoteDescription call.1 (fun _ => true) pc call.2 =
    some (.ok, pc', events)

/-- The text describes the tracks that are there already, if there are any. -/
def RepeatsTracks (pc : PeerConnection) (call : Locals × List UInt8) : Prop :=
  ∀ err session, sdpParse call.1 call.2 = some (err, session) →
    Repeats (trackEntries pc) (mediaEntries session)

theorem tracksMirror_iff {pc pc' : PeerConnection} {call : Locals × List UInt8}
    (hstep : DescribeStep pc call pc') : TracksMirror pc' ↔ RepeatsTracks pc call := by
  obtain ⟨events, hresult⟩ := hstep
  rcases setRemoteDescription_cases hresult with
    ⟨hclosed, -⟩ | ⟨session, hparse, -⟩
  · rw [tinyrtcPeerConnectionSetRemoteDescription, if_pos hclosed] at hresult
    cases hresult
  · have hopen : pc.state ≠ .closed := by
      intro hclosed
      rw [tinyrtcPeerConnectionSetRemoteDescription, if_pos hclosed] at hresult
      cases hresult
    obtain ⟨pc₁, events₁, hresult₁, -, hremote, htracks⟩ := setRemoteDescription_of_parse hopen hparse
    rw [hresult] at hresult₁
    cases hresult₁
    have htake : TracksMirror pc' ↔ Repeats (trackEntries pc) (mediaEntries session) := by
      rw [TracksMirror, htracks, hremote]
      apply take_two_iff
      · rw [trackEntries, List.length_map]
        exact pc.remoteTracks.length_le
      · rw [mediaEntries, List.length_map]
        exact session.media.length_le
    rw [htake, RepeatsTracks, hparse]
    constructor
    · rintro hrepeats err session' hsame
      cases hsame
      exact hrepeats
    · exact fun hall => hall .ok session rfl

def MirrorStep (pc : PeerConnection) (call : Locals × List UInt8) (pc' : PeerConnection) : Prop :=
  DescribeStep pc call pc' ∧ TracksMirror pc'

def RepeatStep (pc : PeerConnection) (call : Locals × List UInt8) (pc' : PeerConnection) : Prop :=
  DescribeStep pc call pc' ∧ RepeatsTracks pc call

theorem mirrorRun_iff (pc pc' : PeerConnection) (calls : List (Locals × List UInt8)) :
    Run MirrorStep pc calls pc' ↔ Run RepeatStep pc calls pc' := by
  constructor
  · intro hrun
    exact hrun.mono fun _ _ _ hstep => ⟨hstep.1, (tracksMirror_iff hstep.1).mp hstep.2⟩
  · intro hrun
    exact hrun.mono fun _ _ _ hstep => ⟨hstep.1, (tracksMirror_iff hstep.1).mpr hstep.2⟩

def sampleCall : Locals × List UInt8 :=
  (⟨fun _ => 0, fun _ => 0⟩, ascii "m=audio 1 UDP 0\n")

/-- A description with one media entry that is set twice makes two tracks. -/
theorem mirrorRun_fails :
    ∃ pc, Run DescribeStep (tinyrtcPeerConnectionCreate sampleConfig) [sampleCall, sampleCall] pc ∧
      ¬ TracksMirror pc := by
  have hmedia : (sdpParse sampleCall.1 sampleCall.2).map
      (fun parsed => (parsed.1, mediaEntries parsed.2)) =
        some (.ok, [⟨.audio, .pcmu, 0, 8000, .empty⟩]) := by
    decide +kernel
  obtain ⟨⟨err, session⟩, hparse, heq⟩ := Option.map_eq_some_iff.mp hmedia
  obtain ⟨herr, hentries⟩ : err = .ok ∧ mediaEntries session = [⟨.audio, .pcmu, 0, 8000, .empty⟩] :=
    Prod.mk.inj heq
  rw [herr] at hparse
  have hnew : (tinyrtcPeerConnectionCreate sampleConfig).state ≠ .closed := by
    simp [tinyrtcPeerConnectionCreate]
  obtain ⟨pc₁, events₁, hfirst, hstate, -, htracks⟩ := setRemoteDescription_of_parse hnew hparse
  have hopen : pc₁.state ≠ .closed := by
    rw [hstate]
    simp [tinyrtcPeerConnectionCreate]
  obtain ⟨pc₂, events₂, hsecond, -⟩ := setRemoteDescription_of_parse hopen hparse
  refine ⟨pc₂, .cons ⟨events₁, hfirst⟩ (.singleton ⟨events₂, hsecond⟩), ?_⟩
  rw [tracksMirror_iff ⟨events₂, hsecond⟩]
  intro hrepeats
  have hone := hrepeats .ok session hparse
  rw [htracks, hentries] at hone
  cases hone

end TinyRtc.RemoteTracks
