import TinyRtc.SecureMedia

namespace TinyRtc.AnswerMedia

open TinyRtc.Common
open TinyRtc.Connection
open TinyRtc.CString
open TinyRtc.Dtls
open TinyRtc.MediaCodec
open TinyRtc.Negotiation
open TinyRtc.Sdp
open TinyRtc.SecureMedia
open TinyRtc.SlotArray
open TinyRtc.Srtp

/-- The test of `tinyrtc_peer_connection_create_answer` for a remote media entry. -/
def HasLocalTrack (pc : PeerConnection) (kind : TrackKind) : Prop :=
  ∃ track ∈ pc.localTracks.items, track.kind = kind

theorem hasLocalTrack_iff {pc : PeerConnection} {kind : TrackKind} :
    (pc.localTracks.items.any fun track => track.kind == kind) = true ↔ HasLocalTrack pc kind := by
  simp [HasLocalTrack]

theorem pcEnsureLocalDtlsMaterial_media (crypto : Crypto) (certificate : Option (List UInt8))
    (pc : PeerConnection) (session : SdpSession) :
    (pcEnsureLocalDtlsMaterial crypto certificate pc session).1.localTracks = pc.localTracks ∧
      (pcEnsureLocalDtlsMaterial crypto certificate pc session).1.remoteSdp = pc.remoteSdp ∧
      (pcEnsureLocalDtlsMaterial crypto certificate pc session).2.media = session.media := by
  obtain ⟨fingerprintType, fingerprint, hsession⟩ :=
    pcEnsureLocalDtlsMaterial_snd crypto certificate pc session
  rw [pcEnsureLocalDtlsMaterial_fst, hsession]
  split <;> exact ⟨rfl, rfl, rfl⟩

theorem pcGatherAndGenerate_media {env : DescriptionEnv} {pc pc' : PeerConnection}
    {text : Except TinyrtcError (List UInt8)} {events : List PcEvent}
    (h : pcGatherAndGenerate env pc = some (text, pc', events)) :
    pc'.localTracks = pc.localTracks ∧ pc'.remoteSdp = pc.remoteSdp ∧
      pc'.localSdp.media = pc.localSdp.media := by
  obtain ⟨candidates, outputs, rfl, rfl⟩ := pcGatherAndGenerate_cases h
  exact ⟨rfl, rfl, rfl⟩

/-- The loop of `tinyrtc_peer_connection_create_answer`: the entries that pass the
test go into the answer, if there is room. -/
theorem foldl_sdpAddMedia {p : SdpMedia → Bool} (offered : List SdpMedia) (answer : SdpSession)
    (hroom : answer.media.items.length + offered.length ≤ sdpMaxMedia) :
    (offered.foldl
      (fun answer media =>
        if p media then (sdpAddMedia answer (answerConfig media)).getD answer else answer)
      answer).media.items =
        answer.media.items ++
          (offered.filter p).map fun media => sdpMediaOfConfig (answerConfig media) := by
  induction offered generalizing answer with
  | nil => simp
  | cons media offered ih =>
      rw [List.length_cons] at hroom
      rw [List.foldl_cons]
      by_cases hp : p media = true
      · obtain ⟨pushed, hpush, hitems⟩ := answer.media.push?_of_lt (by omega)
          (sdpMediaOfConfig (answerConfig media))
        rw [if_pos hp, List.filter_cons_of_pos hp, sdpAddMedia, hpush, Option.map_some,
          Option.getD_some, ih, hitems, List.append_assoc]
        · rfl
        · rw [hitems, List.length_append, List.length_singleton]
          omega
      · rw [if_neg hp, List.filter_cons_of_neg hp]
        exact ih answer (by omega)

section

variable {crypto : Crypto} {env : DescriptionEnv} {pc pc' : PeerConnection}
  {text : Except TinyrtcError (List UInt8)} {events : List PcEvent}

theorem makeAnswer_media {session : SdpSession} {ensured : PeerConnection × SdpSession}
    (hensured : ensured = pcEnsureLocalDtlsMaterial crypto env.certificate
      { pc with state := .connecting } session)
    (h : pcGatherAndGenerate env
      { ensured.1 with
        localSdp := ensured.1.remoteSdp.media.items.foldl
          (fun answer media =>
            if ensured.1.localTracks.items.any fun track => track.kind == media.kind then
              (sdpAddMedia answer (answerConfig media)).getD answer
            else answer) ensured.2 } = some (text, pc', events))
    (hempty : session.media.items = []) :
    pc'.localTracks = pc.localTracks ∧ pc'.remoteSdp = pc.remoteSdp ∧
      pc'.localSdp.media.items =
        (pc.remoteSdp.media.items.filter fun media =>
          pc.localTracks.items.any fun track => track.kind == media.kind).map
            fun media => sdpMediaOfConfig (answerConfig media) := by
  obtain ⟨hsameTracks, hsameRemote, hsession⟩ := pcEnsureLocalDtlsMaterial_media crypto
    env.certificate { pc with state := .connecting } session
  rw [← hensured] at hsameTracks hsameRemote hsession
  obtain ⟨htracks, hremote, hmedia⟩ := pcGatherAndGenerate_media h
  refine ⟨htracks.trans hsameTracks, hremote.trans hsameRemote, ?_⟩
  rw [hmedia]
  dsimp only
  rw [hsameTracks, hsameRemote, foldl_sdpAddMedia, hsession, hempty, List.nil_append]
  rw [hsession, hempty]
  exact (Nat.zero_add _).trans_le pc.remoteSdp.media.length_le

theorem createAnswer_media
    (h : tinyrtcPeerConnectionCreateAnswer crypto env pc = some (text, pc', events))
    (hopen : pc.state ≠ .closed) :
    pc'.localTracks = pc.localTracks ∧ pc'.remoteSdp = pc.remoteSdp ∧
      pc'.localSdp.media.items =
        (pc.remoteSdp.media.items.filter fun media =>
          pc.localTracks.items.any fun track => track.kind == media.kind).map
            fun media => sdpMediaOfConfig (answerConfig media) := by
  rw [tinyrtcPeerConnectionCreateAnswer, if_neg hopen] at h
  exact makeAnswer_media rfl h rfl

/-- An entry of the answer belongs to an entry of the offer. -/
structure MirrorsEntry (pc : PeerConnection) (offered answered : SdpMedia) : Prop where
  kind : answered.kind = offered.kind
  mid : answered.mid = offered.mid
  inactive : ¬ HasLocalTrack pc offered.kind →
    answered.directionSend = false ∧ answered.directionRecv = false

/-- The answer has the entries of the offer, in its order. -/
def MirrorsOffer (pc : PeerConnection) (answer : SdpSession) : Prop :=
  List.Forall₂ (MirrorsEntry pc) pc.remoteSdp.media.items answer.media.items

/-- The answer mirrors the offer exactly when there is a local track for every entry
of the offer. -/
theorem mirrorsOffer_iff
    (h : tinyrtcPeerConnectionCreateAnswer crypto env pc = some (text, pc', events))
    (hopen : pc.state ≠ .closed) :
    MirrorsOffer pc pc'.localSdp ↔
      ∀ media ∈ pc.remoteSdp.media.items, HasLocalTrack pc media.kind := by
  obtain ⟨-, -, hmedia⟩ := createAnswer_media h hopen
  rw [MirrorsOffer, hmedia]
  constructor
  · intro hmirrors media hmem
    -- An entry that is left out makes the answer shorter.
    have hlength := hmirrors.length_eq
    rw [List.length_map] at hlength
    exact hasLocalTrack_iff.mp (List.length_filter_eq_length_iff.mp hlength.symm media hmem)
  · intro hall
    have hfilter : (pc.remoteSdp.media.items.filter fun media =>
        pc.localTracks.items.any fun track => track.kind == media.kind) =
          pc.remoteSdp.media.items :=
      List.filter_eq_self.mpr fun media hmem => hasLocalTrack_iff.mpr (hall media hmem)
    rw [hfilter, List.forall₂_map_right_iff, List.forall₂_same]
    intro media hmem
    exact ⟨rfl, CStr.strncpy_self media.mid, fun hnone => absurd (hall media hmem) hnone⟩

end

def sampleOffer : List UInt8 :=
  ascii "m=audio 9 RTP/SAVPF 111\na=mid:0\nm=video 9 RTP/SAVPF 96\na=mid:1\n"

def sampleTrack (kind : TrackKind) (codecId : CodecId) : TrackConfig :=
  ⟨kind, ascii "v0", codecId, 0, 0, 0⟩

/-- A new connection with the tracks, after it has accepted the offer. -/
def afterOffer (tracks : List TrackConfig) (offer : List UInt8) : Option PeerConnection :=
  let pc := tracks.foldl
    (fun pc config => (tinyrtcPeerConnectionAddTrack true pc config).getD pc)
    (tinyrtcPeerConnectionCreate sampleConfig)
  match tinyrtcPeerConnectionSetRemoteDescription ⟨fun _ => 0, fun _ => 0⟩ (fun _ => true) pc
      offer with
  | some (.ok, pc, _) => some pc
  | _ => none

theorem exists_answer (tracks : List TrackConfig) (offer : List UInt8)
    (p : PeerConnection → PeerConnection → Bool)
    (h : ((afterOffer tracks offer).any fun pc =>
      (tinyrtcPeerConnectionCreateAnswer toyCrypto sampleDescriptionEnv pc).any
        fun answer => answer.1.toBool && p pc answer.2.1) = true) :
    ∃ pc text pc' events, afterOffer tracks offer = some pc ∧
      tinyrtcPeerConnectionCreateAnswer toyCrypto sampleDescriptionEnv pc =
        some (.ok text, pc', events) ∧ p pc pc' = true := by
  rw [Option.any_eq_true] at h
  obtain ⟨pc, hoffer, h⟩ := h
  rw [Option.any_eq_true] at h
  obtain ⟨⟨text, pc', events⟩, hanswer, h⟩ := h
  cases text with
  | error err => cases h
  | ok text => exact ⟨pc, text, pc', events, hoffer, hanswer, h⟩

theorem mirrorsOffer_sampleOffer :
    ∃ pc text pc' events,
      afterOffer [sampleTrack .video .h264, sampleTrack .audio .opus] sampleOffer = some pc ∧
      tinyrtcPeerConnectionCreateAnswer toyCrypto sampleDescriptionEnv pc =
        some (.ok text, pc', events) ∧ MirrorsOffer pc pc'.localSdp := by
  obtain ⟨pc, text, pc', events, hoffer, hanswer, hp⟩ := exists_answer
    [sampleTrack .video .h264, sampleTrack .audio .opus] sampleOffer
    (fun pc _ => decide (pc.state ≠ .closed ∧
      ∀ media ∈ pc.remoteSdp.media.items, ∃ track ∈ pc.localTracks.items, track.kind = media.kind))
    (by decide +kernel)
  obtain ⟨hopen, htracks⟩ := of_decide_eq_true hp
  exact ⟨pc, text, pc', events, hoffer, hanswer, (mirrorsOffer_iff hanswer hopen).mpr htracks⟩

/-- Without a local audio track the answer has no audio entry, so its first entry is
the second of the offer. -/
theorem mirrorsOffer_fails :
    ∃ pc text pc' events, afterOffer [sampleTrack .video .h264] sampleOffer = some pc ∧
      tinyrtcPeerConnectionCreateAnswer toyCrypto sampleDescriptionEnv pc =
        some (.ok text, pc', events) ∧ ¬ MirrorsOffer pc pc'.localSdp := by
  obtain ⟨pc, text, pc', events, hoffer, hanswer, hp⟩ := exists_answer [sampleTrack .video .h264]
    sampleOffer
    (fun pc pc' => decide (pc'.localSdp.media.items.length ≠ pc.remoteSdp.media.items.length))
    (by decide +kernel)
  refine ⟨pc, text, pc', events, hoffer, hanswer, fun hmirrors => ?_⟩
  exact of_decide_eq_true hp hmirrors.length_eq.symm

end TinyRtc.AnswerMedia
