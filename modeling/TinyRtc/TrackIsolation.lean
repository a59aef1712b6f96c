import TinyRtc.ComponentRuns
import TinyRtc.FrameTimestamps
import TinyRtc.MediaSessions
import TinyRtc.RemoteTrackRuns

namespace TinyRtc.TrackIsolation

open TinyRtc.BigEndian
open TinyRtc.Common
open TinyRtc.ComponentRuns
open TinyRtc.Connection
open TinyRtc.FrameTimestamps
open TinyRtc.IncomingRtp
open TinyRtc.Jitter
open TinyRtc.LabelledRuns
open TinyRtc.MediaSessions
open TinyRtc.RemoteTrackRuns
open TinyRtc.Rtp
open TinyRtc.Sdp
open TinyRtc.SecureMedia
open TinyRtc.SessionKeys
open TinyRtc.Srtp

/-- What a packet does to the track that it is for. -/
def receiveOn (observer : PcObserver) (i : Nat) (header : RtpHeader) (arrival : Arrival)
    (track : Track) : Option (TinyrtcError × Track × List PcEvent) :=
  let added : Option (TinyrtcError × Option JitterBuffer) :=
    match track.jitterBuffer with
    | none => some (.invalidArg, none)
    | some jb =>
        (tinyrtcJitterBufferAddPacket arrival.env.mallocOk jb arrival.datagram
          arrival.env.now).map fun (err, jb) => (err, some jb)
  added.map fun (err, jb) =>
    let track := { track with jitterBuffer := jb, packetsReceived := track.packetsReceived + 1 }
    if err ≠ .ok then (err, track, [])
    else
      let (err, track, frame) :=
        processTrackPacket arrival.env.reallocOk track arrival.datagram header.timestamp
      (err, track,
        frame.elim [] fun frame => frameEvents observer track.kind i frame header.timestamp)

/-- The track that a packet is for, and its header. -/
def ownerOf (pc : PeerConnection) (packet : List UInt8) : Option (Nat × RtpHeader) :=
  (tinyrtcRtpParseHeader packet).bind fun header =>
    (matchTrack pc header.payloadType).map fun i => (i, header)

section

variable {crypto : Crypto} {env : IncomingEnv} {pc pc' : PeerConnection} {packet : List UInt8}
  {i : Nat} {err : TinyrtcError} {events : List PcEvent}

theorem header_of_owner {header : RtpHeader} (howner : ownerOf pc packet = some (i, header)) :
    tinyrtcRtpParseHeader packet = some header ∧ matchTrack pc header.payloadType = some i := by
  obtain ⟨header', hparse, hmatched⟩ := Option.bind_eq_some_iff.mp howner
  obtain ⟨i', hmatch, hpair⟩ := Option.map_eq_some_iff.mp hmatched
  cases hpair
  exact ⟨hparse, hmatch⟩

theorem processPlainRtp_eq {header : RtpHeader} {track : Track}
    (howner : ownerOf pc packet = some (i, header))
    (htrack : pc.remoteTracks.items[i]? = some track) :
    processPlainRtp env pc packet =
      (receiveOn pc.config.observer i header ⟨env, packet⟩ track).map
        fun (err, track, events) => (err, setRemoteTrack pc i track, events) := by
  obtain ⟨hparse, hmatch⟩ := header_of_owner howner
  rw [processPlainRtp, hparse]
  simp only [hmatch, htrack]
  rw [receiveOn, Option.map_map]
  refine congrArg (fun f => Option.map f _) (funext fun added => ?_)
  dsimp only [Function.comp_apply]
  split
  · rfl
  · refine Prod.ext rfl (Prod.ext rfl ?_)
    dsimp only
    split
    · next hnone => rw [hnone, Option.elim_none]
    · next frame hframe => rw [hframe, Option.elim_some]

theorem processPlainRtp_unowned (howner : ownerOf pc packet = none) :
    ∃ err, processPlainRtp env pc packet = some (err, pc, []) := by
  rw [processPlainRtp]
  cases hparse : tinyrtcRtpParseHeader packet with
  | none => exact ⟨_, rfl⟩
  | some header =>
      rw [ownerOf, hparse, Option.bind_some, Option.map_eq_none_iff] at howner
      dsimp only
      rw [howner]
      exact ⟨_, rfl⟩

theorem exists_track_of_owner {header : RtpHeader} (howner : ownerOf pc packet = some (i, header)) :
    ∃ track, pc.remoteTracks.items[i]? = some track := by
  obtain ⟨hlt, -⟩ := List.findIdx?_eq_some_iff_getElem.mp (header_of_owner howner).2
  exact ⟨_, List.getElem?_eq_getElem hlt⟩

/-- A packet changes the track that it is for, and no other one. -/
theorem processPlainRtp_owned {header : RtpHeader}
    (howner : ownerOf pc packet = some (i, header))
    (h : processPlainRtp env pc packet = some (err, pc', events)) :
    ∃ track track' result, pc.remoteTracks.items[i]? = some track ∧
      pc'.remoteTracks.items[i]? = some track' ∧
      receiveOn pc.config.observer i header ⟨env, packet⟩ track = some (result, track', events) ∧
      ∀ j, j ≠ i → pc'.remoteTracks.items[j]? = pc.remoteTracks.items[j]? := by
  obtain ⟨track, htrack⟩ := exists_track_of_owner howner
  rw [processPlainRtp_eq howner htrack] at h
  obtain ⟨⟨result, track', events'⟩, hreceive, hresult⟩ := Option.map_eq_some_iff.mp h
  cases hresult
  have hlt := (List.getElem?_eq_some_iff.mp htrack).1
  exact ⟨track, track', _, htrack, List.getElem?_set_self hlt, hreceive,
    fun j hne => List.getElem?_set_ne (Ne.symm hne)⟩

theorem ownerOf_congr (hshapes : remoteShapes pc' = remoteShapes pc) (packet : List UInt8) :
    ownerOf pc' packet = ownerOf pc packet := by
  rw [ownerOf, ownerOf]
  refine congrArg _ (funext fun header => ?_)
  rw [matchTrack_eq, matchTrack_eq, hshapes]

/-- The callbacks for the track at a place. -/
def framesFor (i : Nat) (events : List PcEvent) : List PcEvent :=
  events.filter fun event =>
    match event with
    | .audioFrame track _ _ => track == i
    | .videoFrame track _ _ => track == i
    | _ => false

theorem framesFor_append (first second : List PcEvent) :
    framesFor i (first ++ second) = framesFor i first ++ framesFor i second :=
  List.filter_append ..

theorem framesFor_frameEvents (observer : PcObserver) (kind : TrackKind) (i : Nat)
    (frame : List UInt8) (timestamp : UInt32) :
    framesFor i (frameEvents observer kind i frame timestamp) =
        frameEvents observer kind i frame timestamp ∧
      ∀ j, j ≠ i → framesFor j (frameEvents observer kind i frame timestamp) = [] := by
  have hother : ∀ j, j ≠ i → (i == j) = false := fun j hne => beq_false_of_ne (Ne.symm hne)
  cases kind with
  | audio =>
      simp only [frameEvents]
      split
      · exact ⟨by simp [framesFor], fun j hne => by simp [framesFor, hother j hne]⟩
      · exact ⟨rfl, fun _ _ => rfl⟩
  | video =>
      simp only [frameEvents]
      split
      · exact ⟨by simp [framesFor], fun j hne => by simp [framesFor, hother j hne]⟩
      · exact ⟨rfl, fun _ _ => rfl⟩

theorem receiveOn_events {observer : PcObserver} {header : RtpHeader} {arrival : Arrival}
    {track track' : Track}
    (h : receiveOn observer i header arrival track = some (err, track', events)) :
    framesFor i events = events ∧ ∀ j, j ≠ i → framesFor j events = [] := by
  obtain ⟨⟨added, jb⟩, -, hresult⟩ := Option.map_eq_some_iff.mp h
  dsimp only at hresult
  split at hresult
  · cases hresult
    exact ⟨rfl, fun _ _ => rfl⟩
  · cases hresult
    cases (processTrackPacket arrival.env.reallocOk
      { track with jitterBuffer := jb, packetsReceived := track.packetsReceived + 1 }
      arrival.datagram header.timestamp).2.2 with
    | none => exact ⟨rfl, fun _ _ => rfl⟩
    | some frame => exact framesFor_frameEvents _ _ _ _ _

/-- One packet of a track, with the callbacks that it raises. -/
def TrackStep (observer : PcObserver) (i : Nat) (track : Track)
    (label : Arrival × List PcEvent) (track' : Track) : Prop :=
  ∃ header err, tinyrtcRtpParseHeader label.1.datagram = some header ∧
    receiveOn observer i header label.1 track = some (err, track', label.2)

/-- What is for the track at `i`, as it is behind the decryption. -/
def ownArrival (crypto : Crypto) (pc : PeerConnection) (i : Nat) (arrival : Arrival) :
    Option Arrival :=
  (decrypted crypto pc arrival.datagram).bind fun packet =>
    if (ownerOf pc packet).any fun owner => owner.1 == i then some ⟨arrival.env, packet⟩ else none

/-- What of a connection decides which packets are for which track. -/
structure SameReceiver (pc pc' : PeerConnection) : Prop where
  shapes : remoteShapes pc' = remoteShapes pc
  keys : pc'.srtpRx.map keysOf = pc.srtpRx.map keysOf
  config : pc'.config = pc.config

theorem SameReceiver.refl (pc : PeerConnection) : SameReceiver pc pc :=
  ⟨rfl, rfl, rfl⟩

theorem SameReceiver.trans {pc'' : PeerConnection} (hfirst : SameReceiver pc pc')
    (hsecond : SameReceiver pc' pc'') : SameReceiver pc pc'' :=
  ⟨hsecond.shapes.trans hfirst.shapes, hsecond.keys.trans hfirst.keys,
    hsecond.config.trans hfirst.config⟩

/-- The rollover counter has no part in a decryption. -/
theorem srtpDecryptPacket_congr {context context' : SrtpContext}
    (h : keysOf context' = keysOf context) (packet : List UInt8) (len : Nat) :
    (srtpDecryptPacket crypto context' packet len).error =
        (srtpDecryptPacket crypto context packet len).error ∧
      (srtpDecryptPacket crypto context' packet len).packet =
        (srtpDecryptPacket crypto context packet len).packet ∧
      (srtpDecryptPacket crypto context' packet len).len =
        (srtpDecryptPacket crypto context packet len).len := by
  have hkey : context'.key = context.key := congrArg Prod.fst h
  have hsalt : context'.salt = context.salt := congrArg Prod.snd h
  have hverify : ∀ plain tag, srtpVerifyAuth crypto context' plain tag =
      srtpVerifyAuth crypto context plain tag := by
    intro plain tag
    rw [srtpVerifyAuth, srtpVerifyAuth, hkey]
  have hderive : ∀ ssrc,
      srtpDeriveKey crypto context' ssrc = srtpDeriveKey crypto context ssrc := by
    intro ssrc
    rw [srtpDeriveKey, srtpDeriveKey, hkey, hsalt]
  rw [srtpDecryptPacket, srtpDecryptPacket]
  by_cases hlen : len < headerLen + srtpAuthTagLen
  · rw [if_pos hlen, if_pos hlen]
    exact ⟨rfl, rfl, rfl⟩
  · rw [if_neg hlen, if_neg hlen]
    dsimp only
    rw [hverify, hderive, hsalt]
    cases srtpVerifyAuth crypto context (packet.take (len - srtpAuthTagLen))
        (packet.drop (len - srtpAuthTagLen)) with
    | true => exact ⟨rfl, rfl, rfl⟩
    | false => exact ⟨rfl, rfl, rfl⟩

theorem decrypted_congr (hkeys : pc'.srtpRx.map keysOf = pc.srtpRx.map keysOf)
    (datagram : List UInt8) : decrypted crypto pc' datagram = decrypted crypto pc datagram := by
  rw [decrypted, decrypted]
  cases hrx : pc.srtpRx with
  | none =>
      rw [hrx, Option.map_none, Option.map_eq_none_iff] at hkeys
      rw [hkeys]
  | some context =>
      rw [hrx, Option.map_some] at hkeys
      obtain ⟨context', hrx', hsame⟩ := Option.map_eq_some_iff.mp hkeys
      obtain ⟨herror, hpacket, hlen⟩ :=
        @srtpDecryptPacket_congr crypto _ _ hsame datagram datagram.length
      rw [hrx']
      dsimp only
      rw [herror, hpacket, hlen]

theorem SameReceiver.ownArrival_eq (h : SameReceiver pc pc') (i : Nat) (arrival : Arrival) :
    ownArrival crypto pc' i arrival = ownArrival crypto pc i arrival := by
  rw [ownArrival, ownArrival, decrypted_congr h.keys]
  refine congrArg _ (funext fun packet => ?_)
  rw [ownerOf_congr h.shapes]

/-- A datagram is dropped by the decryption, or what is in it is handled with the same keys. -/
theorem pcProcessIncomingRtp_decrypted
    (h : pcProcessIncomingRtp crypto env pc packet = some (err, pc', events)) :
    ∃ srtpRx, srtpRx.map keysOf = pc.srtpRx.map keysOf ∧
      ((decrypted crypto pc packet = none ∧ pc' = { pc with srtpRx := srtpRx } ∧ events = []) ∨
        ∃ plain, decrypted crypto pc packet = some plain ∧
          processPlainRtp env { pc with srtpRx := srtpRx } plain = some (err, pc', events)) := by
  rw [pcProcessIncomingRtp] at h
  rw [decrypted]
  cases hrx : pc.srtpRx with
  | none =>
      rw [hrx] at h
      refine ⟨none, rfl, .inr ⟨packet, rfl, ?_⟩⟩
      rw [← hrx]
      exact h
  | some context =>
      rw [hrx] at h
      dsimp only at h ⊢
      have hkeys : keysOf (srtpDecryptPacket crypto context packet packet.length).srtp =
          keysOf context :=
        @keysOf_of_srtpStep crypto _ _ (.decrypt packet packet.length) rfl
      refine ⟨some (srtpDecryptPacket crypto context packet packet.length).srtp,
        congrArg some hkeys, ?_⟩
      split at h
      · next herr =>
        cases h
        exact .inl ⟨if_pos herr, rfl, rfl⟩
      · next hok => exact .inr ⟨_, if_neg hok, h⟩

theorem incomingStep_same {label : Arrival × List PcEvent} (h : IncomingStep crypto pc label pc') :
    SameReceiver pc pc' := by
  obtain ⟨err, hprocess⟩ := h
  obtain ⟨srtpRx, hkeys, ⟨-, rfl, -⟩ | ⟨plain, -, hplain⟩⟩ :=
    pcProcessIncomingRtp_decrypted hprocess
  · exact ⟨rfl, hkeys, rfl⟩
  · have hshapes := processPlainRtp_shapes hplain
    obtain ⟨⟨remoteTracks, rfl⟩, -⟩ := CallEffects.processPlainRtp_cases hplain
    exact ⟨hshapes, hkeys, rfl⟩

/-- How a packet shows in one track: it is a packet of the track, or the track does not see it. -/
theorem incomingStep_shows {label : Arrival × List PcEvent} (h : IncomingStep crypto pc label pc')
    (i : Nat) :
    Shows (TrackStep pc.config.observer i)
        (.steps ((ownArrival crypto pc i label.1).toList.map fun own => (own, label.2)))
        pc.remoteTracks.items[i]? pc'.remoteTracks.items[i]? ∧
      framesFor i label.2 = ((ownArrival crypto pc i label.1).toList.flatMap fun _ => label.2) := by
  obtain ⟨⟨env, datagram⟩, events⟩ := label
  obtain ⟨err, hprocess⟩ := h
  dsimp only at hprocess ⊢
  obtain ⟨srtpRx, hkeys, ⟨hdropped, rfl, rfl⟩ | ⟨plain, hplain, hprocess⟩⟩ :=
    pcProcessIncomingRtp_decrypted hprocess
  · have hnone : ownArrival crypto pc i ⟨env, datagram⟩ = none := by
      rw [ownArrival, hdropped, Option.bind_none]
    rw [hnone]
    exact ⟨.still _, rfl⟩
  · have howners : ownerOf { pc with srtpRx := srtpRx } plain = ownerOf pc plain := rfl
    have hownArrival : ownArrival crypto pc i ⟨env, datagram⟩ =
        if (ownerOf pc plain).any fun owner => owner.1 == i then some ⟨env, plain⟩ else none := by
      rw [ownArrival, hplain, Option.bind_some]
    rw [hownArrival]
    cases howner : ownerOf pc plain with
    | none =>
        obtain ⟨err', hunowned⟩ := @processPlainRtp_unowned env _ _ (howners.trans howner)
        cases hprocess.symm.trans hunowned
        exact ⟨.still _, rfl⟩
    | some owner =>
        obtain ⟨j, header⟩ := owner
        obtain ⟨track, track', result, htrack, htrack', hreceive, hothers⟩ :=
          processPlainRtp_owned (howners.trans howner) hprocess
        obtain ⟨hown, hother⟩ := receiveOn_events hreceive
        by_cases hi : j = i
        · subst hi
          rw [Option.any_some, beq_self_eq_true, if_pos rfl, htrack']
          change Shows _ _ pc.remoteTracks.items[j]? _ ∧ _
          rw [htrack]
          exact ⟨.steps (.singleton ⟨header, result, (header_of_owner howner).1, hreceive⟩),
            hown.trans (List.append_nil _).symm⟩
        · rw [Option.any_some, beq_false_of_ne hi, if_neg Bool.false_ne_true,
            hothers i (Ne.symm hi)]
          exact ⟨.still _, hother i (Ne.symm hi)⟩

theorem incomingRun_same {labels : List (Arrival × List PcEvent)}
    (hrun : Run (IncomingStep crypto) pc labels pc') : SameReceiver pc pc' :=
  hrun.invariant (I := SameReceiver pc)
    (fun _ _ _ hsame hstep => hsame.trans (incomingStep_same hstep)) (.refl pc)

/-- What of a datagram, with the callbacks it raises, is for the track at `i`. -/
def ownLabels (crypto : Crypto) (pc : PeerConnection) (i : Nat)
    (label : Arrival × List PcEvent) : List (Arrival × List PcEvent) :=
  (ownArrival crypto pc i label.1).toList.map fun own => (own, label.2)

theorem SameReceiver.shows {reached reached' : PeerConnection} (hsame : SameReceiver pc reached)
    {label : Arrival × List PcEvent} (h : IncomingStep crypto reached label reached') (i : Nat) :
    Shows (TrackStep pc.config.observer i) (.steps (ownLabels crypto pc i label))
        reached.remoteTracks.items[i]? reached'.remoteTracks.items[i]? ∧
      framesFor i label.2 = (ownLabels crypto pc i label).flatMap Prod.snd := by
  obtain ⟨hshows, hframes⟩ := incomingStep_shows h i
  rw [hsame.config, hsame.ownArrival_eq] at hshows
  rw [hsame.ownArrival_eq] at hframes
  refine ⟨hshows, hframes.trans ?_⟩
  rw [ownLabels, List.flatMap_map]

/-- A run of datagrams, seen from one track: its own packets alone lead it to where it is. -/
theorem trackRun_of_run {labels : List (Arrival × List PcEvent)}
    (hrun : Run (IncomingStep crypto) pc labels pc') {track : Track}
    (htrack : pc.remoteTracks.items[i]? = some track) :
    ∃ track', pc'.remoteTracks.items[i]? = some track' ∧
      Run (TrackStep pc.config.observer i) track (labels.flatMap (ownLabels crypto pc i))
        track' := by
  have hlife : Explains (TrackStep pc.config.observer i) (some (track, []))
      pc.remoteTracks.items[i]? := htrack ▸ .present (.nil track)
  have hexplains := explains_of_run (fun label => .steps (ownLabels crypto pc i label))
    (fun reached : PeerConnection => reached.remoteTracks.items[i]?)
    (fun _ _ _ (hsame : SameReceiver pc _) hstep => hsame.trans (incomingStep_same hstep))
    (fun _ _ _ hsame hstep => (hsame.shows hstep i).1) hrun (.refl pc) hlife
  rw [lifeAfter_steps, List.nil_append] at hexplains
  generalize hreached : pc'.remoteTracks.items[i]? = reached at hexplains
  cases hexplains with
  | present hown => exact ⟨_, rfl, hown⟩

theorem framesFor_run {labels : List (Arrival × List PcEvent)} {reached : PeerConnection}
    (hrun : Run (IncomingStep crypto) reached labels pc') (hsame : SameReceiver pc reached)
    (i : Nat) :
    framesFor i (labels.flatMap Prod.snd) =
      (labels.flatMap (ownLabels crypto pc i)).flatMap Prod.snd := by
  induction hrun with
  | nil => rfl
  | cons hstep _ ih =>
      rw [List.flatMap_cons, List.flatMap_cons, framesFor_append, List.flatMap_append,
        (hsame.shows hstep i).2, ih (hsame.trans (incomingStep_same hstep))]

/-- Nothing is for a track that is not there. -/
theorem ownArrival_of_no_track (hnone : pc.remoteTracks.items[i]? = none) (arrival : Arrival) :
    ownArrival crypto pc i arrival = none := by
  rw [ownArrival, Option.bind_eq_none_iff]
  intro packet _
  refine if_neg fun hany => ?_
  obtain ⟨⟨j, header⟩, howner, hi⟩ := Option.any_eq_true _ _ |>.mp hany
  obtain ⟨track, htrack⟩ := exists_track_of_owner howner
  cases eq_of_beq hi
  cases hnone.symm.trans htrack

theorem SameReceiver.no_track (h : SameReceiver pc pc')
    (hnone : pc.remoteTracks.items[i]? = none) : pc'.remoteTracks.items[i]? = none := by
  have hlength := congrArg List.length h.shapes
  rw [remoteShapes, remoteShapes, List.length_map, List.length_map] at hlength
  rw [List.getElem?_eq_none_iff] at hnone ⊢
  omega

theorem trackStep_functional {observer : PcObserver} {track track' track'' : Track}
    {arrival : Arrival} {events events' : List PcEvent}
    (h : TrackStep observer i track (arrival, events) track')
    (h' : TrackStep observer i track (arrival, events') track'') :
    events = events' ∧ track' = track'' := by
  obtain ⟨header, err, hparse, hreceive⟩ := h
  obtain ⟨header', err', hparse', hreceive'⟩ := h'
  cases hparse.symm.trans hparse'
  cases hreceive.symm.trans hreceive'
  exact ⟨rfl, rfl⟩

/-- What is for the track at `i` among datagrams, as it is behind the decryption. -/
def ownArrivals (crypto : Crypto) (pc : PeerConnection) (i : Nat) (arrivals : List Arrival) :
    List Arrival :=
  arrivals.filterMap (ownArrival crypto pc i)

theorem map_fst_ownLabels (crypto : Crypto) (pc : PeerConnection) (i : Nat)
    (labels : List (Arrival × List PcEvent)) :
    (labels.flatMap (ownLabels crypto pc i)).map Prod.fst =
      ownArrivals crypto pc i (labels.map Prod.fst) := by
  rw [ownArrivals, List.filterMap_map, List.map_flatMap, List.filterMap_eq_flatMap_toList]
  refine congrArg (fun f => labels.flatMap f) (funext fun label => ?_)
  rw [ownLabels, List.map_map]
  exact List.map_id _

/-- The packets of a track alone decide where it ends and which callbacks they raise. -/
theorem ownLabels_eq {pc₁ pc₂ : PeerConnection} {first second : List (Arrival × List PcEvent)}
    (hfirst : Run (IncomingStep crypto) pc first pc₁)
    (hsecond : Run (IncomingStep crypto) pc second pc₂)
    (hown : ownArrivals crypto pc i (first.map Prod.fst) =
      ownArrivals crypto pc i (second.map Prod.fst)) :
    pc₁.remoteTracks.items[i]? = pc₂.remoteTracks.items[i]? ∧
      first.flatMap (ownLabels crypto pc i) = second.flatMap (ownLabels crypto pc i) := by
  rw [← map_fst_ownLabels, ← map_fst_ownLabels] at hown
  cases htrack : pc.remoteTracks.items[i]? with
  | none =>
      have hnothing : ∀ labels : List (Arrival × List PcEvent),
          labels.flatMap (ownLabels crypto pc i) = [] := by
        intro labels
        rw [List.flatMap_eq_nil_iff]
        intro label _
        rw [ownLabels, ownArrival_of_no_track htrack]
        rfl
      rw [(incomingRun_same hfirst).no_track htrack, (incomingRun_same hsecond).no_track htrack,
        hnothing, hnothing]
      exact ⟨rfl, rfl⟩
  | some track =>
      obtain ⟨track₁, htrack₁, hrun₁⟩ := trackRun_of_run hfirst htrack
      obtain ⟨track₂, htrack₂, hrun₂⟩ := trackRun_of_run hsecond htrack
      obtain ⟨hlabels, hreached⟩ :=
        hrun₁.eq_of_inputs (fun _ _ _ _ _ _ => trackStep_functional) hrun₂ hown
      rw [htrack₁, htrack₂, hlabels, hreached]
      exact ⟨rfl, rfl⟩

theorem framesFor_congr {pc₁ pc₂ : PeerConnection} {first second : List (Arrival × List PcEvent)}
    (hfirst : Run (IncomingStep crypto) pc first pc₁)
    (hsecond : Run (IncomingStep crypto) pc second pc₂)
    (hown : ownArrivals crypto pc i (first.map Prod.fst) =
      ownArrivals crypto pc i (second.map Prod.fst)) :
    framesFor i (first.flatMap Prod.snd) = framesFor i (second.flatMap Prod.snd) := by
  rw [framesFor_run hfirst (.refl pc), framesFor_run hsecond (.refl pc),
    (ownLabels_eq hfirst hsecond hown).2]

end

/-- The tracks of a connection do not interfere. Whatever else arrives, and in whatever order it
comes in between (packets of other tracks, packets of no track, forgeries), a track is left in
the same state and its frames come out the same if its own packets are the same. -/
theorem tracks_isolated {crypto : Crypto} {pc pc₁ pc₂ : PeerConnection}
    {first second : List (Arrival × List PcEvent)} {i : Nat}
    (hfirst : Run (IncomingStep crypto) pc first pc₁)
    (hsecond : Run (IncomingStep crypto) pc second pc₂)
    (hown : ownArrivals crypto pc i (first.map Prod.fst) =
      ownArrivals crypto pc i (second.map Prod.fst)) :
    pc₁.remoteTracks.items[i]? = pc₂.remoteTracks.items[i]? ∧
      framesFor i (first.flatMap Prod.snd) = framesFor i (second.flatMap Prod.snd) := by
  exact ⟨(ownLabels_eq hfirst hsecond hown).1, framesFor_congr hfirst hsecond hown⟩

/-- A packet of the video track. -/
def sampleVideoRtp : List UInt8 :=
  [0x80, 0xE4, 0x00, 0x01] ++ write32 9000 ++ write32 0 ++ [0x65, 0x88]

/-- A datagram that ends with a tag. -/
def tagged (packet : List UInt8) (tag : UInt8) : Arrival :=
  ⟨⟨1, true, true⟩, packet ++ List.replicate 10 tag⟩

theorem tracks_isolated_linkedPeer :
    ∃ first second pc₁ pc₂,
      Run (IncomingStep toyCrypto) (linkedPeer false) first pc₁ ∧
      Run (IncomingStep toyCrypto) (linkedPeer false) second pc₂ ∧
      first.map Prod.fst =
        [tagged sampleVideoRtp 0x00, tagged sampleRtp 0x00, tagged sampleRtp 0xFF] ∧
      second.map Prod.fst = [tagged sampleRtp 0x00] ∧
      framesFor 1 (second.flatMap Prod.snd) ≠ [] ∧
      pc₁.remoteTracks.items[1]? = pc₂.remoteTracks.items[1]? ∧
      framesFor 1 (first.flatMap Prod.snd) = framesFor 1 (second.flatMap Prod.snd) := by
  have hfirst : (receiveAll toyCrypto (linkedPeer false) [tagged sampleVideoRtp 0x00,
      tagged sampleRtp 0x00, tagged sampleRtp 0xFF]).isSome = true := by
    decide +kernel
  have hsecond : (receiveAll toyCrypto (linkedPeer false) [tagged sampleRtp 0x00]).any
      (fun result => !(framesFor 1 (result.2.flatMap Prod.snd)).isEmpty) = true := by
    decide +kernel
  obtain ⟨⟨pc₁, first⟩, hfirst⟩ := Option.isSome_iff_exists.mp hfirst
  obtain ⟨⟨pc₂, second⟩, hsecond, hframes⟩ := Option.any_eq_true _ _ |>.mp hsecond
  obtain ⟨hrun₁, harrivals₁⟩ := run_receiveAll hfirst
  obtain ⟨hrun₂, harrivals₂⟩ := run_receiveAll hsecond
  have hvideo : (ownArrival toyCrypto (linkedPeer false) 1
      (tagged sampleVideoRtp 0x00)).isNone = true := by
    decide +kernel
  have hforged : (ownArrival toyCrypto (linkedPeer false) 1
      (tagged sampleRtp 0xFF)).isNone = true := by
    decide +kernel
  rw [Option.isNone_iff_eq_none] at hvideo hforged
  have hown : ownArrivals toyCrypto (linkedPeer false) 1 (first.map Prod.fst) =
      ownArrivals toyCrypto (linkedPeer false) 1 (second.map Prod.fst) := by
    rw [harrivals₁, harrivals₂, ownArrivals, ownArrivals]
    simp only [List.filterMap_cons, List.filterMap_nil, hvideo, hforged]
  have hne : framesFor 1 (second.flatMap Prod.snd) ≠ [] := by
    simpa using hframes
  exact ⟨first, second, pc₁, pc₂, hrun₁, hrun₂, harrivals₁, harrivals₂, hne,
    tracks_isolated hrun₁ hrun₂ hown⟩

end TinyRtc.TrackIsolation
