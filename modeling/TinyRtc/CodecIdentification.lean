import TinyRtc.SdpBounds
import TinyRtc.SdpSections

namespace TinyRtc.CodecIdentification

open TinyRtc.Common
open TinyRtc.CString
open TinyRtc.LastWrites
open TinyRtc.MediaCodec
open TinyRtc.Sdp
open TinyRtc.SdpBounds (zeroLocals)
open TinyRtc.SdpParser
open TinyRtc.SdpSections

/-- The codec that a payload type stands for without an rtpmap. -/
def staticCodec (payloadType : Int32) : Option CodecId :=
  if payloadType = 0 then some .pcmu
  else if payloadType = 8 then some .pcma
  else if payloadType = 9 then some .g722
  else if payloadType = 100 then some .h264
  else if payloadType = 111 then some .opus
  else none

/-- The names that the rtpmap lines for a payload type give. -/
def codecNames (payloadType : Int32) (events : List MediaEvent) : List (CStr 64) :=
  events.filterMap fun event =>
    match event with
    | .rtpmap pt codecName _ _ => if pt = payloadType then some codecName else none
    | _ => none

/-- The name is that of the codec, whatever the case of its letters. -/
def Names (codecName : CStr 64) (codec : CodecId) : Prop :=
  strcaseEq codecName.bytes (tinyrtcCodecGetName codec) = true

/-- A record reports the codec that its payload type stands for, or one that an rtpmap line
names, and there is no rtpmap line with a codec that is not supported. -/
structure SoundlyIdentified (events : List MediaEvent) (record : SdpMedia) : Prop where
  identified : staticCodec record.payloadType = some record.codecId ∧
      codecNames record.payloadType events = [] ∨
    ∃ name ∈ codecNames record.payloadType events, Names name record.codecId
  supported : ∀ name ∈ codecNames record.payloadType events, ∃ codec, Names name codec

/-- The codec of a media that no rtpmap line gets to. -/
def defaultCodec (payloadType : Int32) : CodecId :=
  (staticCodec payloadType).getD .h264

/-- All rtpmap lines for the payload type name supported codecs, and if none gets to the media
they agree with its default. -/
structure WellNamed (before : List MediaEvent) (media : SdpMedia) (after : List MediaEvent)
    (events : List MediaEvent) : Prop where
  supported : ∀ name ∈ codecNames media.payloadType events, ∃ codec, Names name codec
  unreached : codecNames media.payloadType (rtpmapsFor before media after) = [] →
    (staticCodec media.payloadType ≠ none ∧ codecNames media.payloadType events = []) ∨
      ∃ name ∈ codecNames media.payloadType events, Names name (defaultCodec media.payloadType)

theorem codecOfName_eq_some_iff (codecName : CStr 64) (codec : CodecId) :
    codecOfName codecName.bytes = some codec ↔ Names codecName codec := by
  have hunique : ∀ codec codec' : CodecId, (tinyrtcCodecGetName codec).map toUpper =
      (tinyrtcCodecGetName codec').map toUpper → codec = codec' := by
    intro codec codec'
    cases codec <;> cases codec' <;> decide
  rw [Names]
  constructor
  · intro h
    rw [codecOfName] at h
    split_ifs at h with h264 hopus hpcma hpcmu hg722 <;> cases h <;> assumption
  · intro h
    have hnames : ∀ other, strcaseEq codecName.bytes (tinyrtcCodecGetName other) = true →
        other = codec := by
      intro other hother
      rw [strcaseEq, beq_iff_eq] at h hother
      exact hunique _ _ (hother.symm.trans h)
    rw [codecOfName]
    split_ifs with h264 hopus hpcma hpcmu hg722
    · exact congrArg some (hnames .h264 h264)
    · exact congrArg some (hnames .opus hopus)
    · exact congrArg some (hnames .pcma hpcma)
    · exact congrArg some (hnames .pcmu hpcmu)
    · exact congrArg some (hnames .g722 hg722)
    · cases codec with
      | h264 => exact absurd h h264
      | opus => exact absurd h hopus
      | pcma => exact absurd h hpcma
      | pcmu => exact absurd h hpcmu
      | g722 => exact absurd h hg722

theorem freshMedia_codecId (kind : TrackKind) (port payloadType : Int32) :
    (freshMedia kind port payloadType).codecId = defaultCodec payloadType ∧
      (freshMedia kind port payloadType).payloadType = payloadType := by
  simp only [freshMedia, withStaticCodec, defaultCodec, staticCodec]
  split_ifs <;> exact ⟨rfl, rfl⟩

theorem mem_codecNames {payloadType : Int32} {events : List MediaEvent} {name : CStr 64} :
    name ∈ codecNames payloadType events ↔
      ∃ clockRate channels, .rtpmap payloadType name clockRate channels ∈ events := by
  rw [codecNames, List.mem_filterMap]
  constructor
  · rintro ⟨event, hevent, hname⟩
    cases event with
    | rtpmap pt codecName clockRate channels =>
        dsimp only at hname
        split at hname
        · next hpt =>
          cases hname
          exact ⟨clockRate, channels, hpt ▸ hevent⟩
        · cases hname
    | accepted media => cases hname
    | skipped => cases hname
    | mid value => cases hname
    | other => cases hname
  · rintro ⟨clockRate, channels, hevent⟩
    exact ⟨_, hevent, if_pos rfl⟩

theorem codecFor_eq_some {payloadType : Int32} {event : MediaEvent} {codec : CodecId}
    (h : codecFor payloadType event = some codec) :
    ∃ name clockRate channels, event = .rtpmap payloadType name clockRate channels ∧
      Names name codec := by
  cases event with
  | rtpmap pt codecName clockRate channels =>
      rw [codecFor] at h
      split at h
      · next hpt => exact ⟨codecName, clockRate, channels, by rw [hpt],
          (codecOfName_eq_some_iff codecName codec).mp h⟩
      · cases h
  | accepted media => cases h
  | skipped => cases h
  | mid value => cases h
  | other => cases h

/-- The codec of a record is the last one that is named for it, or its default. -/
theorem last?_codecFor {payloadType : Int32} {events : List MediaEvent}
    (hsupported : ∀ name ∈ codecNames payloadType events, ∃ codec, Names name codec)
    (hne : codecNames payloadType events ≠ []) (default : CodecId) :
    ∃ name ∈ codecNames payloadType events,
      Names name ((last? (codecFor payloadType) events).getD default) := by
  obtain ⟨name, hname⟩ := List.exists_mem_of_ne_nil _ hne
  obtain ⟨codec, hcodec⟩ := hsupported name hname
  obtain ⟨clockRate, channels, hevent⟩ := mem_codecNames.mp hname
  have hvalue : codecFor payloadType (.rtpmap payloadType name clockRate channels) =
      some codec := by
    rw [codecFor, if_pos rfl]
    exact (codecOfName_eq_some_iff name codec).mpr hcodec
  obtain ⟨last, hlast⟩ := last?_isSome_of_mem hevent hvalue
  obtain ⟨event, hmem, hfor⟩ := exists_of_last? hlast
  obtain ⟨name', clockRate', channels', rfl, hnames⟩ := codecFor_eq_some hfor
  rw [hlast]
  exact ⟨name', mem_codecNames.mpr ⟨clockRate', channels', hmem⟩, hnames⟩

theorem last?_codecFor_of_nil {payloadType : Int32} {events : List MediaEvent}
    (h : codecNames payloadType events = []) : last? (codecFor payloadType) events = none := by
  refine last?_eq_none_iff.mpr fun event hevent => ?_
  refine Option.eq_none_iff_forall_ne_some.mpr fun codec hcodec => ?_
  obtain ⟨name, clockRate, channels, rfl, -⟩ := codecFor_eq_some hcodec
  have hmem := mem_codecNames.mpr ⟨clockRate, channels, hevent⟩
  rw [h] at hmem
  cases hmem

theorem codecNames_rtpmapsFor_subset {before after : List MediaEvent} {media : SdpMedia}
    {name : CStr 64}
    (h : name ∈ codecNames media.payloadType (rtpmapsFor before media after)) :
    name ∈ codecNames media.payloadType (before ++ .accepted media :: after) := by
  rw [rtpmapsFor] at h
  split at h
  · cases h
  · obtain ⟨clockRate, channels, hevent⟩ := mem_codecNames.mp h
    exact mem_codecNames.mpr ⟨clockRate, channels,
      List.mem_append_right _ (List.mem_cons_of_mem _ hevent)⟩

/-- The record of a fresh entry is soundly identified exactly if it is well named. -/
theorem soundlyIdentified_described_iff {before after : List MediaEvent} {media : SdpMedia}
    (hfresh : media.codecId = defaultCodec media.payloadType) (mids : List MediaEvent) :
    SoundlyIdentified (before ++ .accepted media :: after)
        (described media mids (rtpmapsFor before media after)) ↔
      WellNamed before media after (before ++ .accepted media :: after) := by
  have hcodecId : (described media mids (rtpmapsFor before media after)).codecId =
      (last? (codecFor media.payloadType) (rtpmapsFor before media after)).getD
        media.codecId := rfl
  have hpayloadType : (described media mids (rtpmapsFor before media after)).payloadType =
      media.payloadType := rfl
  constructor
  · rintro ⟨hidentified, hsupported⟩
    rw [hpayloadType] at hidentified hsupported
    refine ⟨hsupported, fun hnone => ?_⟩
    rw [hcodecId, last?_codecFor_of_nil hnone, Option.getD_none, hfresh] at hidentified
    rcases hidentified with ⟨hstatic, hnil⟩ | hnamed
    · exact .inl ⟨by rw [hstatic]; exact Option.some_ne_none _, hnil⟩
    · exact .inr hnamed
  · rintro ⟨hsupported, hunreached⟩
    refine ⟨?_, by rwa [hpayloadType]⟩
    rw [hpayloadType, hcodecId]
    by_cases hnil : codecNames media.payloadType (rtpmapsFor before media after) = []
    · rw [last?_codecFor_of_nil hnil, Option.getD_none, hfresh]
      rcases hunreached hnil with ⟨hstatic, hnone⟩ | hnamed
      · obtain ⟨codec, hcodec⟩ := Option.ne_none_iff_exists'.mp hstatic
        exact .inl ⟨by rw [defaultCodec, hcodec]; rfl, hnone⟩
      · exact .inr hnamed
    · obtain ⟨name, hname, hnames⟩ := last?_codecFor
        (fun name hname => hsupported name (codecNames_rtpmapsFor_subset hname)) hnil media.codecId
      exact .inr ⟨name, codecNames_rtpmapsFor_subset hname, hnames⟩

section

variable {locals : Locals} {text : List UInt8} {session : SdpSession}

/-- The codecs of an accepted text are sound exactly if each of its media is well named. -/
theorem soundlyIdentified_iff (h : sdpParse locals text = some (.ok, session)) :
    (∀ record ∈ session.media.items, SoundlyIdentified (textEvents locals text) record) ↔
      ∀ before media after, textEvents locals text = before ++ .accepted media :: after →
        WellNamed before media after (textEvents locals text) := by
  have hfresh : ∀ media, .accepted media ∈ textEvents locals text →
      media.codecId = defaultCodec media.payloadType := by
    intro media hmem
    obtain ⟨kind, port, payloadType, rfl⟩ := freshMedia_of_mem hmem
    rw [(freshMedia_codecId kind port payloadType).1, (freshMedia_codecId kind port payloadType).2]
  constructor
  · intro hsound before media after hevents
    have hmem : .accepted media ∈ textEvents locals text := by
      rw [hevents]
      exact List.mem_append_right _ List.mem_cons_self
    have hrecord := hsound _ (List.mem_of_getElem? (sdpParse_record h hevents))
    rw [hevents] at hrecord ⊢
    exact (soundlyIdentified_described_iff (hfresh media hmem) _).mp hrecord
  · intro hnamed record hrecord
    obtain ⟨before, media, after, hevents, rfl⟩ := sdpParse_accepted h hrecord
    have hmem : .accepted media ∈ textEvents locals text := by
      rw [hevents]
      exact List.mem_append_right _ List.mem_cons_self
    have hwell := hnamed before media after hevents
    rw [hevents] at hwell ⊢
    exact (soundlyIdentified_described_iff (hfresh media hmem) _).mpr hwell

end

theorem soundlyIdentified_opus :
    ∃ session, sdpParse zeroLocals
        (ascii "v=0\r\nm=audio 9 UDP/TLS/RTP/SAVPF 111\r\na=rtpmap:111 opus/48000/2\r\n") =
          some (.ok, session) ∧
      ∀ record ∈ session.media.items, SoundlyIdentified (textEvents zeroLocals
        (ascii "v=0\r\nm=audio 9 UDP/TLS/RTP/SAVPF 111\r\na=rtpmap:111 opus/48000/2\r\n"))
          record := by
  have hevents : textEvents zeroLocals
      (ascii "v=0\r\nm=audio 9 UDP/TLS/RTP/SAVPF 111\r\na=rtpmap:111 opus/48000/2\r\n") =
        [.other, .accepted (freshMedia .audio 9 111),
          .rtpmap 111 (CStr.strncpy (ascii "opus")) 48000 2] := by
    decide +kernel
  have hparse : (sdpParse zeroLocals
      (ascii "v=0\r\nm=audio 9 UDP/TLS/RTP/SAVPF 111\r\na=rtpmap:111 opus/48000/2\r\n")).map
        Prod.fst = some .ok := by
    decide +kernel
  obtain ⟨⟨err, session⟩, hresult, rfl⟩ := Option.map_eq_some_iff.mp hparse
  refine ⟨session, hresult, (soundlyIdentified_iff hresult).mpr ?_⟩
  intro before media after hsplit
  rw [hevents] at hsplit ⊢
  obtain ⟨rfl, rfl, rfl⟩ := accepted_of_three rfl rfl hsplit
  refine ⟨fun name hname => ⟨.opus, ?_⟩, fun hnil => ?_⟩
  · rw [List.mem_singleton.mp hname]
    rfl
  · cases hnil

/-- The rtpmap of a video names VP8, and H264 is reported. -/
theorem soundlyIdentified_fails :
    ∃ session, sdpParse zeroLocals
        (ascii "v=0\r\nm=video 9 UDP/TLS/RTP/SAVPF 96\r\na=rtpmap:96 VP8/90000\r\n") =
          some (.ok, session) ∧
      session.media.items.map SdpMedia.codecId = [.h264] ∧
      ¬ ∀ record ∈ session.media.items, SoundlyIdentified (textEvents zeroLocals
        (ascii "v=0\r\nm=video 9 UDP/TLS/RTP/SAVPF 96\r\na=rtpmap:96 VP8/90000\r\n"))
          record := by
  have hevents : textEvents zeroLocals
      (ascii "v=0\r\nm=video 9 UDP/TLS/RTP/SAVPF 96\r\na=rtpmap:96 VP8/90000\r\n") =
        [.other, .accepted (freshMedia .video 9 96),
          .rtpmap 96 (CStr.strncpy (ascii "VP8")) 90000 1] := by
    decide +kernel
  have hparse : (sdpParse zeroLocals
      (ascii "v=0\r\nm=video 9 UDP/TLS/RTP/SAVPF 96\r\na=rtpmap:96 VP8/90000\r\n")).map
        (fun result => (result.1, result.2.media.items.map fun media =>
          (media.codecId, media.payloadType))) = some (.ok, [(.h264, 96)]) := by
    decide +kernel
  obtain ⟨⟨err, session⟩, hresult, hpair⟩ := Option.map_eq_some_iff.mp hparse
  obtain ⟨rfl, hitems⟩ := Prod.mk.inj hpair
  obtain ⟨record, hrecord, hfields⟩ := List.map_eq_singleton_iff.mp hitems
  obtain ⟨hcodecId, hpayloadType⟩ := Prod.mk.inj hfields
  dsimp only at hrecord
  refine ⟨session, hresult, by rw [hrecord, List.map_singleton, hcodecId], fun hsound => ?_⟩
  have hmem : record ∈ session.media.items := by
    rw [hrecord]
    exact List.mem_singleton_self _
  obtain ⟨codec, hcodec⟩ := (hsound record hmem).supported (CStr.strncpy (ascii "VP8")) (by
    rw [hevents, hpayloadType]
    exact List.mem_singleton_self _)
  cases codec <;> cases hcodec

end TinyRtc.CodecIdentification
