import TinyRtc.LastWrites
import TinyRtc.SdpParser

namespace TinyRtc.SdpSections

open TinyRtc.Common
open TinyRtc.CString
open TinyRtc.Decimal
open TinyRtc.LastWrites
open TinyRtc.MediaCodec
open TinyRtc.Sdp
open TinyRtc.SdpParser
open TinyRtc.SlotArray

/-- A line, as far as the media table is concerned. -/
inductive MediaEvent where
  | accepted (media : SdpMedia)
  | skipped
  | mid (value : CStr 32)
  | rtpmap (pt : Int32) (codecName : CStr 64) (clockRate : UInt32) (channels : Int32)
  | other
  deriving DecidableEq

/-- The value of an `a=rtpmap` attribute; `p` is behind the colon. -/
def rtpmapEvent (p : List UInt8) : MediaEvent :=
  match parseInt p with
  | none => .other
  | some pt =>
      let p := p.dropWhile fun c => c != 0x20 && c != 0x00 && c != 0x0A
      let (codecName, p) := copyUntil 64 0x2F (skipByte 0x20 p)
      let (encodingParams, _) := copyUntil 64 0x0A (skipByte 0x2F p)
      let (rate, channels) := splitSlash encodingParams.bytes
      .rtpmap pt codecName (atoi rate).toUInt32 ((channels.map atoi).getD 1)

def attributeEvent (p : List UInt8) : MediaEvent :=
  let (attrName, p) := copyUntil 64 0x3A p
  if attrName.bytes = ascii "mid" then .mid (copyUntil 32 0x0A (skipByte 0x3A p)).1
  else if attrName.bytes = ascii "rtpmap" then rtpmapEvent (skipByte 0x3A p)
  else .other

/-- The entry that an m-line makes. -/
def freshMedia (kind : TrackKind) (port payloadType : Int32) : SdpMedia :=
  { withStaticCodec
      { SdpMedia.zero with kind := kind, port := port, payloadType := payloadType } with
    directionSend := true
    directionRecv := true }

def mediaEvent (full : Bool) (p : List UInt8) : MediaEvent :=
  if full then .skipped
  else
    let (mediaType, p) := copyUntil 16 0x20 p
    let (portStr, p) := copyUntil 16 0x20 p
    let (_, p) := copyUntil 16 0x20 p
    match kindOfName mediaType.bytes with
    | none => .skipped
    | some kind =>
        .accepted (freshMedia kind ((parseInt portStr.bytes).getD 0)
          (((strtol p).map fun scanned => Int32.ofInt scanned.1).getD 0))

/-- What the line with the given type character does; `full` says that the media table is
full. -/
def lineEvent (full : Bool) (type : UInt8) (p : List UInt8) : MediaEvent :=
  if p.head? ≠ some 0x3D then .other
  else if type = 0x61 then attributeEvent p.tail
  else if type = 0x6D then mediaEvent full p.tail
  else .other

def isFull (session : SdpSession) : Bool :=
  decide (sdpMaxMedia ≤ session.media.count)

/-- What the lines of a text do, one after the other, as the line loop comes to them. -/
def sdpEvents (locals : Locals) : (fuel : Nat) → (p : List UInt8) → SdpSession → List MediaEvent
  | _, [], _ => []
  | 0, _ :: _, _ => []
  | fuel + 1, c :: rest, session =>
      if c = 0x00 then []
      else if isEol c then sdpEvents locals fuel rest session
      else
        match parseLine locals c rest session with
        | none => []
        | some (p, session') =>
            lineEvent (isFull session) c rest :: sdpEvents locals fuel p session'

def textEvents (locals : Locals) (text : List UInt8) : List MediaEvent :=
  sdpEvents locals text.length text sdpSessionInit

def applyEvent (items : List SdpMedia) : MediaEvent → List SdpMedia
  | .accepted media => items ++ [media]
  | .skipped => items
  | .mid value => updateLast (fun media => { media with mid := CStr.strncpy value.bytes }) items
  | .rtpmap pt codecName clockRate channels =>
      updateFirst pt (applyRtpmap codecName.bytes clockRate channels) items
  | .other => items

section

variable {locals : Locals} {p : List UInt8} {session : SdpSession}

theorem parseRtpmap_items :
    (parseRtpmap p session).2.media.items = applyEvent session.media.items (rtpmapEvent p) := by
  rw [parseRtpmap, rtpmapEvent]
  cases parseInt p with
  | none => rfl
  | some pt => rfl

theorem parseMid_items : (parseMid p session).2.media.items =
    applyEvent session.media.items (.mid (copyUntil 32 0x0A p).1) := rfl

theorem items_eq_nil_of_count {slots : Slots SdpMedia sdpMaxMedia} (h : ¬ 0 < slots.count) :
    slots.items = [] :=
  List.length_eq_zero_iff.mp (Nat.eq_zero_of_not_pos h)

/-- No other attribute has to do with the media table. -/
theorem parseNamedAttribute_items {attrName : List UInt8} (hmid : attrName ≠ ascii "mid")
    (hrtpmap : attrName ≠ ascii "rtpmap") :
    (parseNamedAttribute attrName p session).2.media = session.media := by
  rw [parseNamedAttribute]
  simp only [if_neg hmid, if_neg hrtpmap]
  split_ifs <;> rfl

theorem parseAttribute_items :
    (parseAttribute p session).2.media.items =
      applyEvent session.media.items (attributeEvent p) := by
  rw [parseAttribute, attributeEvent]
  generalize copyUntil 64 0x3A p = copied
  obtain ⟨attrName, p⟩ := copied
  dsimp only
  by_cases hmid : attrName.bytes = ascii "mid"
  · have hbranch : parseNamedAttribute (ascii "mid") p session =
        if 0 < session.media.count then parseMid (skipByte 0x3A p) session else (p, session) := rfl
    rw [if_pos hmid, hmid, hbranch]
    split
    · exact parseMid_items
    · next hcount =>
      rw [applyEvent, items_eq_nil_of_count hcount]
      rfl
  · rw [if_neg hmid]
    by_cases hrtpmap : attrName.bytes = ascii "rtpmap"
    · have hbranch : parseNamedAttribute (ascii "rtpmap") p session =
          parseRtpmap (skipByte 0x3A p) session := rfl
      rw [if_pos hrtpmap, hrtpmap, hbranch]
      exact parseRtpmap_items
    · rw [if_neg hrtpmap, parseNamedAttribute_items hmid hrtpmap]
      rfl

theorem parseMedia_items :
    (parseMedia p session).2.media.items =
      applyEvent session.media.items (mediaEvent (isFull session) p) := by
  rw [parseMedia, mediaEvent, isFull]
  by_cases hfull : sdpMaxMedia ≤ session.media.count
  · rw [if_pos hfull, if_pos (decide_eq_true hfull)]
    rfl
  · rw [if_neg hfull, if_neg (by rw [decide_eq_true_iff]; exact hfull)]
    dsimp only
    cases kindOfName (copyUntil 16 0x20 p).1.bytes with
    | none => rfl
    | some kind =>
        have hroom : session.media.items.length < sdpMaxMedia := Nat.not_le.mp hfull
        have hpush : ∀ media : SdpMedia,
            ((session.media.push? media).getD session.media).items =
              session.media.items ++ [media] := by
          intro media
          obtain ⟨pushed, hpush, hitems⟩ := Slots.push?_of_lt hroom media
          rw [hpush, Option.getD_some, hitems]
        dsimp only
        rw [hpush]
        cases strtol (copyUntil 16 0x20 (copyUntil 16 0x20 (copyUntil 16 0x20 p).2).2).2 with
        | none => rfl
        | some scanned => rfl

theorem parseField_items (type : UInt8) :
    (parseField locals type p session).2.media.items =
      applyEvent session.media.items
        (if type = 0x61 then attributeEvent p
          else if type = 0x6D then mediaEvent (isFull session) p else .other) := by
  by_cases hattribute : type = 0x61
  · rw [if_pos hattribute, hattribute]
    exact parseAttribute_items
  · rw [if_neg hattribute]
    by_cases hmedia : type = 0x6D
    · rw [if_pos hmedia, hmedia]
      exact parseMedia_items
    · rw [if_neg hmedia, parseField]
      simp only [if_neg hattribute, if_neg hmedia]
      split_ifs <;> rfl

/-- A line does to the media table what its event says. -/
theorem parseLine_items {type : UInt8} {p' : List UInt8} {session' : SdpSession}
    (h : parseLine locals type p session = some (p', session')) :
    session'.media.items = applyEvent session.media.items (lineEvent (isFull session) type p) := by
  rw [parseLine] at h
  rw [lineEvent]
  split at h
  · next hequals =>
    obtain ⟨next, -, heq⟩ := Option.map_eq_some_iff.mp h
    cases heq
    rw [if_pos hequals]
    rfl
  · next hequals =>
    rw [if_neg hequals, ← @parseField_items locals]
    dsimp only at h
    split at h
    · cases h
      rfl
    · split at h
      · cases h
        rfl
      · cases h
        rfl

end

/-- The media table is what the events make of it. -/
theorem sdpParseLoop_items {locals : Locals} {fuel : Nat} {p : List UInt8}
    {session session' : SdpSession} (h : sdpParseLoop locals fuel p session = some session') :
    session'.media.items =
      (sdpEvents locals fuel p session).foldl applyEvent session.media.items := by
  induction fuel generalizing p session with
  | zero =>
      cases p with
      | nil =>
          cases h
          rfl
      | cons c rest =>
          cases h
          rfl
  | succ fuel ih =>
      cases p with
      | nil =>
          cases h
          rfl
      | cons c rest =>
          rw [sdpParseLoop] at h
          rw [sdpEvents]
          split at h
          · next hnul =>
            cases h
            rw [if_pos hnul]
            rfl
          · next hnul =>
            rw [if_neg hnul]
            split at h
            · next heol =>
              rw [if_pos heol]
              exact ih h
            · next heol =>
              rw [if_neg heol]
              cases hline : parseLine locals c rest session with
              | none =>
                  rw [hline] at h
                  cases h
              | some next =>
                  obtain ⟨p', between⟩ := next
                  rw [hline] at h
                  dsimp only at h ⊢
                  rw [List.foldl_cons, ← parseLine_items hline]
                  exact ih h

/-- What a mid line, and what an rtpmap line for a payload type has for each field. -/
def midOf : MediaEvent → Option (CStr 16)
  | .mid value => some (CStr.strncpy value.bytes)
  | _ => none

def codecFor (payloadType : Int32) : MediaEvent → Option CodecId
  | .rtpmap pt codecName _ _ => if pt = payloadType then codecOfName codecName.bytes else none
  | _ => none

def clockRateFor (payloadType : Int32) : MediaEvent → Option UInt32
  | .rtpmap pt _ clockRate _ => if pt = payloadType ∧ clockRate > 0 then some clockRate else none
  | _ => none

def channelsFor (payloadType : Int32) : MediaEvent → Option Int32
  | .rtpmap pt _ _ channels => if pt = payloadType then some channels else none
  | _ => none

/-- The entry of an m-line with what is said behind it: by the lines that a mid is taken
from, and by those that a codec is taken from. -/
def described (media : SdpMedia) (mids rtpmaps : List MediaEvent) : SdpMedia :=
  { media with
    mid := (last? midOf mids).getD media.mid
    codecId := (last? (codecFor media.payloadType) rtpmaps).getD media.codecId
    clockRate := (last? (clockRateFor media.payloadType) rtpmaps).getD media.clockRate
    channels := (last? (channelsFor media.payloadType) rtpmaps).getD media.channels }

def isAccepted : MediaEvent → Bool
  | .accepted _ => true
  | _ => false

/-- The lines up to the next one that adds a media. -/
def untilAccepted (events : List MediaEvent) : List MediaEvent :=
  events.takeWhile fun event => !isAccepted event

section

variable {media : SdpMedia} {mids rtpmaps : List MediaEvent}

theorem described_cons (event : MediaEvent) :
    described media (event :: mids) (event :: rtpmaps) =
      described (described media [event] [event]) mids rtpmaps := by
  simp only [described, last?_cons_getD, last?_nil, Option.getD_none]

theorem described_cons_rtpmaps (event : MediaEvent) :
    described media mids (event :: rtpmaps) =
      described (described media [] [event]) mids rtpmaps := by
  simp only [described, last?_cons_getD, last?_nil, Option.getD_none]

theorem described_cons_mids (event : MediaEvent) :
    described media (event :: mids) rtpmaps =
      described (described media [event] []) mids rtpmaps := by
  simp only [described, last?_cons_getD, last?_nil, Option.getD_none]

theorem described_rtpmap (pt : Int32) (codecName : CStr 64) (clockRate : UInt32)
    (channels : Int32) (mids : List MediaEvent) (hmids : last? midOf mids = none) :
    described media mids [.rtpmap pt codecName clockRate channels] =
      if media.payloadType = pt then applyRtpmap codecName.bytes clockRate channels media
      else media := by
  rw [described, hmids, last?_singleton, last?_singleton, last?_singleton]
  by_cases hpt : media.payloadType = pt
  · rw [if_pos hpt, applyRtpmap]
    simp only [codecFor, clockRateFor, channelsFor, hpt.symm, true_and, if_true]
    by_cases hrate : clockRate > 0
    · rw [if_pos hrate, if_pos hrate]
      rfl
    · rw [if_neg hrate, if_neg hrate]
      rfl
  · rw [if_neg hpt]
    have hne : ¬ pt = media.payloadType := fun h => hpt h.symm
    simp only [codecFor, clockRateFor, channelsFor, hne, false_and, if_false]
    rfl

end

section

variable {pre post : List SdpMedia} {media : SdpMedia}

theorem updateFirst_payloadTypes (pt : Int32) (codecName : List UInt8) (clockRate : UInt32)
    (channels : Int32) (items : List SdpMedia) :
    (updateFirst pt (applyRtpmap codecName clockRate channels) items).map SdpMedia.payloadType =
      items.map SdpMedia.payloadType := by
  induction items with
  | nil => rfl
  | cons item items ih =>
      rw [updateFirst]
      split
      · rfl
      · rw [List.map_cons, List.map_cons, ih]

theorem updateFirst_append_of_mem {pt : Int32} {f : SdpMedia → SdpMedia} {items : List SdpMedia}
    (h : pt ∈ items.map SdpMedia.payloadType) (rest : List SdpMedia) :
    updateFirst pt f (items ++ rest) = updateFirst pt f items ++ rest := by
  induction items with
  | nil => cases h
  | cons item items ih =>
      rw [List.cons_append, updateFirst, updateFirst]
      split
      · rfl
      · next hne =>
        rcases List.mem_cons.mp h with hpt | h
        · exact absurd hpt.symm hne
        · rw [ih h, List.cons_append]

theorem updateFirst_append_of_not_mem {pt : Int32} {f : SdpMedia → SdpMedia}
    {items : List SdpMedia} (h : pt ∉ items.map SdpMedia.payloadType) (rest : List SdpMedia) :
    updateFirst pt f (items ++ rest) = items ++ updateFirst pt f rest := by
  induction items with
  | nil => rfl
  | cons item items ih =>
      rw [List.map_cons, List.mem_cons, not_or] at h
      rw [List.cons_append, updateFirst, if_neg (Ne.symm h.1), ih h.2, List.cons_append]

theorem updateLast_append_cons (f : SdpMedia → SdpMedia) (items : List SdpMedia)
    (item : SdpMedia) (rest : List SdpMedia) :
    updateLast f (items ++ item :: rest) = items ++ updateLast f (item :: rest) := by
  induction items with
  | nil => rfl
  | cons other items ih =>
      obtain ⟨next, tail, htail⟩ : ∃ next tail, items ++ item :: rest = next :: tail :=
        List.exists_cons_of_ne_nil (by simp)
      rw [List.cons_append, htail, updateLast, ← htail, ih, List.cons_append]

theorem updateLast_eq_nil_iff (f : SdpMedia → SdpMedia) (items : List SdpMedia) :
    updateLast f items = [] ↔ items = [] := by
  rw [← List.length_eq_zero_iff, updateLast_length, List.length_eq_zero_iff]

theorem updateFirst_eq_nil_iff (pt : Int32) (f : SdpMedia → SdpMedia) (items : List SdpMedia) :
    updateFirst pt f items = [] ↔ items = [] := by
  rw [← List.length_eq_zero_iff, updateFirst_length, List.length_eq_zero_iff]

/-- A mid line is for the last media. -/
theorem applyEvent_mid (value : CStr 32) :
    ∃ post', applyEvent (pre ++ media :: post) (.mid value) =
        pre ++ described media (if post = [] then [.mid value] else []) [] :: post' ∧
      (post' = [] ↔ post = []) := by
  rw [applyEvent, updateLast_append_cons]
  cases post with
  | nil => exact ⟨[], rfl, Iff.rfl⟩
  | cons next rest =>
      refine ⟨updateLast (fun media => { media with mid := CStr.strncpy value.bytes })
        (next :: rest), rfl, ?_⟩
      rw [updateLast_eq_nil_iff]

/-- An rtpmap line is for the first media with its payload type. -/
theorem applyEvent_rtpmap (pt : Int32) (codecName : CStr 64) (clockRate : UInt32)
    (channels : Int32) :
    ∃ pre' post', applyEvent (pre ++ media :: post) (.rtpmap pt codecName clockRate channels) =
        pre' ++ described media [] (if media.payloadType ∈ pre.map SdpMedia.payloadType then []
          else [.rtpmap pt codecName clockRate channels]) :: post' ∧
      pre'.map SdpMedia.payloadType = pre.map SdpMedia.payloadType ∧
      (post' = [] ↔ post = []) := by
  have hdescribed := @described_rtpmap media pt codecName clockRate channels [] rfl
  rw [applyEvent]
  by_cases hearlier : pt ∈ pre.map SdpMedia.payloadType
  · refine ⟨updateFirst pt (applyRtpmap codecName.bytes clockRate channels) pre, post, ?_,
      updateFirst_payloadTypes _ _ _ _ _, Iff.rfl⟩
    rw [updateFirst_append_of_mem hearlier]
    split
    · rfl
    · next hfirst =>
      rw [hdescribed, if_neg fun hpt => hfirst (by rw [hpt]; exact hearlier)]
  · rw [updateFirst_append_of_not_mem hearlier, updateFirst]
    split
    · next hpt =>
      refine ⟨pre, post, ?_, rfl, Iff.rfl⟩
      rw [if_neg (by rw [hpt]; exact hearlier), hdescribed, if_pos hpt]
    · next hpt =>
      refine ⟨pre, _, ?_, rfl,
        updateFirst_eq_nil_iff pt (applyRtpmap codecName.bytes clockRate channels) post⟩
      split
      · rfl
      · rw [hdescribed, if_neg hpt]

theorem untilAccepted_cons {event : MediaEvent} (h : isAccepted event = false)
    (events : List MediaEvent) : untilAccepted (event :: events) = event :: untilAccepted events :=
  List.takeWhile_cons_of_pos (by rw [h]; rfl)

theorem described_step (event : MediaEvent) (last earlier : Prop) [Decidable last]
    [Decidable earlier] (mids rtpmaps : List MediaEvent) :
    described media (if last then event :: mids else [])
        (if earlier then [] else event :: rtpmaps) =
      described
        (described media (if last then [event] else []) (if earlier then [] else [event]))
        (if last then mids else []) (if earlier then [] else rtpmaps) := by
  split
  · split
    · exact described_cons_mids event
    · exact described_cons event
  · split
    · rfl
    · exact described_cons_rtpmaps event

/-- A line that says nothing about the media can be left out. -/
theorem described_silent {event : MediaEvent} (hsilent : described media [event] [event] = media)
    (last earlier : Prop) [Decidable last] [Decidable earlier] (mids rtpmaps : List MediaEvent) :
    described media (if last then event :: mids else [])
        (if earlier then [] else event :: rtpmaps) =
      described media (if last then mids else []) (if earlier then [] else rtpmaps) := by
  have hmid := congrArg SdpMedia.mid hsilent
  have hcodecId := congrArg SdpMedia.codecId hsilent
  have hclockRate := congrArg SdpMedia.clockRate hsilent
  have hchannels := congrArg SdpMedia.channels hsilent
  have hmids : described media [event] [] = media :=
    SdpMedia.ext rfl rfl rfl rfl rfl rfl hmid rfl rfl
  have hrtpmaps : described media [] [event] = media :=
    SdpMedia.ext rfl rfl rfl hcodecId hclockRate hchannels rfl rfl rfl
  rw [described_step]
  split
  · split
    · rw [hmids]
    · rw [hsilent]
  · split
    · rfl
    · rw [hrtpmaps]

/-- The lines behind the m-line of a media describe it: the mids up to the next media, and
the rtpmaps to the end, unless an earlier media has the payload type. -/
theorem foldl_applyEvent_getElem? (events : List MediaEvent) :
    (events.foldl applyEvent (pre ++ media :: post))[pre.length]? =
      some (described media (if post = [] then untilAccepted events else [])
        (if media.payloadType ∈ pre.map SdpMedia.payloadType then [] else events)) := by
  induction events generalizing pre media post with
  | nil => simp [untilAccepted, described]
  | cons event events ih =>
      rw [List.foldl_cons]
      cases event with
      | accepted other =>
          have hstep : applyEvent (pre ++ media :: post) (.accepted other) =
              pre ++ media :: (post ++ [other]) := by
            rw [applyEvent, List.append_assoc, List.cons_append]
          have huntil : untilAccepted (.accepted other :: events) = [] := rfl
          rw [hstep, ih, if_neg (by simp), huntil, ite_self]
          split
          · rfl
          · rw [described_cons_rtpmaps (.accepted other)]
            rfl
      | skipped =>
          rw [untilAccepted_cons rfl, described_silent rfl]
          exact ih
      | mid value =>
          obtain ⟨post', hstep, hpost⟩ :=
            @applyEvent_mid pre post media value
          have hmid : described media (if post = [] then [.mid value] else [])
              (if media.payloadType ∈ pre.map SdpMedia.payloadType then [] else [.mid value]) =
                described media (if post = [] then [.mid value] else []) [] := by
            split_ifs <;> rfl
          rw [hstep, ih, untilAccepted_cons rfl, described_step, hmid]
          simp only [hpost]
          rfl
      | rtpmap pt codecName clockRate channels =>
          obtain ⟨pre', post', hstep, hpre, hpost⟩ :=
            @applyEvent_rtpmap pre post media pt codecName clockRate channels
          have hlength : pre'.length = pre.length := by
            rw [← List.length_map SdpMedia.payloadType, hpre, List.length_map]
          have hrtpmap : described media
              (if post = [] then [.rtpmap pt codecName clockRate channels] else [])
              (if media.payloadType ∈ pre.map SdpMedia.payloadType then []
                else [.rtpmap pt codecName clockRate channels]) =
              described media [] (if media.payloadType ∈ pre.map SdpMedia.payloadType then []
                else [.rtpmap pt codecName clockRate channels]) := by
            split_ifs <;> rfl
          rw [hstep, ← hlength, ih, untilAccepted_cons rfl, described_step, hrtpmap]
          simp only [hpost, hpre]
          rfl
      | other =>
          rw [untilAccepted_cons rfl, described_silent rfl]
          exact ih

end

/-- The payload types of the media that the lines add. -/
def acceptedTypes (events : List MediaEvent) : List Int32 :=
  events.filterMap fun event =>
    match event with
    | .accepted media => some media.payloadType
    | _ => none

theorem acceptedTypes_cons_accepted (media : SdpMedia) (events : List MediaEvent) :
    acceptedTypes (.accepted media :: events) = media.payloadType :: acceptedTypes events := rfl

theorem acceptedTypes_cons_of_not {event : MediaEvent} (h : isAccepted event = false)
    (events : List MediaEvent) : acceptedTypes (event :: events) = acceptedTypes events := by
  cases event with
  | accepted media => cases h
  | skipped => rfl
  | mid value => rfl
  | rtpmap pt codecName clockRate channels => rfl
  | other => rfl

theorem updateLast_payloadTypes {f : SdpMedia → SdpMedia}
    (hf : ∀ media, (f media).payloadType = media.payloadType) (items : List SdpMedia) :
    (updateLast f items).map SdpMedia.payloadType = items.map SdpMedia.payloadType := by
  induction items using List.reverseRecOn with
  | nil => rfl
  | append_singleton items item _ =>
      rw [updateLast_append_cons, List.map_append, List.map_append]
      exact congrArg (_ ++ ·) (congrArg (· :: []) (hf item))

theorem foldl_applyEvent_payloadTypes (events : List MediaEvent) (items : List SdpMedia) :
    (events.foldl applyEvent items).map SdpMedia.payloadType =
      items.map SdpMedia.payloadType ++ acceptedTypes events := by
  induction events generalizing items with
  | nil => exact (List.append_nil _).symm
  | cons event events ih =>
      rw [List.foldl_cons, ih]
      cases event with
      | accepted media =>
          rw [applyEvent, acceptedTypes_cons_accepted, List.map_append, List.append_assoc]
          rfl
      | skipped => rw [acceptedTypes_cons_of_not rfl, applyEvent]
      | mid value =>
          have hkept := updateLast_payloadTypes
            (f := fun media : SdpMedia => { media with mid := CStr.strncpy value.bytes })
            (fun _ => rfl) items
          rw [acceptedTypes_cons_of_not rfl, applyEvent, hkept]
      | rtpmap pt codecName clockRate channels =>
          rw [acceptedTypes_cons_of_not rfl, applyEvent, updateFirst_payloadTypes]
      | other => rw [acceptedTypes_cons_of_not rfl, applyEvent]

theorem exists_accepted {events : List MediaEvent} {i : Nat}
    (h : i < (acceptedTypes events).length) :
    ∃ before media after, events = before ++ .accepted media :: after ∧
      (acceptedTypes before).length = i := by
  induction events generalizing i with
  | nil => cases h
  | cons event events ih =>
      cases hevent : isAccepted event with
      | true =>
          cases event with
          | accepted media =>
              cases i with
              | zero => exact ⟨[], media, events, rfl, rfl⟩
              | succ i =>
                  rw [acceptedTypes_cons_accepted, List.length_cons] at h
                  obtain ⟨before, other, after, rfl, hlength⟩ := ih (Nat.lt_of_succ_lt_succ h)
                  exact ⟨.accepted media :: before, other, after, rfl, congrArg (· + 1) hlength⟩
          | skipped => cases hevent
          | mid value => cases hevent
          | rtpmap pt codecName clockRate channels => cases hevent
          | other => cases hevent
      | false =>
          rw [acceptedTypes_cons_of_not hevent] at h
          obtain ⟨before, media, after, rfl, hlength⟩ := ih h
          exact ⟨event :: before, media, after, rfl,
            by rw [acceptedTypes_cons_of_not hevent, hlength]⟩

/-- The rtpmap lines that get to a media: those behind its m-line, unless an earlier media has
its payload type. -/
def rtpmapsFor (before : List MediaEvent) (media : SdpMedia) (after : List MediaEvent) :
    List MediaEvent :=
  if media.payloadType ∈ acceptedTypes before then [] else after

section

variable {locals : Locals} {text : List UInt8} {err : TinyrtcError} {session : SdpSession}

theorem sdpParse_items (h : sdpParse locals text = some (err, session)) :
    session.media.items = (textEvents locals text).foldl applyEvent [] := by
  obtain ⟨session', hloop, heq⟩ := Option.map_eq_some_iff.mp h
  cases heq
  exact sdpParseLoop_items hloop

/-- The record of an m-line. -/
theorem sdpParse_record (h : sdpParse locals text = some (err, session))
    {before after : List MediaEvent} {media : SdpMedia}
    (hevents : textEvents locals text = before ++ .accepted media :: after) :
    session.media.items[(acceptedTypes before).length]? =
      some (described media (untilAccepted after) (rtpmapsFor before media after)) := by
  have hearlier := foldl_applyEvent_payloadTypes before []
  rw [List.map_nil, List.nil_append] at hearlier
  have hlength : (before.foldl applyEvent []).length = (acceptedTypes before).length := by
    rw [← hearlier, List.length_map]
  rw [sdpParse_items h, hevents, List.foldl_append, List.foldl_cons, applyEvent, ← hlength,
    foldl_applyEvent_getElem?, hearlier, if_pos rfl]
  rfl

/-- Every record is that of an m-line. -/
theorem sdpParse_accepted (h : sdpParse locals text = some (err, session)) {record : SdpMedia}
    (hrecord : record ∈ session.media.items) :
    ∃ before media after, textEvents locals text = before ++ .accepted media :: after ∧
      record = described media (untilAccepted after) (rtpmapsFor before media after) := by
  obtain ⟨i, hi, rfl⟩ := List.getElem_of_mem hrecord
  have htypes := foldl_applyEvent_payloadTypes (textEvents locals text) []
  rw [← sdpParse_items h, List.map_nil, List.nil_append] at htypes
  have hlt : i < (acceptedTypes (textEvents locals text)).length := by
    rw [← htypes, List.length_map]
    exact hi
  obtain ⟨before, media, after, hevents, rfl⟩ := exists_accepted hlt
  have hsame := sdpParse_record h hevents
  rw [List.getElem?_eq_getElem hi] at hsame
  exact ⟨before, media, after, hevents, Option.some.inj hsame⟩

end

theorem mediaEvent_accepted {full : Bool} {p : List UInt8} {media : SdpMedia}
    (h : mediaEvent full p = .accepted media) :
    ∃ kind port payloadType, media = freshMedia kind port payloadType := by
  rw [mediaEvent] at h
  split at h
  · cases h
  · dsimp only at h
    split at h
    · cases h
    · cases h
      exact ⟨_, _, _, rfl⟩

theorem attributeEvent_not_accepted (p : List UInt8) : isAccepted (attributeEvent p) = false := by
  rw [attributeEvent]
  dsimp only
  split_ifs
  · rfl
  · rw [rtpmapEvent]
    split
    · rfl
    · rfl
  · rfl

theorem lineEvent_accepted {full : Bool} {type : UInt8} {p : List UInt8} {media : SdpMedia}
    (h : lineEvent full type p = .accepted media) :
    ∃ kind port payloadType, media = freshMedia kind port payloadType := by
  rw [lineEvent] at h
  split_ifs at h
  · have hnot := attributeEvent_not_accepted p.tail
    rw [h] at hnot
    cases hnot
  · exact mediaEvent_accepted h

/-- An m-line adds a fresh entry. -/
theorem freshMedia_of_mem {locals : Locals} {fuel : Nat} {p : List UInt8} {session : SdpSession}
    {media : SdpMedia} (h : .accepted media ∈ sdpEvents locals fuel p session) :
    ∃ kind port payloadType, media = freshMedia kind port payloadType := by
  induction fuel generalizing p session with
  | zero =>
      cases p with
      | nil => cases h
      | cons c rest => cases h
  | succ fuel ih =>
      cases p with
      | nil => cases h
      | cons c rest =>
          rw [sdpEvents] at h
          split at h
          · cases h
          · split at h
            · exact ih h
            · split at h
              · cases h
              · rcases List.mem_cons.mp h with hfirst | hrest
                · exact lineEvent_accepted hfirst.symm
                · exact ih hrest

/-- Three lines with an m-line in the middle. -/
theorem accepted_of_three {first last : MediaEvent} {media media' : SdpMedia}
    {before after : List MediaEvent} (hfirst : isAccepted first = false)
    (hlast : isAccepted last = false)
    (h : [first, .accepted media, last] = before ++ .accepted media' :: after) :
    before = [first] ∧ media' = media ∧ after = [last] := by
  cases before with
  | nil =>
      rw [List.nil_append, List.cons.injEq] at h
      rw [h.1] at hfirst
      cases hfirst
  | cons x before =>
      rw [List.cons_append, List.cons.injEq] at h
      obtain ⟨rfl, h⟩ := h
      cases before with
      | nil =>
          rw [List.nil_append, List.cons.injEq, MediaEvent.accepted.injEq] at h
          exact ⟨rfl, h.1.symm, h.2.symm⟩
      | cons y before =>
          rw [List.cons_append, List.cons.injEq] at h
          cases before with
          | nil =>
              rw [List.nil_append, List.cons.injEq] at h
              rw [h.2.1] at hlast
              cases hlast
          | cons z before =>
              have hlength := congrArg List.length h.2
              simp at hlength

end TinyRtc.SdpSections
