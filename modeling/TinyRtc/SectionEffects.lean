import TinyRtc.SdpTextLines

namespace TinyRtc.SectionEffects

open TinyRtc.Common
open TinyRtc.CString
open TinyRtc.LastWrites
open TinyRtc.MediaCodec
open TinyRtc.Sdp
open TinyRtc.SdpBounds (zeroLocals parseLine_eq_none_iff)
open TinyRtc.SdpCursor
open TinyRtc.SdpParser
open TinyRtc.SdpScanning
open TinyRtc.SdpSections
open TinyRtc.SdpTextLines

def beginsMedia : List UInt8 → Bool
  | 0x6D :: 0x3D :: _ => true
  | _ => false

def beginsAttribute : List UInt8 → Bool
  | 0x61 :: 0x3D :: _ => true
  | _ => false

/-- What ends the line in front of the text; a line feed if the text is at its end. -/
def lineEnd (rest : List UInt8) : List UInt8 :=
  match rest.takeWhile fun c => isEol c && c != 0x00 with
  | [] => [0x0A]
  | c :: ends => c :: ends

/-- The line at a place, with its end. -/
def rawLine (place : List UInt8) : List UInt8 :=
  place.takeWhile (fun c => !isEol c) ++ lineEnd (place.dropWhile fun c => !isEol c)

/-- The places of the attribute lines of the section that begins here: those up to the next
m-line. -/
def ownAttributes (place : List UInt8) : List (List UInt8) :=
  ((lineStarts false place).takeWhile fun line => !beginsMedia line).filter beginsAttribute

/-- The m-line at a place and the attribute lines of its section, without any other line. -/
def ownText (place : List UInt8) : List UInt8 :=
  rawLine place ++ (ownAttributes place).flatMap rawLine

structure MediaFields where
  mid : CStr 16
  codecId : CodecId
  clockRate : UInt32
  channels : Int32
  deriving DecidableEq

def fieldsOf (media : SdpMedia) : MediaFields :=
  ⟨media.mid, media.codecId, media.clockRate, media.channels⟩

/-- Every record has the fields that the parser records for the section's own lines alone. -/
def SectionsApart (locals : Locals) (text : List UInt8) (session : SdpSession) : Prop :=
  ∀ before visit after, textVisits locals text = before ++ visit :: after →
    isAccepted visit.event = true →
      session.media.items[(acceptedTypes (before.map Visit.event)).length]?.map fieldsOf =
        (sdpParse locals (ownText visit.place)).bind fun alone =>
          alone.2.media.items[0]?.map fieldsOf

def isMediaLine : MediaEvent → Bool
  | .accepted _ => true
  | .skipped => true
  | _ => false

/-- The lines of the section that begins in front of these, and those of other sections. -/
def ownLines (events : List MediaEvent) : List MediaEvent :=
  events.takeWhile fun event => !isMediaLine event

def otherLines (events : List MediaEvent) : List MediaEvent :=
  events.dropWhile fun event => !isMediaLine event

/-- What the lines of a section say by themselves. -/
def sectionSays (locals : Locals) (place : List UInt8) : SdpMedia :=
  match textEvents locals (ownText place) with
  | .accepted media :: lines => described media (untilAccepted lines) lines
  | _ => .zero

/-- The last line of another section that says it, if there is one, repeats what the section
says by itself. Without one, the section's own lines say the same where they stand. -/
def Repeats {β : Type} (f : MediaEvent → Option β) (own other : List MediaEvent)
    (initial alone : β) : Prop :=
  match last? f other with
  | some value => value = alone
  | none => (last? f own).getD initial = alone

instance {β : Type} [DecidableEq β] (f : MediaEvent → Option β) (own other : List MediaEvent)
    (initial alone : β) : Decidable (Repeats f own other initial alone) :=
  match h : last? f other with
  | some value => decidable_of_iff (value = alone) (by rw [Repeats, h])
  | none => decidable_of_iff ((last? f own).getD initial = alone) (by rw [Repeats, h])

/-- The lines of other sections that get to a media only repeat what its own section says: the
a=mid lines up to the next media, and the a=rtpmap lines for its payload type, of which none gets
to it if an earlier media has the payload type. -/
structure OnlyRepeats (before : List MediaEvent) (media alone : SdpMedia)
    (after : List MediaEvent) : Prop where
  mid : Repeats midOf (ownLines after) (untilAccepted (otherLines after)) media.mid alone.mid
  codecId : Repeats (codecFor media.payloadType) (rtpmapsFor before media (ownLines after))
    (rtpmapsFor before media (otherLines after)) media.codecId alone.codecId
  clockRate : Repeats (clockRateFor media.payloadType) (rtpmapsFor before media (ownLines after))
    (rtpmapsFor before media (otherLines after)) media.clockRate alone.clockRate
  channels : Repeats (channelsFor media.payloadType) (rtpmapsFor before media (ownLines after))
    (rtpmapsFor before media (otherLines after)) media.channels alone.channels

instance (before : List MediaEvent) (media alone : SdpMedia) (after : List MediaEvent) :
    Decidable (OnlyRepeats before media alone after) :=
  decidable_of_iff
    (Repeats midOf (ownLines after) (untilAccepted (otherLines after)) media.mid alone.mid ∧
      Repeats (codecFor media.payloadType) (rtpmapsFor before media (ownLines after))
        (rtpmapsFor before media (otherLines after)) media.codecId alone.codecId ∧
      Repeats (clockRateFor media.payloadType) (rtpmapsFor before media (ownLines after))
        (rtpmapsFor before media (otherLines after)) media.clockRate alone.clockRate ∧
      Repeats (channelsFor media.payloadType) (rtpmapsFor before media (ownLines after))
        (rtpmapsFor before media (otherLines after)) media.channels alone.channels)
    ⟨fun ⟨mid, codecId, clockRate, channels⟩ => ⟨mid, codecId, clockRate, channels⟩,
      fun ⟨mid, codecId, clockRate, channels⟩ => ⟨mid, codecId, clockRate, channels⟩⟩

theorem repeats_iff {β : Type} (f : MediaEvent → Option β) (own other : List MediaEvent)
    (initial alone : β) :
    Repeats f own other initial alone ↔ (last? f (own ++ other)).getD initial = alone := by
  rw [Repeats, last?_append]
  cases last? f other with
  | some value => rfl
  | none => rfl

theorem untilAccepted_split (after : List MediaEvent) :
    ownLines after ++ untilAccepted (otherLines after) = untilAccepted after := by
  induction after with
  | nil => rfl
  | cons event after ih =>
      cases hline : isMediaLine event with
      | true => simp [ownLines, otherLines, hline]
      | false =>
          have haccepted : isAccepted event = false := by
            cases event with
            | accepted media => cases hline
            | _ => rfl
          rw [untilAccepted_cons haccepted, ← ih]
          simp [ownLines, otherLines, hline]

theorem rtpmapsFor_split (before : List MediaEvent) (media : SdpMedia) (after : List MediaEvent) :
    rtpmapsFor before media (ownLines after) ++ rtpmapsFor before media (otherLines after) =
      rtpmapsFor before media after := by
  rw [rtpmapsFor, rtpmapsFor, rtpmapsFor]
  split
  · rfl
  · exact List.takeWhile_append_dropWhile

/-- The fields of a record are those of the section exactly if other lines only repeat them. -/
theorem fieldsOf_described_iff (before : List MediaEvent) (media alone : SdpMedia)
    (after : List MediaEvent) :
    fieldsOf (described media (untilAccepted after) (rtpmapsFor before media after)) =
        fieldsOf alone ↔
      OnlyRepeats before media alone after := by
  rw [fieldsOf, fieldsOf, MediaFields.mk.injEq, ← untilAccepted_split after,
    ← rtpmapsFor_split before media after]
  simp only [described]
  constructor
  · rintro ⟨hmid, hcodecId, hclockRate, hchannels⟩
    exact ⟨(repeats_iff _ _ _ _ _).mpr hmid, (repeats_iff _ _ _ _ _).mpr hcodecId,
      (repeats_iff _ _ _ _ _).mpr hclockRate, (repeats_iff _ _ _ _ _).mpr hchannels⟩
  · rintro ⟨hmid, hcodecId, hclockRate, hchannels⟩
    exact ⟨(repeats_iff _ _ _ _ _).mp hmid, (repeats_iff _ _ _ _ _).mp hcodecId,
      (repeats_iff _ _ _ _ _).mp hclockRate, (repeats_iff _ _ _ _ _).mp hchannels⟩

theorem lineEnd_isEol (rest : List UInt8) : ∃ front stop, isEol stop = true ∧
    lineEnd rest = front ++ [stop] ∧ 0x00 ∉ lineEnd rest := by
  have hplain : ∀ c ∈ rest.takeWhile (fun c => isEol c && c != 0x00),
      isEol c = true ∧ c ≠ 0x00 := by
    intro c hc
    simpa using List.mem_takeWhile_imp hc
  rw [lineEnd]
  split
  · exact ⟨[], 0x0A, rfl, rfl, by decide⟩
  · next c ends hends =>
    rw [hends] at hplain
    have hne : c :: ends ≠ [] := List.cons_ne_nil c ends
    refine ⟨(c :: ends).dropLast, (c :: ends).getLast hne, (hplain _ (List.getLast_mem hne)).1,
      (List.dropLast_append_getLast hne).symm, fun hmem => (hplain _ hmem).2 rfl⟩

theorem rawLine_isEol (place : List UInt8) : ∃ front stop, isEol stop = true ∧
    rawLine place = front ++ [stop] ∧ 0x00 ∉ rawLine place := by
  obtain ⟨front, stop, hstop, hends, hnul⟩ := lineEnd_isEol (place.dropWhile fun c => !isEol c)
  refine ⟨place.takeWhile (fun c => !isEol c) ++ front, stop, hstop, ?_, ?_⟩
  · rw [rawLine, hends, List.append_assoc]
  · rw [rawLine, List.mem_append, not_or]
    refine ⟨fun hmem => ?_, hnul⟩
    have heol := List.mem_takeWhile_imp hmem
    cases heol

theorem ownText_isEol (place : List UInt8) : ∃ front stop, isEol stop = true ∧
    ownText place = front ++ [stop] ∧ 0x00 ∉ ownText place := by
  rw [ownText]
  induction ownAttributes place using List.reverseRecOn with
  | nil =>
      rw [List.flatMap_nil, List.append_nil]
      exact rawLine_isEol place
  | append_singleton lines line ih =>
      obtain ⟨-, -, -, -, hlines⟩ := ih
      obtain ⟨front, stop, hstop, hline, hnul⟩ := rawLine_isEol line
      rw [List.flatMap_append, List.flatMap_singleton, ← List.append_assoc]
      refine ⟨(rawLine place ++ lines.flatMap rawLine) ++ front, stop, hstop, ?_, ?_⟩
      · rw [hline, List.append_assoc, List.append_assoc, List.append_assoc]
      · rw [List.mem_append, not_or]
        exact ⟨hlines, hnul⟩

/-- A text that ends with a line end does not lead the parser over its NUL. -/
theorem sdpParseLoop_isSome (locals : Locals) (fuel : Nat) {p : List UInt8} (hnul : 0x00 ∉ p)
    (hends : ∀ c ∈ p.getLast?, isEol c = true) (session : SdpSession) :
    ∃ session', sdpParseLoop locals fuel p session = some session' := by
  induction fuel generalizing p session with
  | zero => cases p <;> exact ⟨_, rfl⟩
  | succ fuel ih =>
      cases p with
      | nil => exact ⟨_, rfl⟩
      | cons c rest =>
          rw [List.mem_cons, not_or] at hnul
          have hbehind : ∀ q, q <:+ rest → ∀ c ∈ q.getLast?, isEol c = true := by
            intro q hq stop hstop
            obtain ⟨front, rfl⟩ := hq
            refine hends stop ?_
            rw [← List.cons_append, List.getLast?_append, Option.mem_def.mp hstop]
            rfl
          rw [sdpParseLoop]
          split
          · exact ⟨_, rfl⟩
          · split
            · exact ih hnul.2 (hbehind rest List.suffix_rfl) session
            · next heol =>
              cases hline : parseLine locals c rest session with
              | none =>
                  obtain ⟨hopen, hequals⟩ := (parseLine_eq_none_iff hnul.2).mp hline
                  cases hlast : rest.getLast? with
                  | none =>
                      rw [List.getLast?_eq_none_iff.mp hlast] at hends
                      exact absurd (hends c rfl) heol
                  | some stop =>
                      have hstop := hbehind rest List.suffix_rfl stop hlast
                      rw [hopen stop (List.mem_of_getLast? hlast)] at hstop
                      cases hstop
              | some next =>
                  obtain ⟨q, session'⟩ := next
                  dsimp only
                  rcases cursor_of_parseLine hline with hend | ⟨front, stop, -, -, rfl⟩
                  · cases q with
                    | nil => cases fuel <;> exact ⟨_, rfl⟩
                    | cons x q =>
                        rw [hend x rfl, SdpBounds.sdpParseLoop_nul]
                        exact ⟨_, rfl⟩
                  · have hsuffix : q <:+ front ++ stop :: q := ⟨front ++ [stop], by simp⟩
                    exact ih (fun hmem => hnul.2 (hsuffix.subset hmem)) (hbehind q hsuffix) session'

theorem exists_sdpParse_ownText (locals : Locals) (place : List UInt8) :
    ∃ err session, sdpParse locals (ownText place) = some (err, session) := by
  obtain ⟨front, stop, hstop, htext, hnul⟩ := ownText_isEol place
  have hends : ∀ c ∈ (ownText place).getLast?, isEol c = true := by
    intro c hc
    rw [htext, List.getLast?_append, List.getLast?_singleton, Option.some_or] at hc
    cases hc
    exact hstop
  obtain ⟨session, hloop⟩ := sdpParseLoop_isSome locals (ownText place).length hnul hends
    sdpSessionInit
  exact ⟨_, session, by rw [sdpParse, hloop]; rfl⟩

/-- A string is copied from the line alone. -/
theorem copyUntil_takeWhile (cap : Nat) (sep : UInt8) (p : List UInt8) :
    (copyUntil cap sep (p.takeWhile fun c => !isEol c)).1 = (copyUntil cap sep p).1 := by
  have hsplit := List.takeWhile_append_dropWhile (p := fun c => !isEol c) (l := p)
  cases hbehind : p.dropWhile (fun c => !isEol c) with
  | nil =>
      rw [hbehind, List.append_nil] at hsplit
      rw [hsplit]
  | cons stop junk =>
      have hstop := SdpBounds.isEol_of_findEol hbehind
      conv_rhs => rw [← hsplit, hbehind, copyUntil_eol _ junk hstop]

theorem accepted_line {full : Bool} {type : UInt8} {p : List UInt8}
    (h : isAccepted (lineEvent full type p) = true) :
    ∃ rest kind, type = 0x6D ∧ p = 0x3D :: rest ∧
      kindOfName (copyUntil 16 0x20 rest).1.bytes = some kind := by
  rw [lineEvent] at h
  split at h
  · cases h
  · next hequals =>
    obtain ⟨rest, rfl⟩ := List.head?_eq_some_iff.mp (not_not.mp hequals)
    rw [List.tail_cons] at h
    split at h
    · rw [attributeEvent_not_accepted] at h
      cases h
    · split at h
      · next htype =>
        rw [mediaEvent] at h
        split at h
        · cases h
        · dsimp only at h
          split at h
          · cases h
          · next kind hkind => exact ⟨rest, kind, htype, rfl, hkind⟩
      · cases h

/-- The first line of a text that begins with an m-line. -/
theorem textEvents_media {locals : Locals} {rest : List UInt8} {err : TinyrtcError}
    {session : SdpSession} (h : sdpParse locals (0x6D :: 0x3D :: rest) = some (err, session)) :
    ∃ lines, textEvents locals (0x6D :: 0x3D :: rest) = mediaEvent false rest :: lines := by
  obtain ⟨session', hloop, -⟩ := Option.map_eq_some_iff.mp h
  rw [List.length_cons, sdpParseLoop] at hloop
  rw [textEvents, List.length_cons, sdpEvents]
  cases hline : parseLine locals 0x6D (0x3D :: rest) sdpSessionInit with
  | none =>
      rw [hline] at hloop
      cases hloop
  | some next => exact ⟨_, rfl⟩

/-- An m-line that is recorded is so in the section alone. -/
theorem textEvents_ownText (locals : Locals) {visit : Visit}
    (h : isAccepted visit.event = true) :
    ∃ media lines, textEvents locals (ownText visit.place) = .accepted media :: lines := by
  obtain ⟨rest, kind, htype, hrest, hkind⟩ := accepted_line h
  have hm : isEol 0x6D = false := rfl
  have hequals : isEol 0x3D = false := rfl
  obtain ⟨tail, htext, hline⟩ : ∃ tail, ownText visit.place = 0x6D :: 0x3D :: tail ∧
      tail.takeWhile (fun c => !isEol c) = rest.takeWhile fun c => !isEol c := by
    refine ⟨rest.takeWhile (fun c => !isEol c) ++
      (lineEnd (visit.place.dropWhile fun c => !isEol c) ++
        (ownAttributes visit.place).flatMap rawLine), ?_, ?_⟩
    · rw [ownText, rawLine, Visit.place, htype, hrest]
      simp [hm, hequals]
    · obtain ⟨c, ends, hends, hc⟩ : ∃ c ends,
          lineEnd (visit.place.dropWhile fun c => !isEol c) = c :: ends ∧ isEol c = true := by
        rw [lineEnd]
        split
        · exact ⟨_, _, rfl, rfl⟩
        · next c ends hends =>
          have hmem := List.mem_takeWhile_imp (hends ▸ List.mem_cons_self)
          exact ⟨c, ends, rfl, (Bool.and_eq_true _ _ ▸ hmem).1⟩
      have hplain : ∀ x ∈ rest.takeWhile (fun c => !isEol c), (!isEol x) = true := fun x hx =>
        List.mem_takeWhile_imp (p := fun c => !isEol c) hx
      rw [hends, List.takeWhile_append_of_pos hplain, List.cons_append,
        List.takeWhile_cons_of_neg (by rw [hc]; exact Bool.false_ne_true), List.append_nil]
  have hname : kindOfName (copyUntil 16 0x20 tail).1.bytes = some kind := by
    rw [← copyUntil_takeWhile, hline, copyUntil_takeWhile, hkind]
  obtain ⟨media, hmedia⟩ : ∃ media, mediaEvent false tail = .accepted media := by
    rw [mediaEvent, if_neg Bool.false_ne_true]
    dsimp only
    rw [hname]
    exact ⟨_, rfl⟩
  obtain ⟨err, session, hparse⟩ := exists_sdpParse_ownText locals visit.place
  rw [htext] at hparse ⊢
  obtain ⟨lines, hevents⟩ := textEvents_media hparse
  exact ⟨media, lines, hmedia ▸ hevents⟩

/-- What the parser records for the section alone is what its lines say. -/
theorem parsed_ownText (locals : Locals) {visit : Visit} (h : isAccepted visit.event = true) :
    ((sdpParse locals (ownText visit.place)).bind fun alone =>
        alone.2.media.items[0]?.map fieldsOf) =
      some (fieldsOf (sectionSays locals visit.place)) := by
  obtain ⟨media, lines, hevents⟩ := textEvents_ownText locals h
  obtain ⟨err, session, hparse⟩ := exists_sdpParse_ownText locals visit.place
  have hrecord := @sdpParse_record _ _ _ _ hparse [] lines media hevents
  have hsays : sectionSays locals visit.place = described media (untilAccepted lines) lines := by
    rw [sectionSays, hevents]
  rw [hparse, Option.bind_some, hsays]
  exact congrArg (Option.map fieldsOf) hrecord

/-- Other sections only repeat what the section of a line says, if the line adds a media. -/
def KeepsApart (locals : Locals) (before : List Visit) (visit : Visit) (after : List Visit) :
    Prop :=
  ∀ media, visit.event = .accepted media →
    OnlyRepeats (before.map Visit.event) media (sectionSays locals visit.place)
      (after.map Visit.event)

section

variable {locals : Locals} {text : List UInt8} {err : TinyrtcError} {session : SdpSession}

theorem record_eq_ownText_iff (h : sdpParse locals text = some (err, session))
    {before after : List Visit} {visit : Visit}
    (hvisits : textVisits locals text = before ++ visit :: after) {media : SdpMedia}
    (hmedia : visit.event = .accepted media) :
    (session.media.items[(acceptedTypes (before.map Visit.event)).length]?.map fieldsOf =
        (sdpParse locals (ownText visit.place)).bind fun alone =>
          alone.2.media.items[0]?.map fieldsOf) ↔
      OnlyRepeats (before.map Visit.event) media (sectionSays locals visit.place)
        (after.map Visit.event) := by
  have hevents : textEvents locals text =
      before.map Visit.event ++ .accepted media :: after.map Visit.event := by
    rw [← map_event_textVisits, hvisits, List.map_append, List.map_cons, hmedia]
  rw [sdpParse_record h hevents, parsed_ownText locals (by rw [hmedia]; rfl), Option.map_some,
    Option.some_inj]
  exact fieldsOf_described_iff _ _ _ _

end

instance (locals : Locals) (before : List Visit) (visit : Visit) (after : List Visit) :
    Decidable (KeepsApart locals before visit after) :=
  match h : visit.event with
  | .accepted media =>
      decidable_of_iff (OnlyRepeats (before.map Visit.event) media
          (sectionSays locals visit.place) (after.map Visit.event)) (by
        rw [KeepsApart, h]
        exact ⟨fun hrepeats _ hmedia => MediaEvent.accepted.inj hmedia ▸ hrepeats,
          fun hall => hall media rfl⟩)
  | .skipped => isTrue fun _ hmedia => by rw [h] at hmedia; cases hmedia
  | .mid _ => isTrue fun _ hmedia => by rw [h] at hmedia; cases hmedia
  | .rtpmap _ _ _ _ => isTrue fun _ hmedia => by rw [h] at hmedia; cases hmedia
  | .other => isTrue fun _ hmedia => by rw [h] at hmedia; cases hmedia

theorem forall_split_iff {α : Type} {xs : List α} {P : List α → α → List α → Prop} :
    (∀ before x after, xs = before ++ x :: after → P before x after) ↔
      ∀ i : Fin xs.length, P (xs.take i) xs[i] (xs.drop (i + 1)) := by
  constructor
  · intro hall i
    exact hall _ _ _ (by rw [Fin.getElem_fin, List.getElem_cons_drop i.isLt, List.take_append_drop])
  · rintro hall before x after rfl
    have hsplit := hall ⟨before.length, by simp⟩
    simpa using hsplit

/-- An audio and a video section, and a data channel that is skipped between them. -/
def threeSections : List UInt8 :=
  ascii "v=0\r\nm=audio 9 UDP 111\r\na=mid:0\r\na=rtpmap:111 opus/48000/2\r\n" ++
    ascii "m=application 9 UDP 5000\r\na=sctp-port:5000\r\n" ++
    ascii "m=video 9 UDP 96\r\na=rtpmap:96 H264/90000\r\na=mid:1\r\n"

/-- Behind an audio section a data channel's, with a mid of its own. -/
def audioAndData : List UInt8 :=
  ascii "v=0\r\nm=audio 9 UDP/TLS/RTP/SAVPF 111\r\na=mid:0\r\n" ++
    ascii "m=application 9 UDP/DTLS/SCTP 5000\r\na=mid:data\r\n"

end TinyRtc.SectionEffects
