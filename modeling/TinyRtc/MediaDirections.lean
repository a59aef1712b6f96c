import TinyRtc.SdpBuffer
import TinyRtc.SdpLineStarts

namespace TinyRtc.MediaDirections

open Relation
open TinyRtc.Common
open TinyRtc.CString
open TinyRtc.Decimal
open TinyRtc.SlotArray
open TinyRtc.Sdp
open TinyRtc.SdpBounds
open TinyRtc.SdpCursor
open TinyRtc.SdpGenerator
open TinyRtc.SdpLineStarts
open TinyRtc.SdpMediaLines
open TinyRtc.SdpParser
open TinyRtc.SdpRoundTrip
open TinyRtc.SdpScanning
open TinyRtc.SdpSections

/-- The two flags of the direction. -/
structure SameDirection (media record : SdpMedia) : Prop where
  send : record.directionSend = media.directionSend
  recv : record.directionRecv = media.directionRecv

/-- The text of the session is generated, and parsed inside its buffer with the directions of
its media, each in its place. -/
def DirectionsSurvive (locals : Locals) (session : SdpSession) : Prop :=
  ∃ text, sdpGenerate true session = some (.ok text) ∧
    ∀ junk, ∃ (err : TinyrtcError) (parsed : SdpSession),
      sdpParse (Locals.ofText locals) (text ++ 0x00 :: junk) = some (err, parsed) ∧
        ∀ (i : Nat) (media : SdpMedia), session.media.items[i]? = some media →
          ∃ record : SdpMedia, parsed.media.items[i]? = some record ∧ SameDirection media record

/-- No attribute takes back what the m-line set. -/
theorem directions_of_sdpParse {locals : Locals} {text : List UInt8} {err : TinyrtcError}
    {session : SdpSession} (h : sdpParse locals text = some (err, session)) {record : SdpMedia}
    (hrecord : record ∈ session.media.items) :
    record.directionSend = true ∧ record.directionRecv = true := by
  obtain ⟨before, media, after, hevents, rfl⟩ := sdpParse_accepted h hrecord
  have hmem : .accepted media ∈ textEvents locals text :=
    hevents ▸ List.mem_append_right before List.mem_cons_self
  obtain ⟨kind, port, payloadType, rfl⟩ := freshMedia_of_mem hmem
  exact ⟨rfl, rfl⟩

def linesText (lines : List (List UInt8)) : List UInt8 :=
  lines.flatMap fun line => line ++ crlf

/-- The m-line. -/
def mediaLine (media : SdpMedia) : List UInt8 :=
  ascii "m=" ++ mediaName media.kind ++ space ++ decimalInt media.port.toInt ++
    ascii " UDP/TLS/RTP/SAVPF " ++ decimalInt media.payloadType.toInt

theorem mediaLines_eq (media : SdpMedia) :
    mediaLines media = mediaLine media :: (mediaLines media).tail := rfl

theorem linesText_cons (line : List UInt8) (lines : List (List UInt8)) :
    linesText (line :: lines) = line ++ crlf ++ linesText lines :=
  List.flatMap_cons

theorem linesText_append (lines more : List (List UInt8)) :
    linesText (lines ++ more) = linesText lines ++ linesText more :=
  List.flatMap_append

theorem exists_linesText_concat {lines : List (List UInt8)} (h : lines ≠ []) :
    ∃ text, linesText lines = text ++ [0x0A] := by
  obtain ⟨front, last, rfl⟩ := (List.eq_nil_or_concat lines).resolve_left h
  refine ⟨linesText front ++ (last ++ [0x0D]), ?_⟩
  rw [List.concat_eq_append, linesText_append, linesText_cons]
  simp [linesText, crlf]

/-- Behind lines stands a line feed, and then what follows them. -/
theorem linesText_suffix {lines : List (List UInt8)} (h : lines ≠ []) (more : List (List UInt8)) :
    0x0A :: linesText more <:+ linesText (lines ++ more) := by
  obtain ⟨text, htext⟩ := exists_linesText_concat h
  exact ⟨text, by rw [linesText_append, htext, List.append_assoc]; rfl⟩

theorem isLineStart_mediaLine (media : SdpMedia) (lines : List (List UInt8)) :
    IsLineStart (0x0A :: linesText (mediaLine media :: lines)) where
  line_feed := rfl
  no_number := ⟨0x6D, _, rfl, rfl, rfl, by decide, by decide⟩

/-- A line with `m=` adds a media if there is room. -/
theorem mediaLine_step (locals : Locals) (session : SdpSession) (media : SdpMedia) :
    ∃ session', LineStep locals session (mediaLine media) session' ∧
      min sdpMaxMedia (session.media.items.length + 1) ≤ session'.media.items.length := by
  by_cases hroom : session.media.items.length < sdpMaxMedia
  · obtain ⟨pushed, -, hpushed⟩ := Slots.push?_of_lt hroom (announced media)
    refine ⟨_, lineStep_media locals session media hpushed, ?_⟩
    rw [hpushed, List.length_append, List.length_singleton]
    exact Nat.min_le_right _ _
  · have hfull : sdpMaxMedia ≤ session.media.count := Nat.not_lt.mp hroom
    have hbody : NoEol (mediaName media.kind ++ space ++ decimalInt media.port.toInt ++
        ascii " UDP/TLS/RTP/SAVPF " ++ decimalInt media.payloadType.toInt) := by
      simp only [noEol_append_iff]
      exact ⟨⟨⟨⟨(token_mediaName media.kind).1.no_eol, noEol_of_all rfl⟩,
        (token_decimalInt media.port.toInt).no_eol⟩, noEol_of_all rfl⟩,
        (token_decimalInt media.payloadType.toInt).no_eol⟩
    have hline : mediaLine media = 0x6D :: 0x3D :: (mediaName media.kind ++ space ++
        decimalInt media.port.toInt ++ ascii " UDP/TLS/RTP/SAVPF " ++
        decimalInt media.payloadType.toInt) := rfl
    refine ⟨session, ⟨0x6D, _, hline, rfl, fun rest => ⟨_, hbody, ?_⟩⟩,
      Nat.le_trans (Nat.min_le_left _ _) hfull⟩
    rw [parseField_media, parseMedia, if_pos hfull]

theorem mediaLine_turn (locals : Locals) (session : SdpSession) (media : SdpMedia)
    (rest : List UInt8) :
    ∃ session', LoopTurn locals (mediaLine media ++ crlf ++ rest, session) (rest, session') ∧
      min sdpMaxMedia (session.media.items.length + 1) ≤ session'.media.items.length := by
  obtain ⟨session', hstep, hcount⟩ := mediaLine_step locals session media
  obtain ⟨type, body, hline, htype, hrest⟩ := parseLine_lineStep hstep
  refine ⟨session', ?_, hcount⟩
  rw [hline]
  exact .line type _ rest session session' htype (hrest rest)

/-- The loop comes to every m-line of the text, and adds a media for each while there is
room. -/
theorem turns_mediaLines (locals : Locals) (items : List SdpMedia) (more : List (List UInt8))
    {p : List UInt8} (hnul : 0x00 ∉ p) (session : SdpSession)
    (h : items ≠ [] → 0x0A :: linesText (items.flatMap mediaLines ++ more) <:+ p) :
    ∃ q session', LoopTurns (Locals.ofText locals) (p, session) (q, session') ∧
      min sdpMaxMedia (session.media.items.length + items.length) ≤
        session'.media.items.length := by
  induction items generalizing p session with
  | nil => exact ⟨p, session, .refl, Nat.min_le_right _ _⟩
  | cons media items ih =>
      have hlines : (media :: items).flatMap mediaLines ++ more =
          mediaLine media :: ((mediaLines media).tail ++ (items.flatMap mediaLines ++ more)) := by
        rw [List.flatMap_cons, mediaLines_eq, List.cons_append, List.cons_append,
          List.append_assoc, List.tail_cons]
      have hsuffix := h (List.cons_ne_nil media items)
      rw [hlines] at hsuffix
      obtain ⟨reached, hreached⟩ := turns_to_lineStart locals
        (isLineStart_mediaLine media _) hsuffix hnul session
      rw [List.tail_cons, linesText_cons] at hreached
      obtain ⟨added, hadded, hcount⟩ := mediaLine_turn (Locals.ofText locals) reached media
        (linesText ((mediaLines media).tail ++ (items.flatMap mediaLines ++ more)))
      have hbehind := hreached.tail hadded
      obtain ⟨hinside, -⟩ := behindEol_of_turns hnul hbehind
      obtain ⟨q, last, hturns, hlast⟩ := ih (fun hmem => hnul (hinside.subset hmem)) added
        fun _ => linesText_suffix (List.cons_ne_nil _ _) _
      have hkept := count_le_of_turns hreached
      dsimp only at hkept
      refine ⟨q, last, hbehind.trans hturns, ?_⟩
      rw [List.length_cons]
      omega

theorem lastLine_linesText {lines : List (List UInt8)} (h : lines ≠ []) :
    lastLine (linesText lines) = [] := by
  obtain ⟨text, htext⟩ := exists_linesText_concat h
  rw [htext, lastLine, List.rtakeWhile_concat_neg]
  decide

/-- The parser comes to the end of a generated text, with a media for each of the session's. -/
theorem turns_sdpText (locals : Locals) (session : SdpSession) :
    ∃ parsed, LoopTurns (Locals.ofText locals) (sdpText session, sdpSessionInit) ([], parsed) ∧
      session.media.items.length ≤ parsed.media.items.length := by
  have hnul := SdpBuffer.not_mem_nul_sdpText session
  have hlines : sdpLines session = sessionLines session ++
      (session.media.items.flatMap mediaLines ++ session.candidates.items.map candidateLine) :=
    List.append_assoc _ _ _
  have htext : sdpText session = linesText (sessionLines session ++
      (session.media.items.flatMap mediaLines ++
        session.candidates.items.map candidateLine)) := by
    rw [← hlines]
    rfl
  have hlast : lastLine (sdpText session) = [] := by
    rw [htext]
    exact lastLine_linesText (List.cons_ne_nil _ _)
  obtain ⟨q, reached, hturns, hcount⟩ := turns_mediaLines locals session.media.items
    (session.candidates.items.map candidateLine) hnul sdpSessionInit
    fun _ => htext ▸ linesText_suffix (List.cons_ne_nil _ _) _
  obtain ⟨hinside, -⟩ := behindEol_of_turns hnul hturns
  rcases @exists_end locals q (fun hmem => hnul (hinside.subset hmem)) reached with
    ⟨parsed, hend⟩ | ⟨open', last, hend, hinvalid⟩
  · refine ⟨parsed, hturns.trans hend, ?_⟩
    have hkept := count_le_of_turns hend
    have hroom := session.media.length_le
    dsimp only at hkept
    omega
  · refine absurd hinvalid (not_isOpenInvalid_of_begins hnul ?_ ⟨last, hturns.trans hend⟩)
    rw [hlast]
    exact fun hempty => hempty.ne_nil rfl

theorem sdpParse_sdpText (locals : Locals) (session : SdpSession) :
    ∃ parsed, session.media.items.length ≤ parsed.media.items.length ∧
      ∀ junk, sdpParse (Locals.ofText locals) (sdpText session ++ 0x00 :: junk) =
        some (if parsed.version = 0 then .ok else .error, parsed) := by
  obtain ⟨parsed, hturns, hcount⟩ := turns_sdpText locals session
  exact ⟨parsed, hcount, sdpParse_of_turns (SdpBuffer.not_mem_nul_sdpText session) hturns⟩

/-- Directions survive exactly if they are the ones that every m-line is given. -/
theorem directionsSurvive_iff (locals : Locals) (session : SdpSession) :
    DirectionsSurvive locals session ↔ ∀ media ∈ session.media.items,
      media.directionSend = true ∧ media.directionRecv = true := by
  constructor
  · rintro ⟨text, -, hparses⟩ media hmedia
    obtain ⟨err, parsed, hparse, hsame⟩ := hparses []
    obtain ⟨i, hi⟩ := List.getElem?_of_mem hmedia
    obtain ⟨record, hrecord, hsend, hrecv⟩ := hsame i media hi
    rw [← hsend, ← hrecv]
    exact directions_of_sdpParse hparse (List.mem_of_getElem? hrecord)
  · intro hboth
    obtain ⟨parsed, hcount, hparse⟩ := sdpParse_sdpText locals session
    refine ⟨sdpText session, sdpGenerate_ok session, fun junk => ?_⟩
    refine ⟨_, parsed, hparse junk, fun i media hmedia => ?_⟩
    obtain ⟨hi, -⟩ := List.getElem?_eq_some_iff.mp hmedia
    have hrecord := List.getElem?_eq_getElem (Nat.lt_of_lt_of_le hi hcount)
    obtain ⟨hsend, hrecv⟩ := hboth media (List.mem_of_getElem? hmedia)
    obtain ⟨hsend', hrecv'⟩ := directions_of_sdpParse (hparse junk) (List.mem_of_getElem? hrecord)
    exact ⟨_, hrecord, hsend'.trans hsend.symm, hrecv'.trans hrecv.symm⟩

/-- A media that is only sent. -/
def sendonlyAudio : SdpMedia :=
  { freshMedia .audio 9 111 with directionRecv := false }

def sendonlySession : SdpSession :=
  { sdpSessionInit with media := ⟨[sendonlyAudio], by decide⟩ }

/-- The `a=sendonly` line of the text is lost. -/
theorem directionsSurvive_fails : ¬ DirectionsSurvive zeroLocals sendonlySession := by
  rintro ⟨text, -, hparses⟩
  obtain ⟨err, parsed, hparse, hsame⟩ := hparses []
  obtain ⟨record, hrecord, -, hrecv⟩ := hsame 0 sendonlyAudio rfl
  have hboth := directions_of_sdpParse hparse (List.mem_of_getElem? hrecord)
  rw [hboth.2] at hrecv
  cases hrecv

end TinyRtc.MediaDirections
