import TinyRtc.SdpBounds
import TinyRtc.SdpSections

namespace TinyRtc.SdpTextLines

open TinyRtc.Common
open TinyRtc.CString
open TinyRtc.Sdp
open TinyRtc.SdpBounds
open TinyRtc.SdpCursor
open TinyRtc.SdpParser
open TinyRtc.SdpSections
open TinyRtc.SlotArray

/-- The places at which the lines of a text begin, up to a NUL; `behindEol` says that a line
end is in front of the text. -/
def lineStarts : (behindEol : Bool) → List UInt8 → List (List UInt8)
  | _, [] => []
  | behindEol, c :: rest =>
      if c = 0x00 then []
      else if isEol c then lineStarts true rest
      else if behindEol then (c :: rest) :: lineStarts false rest
      else lineStarts false rest

/-- A line that the line loop comes to: if the media table is full there, the type character,
and the text behind it. -/
structure Visit where
  full : Bool
  type : UInt8
  rest : List UInt8

def Visit.place (visit : Visit) : List UInt8 :=
  visit.type :: visit.rest

/-- What the line does to the media table. -/
def Visit.event (visit : Visit) : MediaEvent :=
  lineEvent visit.full visit.type visit.rest

/-- The lines of a text as the line loop comes to them. -/
def sdpVisits (locals : Locals) : (fuel : Nat) → (p : List UInt8) → SdpSession → List Visit
  | _, [], _ => []
  | 0, _ :: _, _ => []
  | fuel + 1, c :: rest, session =>
      if c = 0x00 then []
      else if isEol c then sdpVisits locals fuel rest session
      else
        match parseLine locals c rest session with
        | none => []
        | some (p, session') => ⟨isFull session, c, rest⟩ :: sdpVisits locals fuel p session'

def textVisits (locals : Locals) (text : List UInt8) : List Visit :=
  sdpVisits locals text.length text sdpSessionInit

theorem map_event_sdpVisits (locals : Locals) (fuel : Nat) (p : List UInt8) (session : SdpSession) :
    (sdpVisits locals fuel p session).map Visit.event = sdpEvents locals fuel p session := by
  induction fuel generalizing p session with
  | zero => cases p <;> rfl
  | succ fuel ih =>
      cases p with
      | nil => rfl
      | cons c rest =>
          rw [sdpVisits, sdpEvents]
          split
          · rfl
          · split
            · exact ih rest session
            · cases parseLine locals c rest session with
              | none => rfl
              | some next => exact congrArg (_ :: ·) (ih next.1 next.2)

theorem map_event_textVisits (locals : Locals) (text : List UInt8) :
    (textVisits locals text).map Visit.event = textEvents locals text :=
  map_event_sdpVisits locals text.length text sdpSessionInit

/-- Behind a line end the lines are those that the rest has. -/
theorem lineStarts_behindEol {front rest : List UInt8} {stop : UInt8} (hnul : 0x00 ∉ front ++ [stop])
    (hstop : isEol stop = true) (b : Bool) :
    (lineStarts true rest).Sublist (lineStarts b (front ++ stop :: rest)) := by
  induction front generalizing b with
  | nil =>
      have hne : stop ≠ 0x00 := fun h => hnul (h ▸ List.mem_cons_self)
      rw [List.nil_append, lineStarts, if_neg hne, if_pos hstop]
  | cons c front ih =>
      rw [List.cons_append, List.mem_cons, not_or] at hnul
      have hrest := ih hnul.2
      rw [List.cons_append, lineStarts, if_neg (Ne.symm hnul.1)]
      split_ifs
      · exact hrest true
      · exact (hrest false).cons _
      · exact hrest false

section

variable {locals : Locals} {type : UInt8} {p p' : List UInt8} {session session' : SdpSession}

/-- What is left in the locals does not move the cursor. -/
theorem parseLine_ofText (h : parseLine locals type p session = some (p', session')) :
    ∃ session'', parseLine (Locals.ofText locals) type p session = some (p', session'') := by
  have hfield : (parseField (Locals.ofText locals) type p.tail session).1 =
      (parseField locals type p.tail session).1 := by
    rw [parseField, parseField]
    split_ifs <;> rfl
  rw [parseLine] at h ⊢
  split at h
  · next hequals =>
    rw [if_pos hequals]
    exact ⟨session', h⟩
  · next hequals =>
    rw [if_neg hequals]
    dsimp only at h ⊢
    rw [hfield]
    generalize findEol (parseField locals type p.tail session).1 = next at h ⊢
    cases next with
    | nil =>
        cases h
        exact ⟨_, rfl⟩
    | cons c rest =>
        dsimp only at h ⊢
        split at h
        · next hnul =>
          cases h
          exact ⟨_, if_pos hnul⟩
        · next hnul =>
          cases h
          exact ⟨_, if_neg hnul⟩

/-- A line leaves the cursor at the end of the text or behind a line end. -/
theorem cursor_of_parseLine (h : parseLine locals type p session = some (p', session')) :
    (∀ c ∈ p'.head?, c = 0x00) ∨ ∃ front stop, isEol stop = true ∧ 0x00 ∉ front ++ [stop] ∧
      p = front ++ stop :: p' := by
  obtain ⟨session'', hline⟩ := parseLine_ofText h
  have hinside : ∀ text q : List UInt8, 0x00 ∉ text →
      parseLine (Locals.ofText locals) type text session = some (q, session'') →
      q = [] ∨ ∃ front stop, isEol stop = true ∧ 0x00 ∉ front ++ [stop] ∧
        text = front ++ stop :: q := by
    intro text q htext hq
    rcases behindEol_of_parseLine htext hq with hnil | ⟨front, stop, hstop, rfl⟩
    · exact .inl hnil
    · refine .inr ⟨front, stop, hstop, fun hmem => htext ?_, rfl⟩
      rw [List.append_cons]
      exact List.mem_append_left q hmem
  by_cases hnul : 0x00 ∈ p
  · obtain ⟨text, junk, rfl, htext⟩ := List.eq_append_cons_of_mem hnul
    rw [parseLine_nul] at hline
    obtain ⟨⟨q, next⟩, hq, heq⟩ := Option.map_eq_some_iff.mp hline
    cases heq
    rcases hinside text q htext hq with rfl | ⟨front, stop, hstop, hfront, rfl⟩
    · refine .inl fun c hc => ?_
      cases hc
      rfl
    · exact .inr ⟨front, stop, hstop, hfront, by simp⟩
  · rcases hinside p p' hnul hline with rfl | hbehind
    · exact .inl nofun
    · exact .inr hbehind

end

theorem sdpVisits_at_end (locals : Locals) (fuel : Nat) {p : List UInt8} (session : SdpSession)
    (h : ∀ c ∈ p.head?, c = 0x00) : sdpVisits locals fuel p session = [] := by
  cases p with
  | nil => cases fuel <;> rfl
  | cons c rest =>
      cases fuel with
      | zero => rfl
      | succ fuel => rw [sdpVisits, if_pos (h c rfl)]

/-- The loop comes to lines of the text only, in their order. -/
theorem sdpVisits_sublist (locals : Locals) (fuel : Nat) (p : List UInt8) (session : SdpSession) :
    ((sdpVisits locals fuel p session).map Visit.place).Sublist (lineStarts true p) := by
  induction fuel generalizing p session with
  | zero => cases p <;> exact List.nil_sublist _
  | succ fuel ih =>
      cases p with
      | nil => exact List.nil_sublist _
      | cons c rest =>
          rw [sdpVisits, lineStarts]
          split
          · exact List.nil_sublist _
          · next hnul =>
            split
            · exact ih rest session
            · rw [if_pos rfl]
              cases hline : parseLine locals c rest session with
              | none => exact List.nil_sublist _
              | some next =>
                  obtain ⟨q, session'⟩ := next
                  refine List.Sublist.cons_cons _ ?_
                  rcases cursor_of_parseLine hline with hend | ⟨front, stop, hstop, hfront, rfl⟩
                  · rw [sdpVisits_at_end locals fuel session' hend]
                    exact List.nil_sublist _
                  · exact (ih q session').trans (lineStarts_behindEol hfront hstop false)

theorem textVisits_sublist (locals : Locals) (text : List UInt8) :
    ((textVisits locals text).map Visit.place).Sublist (lineStarts true text) :=
  sdpVisits_sublist locals text.length text sdpSessionInit

/-- The candidate of a line that has one. -/
def candidateOfLine : List UInt8 → Option SdpCandidate
  | 0x61 :: 0x3D :: p =>
      let (attrName, p) := copyUntil 64 0x3A p
      if attrName.bytes = ascii "candidate" then parseCandidate (skipByte 0x3A p) else none
  | _ => none

/-- The candidates of all lines of a text. -/
def textCandidates (text : List UInt8) : List SdpCandidate :=
  (lineStarts true text).filterMap candidateOfLine

/-- Those of the lines that the loop comes to. -/
def visitCandidates (visits : List Visit) : List SdpCandidate :=
  visits.filterMap fun visit => candidateOfLine visit.place

theorem visitCandidates_sublist (locals : Locals) (text : List UInt8) :
    (visitCandidates (textVisits locals text)).Sublist (textCandidates text) := by
  have hsublist := (textVisits_sublist locals text).filterMap candidateOfLine
  rwa [List.filterMap_map] at hsublist

theorem take_append_take {α : Type} (n : Nat) (first second : List α) :
    (first.take n ++ second).take n = (first ++ second).take n := by
  rw [List.take_append, List.take_append, List.take_take, Nat.min_self, List.length_take]
  congr 2
  omega

theorem push?_items_take {α : Type} {n : Nat} (slots : Slots α n) (a : α) :
    ((slots.push? a).getD slots).items = (slots.items ++ [a]).take n := by
  cases hpush : slots.push? a with
  | none =>
      rw [Option.getD_none, List.take_left' (Slots.push?_eq_none_iff.mp hpush)]
  | some pushed =>
      have hitems := Slots.push?_items hpush
      rw [Option.getD_some, ← hitems, List.take_of_length_le pushed.length_le]

section

variable {locals : Locals} {p : List UInt8} {session : SdpSession}

theorem parseRtpmap_candidates :
    (parseRtpmap p session).2.candidates = session.candidates := by
  rw [parseRtpmap]
  cases parseInt p with
  | none => rfl
  | some pt => rfl

theorem parseAttribute_candidates :
    (parseAttribute p session).2.candidates.items =
      (session.candidates.items ++ (candidateOfLine (0x61 :: 0x3D :: p)).toList).take
        tinyrtcMaxCandidates := by
  have hkept : session.candidates.items = session.candidates.items.take tinyrtcMaxCandidates :=
    (List.take_of_length_le session.candidates.length_le).symm
  rw [parseAttribute, candidateOfLine]
  generalize copyUntil 64 0x3A p = copied
  obtain ⟨attrName, p⟩ := copied
  dsimp only
  by_cases hname : attrName.bytes = ascii "candidate"
  · have hbranch : parseNamedAttribute (ascii "candidate") p session =
        if session.candidates.count < tinyrtcMaxCandidates then
          let pushed := (parseCandidate (skipByte 0x3A p)).bind session.candidates.push?
          (skipByte 0x3A p, { session with candidates := pushed.getD session.candidates })
        else (p, session) := rfl
    rw [if_pos hname, hname, hbranch]
    split
    · cases parseCandidate (skipByte 0x3A p) with
      | none => simpa using hkept
      | some candidate => exact push?_items_take session.candidates candidate
    · next hfull => exact (List.take_left' (Nat.le_antisymm session.candidates.length_le
        (Nat.not_lt.mp hfull))).symm
  · rw [if_neg hname, Option.toList_none, List.append_nil, ← hkept, parseNamedAttribute]
    simp only [if_neg hname]
    split_ifs
    · rfl
    · rfl
    · rfl
    · rfl
    · rfl
    · rfl
    · rw [parseRtpmap_candidates]
    · rfl

/-- A line that is no attribute says no candidate. -/
theorem take_candidateOfLine (session : SdpSession) {line : List UInt8}
    (hline : ∀ rest, line ≠ 0x61 :: 0x3D :: rest) :
    (session.candidates.items ++ (candidateOfLine line).toList).take tinyrtcMaxCandidates =
      session.candidates.items := by
  have hnone : candidateOfLine line = none := by
    unfold candidateOfLine
    split
    · next rest => exact absurd rfl (hline rest)
    · rfl
  rw [hnone, Option.toList_none, List.append_nil,
    List.take_of_length_le session.candidates.length_le]

theorem parseField_candidates {type : UInt8} {rest : List UInt8} :
    (parseField locals type rest session).2.candidates.items =
      (session.candidates.items ++ (candidateOfLine (type :: 0x3D :: rest)).toList).take
        tinyrtcMaxCandidates := by
  by_cases hattribute : type = 0x61
  · rw [hattribute]
    exact parseAttribute_candidates
  · rw [take_candidateOfLine session fun rest hline => hattribute (List.head_eq_of_cons_eq hline),
      parseField]
    simp only [if_neg hattribute]
    split_ifs
    · rfl
    · rfl
    · rfl
    · rfl
    · rw [parseMedia]
      split
      · rfl
      · dsimp only
        split <;> rfl
    · rfl

/-- A line does to the candidates what it says. -/
theorem parseLine_candidates {type : UInt8} {p' : List UInt8} {session' : SdpSession}
    (h : parseLine locals type p session = some (p', session')) :
    session'.candidates.items =
      (session.candidates.items ++ (candidateOfLine (type :: p)).toList).take
        tinyrtcMaxCandidates := by
  rw [parseLine] at h
  split at h
  · next hequals =>
    obtain ⟨next, -, heq⟩ := Option.map_eq_some_iff.mp h
    cases heq
    refine (take_candidateOfLine session fun rest hline => hequals ?_).symm
    rw [List.tail_eq_of_cons_eq hline]
    rfl
  · next hequals =>
    obtain ⟨rest, rfl⟩ := List.head?_eq_some_iff.mp (not_not.mp hequals)
    have hfield := @parseField_candidates locals session type rest
    rw [List.tail_cons] at h
    dsimp only at h
    split at h
    · cases h
      exact hfield
    · split at h
      · cases h
        exact hfield
      · cases h
        exact hfield

end

theorem sdpParseLoop_candidates {locals : Locals} {fuel : Nat} {p : List UInt8}
    {session session' : SdpSession} (h : sdpParseLoop locals fuel p session = some session') :
    session'.candidates.items = (session.candidates.items ++
      visitCandidates (sdpVisits locals fuel p session)).take tinyrtcMaxCandidates := by
  have hdone : ∀ {session : SdpSession}, session.candidates.items =
      (session.candidates.items ++ visitCandidates []).take tinyrtcMaxCandidates := by
    intro session
    rw [visitCandidates, List.filterMap_nil, List.append_nil,
      List.take_of_length_le session.candidates.length_le]
  induction fuel generalizing p session with
  | zero =>
      cases p with
      | nil =>
          cases h
          exact hdone
      | cons c rest =>
          cases h
          exact hdone
  | succ fuel ih =>
      cases p with
      | nil =>
          cases h
          exact hdone
      | cons c rest =>
          rw [sdpParseLoop] at h
          rw [sdpVisits]
          split at h
          · next hnul =>
            cases h
            rw [if_pos hnul]
            exact hdone
          · next hnul =>
            rw [if_neg hnul]
            split at h
            · next heol =>
              rw [if_pos heol]
              exact ih h
            · next heol =>
              rw [if_neg heol]
              cases hline : parseLine locals c rest session with
              | none =>
                  rw [hline] at h
                  cases h
              | some next =>
                  obtain ⟨p', between⟩ := next
                  rw [hline] at h
                  dsimp only at h ⊢
                  have hcons : visitCandidates (⟨isFull session, c, rest⟩ ::
                      sdpVisits locals fuel p' between) =
                        (candidateOfLine (c :: rest)).toList ++
                          visitCandidates (sdpVisits locals fuel p' between) := by
                    rw [visitCandidates, List.filterMap_cons]
                    simp only [Visit.place]
                    cases candidateOfLine (c :: rest) <;> rfl
                  rw [ih h, parseLine_candidates hline, hcons, ← List.append_assoc,
                    take_append_take]

/-- The candidates that the parser stores are the first of those that it comes to. -/
theorem sdpParse_candidates {locals : Locals} {text : List UInt8} {err : TinyrtcError}
    {session : SdpSession} (h : sdpParse locals text = some (err, session)) :
    session.candidates.items =
      (visitCandidates (textVisits locals text)).take tinyrtcMaxCandidates := by
  obtain ⟨session', hloop, heq⟩ := Option.map_eq_some_iff.mp h
  cases heq
  exact sdpParseLoop_candidates hloop

end TinyRtc.SdpTextLines
