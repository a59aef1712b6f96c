import TinyRtc.SdpCursor
import TinyRtc.SdpScanning

namespace TinyRtc.SdpBounds

open Relation
open TinyRtc.Common
open TinyRtc.CString
open TinyRtc.Sdp
open TinyRtc.SdpCursor
open TinyRtc.SdpParser
open TinyRtc.SdpScanning

/-- One turn of the line loop of `sdp_parse`: a line end that is skipped, or a line. -/
inductive LoopTurn (locals : Locals) : List UInt8 × SdpSession → List UInt8 × SdpSession → Prop
  | skip (c : UInt8) (rest : List UInt8) (session : SdpSession) :
      c ≠ 0x00 → isEol c = true → LoopTurn locals (c :: rest, session) (rest, session)
  | line (c : UInt8) (rest p : List UInt8) (session session' : SdpSession) :
      isEol c = false → parseLine locals c rest session = some (p, session') →
        LoopTurn locals (c :: rest, session) (p, session')

def LoopTurns (locals : Locals) :
    List UInt8 × SdpSession → List UInt8 × SdpSession → Prop :=
  ReflTransGen (LoopTurn locals)

/-- The parser of the text takes a turn, or ends, with the cursor at `q`. -/
def Begins (locals : Locals) (text q : List UInt8) : Prop :=
  ∃ session, LoopTurns locals (text, sdpSessionInit) (q, session)

/-- The end of the text, or a place behind a line end. -/
def BehindEol (text q : List UInt8) : Prop :=
  q = [] ∨ ∃ front stop, isEol stop = true ∧ text = front ++ stop :: q

/-- A last line that has no line end, and no equals sign behind its first byte. -/
structure IsOpenInvalid (q : List UInt8) : Prop where
  no_eol : NoEol q
  ne_nil : q ≠ []
  no_equals : q.tail.head? ≠ some 0x3D

/-- The string and its NUL are in the array. -/
def Terminated {cap : Nat} (s : CStr cap) : Prop :=
  0x00 ∉ s.bytes ∧ s.bytes.length + 1 ≤ cap

structure FieldsFit (session : SdpSession) : Prop where
  username : Terminated session.username
  networkType : Terminated session.networkType
  addressType : Terminated session.addressType
  unicastAddress : Terminated session.unicastAddress
  sessionName : Terminated session.sessionName
  iceUfrag : Terminated session.iceUfrag
  icePwd : Terminated session.icePwd
  fingerprint : Terminated session.fingerprint
  fingerprintType : Terminated session.fingerprintType
  dtlsSetup : Terminated session.dtlsSetup
  media_count : session.media.count ≤ 2
  media : ∀ media ∈ session.media.items, Terminated media.mid
  candidates_count : session.candidates.count ≤ 32
  candidates : ∀ candidate ∈ session.candidates.items, Terminated candidate.foundation ∧
    Terminated candidate.ip ∧ Terminated candidate.type ∧ Terminated candidate.protocol

/-- The line loop comes to the NUL behind the text, with the same session whatever is behind
the NUL. -/
structure ParsesInside (locals : Locals) (text : List UInt8) (session : SdpSession) : Prop where
  ends_at_nul : ∀ junk,
    LoopTurns locals (text ++ 0x00 :: junk, sdpSessionInit) (0x00 :: junk, session)
  returns : ∀ junk, sdpParse locals (text ++ 0x00 :: junk) =
    some (if session.version = 0 then .ok else .error, session)
  fields_fit : FieldsFit session

theorem BehindEol.suffix {text q : List UInt8} (h : BehindEol text q) : q <:+ text := by
  rcases h with rfl | ⟨front, stop, -, rfl⟩
  · exact List.nil_suffix
  · exact ⟨front ++ [stop], by rw [List.append_assoc, List.singleton_append]⟩

theorem BehindEol.of_suffix {p q text : List UInt8} (hp : p <:+ text) (h : BehindEol p q) :
    BehindEol text q := by
  obtain ⟨before, rfl⟩ := hp
  rcases h with hnil | ⟨front, stop, hstop, rfl⟩
  · exact .inl hnil
  · exact .inr ⟨before ++ front, stop, hstop, (List.append_assoc before front _).symm⟩

theorem BehindEol.trans {text p q : List UInt8} (hp : BehindEol text p)
    (hq : q = p ∨ BehindEol p q) : BehindEol text q := by
  rcases hq with rfl | hq
  · exact hp
  · exact hq.of_suffix hp.suffix

theorem terminated_of_pos {cap : Nat} (hcap : 0 < cap) (s : CStr cap) : Terminated s := by
  have hle := s.length_le
  exact ⟨s.no_nul, by omega⟩

theorem fieldsFit (session : SdpSession) : FieldsFit session where
  username := terminated_of_pos (by decide) _
  networkType := terminated_of_pos (by decide) _
  addressType := terminated_of_pos (by decide) _
  unicastAddress := terminated_of_pos (by decide) _
  sessionName := terminated_of_pos (by decide) _
  iceUfrag := terminated_of_pos (by decide) _
  icePwd := terminated_of_pos (by decide) _
  fingerprint := terminated_of_pos (by decide) _
  fingerprintType := terminated_of_pos (by decide) _
  dtlsSetup := terminated_of_pos (by decide) _
  media_count := session.media.length_le
  media := fun _ _ => terminated_of_pos (by decide) _
  candidates_count := session.candidates.length_le
  candidates := fun _ _ => ⟨terminated_of_pos (by decide) _, terminated_of_pos (by decide) _,
    terminated_of_pos (by decide) _, terminated_of_pos (by decide) _⟩

section

variable {locals : Locals} {type : UInt8} {p p' : List UInt8} {session session' : SdpSession}

theorem parseLine_nul (junk : List UInt8) :
    parseLine (Locals.ofText locals) type (p ++ 0x00 :: junk) session =
      (parseLine (Locals.ofText locals) type p session).map fun (p, session) =>
        (p ++ 0x00 :: junk, session) := by
  have hlf : (0x0A : UInt8) ≠ 0x00 := by decide
  cases p with
  | nil => rfl
  | cons c rest =>
      rw [List.cons_append, parseLine, parseLine, List.head?_cons, List.head?_cons]
      by_cases hequals : (some c : Option UInt8) ≠ some 0x3D
      · rw [if_pos hequals, if_pos hequals, ← List.cons_append, findEol_nul, advance_nul,
          Option.map_map, Option.map_map]
        rfl
      · rw [if_neg hequals, if_neg hequals, List.tail_cons, List.tail_cons,
          (parseField_stays locals session type).nul]
        dsimp only
        rw [findEol_nul]
        cases findEol (parseField (Locals.ofText locals) type rest session).1 with
        | nil => rfl
        | cons stop behind =>
            dsimp only [List.cons_append]
            rw [skipByte_nul _ _ hlf]
            split
            · rfl
            · rfl

theorem isEol_of_findEol {stop : UInt8} {rest : List UInt8} (h : findEol p = stop :: rest) :
    isEol stop = true := by
  have hhead := List.head?_dropWhile_not (fun c => !isEol c) p
  rw [findEol] at h
  rw [h] at hhead
  simpa using hhead

theorem behindEol_of_findEol {q : List UInt8} {stop : UInt8} {rest : List UInt8} (hq : q <:+ p)
    (h : findEol q = stop :: rest) : BehindEol p rest := by
  obtain ⟨front, hfront⟩ := (findEol_suffix hq).trans (List.suffix_refl p)
  rw [h] at hfront
  exact .inr ⟨front, stop, isEol_of_findEol h, hfront.symm⟩

/-- Where a line leaves the cursor. -/
theorem behindEol_of_parseLine (hp : 0x00 ∉ p)
    (h : parseLine (Locals.ofText locals) type p session = some (p', session')) :
    BehindEol p p' := by
  rw [parseLine] at h
  split at h
  · obtain ⟨next, hnext, heq⟩ := Option.map_eq_some_iff.mp h
    cases heq
    cases hline : findEol p with
    | nil =>
        rw [hline] at hnext
        cases hnext
    | cons stop rest =>
        rw [hline, advance] at hnext
        split at hnext
        · cases hnext
        · cases hnext
          exact behindEol_of_findEol List.suffix_rfl hline
  · have hfield := ((parseField_stays locals session type).suffix p.tail).trans
      (List.tail_suffix p)
    dsimp only at h
    split at h
    · cases h
      exact .inl rfl
    · next stop rest hline =>
      have hbehind := behindEol_of_findEol hfield hline
      split at h
      · next hnul =>
        have hmem := (findEol_suffix hfield).subset (hline ▸ List.mem_cons_self)
        rw [hnul] at hmem
        exact absurd hmem hp
      · cases h
        cases rest with
        | nil => exact .inl rfl
        | cons x rest =>
            rw [skipByte]
            split
            · next hlf =>
              obtain hnil | ⟨front, stop, -, hfront⟩ := hbehind
              · cases hnil
              · exact .inr ⟨front ++ [stop], x, by rw [hlf]; rfl, by simp [hfront]⟩
            · exact hbehind

theorem findEol_eq_nil_iff : findEol p = [] ↔ NoEol p := by
  rw [findEol, List.dropWhile_eq_nil_iff, NoEol]
  simp only [Bool.not_eq_true']

/-- A line leads out of the text when it is an open one without an equals sign. -/
theorem parseLine_eq_none_iff (hp : 0x00 ∉ p) :
    parseLine locals type p session = none ↔
      NoEol p ∧ p.head? ≠ some 0x3D := by
  rw [parseLine]
  split
  · next hequals =>
    rw [Option.map_eq_none_iff, ← findEol_eq_nil_iff, and_iff_left hequals]
    cases hline : findEol p with
    | nil => exact iff_of_true rfl rfl
    | cons stop rest =>
        have hmem := (findEol_suffix List.suffix_rfl).subset (hline ▸ List.mem_cons_self)
        have hnul : stop ≠ 0x00 := fun h => hp (h ▸ hmem)
        rw [advance, if_neg hnul]
        simp
  · next hequals =>
    refine iff_of_false ?_ fun h => hequals h.2
    dsimp only
    split
    · exact Option.some_ne_none _
    · split
      · exact Option.some_ne_none _
      · exact Option.some_ne_none _

end

section

variable {locals : Locals} {s s' : List UInt8 × SdpSession}

/-- A turn leaves the cursor further on in the text. -/
theorem behindEol_of_turn (hs : 0x00 ∉ s.1) (h : LoopTurn (Locals.ofText locals) s s') :
    BehindEol s.1 s'.1 ∧ s'.1 <:+ s.1 ∧ s'.1.length < s.1.length := by
  have hbehind : BehindEol s.1 s'.1 ∧ s.1 ≠ [] := by
    cases h with
    | skip c rest session hnul heol =>
        exact ⟨.inr ⟨[], c, heol, rfl⟩, List.cons_ne_nil c rest⟩
    | line c rest p session session' heol hline =>
        refine ⟨?_, List.cons_ne_nil c rest⟩
        rcases behindEol_of_parseLine (fun hmem => hs (List.mem_cons_of_mem c hmem)) hline with
          hnil | ⟨front, stop, hstop, hfront⟩
        · exact .inl hnil
        · exact .inr ⟨c :: front, stop, hstop, congrArg (c :: ·) hfront⟩
  refine ⟨hbehind.1, hbehind.1.suffix, ?_⟩
  obtain ⟨hnil | ⟨front, stop, -, hfront⟩, hne⟩ := hbehind
  · rw [hnil]
    exact List.length_pos_iff.mpr hne
  · rw [hfront, List.length_append, List.length_cons]
    omega

theorem turn_nul (junk : List UInt8) (h : LoopTurn (Locals.ofText locals) s s') :
    LoopTurn (Locals.ofText locals) (s.1 ++ 0x00 :: junk, s.2) (s'.1 ++ 0x00 :: junk, s'.2) := by
  cases h with
  | skip c rest session hnul heol => exact .skip c _ session hnul heol
  | line c rest p session session' heol hline =>
      have hnul := @parseLine_nul locals c rest session junk
      rw [hline] at hnul
      exact .line c _ _ session session' heol hnul

theorem turns_nul (junk : List UInt8) (h : LoopTurns (Locals.ofText locals) s s') :
    LoopTurns (Locals.ofText locals) (s.1 ++ 0x00 :: junk, s.2) (s'.1 ++ 0x00 :: junk, s'.2) :=
  ReflTransGen.lift (fun s : List UInt8 × SdpSession => (s.1 ++ 0x00 :: junk, s.2))
    (fun _ _ hturn => turn_nul junk hturn) _ _ h

theorem sdpParseLoop_turn (h : LoopTurn locals s s') (fuel : Nat) :
    sdpParseLoop locals (fuel + 1) s.1 s.2 = sdpParseLoop locals fuel s'.1 s'.2 := by
  cases h with
  | skip c rest session hnul heol => rw [sdpParseLoop, if_neg hnul, if_pos heol]
  | line c rest p session session' heol hline =>
      have hnul : c ≠ 0x00 := by
        rintro rfl
        cases heol
      rw [sdpParseLoop, if_neg hnul, if_neg (by rw [heol]; exact Bool.false_ne_true), hline]

/-- Lines begin with the text, or behind a line end. -/
theorem behindEol_of_turns (hs : 0x00 ∉ s.1) (h : LoopTurns (Locals.ofText locals) s s') :
    s'.1 <:+ s.1 ∧ (s'.1 = s.1 ∨ BehindEol s.1 s'.1) := by
  induction h with
  | refl => exact ⟨List.suffix_rfl, .inl rfl⟩
  | tail _ hturn ih =>
      obtain ⟨hsuffix, -⟩ := ih
      obtain ⟨hbehind, hnext, -⟩ :=
        behindEol_of_turn (fun hmem => hs (hsuffix.subset hmem)) hturn
      exact ⟨hnext.trans hsuffix, .inr (hbehind.of_suffix hsuffix)⟩

/-- The length of the text is fuel enough for all the turns. -/
theorem sdpParseLoop_turns (junk : List UInt8) (h : LoopTurns (Locals.ofText locals) s s') :
    0x00 ∉ s.1 → ∀ fuel, s.1.length ≤ fuel → ∃ fuel', s'.1.length ≤ fuel' ∧
      sdpParseLoop (Locals.ofText locals) fuel (s.1 ++ 0x00 :: junk) s.2 =
        sdpParseLoop (Locals.ofText locals) fuel' (s'.1 ++ 0x00 :: junk) s'.2 := by
  induction h using ReflTransGen.head_induction_on with
  | refl => exact fun _ fuel hfuel => ⟨fuel, hfuel, rfl⟩
  | head hturn _ ih =>
      intro hs fuel hfuel
      obtain ⟨-, hsuffix, hshorter⟩ := behindEol_of_turn hs hturn
      obtain ⟨fuel, rfl⟩ : ∃ n, fuel = n + 1 := ⟨fuel - 1, by omega⟩
      have hloop := sdpParseLoop_turn (turn_nul junk hturn) fuel
      dsimp only at hloop
      rw [hloop]
      exact ih (fun hmem => hs (hsuffix.subset hmem)) fuel (by omega)

/-- A line that does not lead on is an open one without an equals sign. -/
theorem exists_turn {c : UInt8} {rest : List UInt8} (hp : 0x00 ∉ c :: rest)
    (session : SdpSession) (hnot : ¬ IsOpenInvalid (c :: rest)) :
    ∃ next, LoopTurn (Locals.ofText locals) (c :: rest, session) next := by
  have hnul : c ≠ 0x00 := fun h => hp (h ▸ List.mem_cons_self)
  have hrest : 0x00 ∉ rest := fun h => hp (List.mem_cons_of_mem c h)
  cases heol : isEol c with
  | true => exact ⟨_, .skip c rest session hnul heol⟩
  | false =>
      cases hline : parseLine (Locals.ofText locals) c rest session with
      | none =>
          obtain ⟨hopen, hequals⟩ := (parseLine_eq_none_iff hrest).mp hline
          exact absurd ⟨noEol_cons_iff.mpr ⟨heol, hopen⟩, List.cons_ne_nil c rest, hequals⟩ hnot
      | some next => exact ⟨next, .line c rest next.1 session next.2 heol hline⟩

/-- The turns end with the text, or with an open line that has no equals sign. -/
theorem exists_end (p : List UInt8) (hp : 0x00 ∉ p) (session : SdpSession) :
    (∃ session', LoopTurns (Locals.ofText locals) (p, session) ([], session')) ∨
      ∃ q session', LoopTurns (Locals.ofText locals) (p, session) (q, session') ∧
        IsOpenInvalid q := by
  induction hlength : p.length using Nat.strong_induction_on generalizing p session with
  | _ n ih =>
      cases p with
      | nil => exact .inl ⟨session, .refl⟩
      | cons c rest =>
          by_cases hopen : IsOpenInvalid (c :: rest)
          · exact .inr ⟨_, session, .refl, hopen⟩
          · obtain ⟨⟨p', session'⟩, hturn⟩ := @exists_turn locals c rest hp session hopen
            obtain ⟨-, hsuffix, hshorter⟩ := behindEol_of_turn hp hturn
            rcases ih p'.length (hlength ▸ hshorter) p' (fun hmem => hp (hsuffix.subset hmem))
                session' rfl with
              ⟨last, hend⟩ | ⟨q, last, hend, hinvalid⟩
            · exact .inl ⟨last, hend.head hturn⟩
            · exact .inr ⟨q, last, hend.head hturn, hinvalid⟩

/-- An open line without an equals sign leads out of the text. -/
theorem sdpParseLoop_openInvalid {q : List UInt8} (hq : IsOpenInvalid q) (hnul : 0x00 ∉ q)
    (junk : List UInt8) (session : SdpSession) {fuel : Nat} (hfuel : q.length ≤ fuel) :
    sdpParseLoop (Locals.ofText locals) fuel (q ++ 0x00 :: junk) session = none := by
  obtain ⟨heol, hne, hequals⟩ := hq
  cases q with
  | nil => exact absurd rfl hne
  | cons c rest =>
      obtain ⟨hc, hrest⟩ := noEol_cons_iff.mp heol
      rw [List.length_cons] at hfuel
      obtain ⟨fuel, rfl⟩ : ∃ n, fuel = n + 1 := ⟨fuel - 1, by omega⟩
      have hline : parseLine (Locals.ofText locals) c rest session = none :=
        (parseLine_eq_none_iff fun hmem => hnul (List.mem_cons_of_mem c hmem)).mpr ⟨hrest, hequals⟩
      have hne : c ≠ 0x00 := fun h => hnul (h ▸ List.mem_cons_self)
      rw [List.cons_append, sdpParseLoop, if_neg hne,
        if_neg (by rw [hc]; exact Bool.false_ne_true), parseLine_nul, hline]
      rfl

theorem sdpParseLoop_nul (locals : Locals) (fuel : Nat) (junk : List UInt8)
    (session : SdpSession) : sdpParseLoop locals fuel (0x00 :: junk) session = some session := by
  cases fuel with
  | zero => rfl
  | succ fuel => rw [sdpParseLoop, if_pos rfl]

end

/-- Turns that come to the end of the text give the session that the parser returns. -/
theorem sdpParse_of_turns {locals : Locals} {text : List UInt8} {session : SdpSession}
    (htext : 0x00 ∉ text)
    (hturns : LoopTurns (Locals.ofText locals) (text, sdpSessionInit) ([], session))
    (junk : List UInt8) :
    sdpParse (Locals.ofText locals) (text ++ 0x00 :: junk) =
      some (if session.version = 0 then .ok else .error, session) := by
  have hlength : text.length ≤ (text ++ 0x00 :: junk).length := by
    rw [List.length_append]
    omega
  obtain ⟨fuel, -, hloop⟩ := sdpParseLoop_turns junk hturns htext _ hlength
  dsimp only [List.nil_append] at hloop
  rw [sdpParse, hloop, sdpParseLoop_nul]
  rfl

/-- The parser stays in the text when no line that it begins is a last one without a line
end and without an equals sign behind its first byte. -/
theorem parsesInside_iff (locals : Locals) {text : List UInt8} (htext : 0x00 ∉ text) :
    (∃ session, ParsesInside (Locals.ofText locals) text session) ↔
      ∀ q, Begins (Locals.ofText locals) text q → ¬ IsOpenInvalid q := by
  constructor
  · rintro ⟨session, hinside⟩ q ⟨session', hturns⟩ hinvalid
    obtain ⟨hsuffix, -⟩ := behindEol_of_turns htext hturns
    have hreturns := hinside.returns []
    have hlength : text.length ≤ (text ++ [0x00]).length := by
      rw [List.length_append]
      omega
    obtain ⟨fuel, hfuel, hloop⟩ := sdpParseLoop_turns [] hturns htext _ hlength
    dsimp only at hloop
    rw [sdpParse, hloop, sdpParseLoop_openInvalid hinvalid (fun hmem => htext (hsuffix.subset hmem))
      [] session' hfuel] at hreturns
    cases hreturns
  · intro hbegins
    rcases @exists_end locals text htext sdpSessionInit with
      ⟨session, hturns⟩ | ⟨q, session, hturns, hinvalid⟩
    · exact ⟨session, fun junk => turns_nul junk hturns, sdpParse_of_turns htext hturns,
        fieldsFit session⟩
    · exact absurd hinvalid (hbegins q ⟨session, hturns⟩)

/-- What is behind the last line end. -/
def lastLine (text : List UInt8) : List UInt8 :=
  text.rtakeWhile fun c => !isEol c

theorem lastLine_of_behindEol {text q : List UInt8} (h : BehindEol text q) (hne : q ≠ [])
    (hq : NoEol q) : lastLine text = q := by
  obtain hnil | ⟨front, stop, hstop, rfl⟩ := h
  · exact absurd hnil hne
  · have hplain : ∀ c ∈ q.reverse, (!isEol c) = true := by
      intro c hc
      rw [hq c (List.mem_reverse.mp hc)]
      rfl
    rw [lastLine, List.rtakeWhile, List.reverse_append, List.reverse_cons, List.append_assoc,
      List.takeWhile_append_of_pos hplain, List.singleton_append,
      List.takeWhile_cons_of_neg (by rw [hstop]; exact Bool.false_ne_true), List.append_nil,
      List.reverse_reverse]

/-- A text whose last line has an equals sign in its place, or that ends with a line end,
has no line that leads out of it. -/
theorem not_isOpenInvalid_of_begins {locals : Locals} {text q : List UInt8}
    (htext : 0x00 ∉ text) (hlast : ¬ IsOpenInvalid (lastLine text))
    (hq : Begins (Locals.ofText locals) text q) : ¬ IsOpenInvalid q := by
  intro hinvalid
  obtain ⟨session, hturns⟩ := hq
  obtain ⟨-, hplace⟩ := behindEol_of_turns htext hturns
  apply hlast
  rcases hplace with hwhole | hbehind
  · have hplain : ∀ c ∈ q, (!isEol c) = true := by
      intro c hc
      rw [hinvalid.no_eol c hc]
      rfl
    dsimp only at hwhole
    rw [← hwhole, lastLine, List.rtakeWhile_eq_self_iff.mpr hplain]
    exact hinvalid
  · rw [lastLine_of_behindEol hbehind hinvalid.ne_nil hinvalid.no_eol]
    exact hinvalid

/-- Locals that happen to be zero. -/
def zeroLocals : Locals :=
  ⟨fun _ => 0, fun _ => 0⟩

theorem parsesInside_version :
    ∃ session, ParsesInside (Locals.ofText zeroLocals) (ascii "v=0\r\n") session := by
  have hlast : lastLine (ascii "v=0\r\n") = [] := by decide
  refine (parsesInside_iff zeroLocals (by decide)).mpr fun q hq =>
    not_isOpenInvalid_of_begins (by decide) ?_ hq
  rw [hlast]
  exact fun hinvalid => hinvalid.ne_nil rfl

/-- One letter alone leads the parser over the NUL. -/
theorem not_parsesInside_letter :
    sdpParse (Locals.ofText zeroLocals) (ascii "x" ++ [0x00]) = none ∧
      ¬ ∃ session, ParsesInside (Locals.ofText zeroLocals) (ascii "x") session := by
  refine ⟨rfl, ?_⟩
  rintro ⟨session, hinside⟩
  have hreturns := hinside.returns []
  cases hreturns

end TinyRtc.SdpBounds
