import Mathlib.Data.Option.Basic
import TinyRtc.LineEnds
import TinyRtc.SdpOrigins

namespace TinyRtc.SdpLineEnds

open TinyRtc.Common
open TinyRtc.CString
open TinyRtc.Decimal
open TinyRtc.LineEnds
open TinyRtc.Sdp
open TinyRtc.SdpBounds
open TinyRtc.SdpCursor
open TinyRtc.SdpOrigins
open TinyRtc.SdpParser
open TinyRtc.SdpScanning

/-- Two texts with the same lines, of which the first has CR LF behind some of them. -/
abbrev SameText : List UInt8 → List UInt8 → Prop :=
  SameLines 0x0D 0x0A

section

variable {p q : List UInt8}

theorem skipWhitespace_sameText (h : SameText p q) :
    SameText (skipWhitespace p) (skipWhitespace q) :=
  h.dropWhile fun hf => hf

theorem findEol_sameText (h : SameText p q) : SameText (findEol p) (findEol q) :=
  h.dropWhile fun hf => hf

theorem skipByte_sameText {c : UInt8} (hcr : c ≠ 0x0D) (hlf : c ≠ 0x0A) (h : SameText p q) :
    SameText (skipByte c p) (skipByte c q) := by
  cases h with
  | nil => exact .nil
  | char hxcr hxlf hsame =>
      rw [skipByte, skipByte]
      split
      · exact hsame
      · exact .char hxcr hxlf hsame
  | crlf hsame =>
      rw [skipByte, skipByte, if_neg hcr.symm, if_neg hlf.symm]
      exact .crlf hsame
  | feed hsame =>
      rw [skipByte, skipByte, if_neg hlf.symm, if_neg hlf.symm]
      exact .feed hsame

theorem copyLoop_sameText (dstLen : Nat) (sep : UInt8) (dst : List UInt8) (h : SameText p q) :
    (copyLoop dstLen sep dst p).1 = (copyLoop dstLen sep dst q).1 ∧
      SameText (copyLoop dstLen sep dst p).2 (copyLoop dstLen sep dst q).2 := by
  induction h generalizing dst with
  | nil => exact ⟨rfl, .nil⟩
  | char hcr hlf hsame ih =>
      rw [copyLoop, copyLoop]
      split
      · exact ⟨rfl, .char hcr hlf hsame⟩
      · split
        · exact ih _
        · exact ih _
  | crlf hsame _ =>
      rw [copyLoop_stopsAt (stopsAt_cons (.inl rfl) _), copyLoop_stopsAt (stopsAt_cons (.inl rfl) _)]
      exact ⟨rfl, .crlf hsame⟩
  | feed hsame _ =>
      rw [copyLoop_stopsAt (stopsAt_cons (.inl rfl) _), copyLoop_stopsAt (stopsAt_cons (.inl rfl) _)]
      exact ⟨rfl, .feed hsame⟩

theorem copyUntil_sameText (cap : Nat) (sep : UInt8) (h : SameText p q) :
    (copyUntil cap sep p).1 = (copyUntil cap sep q).1 ∧
      SameText (copyUntil cap sep p).2 (copyUntil cap sep q).2 := by
  obtain ⟨hcopied, hcursor⟩ := copyLoop_sameText cap sep [] (skipWhitespace_sameText h)
  exact ⟨CStr.ext (congrArg (List.rdropWhile (· == 0x20)) hcopied), hcursor⟩

theorem afterSign_sameText (h : SameText p q) :
    (afterSign p).1 = (afterSign q).1 ∧ SameText (afterSign p).2 (afterSign q).2 := by
  cases h with
  | nil => exact ⟨rfl, .nil⟩
  | char hcr hlf hsame =>
      rw [afterSign, afterSign]
      split
      · exact ⟨rfl, hsame⟩
      · split
        · exact ⟨rfl, hsame⟩
        · exact ⟨rfl, .char hcr hlf hsame⟩
  | crlf hsame => exact ⟨rfl, .crlf hsame⟩
  | feed hsame => exact ⟨rfl, .feed hsame⟩

/-- The number that is scanned may stand behind line ends. -/
theorem strtol_sameText (h : SameText p q) :
    Option.Rel (fun scanned scanned' => scanned.1 = scanned'.1 ∧ SameText scanned.2 scanned'.2)
      (strtol p) (strtol q) := by
  obtain ⟨hsign, hrest⟩ := afterSign_sameText (h.dropWhile (f := isSpace) fun _ => rfl)
  have hdigits := hrest.takeWhile_eq (f := isDigit) rfl rfl
  rw [strtol, strtol, scanNumber_eq, scanNumber_eq, hsign, hdigits]
  split
  · exact .none
  · exact .some ⟨rfl, hrest.dropWhile fun hf => hf⟩

theorem map_eq_of_rel {β γ : Type} {r : β → β → Prop} {f : β → γ} {x y : Option β}
    (h : Option.Rel r x y) (hf : ∀ b b', r b b' → f b = f b') : x.map f = y.map f := by
  cases h with
  | none => rfl
  | some hr => exact congrArg some (hf _ _ hr)

theorem parseInt_sameText (h : SameText p q) : parseInt p = parseInt q :=
  map_eq_of_rel (strtol_sameText h) fun _ _ hvalue => by rw [hvalue.1]

theorem parseCandidate_sameText (h : SameText p q) : parseCandidate p = parseCandidate q := by
  obtain ⟨hfoundation, h⟩ := copyUntil_sameText 32 0x20 h
  obtain ⟨hcomponent, h⟩ := copyUntil_sameText 16 0x20 h
  obtain ⟨hprotocol, h⟩ := copyUntil_sameText 16 0x20 h
  obtain ⟨hpriority, h⟩ := copyUntil_sameText 32 0x20 h
  obtain ⟨hip, h⟩ := copyUntil_sameText 64 0x20 h
  obtain ⟨hport, h⟩ := copyUntil_sameText 16 0x20 h
  obtain ⟨htoken, h⟩ := copyUntil_sameText 32 0x20 h
  obtain ⟨htype, -⟩ := copyUntil_sameText 32 0x20 h
  simp only [parseCandidate, hfoundation, hcomponent, hprotocol, hpriority, hip, hport, htoken,
    htype]

theorem parseFingerprint_sameText (h : SameText p q) :
    parseFingerprint p = parseFingerprint q := by
  obtain ⟨htype, h⟩ := copyUntil_sameText 16 0x20 h
  have hcopied : fingerprintLoop 128 (skipWhitespace (copyUntil 16 0x20 p).2) =
      fingerprintLoop 128 (skipWhitespace (copyUntil 16 0x20 q).2) :=
    congrArg (List.take (128 - 1)) ((skipWhitespace_sameText h).takeWhile_eq rfl rfl)
  simp only [parseFingerprint, htype, hcopied]

end

/-- The cursors are in the same place, and what has been parsed is the same. -/
structure InStep {σ : Type} (a b : List UInt8 × σ) : Prop where
  cursor : SameText a.1 b.1
  parsed : a.2 = b.2

/-- A function that moves the cursor does the same in both texts. -/
def LockStep {σ : Type} (f : List UInt8 → List UInt8 × σ) : Prop :=
  ∀ p q, SameText p q → InStep (f p) (f q)

theorem LockStep.ite {σ : Type} {c : Prop} [Decidable c] {f g : List UInt8 → List UInt8 × σ}
    (hf : LockStep f) (hg : LockStep g) : LockStep fun p => if c then f p else g p :=
  holds_ite hf hg

theorem LockStep.value {σ : Type} {g : List UInt8 → σ}
    (hg : ∀ p q, SameText p q → g p = g q) : LockStep fun p => (p, g p) :=
  fun p q h => ⟨h, hg p q h⟩

theorem LockStep.const {σ : Type} (s : σ) : LockStep fun p => (p, s) :=
  .value fun _ _ _ => rfl

theorem LockStep.behindColon {σ : Type} {f : List UInt8 → List UInt8 × σ} (hf : LockStep f) :
    LockStep fun p => f (skipByte 0x3A p) :=
  fun _ _ h => hf _ _ (skipByte_sameText (by decide) (by decide) h)

theorem copyUntil_lockStep {σ : Type} (cap : Nat) (sep : UInt8) (g : CStr cap → σ) :
    LockStep fun p => ((copyUntil cap sep p).2, g (copyUntil cap sep p).1) := by
  intro p q h
  obtain ⟨hcopied, hcursor⟩ := copyUntil_sameText cap sep h
  exact ⟨hcursor, congrArg g hcopied⟩

section

variable (session : SdpSession)

theorem parseOrigin_lockStep : LockStep fun p => parseOrigin zeroLocals p session := by
  intro p q h
  obtain ⟨husername, h⟩ := copyUntil_sameText 256 0x20 h
  obtain ⟨hid, h⟩ := copyUntil_sameText 64 0x20 h
  obtain ⟨hversion, h⟩ := copyUntil_sameText 64 0x20 h
  obtain ⟨hnetwork, h⟩ := copyUntil_sameText 16 0x20 h
  obtain ⟨haddress, h⟩ := copyUntil_sameText 16 0x20 h
  obtain ⟨hunicast, h⟩ := copyUntil_sameText 64 0x0A h
  refine ⟨h, ?_⟩
  simp only [parseOrigin, zeroLocals, husername, hid, hversion, hnetwork, haddress, hunicast]

theorem parseTiming_lockStep : LockStep fun p => parseTiming p session := by
  intro p q h
  obtain ⟨hstart, h⟩ := copyUntil_sameText 64 0x20 h
  obtain ⟨hstop, h⟩ := copyUntil_sameText 64 0x0A h
  refine ⟨h, ?_⟩
  simp only [parseTiming, hstart, hstop]

/-- The scan for the space behind the payload type goes over a carriage return, not over a
line feed. -/
theorem parseRtpmap_lockStep : LockStep fun p => parseRtpmap p session := by
  intro p q h
  have hvalue := parseInt_sameText h
  simp only [parseRtpmap, ← hvalue]
  cases parseInt p with
  | none => exact ⟨h, rfl⟩
  | some pt =>
      have hname := skipByte_sameText (c := 0x20) (by decide) (by decide)
        (h.dropWhile (f := fun c => c != 0x20 && c != 0x00 && c != 0x0A) fun hf => by cases hf)
      obtain ⟨hcodec, h⟩ := copyUntil_sameText 64 0x2F hname
      have hparams := skipByte_sameText (c := 0x2F) (by decide) (by decide) h
      obtain ⟨hencoding, h⟩ := copyUntil_sameText 64 0x0A hparams
      refine ⟨h, ?_⟩
      dsimp only
      rw [hcodec, hencoding]

theorem parseMid_lockStep : LockStep fun p => parseMid p session := by
  intro p q h
  obtain ⟨hvalue, h⟩ := copyUntil_sameText 32 0x0A h
  refine ⟨h, ?_⟩
  simp only [parseMid, hvalue]

theorem parseNamedAttribute_lockStep (attrName : List UInt8) :
    LockStep fun p => parseNamedAttribute attrName p session := by
  unfold parseNamedAttribute
  refine .ite ?_ (.ite ?_ (.ite ?_ (.ite (.ite ?_ (.const _)) (.ite ?_ (.ite (.ite ?_ (.const _))
    (.ite ?_ (.const _)))))))
  · exact (copyUntil_lockStep 64 0x0A fun iceUfrag =>
      { session with iceUfrag := iceUfrag }).behindColon
  · exact (copyUntil_lockStep 128 0x0A fun icePwd =>
      { session with icePwd := icePwd }).behindColon
  · refine LockStep.behindColon (.value (g := fun p => { session with
      fingerprintType := (parseFingerprint p).1
      fingerprint := (parseFingerprint p).2.getD session.fingerprint }) fun p q h => ?_)
    rw [parseFingerprint_sameText h]
  · refine LockStep.behindColon (.value (g := fun p => { session with
      candidates := ((parseCandidate p).bind session.candidates.push?).getD
        session.candidates }) fun p q h => ?_)
    rw [parseCandidate_sameText h]
  · exact (copyUntil_lockStep 16 0x0A fun dtlsSetup =>
      { session with dtlsSetup := dtlsSetup }).behindColon
  · exact (parseMid_lockStep session).behindColon
  · exact (parseRtpmap_lockStep session).behindColon

theorem parseAttribute_lockStep : LockStep fun p => parseAttribute p session := by
  intro p q h
  obtain ⟨hname, h⟩ := copyUntil_sameText 64 0x3A h
  simp only [parseAttribute, hname]
  exact parseNamedAttribute_lockStep session _ _ _ h

/-- The payload type may be read from behind the end of the line. -/
theorem parseMedia_lockStep : LockStep fun p => parseMedia p session := by
  unfold parseMedia
  refine .ite (.const _) fun p q h => ?_
  obtain ⟨htype, h⟩ := copyUntil_sameText 16 0x20 h
  obtain ⟨hport, h⟩ := copyUntil_sameText 16 0x20 h
  obtain ⟨-, h⟩ := copyUntil_sameText 16 0x20 h
  dsimp only
  rw [htype, hport]
  cases kindOfName (copyUntil 16 0x20 q).1.bytes with
  | none => exact ⟨h, rfl⟩
  | some kind =>
      have hscanned := strtol_sameText h
      generalize strtol (copyUntil 16 0x20 (copyUntil 16 0x20 (copyUntil 16 0x20 p).2).2).2 =
        scanned at hscanned ⊢
      generalize strtol (copyUntil 16 0x20 (copyUntil 16 0x20 (copyUntil 16 0x20 q).2).2).2 =
        scanned' at hscanned ⊢
      cases hscanned with
      | none => exact ⟨h, rfl⟩
      | @some scanned scanned' hvalue =>
          obtain ⟨payloadType, rest⟩ := scanned
          obtain ⟨payloadType', rest'⟩ := scanned'
          obtain ⟨hsame, hcursor⟩ := hvalue
          dsimp only at hsame hcursor
          rw [hsame]
          exact ⟨hcursor, rfl⟩

theorem parseField_lockStep (type : UInt8) :
    LockStep fun p => parseField zeroLocals type p session := by
  unfold parseField
  refine .ite (fun p q h => ?_) (.ite (parseOrigin_lockStep session) (.ite ?_
    (.ite (parseTiming_lockStep session) (.ite (parseAttribute_lockStep session)
      (.ite (parseMedia_lockStep session) (.const _))))))
  · exact ⟨findEol_sameText h, by rw [parseInt_sameText h]⟩
  · exact copyUntil_lockStep 256 0x0A fun sessionName => { session with sessionName := sessionName }

end

/-- The same lines ahead, once the line ends in front of them are skipped. -/
def SameAhead (p q : List UInt8) : Prop :=
  SameText (p.dropWhile isEol) (q.dropWhile isEol)

section

variable {p q : List UInt8}

theorem SameAhead.of_sameText (h : SameText p q) : SameAhead p q :=
  h.dropWhile fun _ => rfl

theorem dropWhile_isEol_cons {c : UInt8} (hc : isEol c = true) (rest : List UInt8) :
    (c :: rest).dropWhile isEol = rest.dropWhile isEol :=
  List.dropWhile_cons_of_pos hc

/-- The second byte of a line end makes no difference to what is ahead. -/
theorem dropWhile_skipByte (p : List UInt8) :
    (skipByte 0x0A p).dropWhile isEol = p.dropWhile isEol := by
  cases p with
  | nil => rfl
  | cons c rest =>
      rw [skipByte]
      split
      · next hc => rw [dropWhile_isEol_cons (by rw [hc]; rfl)]
      · rfl

theorem SameAhead.skipByte (h : SameAhead p q) :
    SameAhead (skipByte 0x0A p) (skipByte 0x0A q) := by
  rw [SameAhead, dropWhile_skipByte, dropWhile_skipByte]
  exact h

theorem advance_sameAhead (h : SameText p q) : Option.Rel SameAhead (advance p) (advance q) := by
  cases h with
  | nil => exact .none
  | char _ _ hsame =>
      rw [advance, advance]
      split
      · exact .none
      · exact .some (.of_sameText hsame)
  | @crlf p q hsame =>
      have hahead : SameAhead (0x0A :: p) q := by
        rw [SameAhead, dropWhile_isEol_cons rfl]
        exact SameAhead.of_sameText hsame
      exact .some hahead
  | feed hsame => exact .some (.of_sameText hsame)

theorem parseLine_sameAhead (type : UInt8) (session : SdpSession) (h : SameText p q) :
    Option.Rel (fun next next' => SameAhead next.1 next'.1 ∧ next.2 = next'.2)
      (parseLine zeroLocals type p session) (parseLine zeroLocals type q session) := by
  have hhead := h.head?_eq_some_iff (c := 0x3D) (by decide) (by decide)
  rw [parseLine, parseLine]
  by_cases hequals : p.head? = some 0x3D
  · rw [if_neg (not_not.mpr hequals), if_neg (not_not.mpr (hhead.mp hequals))]
    obtain ⟨hcursor, hparsed⟩ :=
      parseField_lockStep session type _ _ (h.tail (by decide) hequals)
    have hend := findEol_sameText hcursor
    dsimp only
    rw [hparsed]
    generalize findEol (parseField zeroLocals type p.tail session).1 = end₁ at hend ⊢
    generalize findEol (parseField zeroLocals type q.tail session).1 = end₂ at hend ⊢
    cases hend with
    | nil => exact .some ⟨.of_sameText .nil, rfl⟩
    | char hcr hlf hsame =>
        dsimp only
        split
        · exact .some ⟨.of_sameText (.char hcr hlf hsame), rfl⟩
        · exact .some ⟨(SameAhead.of_sameText hsame).skipByte, rfl⟩
    | crlf hsame =>
        refine .some ⟨?_, rfl⟩
        rw [SameAhead, dropWhile_skipByte, dropWhile_skipByte, dropWhile_isEol_cons rfl]
        exact SameAhead.of_sameText hsame
    | feed hsame => exact .some ⟨(SameAhead.of_sameText hsame).skipByte, rfl⟩
  · rw [if_pos hequals, if_pos fun hq => hequals (hhead.mpr hq)]
    have hnext := advance_sameAhead (findEol_sameText h)
    generalize advance (findEol p) = next at hnext ⊢
    generalize advance (findEol q) = next' at hnext ⊢
    cases hnext with
    | none => exact .none
    | some hahead => exact .some ⟨hahead, rfl⟩

theorem exists_fuel {c : UInt8} {rest : List UInt8} {fuel : Nat}
    (h : (c :: rest).length ≤ fuel) : ∃ fuel', fuel = fuel' + 1 ∧ rest.length ≤ fuel' := by
  rw [List.length_cons] at h
  exact ⟨fuel - 1, by omega, by omega⟩

/-- The loop skips the line ends in front of a line. -/
theorem sdpParseLoop_dropWhile {fuel : Nat} (hp : 0x00 ∉ p) (hfuel : p.length ≤ fuel)
    (session : SdpSession) :
    ∃ fuel', (p.dropWhile isEol).length ≤ fuel' ∧ sdpParseLoop zeroLocals fuel p session =
      sdpParseLoop zeroLocals fuel' (p.dropWhile isEol) session := by
  induction p generalizing fuel with
  | nil => exact ⟨fuel, hfuel, rfl⟩
  | cons c rest ih =>
      by_cases hc : isEol c = true
      · have hnul : c ≠ 0x00 := fun h => hp (h ▸ List.mem_cons_self)
        obtain ⟨fuel, rfl, hrest⟩ := exists_fuel hfuel
        rw [dropWhile_isEol_cons hc, sdpParseLoop, if_neg hnul, if_pos hc]
        exact ih (fun hmem => hp (List.mem_cons_of_mem c hmem)) hrest
      · rw [List.dropWhile_cons_of_neg hc]
        exact ⟨fuel, hfuel, rfl⟩

/-- A line leaves less of the text ahead. -/
theorem parseLine_shorter {type : UInt8} {session session' : SdpSession} {next : List UInt8}
    (hp : 0x00 ∉ p) (h : parseLine zeroLocals type p session = some (next, session')) :
    next.length ≤ p.length ∧ 0x00 ∉ next := by
  have hsuffix := (@behindEol_of_parseLine zeroLocals type p next session session' hp h).suffix
  exact ⟨hsuffix.length_le, fun hmem => hp (hsuffix.subset hmem)⟩

/-- The loop takes the text line by line, whatever ends its lines. -/
theorem sdpParseLoop_sameAhead {fuel fuel' : Nat} (hp : 0x00 ∉ p) (hq : 0x00 ∉ q)
    (hfuel : p.length ≤ fuel) (hfuel' : q.length ≤ fuel') (h : SameAhead p q)
    (session : SdpSession) :
    sdpParseLoop zeroLocals fuel p session = sdpParseLoop zeroLocals fuel' q session := by
  induction hlength : p.length using Nat.strong_induction_on
    generalizing p q fuel fuel' session with
  | _ n ih =>
      obtain ⟨fuel, hfuel, hskip⟩ := sdpParseLoop_dropWhile hp hfuel session
      obtain ⟨fuel', hfuel', hskip'⟩ := sdpParseLoop_dropWhile hq hfuel' session
      rw [hskip, hskip']
      have hhead : ∀ c ∈ (p.dropWhile isEol).head?, ¬ isEol c = true := by
        intro c hc
        have hnot := List.head?_dropWhile_not isEol p
        rw [Option.mem_def.mp hc] at hnot
        exact Bool.not_eq_true _ ▸ hnot
      have hshorter := (List.dropWhile_suffix (l := p) isEol).length_le
      have hpahead : 0x00 ∉ p.dropWhile isEol :=
        fun hmem => hp ((List.dropWhile_suffix isEol).subset hmem)
      have hqahead : 0x00 ∉ q.dropWhile isEol :=
        fun hmem => hq ((List.dropWhile_suffix isEol).subset hmem)
      rw [SameAhead] at h
      generalize p.dropWhile isEol = pAhead at *
      generalize q.dropWhile isEol = qAhead at *
      -- Both cursors are at the beginning of a line, or at the end of the text.
      cases h with
      | nil => rw [sdpParseLoop, sdpParseLoop]
      | crlf hsame => exact absurd rfl (hhead _ rfl)
      | feed hsame => exact absurd rfl (hhead _ rfl)
      | @char c p q hcr hlf hsame =>
          obtain ⟨fuel, rfl, hrest⟩ := exists_fuel hfuel
          obtain ⟨fuel', rfl, hrest'⟩ := exists_fuel hfuel'
          rw [List.mem_cons, not_or] at hpahead hqahead
          have hline := parseLine_sameAhead c session hsame
          rw [sdpParseLoop, sdpParseLoop, if_neg (Ne.symm hpahead.1), if_neg (Ne.symm hpahead.1),
            if_neg (hhead c rfl), if_neg (hhead c rfl)]
          generalize hnext : parseLine zeroLocals c p session = next at hline ⊢
          generalize hnext' : parseLine zeroLocals c q session = next' at hline ⊢
          cases hline with
          | none => rfl
          | @some next next' hahead =>
              obtain ⟨hle, hnul⟩ := parseLine_shorter hpahead.2 hnext
              obtain ⟨hle', hnul'⟩ := parseLine_shorter hqahead.2 hnext'
              rw [List.length_cons] at hshorter
              dsimp only
              rw [hahead.2]
              exact ih _ (by omega) hnul hnul' (hle.trans hrest) (hle'.trans hrest') hahead.1
                next'.2 rfl

end

/-- Locals that hold zero: they are the same in every place of every text. -/
theorem sdpParse_sameText {p q : List UInt8} (hp : 0x00 ∉ p) (hq : 0x00 ∉ q)
    (h : SameText p q) : sdpParse zeroLocals p = sdpParse zeroLocals q := by
  rw [sdpParse, sdpParse, sdpParseLoop_sameAhead hp hq le_rfl le_rfl (.of_sameText h)]

section

variable {lines : List (List UInt8)} {lineEnd : List UInt8}

theorem not_mem_joinLines (hlines : ∀ line ∈ lines, NoEol line) (hlineEnd : 0x00 ∉ lineEnd) :
    0x00 ∉ joinLines lineEnd lines := by
  intro hmem
  obtain ⟨line, hline, hmem⟩ := List.mem_flatMap.mp hmem
  rcases List.mem_append.mp hmem with hmem | hmem
  · cases hlines line hline _ hmem
  · exact hlineEnd hmem

/-- The fields of an origin line are looked for in the line alone. -/
theorem hasNumbers_append_eol {stop : UInt8} (hstop : isEol stop = true) (body rest : List UInt8) :
    HasNumbers (body ++ stop :: rest) ↔ HasNumbers body := by
  simp only [HasNumbers, originId, originVersion, copyUntil_eol _ _ hstop]

/-- An origin line that the parser comes to is one of the lines. -/
theorem hasNumbers_of_mem_textOrigins (hlines : ∀ line ∈ lines, NoEol line)
    (hlineEnd : ∀ c ∈ lineEnd, isEol c = true ∧ c ≠ 0x00) (hne : lineEnd ≠ [])
    (hnumbers : ∀ body, ascii "o=" ++ body ∈ lines → HasNumbers body) {origin : List UInt8}
    (h : origin ∈ textOrigins (joinLines lineEnd lines)) : HasNumbers origin := by
  have hnul := not_mem_joinLines hlines fun hmem => (hlineEnd _ hmem).2 rfl
  obtain ⟨stop, ends, rfl⟩ := List.exists_cons_of_ne_nil hne
  have hstop := (hlineEnd stop List.mem_cons_self).1
  obtain ⟨front, htext, hfront⟩ : ∃ front,
      joinLines (stop :: ends) lines = front ++ 0x6F :: 0x3D :: origin ∧
        ∀ last ∈ front.getLast?, isEol last = true := by
    rcases mem_sdpOrigins hnul h with hstart | hnil | ⟨front, last, hlast, htext⟩
    · exact ⟨[], hstart.symm, fun _ hlast => by cases hlast⟩
    · cases hnil
    · refine ⟨front ++ [last], by rw [htext, List.append_assoc]; rfl, fun last' hlast' => ?_⟩
      rw [List.getLast?_concat, Option.mem_some_iff] at hlast'
      rwa [← hlast']
  obtain ⟨line, hmem, behind, hline⟩ := exists_line (fun c hc => (hlineEnd c hc).1)
    (fun line hmem c hc => hlines line hmem c hc) htext rfl hfront
  rw [List.cons_append] at hline
  match line with
  | [] =>
      rw [← (List.cons.inj hline).1] at hstop
      cases hstop
  | [c] =>
      rw [← (List.cons.inj (List.cons.inj hline).2).1] at hstop
      cases hstop
  | c :: d :: body =>
      obtain ⟨htype, hline⟩ := List.cons.inj hline
      obtain ⟨hequals, horigin⟩ := List.cons.inj hline
      rw [← htype, ← hequals] at hmem
      rw [horigin]
      exact (hasNumbers_append_eol hstop body (ends ++ behind)).mpr (hnumbers body hmem)

end

/-- The parser returns the same result and the same session whichever way the lines are
ended. -/
theorem lineEnds_agree (lines : List (List UInt8)) (hlines : ∀ line ∈ lines, NoEol line)
    (hnumbers : ∀ body, ascii "o=" ++ body ∈ lines → HasNumbers body) (locals locals' : Locals) :
    sdpParse locals (joinLines [0x0D, 0x0A] lines) = sdpParse locals' (joinLines [0x0A] lines) := by
  have hignores : ∀ {lineEnd : List UInt8}, (∀ c ∈ lineEnd, isEol c = true ∧ c ≠ 0x00) →
      lineEnd ≠ [] → ∀ locals,
        sdpParse locals (joinLines lineEnd lines) = sdpParse zeroLocals (joinLines lineEnd lines) := by
    intro lineEnd hlineEnd hne locals
    exact sdpParse_congr (fun p hlast => hasNumbers_of_mem_textOrigins hlines hlineEnd hne hnumbers
      (List.mem_of_getLast? hlast)) locals zeroLocals
  have hplain : ∀ line ∈ lines, ∀ c ∈ line, c ≠ 0x0D ∧ c ≠ 0x0A := by
    intro line hmem c hc
    have heol := hlines line hmem c hc
    constructor
    · rintro rfl
      cases heol
    · rintro rfl
      cases heol
  calc
    sdpParse locals (joinLines [0x0D, 0x0A] lines)
    _ = sdpParse zeroLocals (joinLines [0x0D, 0x0A] lines) :=
        hignores (by decide +kernel) (by decide) locals
    _ = sdpParse zeroLocals (joinLines [0x0A] lines) :=
        sdpParse_sameText (not_mem_joinLines hlines (by decide))
          (not_mem_joinLines hlines (by decide)) (sameLines_joinLines hplain)
    _ = sdpParse locals' (joinLines [0x0A] lines) :=
        (hignores (by decide +kernel) (by decide) locals').symm

/-- Two lines, of which one is an origin line. -/
theorem lineEnds_agree_sample :
    sdpParse ⟨fun _ => 5, fun _ => 5⟩
        (joinLines [0x0D, 0x0A] [ascii "v=0", ascii "o=- 1 2 IN IP4 0"]) =
      sdpParse zeroLocals (joinLines [0x0A] [ascii "v=0", ascii "o=- 1 2 IN IP4 0"]) := by
  refine lineEnds_agree _ ?_ (fun body hmem => ?_) _ _
  · intro line hmem
    exact noEol_of_all (by revert line; decide +kernel)
  · have hbody : body = ascii "- 1 2 IN IP4 0" := by
      rcases List.mem_cons.mp hmem with h | h
      · cases h
      · rw [List.mem_singleton] at h
        exact List.append_cancel_left h
    rw [hbody]
    constructor
    · decide +kernel
    · decide +kernel

end TinyRtc.SdpLineEnds
