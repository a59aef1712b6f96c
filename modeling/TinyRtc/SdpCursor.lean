import TinyRtc.SdpParser

namespace TinyRtc.SdpCursor

open TinyRtc.Common
open TinyRtc.CString
open TinyRtc.Decimal
open TinyRtc.Sdp
open TinyRtc.SdpParser

/-- The sign in front of a number, and the text behind it. -/
def afterSign : List UInt8 → Bool × List UInt8
  | [] => (false, [])
  | c :: rest =>
      if c = 0x2D then (true, rest) else if c = 0x2B then (false, rest) else (false, c :: rest)

theorem scanNumber_eq (s : List UInt8) :
    scanNumber s =
      if (afterSign (s.dropWhile isSpace)).2.takeWhile isDigit = [] then none
      else
        some ((afterSign (s.dropWhile isSpace)).1,
          digitsValue ((afterSign (s.dropWhile isSpace)).2.takeWhile isDigit),
          (afterSign (s.dropWhile isSpace)).2.dropWhile isDigit) := by
  rw [scanNumber]
  cases s.dropWhile isSpace with
  | nil => rfl
  | cons c rest =>
      by_cases hminus : c = 0x2D
      · subst hminus
        rfl
      · by_cases hplus : c = 0x2B
        · subst hplus
          rfl
        · have hsign : afterSign (c :: rest) = (false, c :: rest) := by
            rw [afterSign, if_neg hminus, if_neg hplus]
          simp only [hsign]
          split
          · next h => exact absurd (List.cons.inj h).1 hminus
          · next h => exact absurd (List.cons.inj h).1 hplus
          · rfl

/-- The contents of the locals for a visit with this text ahead, whatever is behind its
NUL. -/
def Locals.ofText (locals : Locals) : Locals where
  sessId := fun p => locals.sessId (p.takeWhile (· != 0x00))
  sessVer := fun p => locals.sessVer (p.takeWhile (· != 0x00))

section

variable (p junk : List UInt8)

theorem skipWhitespace_eol {stop : UInt8} (hstop : isEol stop = true) :
    skipWhitespace (p ++ stop :: junk) = skipWhitespace p ++ stop :: junk := by
  refine dropWhile_append_cons ?_ p junk
  rw [Bool.or_eq_false_iff, beq_eq_false_iff_ne, beq_eq_false_iff_ne]
  constructor
  · rintro rfl
    cases hstop
  · rintro rfl
    cases hstop

theorem skipWhitespace_nul :
    skipWhitespace (p ++ 0x00 :: junk) = skipWhitespace p ++ 0x00 :: junk :=
  skipWhitespace_eol p junk rfl

theorem findEol_nul : findEol (p ++ 0x00 :: junk) = findEol p ++ 0x00 :: junk :=
  dropWhile_append_cons rfl p junk

theorem skipByte_nul {c : UInt8} (hc : c ≠ 0x00) :
    skipByte c (p ++ 0x00 :: junk) = skipByte c p ++ 0x00 :: junk := by
  cases p with
  | nil => exact if_neg hc.symm
  | cons x rest =>
      rw [List.cons_append, skipByte, skipByte]
      split
      · rfl
      · rfl

theorem advance_nul :
    advance (p ++ 0x00 :: junk) = (advance p).map (· ++ 0x00 :: junk) := by
  cases p with
  | nil => rfl
  | cons x rest =>
      rw [List.cons_append, advance, advance]
      split
      · rfl
      · rfl

theorem copyLoop_eol {stop : UInt8} (hstop : isEol stop = true) (dstLen : Nat) (sep : UInt8)
    (dst : List UInt8) :
    copyLoop dstLen sep dst (p ++ stop :: junk) =
      ((copyLoop dstLen sep dst p).1, (copyLoop dstLen sep dst p).2 ++ stop :: junk) := by
  induction p generalizing dst with
  | nil => exact if_pos (.inl hstop)
  | cons c rest ih =>
      rw [List.cons_append, copyLoop, copyLoop]
      split
      · rfl
      · split
        · exact ih _
        · exact ih _

/-- What is copied, and where the cursor stops, does not depend on what is behind the end of
the line. -/
theorem copyUntil_eol {stop : UInt8} (hstop : isEol stop = true) (cap : Nat) (sep : UInt8) :
    copyUntil cap sep (p ++ stop :: junk) =
      ((copyUntil cap sep p).1, (copyUntil cap sep p).2 ++ stop :: junk) := by
  have hloop := copyLoop_eol (skipWhitespace p) junk hstop cap sep []
  rw [← skipWhitespace_eol p junk hstop] at hloop
  have hcursor := congrArg Prod.snd hloop
  refine Prod.ext (CStr.ext ?_) hcursor
  exact congrArg (fun copied => copied.1.rdropWhile (· == 0x20)) hloop

theorem copyUntil_nul (cap : Nat) (sep : UInt8) :
    copyUntil cap sep (p ++ 0x00 :: junk) =
      ((copyUntil cap sep p).1, (copyUntil cap sep p).2 ++ 0x00 :: junk) :=
  copyUntil_eol p junk rfl cap sep

theorem afterSign_nul :
    afterSign (p ++ 0x00 :: junk) = ((afterSign p).1, (afterSign p).2 ++ 0x00 :: junk) := by
  cases p with
  | nil => rfl
  | cons c rest =>
      rw [List.cons_append, afterSign, afterSign]
      split
      · rfl
      · split
        · rfl
        · rfl

theorem scanNumber_nul : scanNumber (p ++ 0x00 :: junk) =
    (scanNumber p).map fun (negative, value, rest) => (negative, value, rest ++ 0x00 :: junk) := by
  have hspace : isSpace 0x00 = false := rfl
  have hdigit : isDigit 0x00 = false := rfl
  rw [scanNumber_eq, scanNumber_eq, dropWhile_append_cons hspace, afterSign_nul]
  dsimp only
  rw [takeWhile_append_cons hdigit, dropWhile_append_cons hdigit]
  split
  · rfl
  · rfl

theorem strtol_nul : strtol (p ++ 0x00 :: junk) =
    (strtol p).map fun (value, rest) => (value, rest ++ 0x00 :: junk) := by
  rw [strtol, strtol, scanNumber_nul, Option.map_map, Option.map_map]
  rfl

theorem parseInt_nul : parseInt (p ++ 0x00 :: junk) = parseInt p := by
  rw [parseInt, parseInt, strtol_nul, Option.map_map]
  rfl

theorem parseCandidate_nul : parseCandidate (p ++ 0x00 :: junk) = parseCandidate p := by
  simp only [parseCandidate, copyUntil_nul]

theorem fingerprintLoop_nul (fpLen : Nat) :
    fingerprintLoop fpLen (p ++ 0x00 :: junk) = fingerprintLoop fpLen p := by
  rw [fingerprintLoop, fingerprintLoop]
  exact congrArg (List.take (fpLen - 1)) (takeWhile_append_cons rfl p junk)

theorem parseFingerprint_nul : parseFingerprint (p ++ 0x00 :: junk) = parseFingerprint p := by
  simp only [parseFingerprint, copyUntil_nul, skipWhitespace_nul, fingerprintLoop_nul]

end

section

variable {p text : List UInt8}

theorem skipWhitespace_suffix (h : p <:+ text) : skipWhitespace p <:+ text :=
  (List.dropWhile_suffix _).trans h

theorem findEol_suffix (h : p <:+ text) : findEol p <:+ text :=
  (List.dropWhile_suffix _).trans h

theorem skipByte_suffix (c : UInt8) (h : p <:+ text) : skipByte c p <:+ text := by
  cases p with
  | nil => exact h
  | cons x rest =>
      rw [skipByte]
      split
      · exact (List.suffix_cons x rest).trans h
      · exact h

theorem copyLoop_suffix (dstLen : Nat) (sep : UInt8) (dst p : List UInt8) :
    (copyLoop dstLen sep dst p).2 <:+ p := by
  induction p generalizing dst with
  | nil => exact List.suffix_rfl
  | cons c rest ih =>
      rw [copyLoop]
      split
      · exact List.suffix_rfl
      · split
        · exact (ih _).trans (List.suffix_cons c rest)
        · exact (ih _).trans (List.suffix_cons c rest)

theorem copyUntil_suffix (cap : Nat) (sep : UInt8) (h : p <:+ text) :
    (copyUntil cap sep p).2 <:+ text :=
  (copyLoop_suffix cap sep [] (skipWhitespace p)).trans (skipWhitespace_suffix h)

theorem afterSign_suffix (p : List UInt8) : (afterSign p).2 <:+ p := by
  cases p with
  | nil => exact List.suffix_rfl
  | cons c rest =>
      rw [afterSign]
      split
      · exact List.suffix_cons c rest
      · split
        · exact List.suffix_cons c rest
        · exact List.suffix_rfl

theorem strtol_suffix {value : Int} {rest : List UInt8} (h : strtol p = some (value, rest)) :
    rest <:+ p := by
  obtain ⟨⟨negative, digits, rest'⟩, hscan, hvalue⟩ := Option.map_eq_some_iff.mp h
  cases hvalue
  rw [scanNumber_eq] at hscan
  split at hscan
  · cases hscan
  · cases hscan
    exact ((List.dropWhile_suffix _).trans (afterSign_suffix _)).trans (List.dropWhile_suffix _)

end

/-- What is behind the NUL makes no difference to a function that moves the cursor, and
the cursor stays in the text. -/
structure StaysInText {σ : Type} (f : List UInt8 → List UInt8 × σ) : Prop where
  nul : ∀ p junk, f (p ++ 0x00 :: junk) = ((f p).1 ++ 0x00 :: junk, (f p).2)
  suffix : ∀ p, (f p).1 <:+ p

/-- What holds of both branches holds of the function that chooses between them. -/
theorem holds_ite {α β : Type} {P : (α → β) → Prop} {c : Prop} [Decidable c] {f g : α → β}
    (hf : P f) (hg : P g) : P fun x => if c then f x else g x := by
  by_cases hc : c
  · simpa only [if_pos hc] using hf
  · simpa only [if_neg hc] using hg

theorem StaysInText.ite {σ : Type} {c : Prop} [Decidable c]
    {f g : List UInt8 → List UInt8 × σ} (hf : StaysInText f) (hg : StaysInText g) :
    StaysInText fun p => if c then f p else g p :=
  holds_ite hf hg

/-- A cursor that does not move. -/
theorem StaysInText.value {σ : Type} {g : List UInt8 → σ}
    (hg : ∀ p junk, g (p ++ 0x00 :: junk) = g p) : StaysInText fun p => (p, g p) :=
  ⟨fun p junk => by rw [hg], fun _ => List.suffix_rfl⟩

theorem StaysInText.const {σ : Type} (s : σ) : StaysInText fun p => (p, s) :=
  .value fun _ _ => rfl

theorem copyUntil_stays {σ : Type} (cap : Nat) (sep : UInt8) (g : CStr cap → σ) :
    StaysInText fun p => ((copyUntil cap sep p).2, g (copyUntil cap sep p).1) :=
  ⟨fun p junk => by rw [copyUntil_nul], fun _ => copyUntil_suffix cap sep List.suffix_rfl⟩

/-- A value behind its colon. -/
theorem StaysInText.behindColon {σ : Type} {f : List UInt8 → List UInt8 × σ}
    (hf : StaysInText f) : StaysInText fun p => f (skipByte 0x3A p) where
  nul p junk := by
    have hcolon : (0x3A : UInt8) ≠ 0x00 := by decide
    rw [skipByte_nul p junk hcolon, hf.nul]
  suffix p := (hf.suffix _).trans (skipByte_suffix _ List.suffix_rfl)

section

variable (locals : Locals) (session : SdpSession)

theorem parseOrigin_stays : StaysInText fun p => parseOrigin (Locals.ofText locals) p session where
  nul p junk := by
    have hvisit := @takeWhile_append_cons UInt8 (· != 0x00) 0x00 rfl p junk
    simp only [parseOrigin, copyUntil_nul, Locals.ofText, hvisit]
  suffix p := by
    simp only [parseOrigin]
    exact copyUntil_suffix _ _ (copyUntil_suffix _ _ (copyUntil_suffix _ _ (copyUntil_suffix _ _
      (copyUntil_suffix _ _ (copyUntil_suffix _ _ List.suffix_rfl)))))

theorem parseTiming_stays : StaysInText fun p => parseTiming p session where
  nul p junk := by simp only [parseTiming, copyUntil_nul]
  suffix p := by
    simp only [parseTiming]
    exact copyUntil_suffix _ _ (copyUntil_suffix _ _ List.suffix_rfl)

theorem parseRtpmap_stays : StaysInText fun p => parseRtpmap p session where
  nul p junk := by
    have hskip := @dropWhile_append_cons UInt8 (fun c => c != 0x20 && c != 0x00 && c != 0x0A)
      0x00 rfl
    have hspace : (0x20 : UInt8) ≠ 0x00 := by decide
    have hslash : (0x2F : UInt8) ≠ 0x00 := by decide
    simp only [parseRtpmap, parseInt_nul]
    cases parseInt p with
    | none => rfl
    | some pt => simp only [hskip, skipByte_nul _ _ hspace, skipByte_nul _ _ hslash, copyUntil_nul]
  suffix p := by
    simp only [parseRtpmap]
    cases parseInt p with
    | none => exact List.suffix_rfl
    | some pt =>
        exact copyUntil_suffix _ _ (skipByte_suffix _ (copyUntil_suffix _ _ (skipByte_suffix _
          (List.dropWhile_suffix _))))

theorem parseMid_stays : StaysInText fun p => parseMid p session where
  nul p junk := by simp only [parseMid, copyUntil_nul]
  suffix p := by
    simp only [parseMid]
    exact copyUntil_suffix _ _ List.suffix_rfl

theorem parseNamedAttribute_stays (attrName : List UInt8) :
    StaysInText fun p => parseNamedAttribute attrName p session := by
  unfold parseNamedAttribute
  refine .ite ?_ (.ite ?_ (.ite ?_ (.ite (.ite ?_ (.const _)) (.ite ?_ (.ite (.ite ?_ (.const _))
    (.ite ?_ (.const _)))))))
  · exact (copyUntil_stays 64 0x0A fun iceUfrag =>
      { session with iceUfrag := iceUfrag }).behindColon
  · exact (copyUntil_stays 128 0x0A fun icePwd => { session with icePwd := icePwd }).behindColon
  · refine StaysInText.behindColon (.value (g := fun p => { session with
      fingerprintType := (parseFingerprint p).1
      fingerprint := (parseFingerprint p).2.getD session.fingerprint }) fun p junk => ?_)
    rw [parseFingerprint_nul]
  · refine StaysInText.behindColon (.value (g := fun p => { session with
      candidates := ((parseCandidate p).bind session.candidates.push?).getD
        session.candidates }) fun p junk => ?_)
    rw [parseCandidate_nul]
  · exact (copyUntil_stays 16 0x0A fun dtlsSetup =>
      { session with dtlsSetup := dtlsSetup }).behindColon
  · exact (parseMid_stays session).behindColon
  · exact (parseRtpmap_stays session).behindColon

theorem parseAttribute_stays : StaysInText fun p => parseAttribute p session where
  nul p junk := by
    simp only [parseAttribute, copyUntil_nul, (parseNamedAttribute_stays session _).nul]
  suffix p := by
    simp only [parseAttribute]
    exact ((parseNamedAttribute_stays session _).suffix _).trans
      (copyUntil_suffix _ _ List.suffix_rfl)

theorem parseMedia_stays : StaysInText fun p => parseMedia p session := by
  unfold parseMedia
  refine .ite (.const _) ⟨fun p junk => ?_, fun p => ?_⟩
  · simp only [copyUntil_nul, strtol_nul]
    cases kindOfName (copyUntil 16 0x20 p).1.bytes with
    | none => rfl
    | some kind =>
        cases strtol (copyUntil 16 0x20 (copyUntil 16 0x20 (copyUntil 16 0x20 p).2).2).2 with
        | none => rfl
        | some scanned => rfl
  · have hproto := copyUntil_suffix 16 0x20 (copyUntil_suffix 16 0x20
      (copyUntil_suffix 16 0x20 (@List.suffix_rfl _ p)))
    dsimp only
    cases kindOfName (copyUntil 16 0x20 p).1.bytes with
    | none => exact hproto
    | some kind =>
        cases hnumber :
            strtol (copyUntil 16 0x20 (copyUntil 16 0x20 (copyUntil 16 0x20 p).2).2).2 with
        | none => exact hproto
        | some scanned => exact (strtol_suffix hnumber).trans hproto

/-- No line of the text leads the cursor out of it. -/
theorem parseField_stays (type : UInt8) :
    StaysInText fun p => parseField (Locals.ofText locals) type p session := by
  unfold parseField
  refine .ite ⟨fun p junk => ?_, fun p => findEol_suffix List.suffix_rfl⟩
    (.ite (parseOrigin_stays locals session) (.ite ?_ (.ite (parseTiming_stays session)
      (.ite (parseAttribute_stays session) (.ite (parseMedia_stays session) (.const _))))))
  · rw [findEol_nul, parseInt_nul]
  · exact copyUntil_stays 256 0x0A fun sessionName => { session with sessionName := sessionName }

end

end TinyRtc.SdpCursor
