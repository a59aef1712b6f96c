import TinyRtc.SdpBounds
import TinyRtc.SdpSections

namespace TinyRtc.SdpLineStarts

open Relation
open TinyRtc.Common
open TinyRtc.CString
open TinyRtc.Decimal
open TinyRtc.Sdp
open TinyRtc.SdpBounds
open TinyRtc.SdpCursor
open TinyRtc.SdpParser
open TinyRtc.SdpScanning
open TinyRtc.SdpSections

/-- A line feed, and behind it a text that no number begins. -/
structure IsLineStart (tail : List UInt8) : Prop where
  line_feed : tail.head? = some 0x0A
  no_number : ∃ c rest, tail.tail = c :: rest ∧ isSpace c = false ∧ isDigit c = false ∧
    c ≠ 0x2D ∧ c ≠ 0x2B

section

variable {tail p : List UInt8}

theorem IsLineStart.eq_cons (htail : IsLineStart tail) : ∃ rest, tail = 0x0A :: rest := by
  cases tail with
  | nil => cases htail.line_feed
  | cons c rest => exact ⟨rest, congrArg (· :: rest) (Option.some.inj htail.line_feed)⟩

theorem dropWhile_keeps (htail : IsLineStart tail) {q : UInt8 → Bool} (hq : q 0x0A = false)
    (h : tail <:+ p) : tail <:+ p.dropWhile q := by
  obtain ⟨before, rfl⟩ := h
  obtain ⟨rest, rfl⟩ := htail.eq_cons
  exact ⟨_, (dropWhile_append_cons hq before rest).symm⟩

theorem skipByte_keeps (htail : IsLineStart tail) {c : UInt8} (hc : c ≠ 0x0A)
    (h : tail <:+ p) : tail <:+ skipByte c p := by
  cases p with
  | nil => exact h
  | cons x rest =>
      rw [skipByte]
      split
      · next hx =>
        rcases List.suffix_cons_iff.mp h with rfl | h
        · have hfeed := htail.line_feed
          rw [List.head?_cons, Option.some_inj] at hfeed
          exact absurd (hx.symm.trans hfeed) hc
        · exact h
      · exact h

theorem copyLoop_keeps (htail : IsLineStart tail) (dstLen : Nat) (sep : UInt8)
    (dst : List UInt8) (h : tail <:+ p) : tail <:+ (copyLoop dstLen sep dst p).2 := by
  induction p generalizing dst with
  | nil => exact h
  | cons c rest ih =>
      rw [copyLoop]
      split
      · exact h
      · next hstop =>
        have hrest : tail <:+ rest := by
          rcases List.suffix_cons_iff.mp h with rfl | h
          · have hfeed := htail.line_feed
            rw [List.head?_cons, Option.some_inj] at hfeed
            exact absurd (.inl (by rw [hfeed]; rfl)) hstop
          · exact h
        split
        · exact ih _ hrest
        · exact ih _ hrest

theorem copyUntil_keeps (htail : IsLineStart tail) (cap : Nat) (sep : UInt8)
    (h : tail <:+ p) : tail <:+ (copyUntil cap sep p).2 :=
  copyLoop_keeps htail cap sep [] (dropWhile_keeps htail rfl h)

theorem afterSign_keeps (htail : IsLineStart tail) (h : tail <:+ p) :
    tail <:+ (afterSign p).2 := by
  cases p with
  | nil => exact h
  | cons c rest =>
      have hrest : c ≠ 0x0A → tail <:+ rest := by
        intro hc
        rcases List.suffix_cons_iff.mp h with rfl | h
        · have hfeed := htail.line_feed
          rw [List.head?_cons, Option.some_inj] at hfeed
          exact absurd hfeed hc
        · exact h
      rw [afterSign]
      split
      · next hminus => exact hrest (by rw [hminus]; decide)
      · split
        · next hplus => exact hrest (by rw [hplus]; decide)
        · exact h

theorem dropWhile_isSpace (htail : IsLineStart tail) (h : tail <:+ p) :
    tail <:+ p.dropWhile isSpace ∨ ∃ c rest, p.dropWhile isSpace = c :: rest ∧
      isDigit c = false ∧ c ≠ 0x2D ∧ c ≠ 0x2B := by
  obtain ⟨before, rfl⟩ := h
  obtain ⟨behind, rfl⟩ := htail.eq_cons
  obtain ⟨c, rest, hbehind, hspace, hdigit, hminus, hplus⟩ := htail.no_number
  rw [List.dropWhile_append]
  split
  · refine .inr ⟨c, rest, ?_, hdigit, hminus, hplus⟩
    rw [List.dropWhile_cons_of_pos rfl, List.tail_cons.symm.trans hbehind,
      List.dropWhile_cons_of_neg]
    rw [hspace]
    exact Bool.false_ne_true
  · exact .inl ⟨_, rfl⟩

/-- A number is not read from behind the line feed, nor the line feed stepped over. -/
theorem strtol_keeps (htail : IsLineStart tail) (h : tail <:+ p) {value : Int}
    {rest : List UInt8} (hnumber : strtol p = some (value, rest)) : tail <:+ rest := by
  obtain ⟨⟨negative, digits, rest'⟩, hscan, hvalue⟩ := Option.map_eq_some_iff.mp hnumber
  cases hvalue
  rw [scanNumber_eq] at hscan
  split at hscan
  · cases hscan
  · next hdigits =>
    cases hscan
    rcases dropWhile_isSpace htail h with hblank | ⟨c, rest, hbehind, hdigit, hminus, hplus⟩
    · exact dropWhile_keeps htail rfl (afterSign_keeps htail hblank)
    · refine absurd ?_ hdigits
      rw [hbehind, afterSign, if_neg hminus, if_neg hplus, List.takeWhile_cons_of_neg]
      rw [hdigit]
      exact Bool.false_ne_true

/-- A function that moves the cursor does not move it over the line feed. -/
def KeepsLineStart {σ : Type} (f : List UInt8 → List UInt8 × σ) : Prop :=
  ∀ tail p, IsLineStart tail → tail <:+ p → tail <:+ (f p).1

theorem KeepsLineStart.ite {σ : Type} {c : Prop} [Decidable c]
    {f g : List UInt8 → List UInt8 × σ} (hf : KeepsLineStart f) (hg : KeepsLineStart g) :
    KeepsLineStart fun p => if c then f p else g p :=
  holds_ite hf hg

theorem KeepsLineStart.stays {σ : Type} {g : List UInt8 → σ} : KeepsLineStart fun p => (p, g p) :=
  fun _ _ _ h => h

theorem KeepsLineStart.behindColon {σ : Type} {f : List UInt8 → List UInt8 × σ}
    (hf : KeepsLineStart f) : KeepsLineStart fun p => f (skipByte 0x3A p) :=
  fun _ _ htail h => hf _ _ htail (skipByte_keeps htail (by decide) h)

theorem copyUntil_keepsLineStart {σ : Type} (cap : Nat) (sep : UInt8) (g : CStr cap → σ) :
    KeepsLineStart fun p => ((copyUntil cap sep p).2, g (copyUntil cap sep p).1) :=
  fun _ _ htail h => copyUntil_keeps htail cap sep h

end

section

variable (locals : Locals) (session : SdpSession)

theorem parseOrigin_keeps : KeepsLineStart fun p => parseOrigin locals p session := by
  intro tail p htail h
  simp only [parseOrigin]
  exact copyUntil_keeps htail _ _ (copyUntil_keeps htail _ _ (copyUntil_keeps htail _ _
    (copyUntil_keeps htail _ _ (copyUntil_keeps htail _ _ (copyUntil_keeps htail _ _ h)))))

theorem parseTiming_keeps : KeepsLineStart fun p => parseTiming p session := by
  intro tail p htail h
  simp only [parseTiming]
  exact copyUntil_keeps htail _ _ (copyUntil_keeps htail _ _ h)

theorem parseRtpmap_keeps : KeepsLineStart fun p => parseRtpmap p session := by
  intro tail p htail h
  have hspace : (0x20 : UInt8) ≠ 0x0A := by decide
  have hslash : (0x2F : UInt8) ≠ 0x0A := by decide
  simp only [parseRtpmap]
  cases parseInt p with
  | none => exact h
  | some pt =>
      exact copyUntil_keeps htail _ _ (skipByte_keeps htail hslash (copyUntil_keeps htail _ _
        (skipByte_keeps htail hspace (dropWhile_keeps htail rfl h))))

theorem parseMid_keeps : KeepsLineStart fun p => parseMid p session :=
  fun _ _ htail h => copyUntil_keeps htail _ _ h

theorem parseNamedAttribute_keeps (attrName : List UInt8) :
    KeepsLineStart fun p => parseNamedAttribute attrName p session := by
  unfold parseNamedAttribute
  refine .ite ?_ (.ite ?_ (.ite ?_ (.ite (.ite ?_ .stays) (.ite ?_ (.ite (.ite ?_ .stays)
    (.ite ?_ .stays))))))
  · exact (copyUntil_keepsLineStart 64 0x0A fun iceUfrag =>
      { session with iceUfrag := iceUfrag }).behindColon
  · exact (copyUntil_keepsLineStart 128 0x0A fun icePwd =>
      { session with icePwd := icePwd }).behindColon
  · exact fun _ _ htail h => skipByte_keeps htail (by decide) h
  · exact fun _ _ htail h => skipByte_keeps htail (by decide) h
  · exact (copyUntil_keepsLineStart 16 0x0A fun dtlsSetup =>
      { session with dtlsSetup := dtlsSetup }).behindColon
  · exact (parseMid_keeps session).behindColon
  · exact (parseRtpmap_keeps session).behindColon

theorem parseAttribute_keeps : KeepsLineStart fun p => parseAttribute p session := by
  intro tail p htail h
  simp only [parseAttribute]
  exact parseNamedAttribute_keeps session _ tail _ htail (copyUntil_keeps htail _ _ h)

theorem parseMedia_keeps : KeepsLineStart fun p => parseMedia p session := by
  unfold parseMedia
  refine .ite .stays fun tail p htail h => ?_
  have hproto := copyUntil_keeps htail 16 0x20 (copyUntil_keeps htail 16 0x20
    (copyUntil_keeps htail 16 0x20 h))
  dsimp only
  cases kindOfName (copyUntil 16 0x20 p).1.bytes with
  | none => exact hproto
  | some kind =>
      cases hnumber :
          strtol (copyUntil 16 0x20 (copyUntil 16 0x20 (copyUntil 16 0x20 p).2).2).2 with
      | none => exact hproto
      | some scanned => exact strtol_keeps htail hproto hnumber

theorem parseField_keeps (type : UInt8) :
    KeepsLineStart fun p => parseField locals type p session := by
  unfold parseField
  refine .ite (fun tail p htail h => ?_) (.ite (parseOrigin_keeps locals session) (.ite ?_
    (.ite (parseTiming_keeps session) (.ite (parseAttribute_keeps session)
      (.ite (parseMedia_keeps session) .stays)))))
  · exact dropWhile_keeps htail rfl h
  · exact copyUntil_keepsLineStart 256 0x0A fun sessionName =>
      { session with sessionName := sessionName }

end

section

variable {tail p p' : List UInt8}

theorem IsLineStart.ne_of_cons {c : UInt8} {rest : List UInt8} (htail : IsLineStart tail)
    (hc : c ≠ 0x0A) (h : tail <:+ c :: rest) : tail <:+ rest := by
  rcases List.suffix_cons_iff.mp h with rfl | h
  · have hfeed := htail.line_feed
    rw [List.head?_cons, Option.some_inj] at hfeed
    exact absurd hfeed hc
  · exact h

/-- The second byte of a line end is stepped over. -/
theorem skipByte_lineStart (htail : IsLineStart tail) (h : tail <:+ p ∨ p = tail.tail) :
    tail <:+ skipByte 0x0A p ∨ skipByte 0x0A p = tail.tail := by
  rcases h with h | rfl
  · cases p with
    | nil => exact .inl h
    | cons x rest =>
        rw [skipByte]
        split
        · rcases List.suffix_cons_iff.mp h with rfl | h
          · exact .inr rfl
          · exact .inl h
        · exact .inl h
  · obtain ⟨c, rest, hbehind, hspace, -⟩ := htail.no_number
    rw [hbehind, skipByte, if_neg]
    · exact .inr rfl
    · rintro rfl
      cases hspace

theorem parseLine_keeps {locals : Locals} {type : UInt8} {session session' : SdpSession}
    (htail : IsLineStart tail) (h : tail <:+ p)
    (hline : parseLine locals type p session = some (p', session')) :
    tail <:+ p' ∨ p' = tail.tail := by
  have hstep : ∀ c rest, tail <:+ c :: rest → tail <:+ rest ∨ rest = tail.tail := by
    intro c rest hsuffix
    rcases List.suffix_cons_iff.mp hsuffix with rfl | hsuffix
    · exact .inr rfl
    · exact .inl hsuffix
  rw [parseLine] at hline
  split at hline
  · obtain ⟨next, hnext, heq⟩ := Option.map_eq_some_iff.mp hline
    cases heq
    have hend : tail <:+ findEol p := dropWhile_keeps htail rfl h
    cases hfind : findEol p with
    | nil =>
        rw [hfind] at hnext
        cases hnext
    | cons c rest =>
        rw [hfind] at hnext hend
        rw [advance] at hnext
        split at hnext
        · cases hnext
        · cases hnext
          exact hstep c _ hend
  · next hequals =>
    have hbody : tail <:+ p.tail := by
      cases p with
      | nil => exact h
      | cons c rest =>
          rw [List.head?_cons, not_not, Option.some_inj] at hequals
          exact htail.ne_of_cons (by rw [hequals]; decide) h
    have hend : tail <:+ findEol (parseField locals type p.tail session).1 :=
      dropWhile_keeps htail rfl (parseField_keeps locals session type tail _ htail hbody)
    dsimp only at hline
    split at hline
    · next hnil =>
      rw [hnil] at hend
      cases hline
      exact .inl hend
    · next c rest hcons =>
      rw [hcons] at hend
      split at hline
      · cases hline
        exact .inl (hcons ▸ hend)
      · cases hline
        exact skipByte_lineStart htail (hstep c rest hend)

theorem turn_keeps {locals : Locals} {s s' : List UInt8 × SdpSession} (htail : IsLineStart tail)
    (h : tail <:+ s.1) (hturn : LoopTurn locals s s') : tail <:+ s'.1 ∨ s'.1 = tail.tail := by
  cases hturn with
  | skip c rest session hnul heol =>
      rcases List.suffix_cons_iff.mp h with rfl | h
      · exact .inr rfl
      · exact .inl h
  | line c rest p session session' heol hline =>
      have hc : c ≠ 0x0A := by
        rintro rfl
        cases heol
      exact parseLine_keeps htail (htail.ne_of_cons hc h) hline

theorem applyEvent_length (items : List SdpMedia) (event : MediaEvent) :
    items.length ≤ (applyEvent items event).length := by
  cases event with
  | accepted media => exact (List.length_append ▸ Nat.le_add_right _ _)
  | skipped => exact Nat.le_refl _
  | mid value => exact Nat.le_of_eq (updateLast_length _ _).symm
  | rtpmap pt codecName clockRate channels => exact Nat.le_of_eq (updateFirst_length _ _ _).symm
  | other => exact Nat.le_refl _

/-- No turn takes a media away. -/
theorem count_le_of_turn {locals : Locals} {s s' : List UInt8 × SdpSession}
    (h : LoopTurn locals s s') : s.2.media.items.length ≤ s'.2.media.items.length := by
  cases h with
  | skip c rest session hnul heol => exact Nat.le_refl _
  | line c rest p session session' heol hline =>
      rw [parseLine_items hline]
      exact applyEvent_length _ _

theorem count_le_of_turns {locals : Locals} {s s' : List UInt8 × SdpSession}
    (h : LoopTurns locals s s') : s.2.media.items.length ≤ s'.2.media.items.length := by
  induction h with
  | refl => exact Nat.le_refl _
  | tail _ hturn ih => exact Nat.le_trans ih (count_le_of_turn hturn)

/-- The loop comes to what is behind the line feed. -/
theorem turns_to_lineStart (locals : Locals) (htail : IsLineStart tail) (h : tail <:+ p)
    (hnul : 0x00 ∉ p) (session : SdpSession) :
    ∃ session', LoopTurns (Locals.ofText locals) (p, session) (tail.tail, session') := by
  induction hlength : p.length using Nat.strong_induction_on generalizing p session with
  | _ n ih =>
      obtain ⟨behind, hfeeds⟩ := htail.eq_cons
      have hfeed : 0x0A ∈ p := h.subset (hfeeds ▸ List.mem_cons_self)
      cases p with
      | nil => cases hfeed
      | cons c rest =>
          have hopen : ¬ IsOpenInvalid (c :: rest) := fun hinvalid => by
            have hplain := hinvalid.no_eol _ hfeed
            cases hplain
          obtain ⟨⟨p', session'⟩, hturn⟩ := @exists_turn locals c rest hnul session hopen
          obtain ⟨-, hsuffix, hshorter⟩ := behindEol_of_turn hnul hturn
          rcases turn_keeps htail h hturn with hkept | hbehind
          · obtain ⟨last, hturns⟩ := ih p'.length (hlength ▸ hshorter) hkept
              (fun hmem => hnul (hsuffix.subset hmem)) session' rfl
            exact ⟨last, hturns.head hturn⟩
          · exact ⟨session', .single (hbehind ▸ hturn)⟩

end

end TinyRtc.SdpLineStarts
