import TinyRtc.AnswerMedia
import TinyRtc.SdpBounds

namespace TinyRtc.SdpOrigins

open TinyRtc.AnswerMedia
open TinyRtc.Common
open TinyRtc.Connection
open TinyRtc.CString
open TinyRtc.Dtls
open TinyRtc.Negotiation
open TinyRtc.SecureMedia
open TinyRtc.Sdp
open TinyRtc.SdpBounds
open TinyRtc.SdpCursor
open TinyRtc.SdpParser
open TinyRtc.SlotArray
open TinyRtc.Srtp

/-- The session id of an origin line, `p` behind the equals sign. `none` leaves the local as
it was. -/
def originId (p : List UInt8) : Option UInt64 :=
  let (_, p) := copyUntil 256 0x20 p
  let (idStr, _) := copyUntil 64 0x20 p
  parseUint64 idStr.bytes

def originVersion (p : List UInt8) : Option UInt64 :=
  let (_, p) := copyUntil 256 0x20 p
  let (_, p) := copyUntil 64 0x20 p
  let (verStr, _) := copyUntil 64 0x20 p
  parseUint64 verStr.bytes

/-- An origin line whose session id and version are numbers. -/
def HasNumbers (p : List UInt8) : Prop :=
  (originId p).isSome = true ∧ (originVersion p).isSome = true

instance : DecidablePred HasNumbers :=
  fun _ => inferInstanceAs (Decidable (_ ∧ _))

/-- The text behind the equals sign, when the line is an origin line. -/
def lineOrigin? (type : UInt8) (p : List UInt8) : Option (List UInt8) :=
  if p.head? = some 0x3D ∧ type = 0x6F then some p.tail else none

/-- The origin lines, one after the other, as the line loop comes to them. No locals have a
say in where it goes. -/
def sdpOrigins : (fuel : Nat) → (p : List UInt8) → SdpSession → List (List UInt8)
  | _, [], _ => []
  | 0, _ :: _, _ => []
  | fuel + 1, c :: rest, session =>
      if c = 0x00 then []
      else if isEol c then sdpOrigins fuel rest session
      else
        match parseLine zeroLocals c rest session with
        | none => []
        | some (p, session') => (lineOrigin? c rest).toList ++ sdpOrigins fuel p session'

def textOrigins (text : List UInt8) : List (List UInt8) :=
  sdpOrigins text.length text sdpSessionInit

/-- A session id and a version. -/
abbrev Numbers := UInt64 × UInt64

def withNumbers (numbers : Numbers) (session : SdpSession) : SdpSession :=
  { session with sessionId := numbers.1, sessionVersion := numbers.2 }

/-- The numbers that an origin line leaves in the session. -/
def lineNumbers (locals : Locals) (p : List UInt8) : Numbers :=
  ((originId p).getD (locals.sessId p), (originVersion p).getD (locals.sessVer p))

/-- The numbers after some origin lines: those of the last one. -/
def numbersAfter (locals : Locals) (origins : List (List UInt8)) (numbers : Numbers) : Numbers :=
  (origins.getLast?.map (lineNumbers locals)).getD numbers

section

variable {locals : Locals} {p : List UInt8}

theorem lineNumbers_of_hasNumbers (h : HasNumbers p) (locals locals' : Locals) :
    lineNumbers locals p = lineNumbers locals' p := by
  obtain ⟨id, hid⟩ := Option.isSome_iff_exists.mp h.1
  obtain ⟨version, hversion⟩ := Option.isSome_iff_exists.mp h.2
  rw [lineNumbers, lineNumbers, hid, hversion]
  rfl

/-- A number that cannot be read is whatever the local held. -/
theorem hasNumbers_of_lineNumbers
    (h : ∀ locals locals', lineNumbers locals p = lineNumbers locals' p) : HasNumbers p := by
  have hdiffer := h ⟨fun _ => 0, fun _ => 0⟩ ⟨fun _ => 1, fun _ => 1⟩
  rw [lineNumbers, lineNumbers, Prod.mk.injEq] at hdiffer
  constructor
  · cases hid : originId p with
    | some id => rfl
    | none =>
        rw [hid] at hdiffer
        have hlocals : (0 : UInt64) = 1 := hdiffer.1
        cases hlocals
  · cases hversion : originVersion p with
    | some version => rfl
    | none =>
        rw [hversion] at hdiffer
        have hlocals : (0 : UInt64) = 1 := hdiffer.2
        cases hlocals

theorem numbers_eq_of_withNumbers {numbers numbers' : Numbers} {session : SdpSession}
    (h : withNumbers numbers session = withNumbers numbers' session) : numbers = numbers' :=
  Prod.ext (congrArg SdpSession.sessionId h) (congrArg SdpSession.sessionVersion h)

theorem numbersAfter_singleton (numbers : Numbers) :
    numbersAfter locals [p] numbers = lineNumbers locals p := rfl

theorem numbersAfter_append (origins origins' : List (List UInt8)) (numbers : Numbers) :
    numbersAfter locals (origins ++ origins') numbers =
      numbersAfter locals origins' (numbersAfter locals origins numbers) := by
  rw [numbersAfter, numbersAfter, numbersAfter, List.getLast?_append]
  cases origins'.getLast? with
  | none => rfl
  | some p => rfl

end

/-- The numbers of the session are carried along untouched. -/
def CarriesNumbers (f : SdpSession → List UInt8 × SdpSession) : Prop :=
  ∀ numbers session,
    f (withNumbers numbers session) = ((f session).1, withNumbers numbers (f session).2)

section

variable (locals : Locals) (p : List UInt8)

theorem parseOrigin_withNumbers (numbers : Numbers) (session : SdpSession) :
    parseOrigin locals p (withNumbers numbers session) =
      ((parseOrigin zeroLocals p session).1,
        withNumbers (lineNumbers locals p) (parseOrigin zeroLocals p session).2) := by
  simp only [parseOrigin, withNumbers, lineNumbers, originId, originVersion]

theorem parseTiming_carries : CarriesNumbers (parseTiming p) :=
  fun _ _ => rfl

theorem parseRtpmap_carries : CarriesNumbers (parseRtpmap p) := by
  intro numbers session
  rw [parseRtpmap, parseRtpmap]
  cases parseInt p with
  | none => rfl
  | some pt => rfl

theorem parseMid_carries : CarriesNumbers (parseMid p) :=
  fun _ _ => rfl

theorem CarriesNumbers.ite {c : SdpSession → Prop} [DecidablePred c]
    {f g : SdpSession → List UInt8 × SdpSession} (hf : CarriesNumbers f) (hg : CarriesNumbers g)
    (hc : ∀ numbers session, c (withNumbers numbers session) ↔ c session) :
    CarriesNumbers fun session => if c session then f session else g session := by
  intro numbers session
  dsimp only
  by_cases hsession : c session
  · rw [if_pos hsession, if_pos ((hc numbers session).mpr hsession), hf]
  · rw [if_neg hsession, if_neg (mt (hc numbers session).mp hsession), hg]

theorem CarriesNumbers.iteConst {c : Prop} [Decidable c]
    {f g : SdpSession → List UInt8 × SdpSession} (hf : CarriesNumbers f)
    (hg : CarriesNumbers g) :
    CarriesNumbers fun session => if c then f session else g session :=
  holds_ite hf hg

theorem CarriesNumbers.stays : CarriesNumbers fun session => (p, session) :=
  fun _ _ => rfl

theorem parseNamedAttribute_carries (attrName : List UInt8) :
    CarriesNumbers (parseNamedAttribute attrName p) := by
  unfold parseNamedAttribute
  refine .iteConst ?_ (.iteConst ?_ (.iteConst ?_ (.iteConst (.ite ?_ (.stays p) ?_) (.iteConst ?_
    (.iteConst (.ite ?_ (.stays p) ?_) (.iteConst ?_ (.stays p)))))))
  · exact fun _ _ => rfl
  · exact fun _ _ => rfl
  · exact fun _ _ => rfl
  · exact fun _ _ => rfl
  · exact fun _ _ => Iff.rfl
  · exact fun _ _ => rfl
  · exact parseMid_carries _
  · exact fun _ _ => Iff.rfl
  · exact parseRtpmap_carries _

theorem parseAttribute_carries : CarriesNumbers (parseAttribute p) :=
  fun numbers session => parseNamedAttribute_carries _ _ numbers session

theorem parseMedia_carries : CarriesNumbers (parseMedia p) := by
  unfold parseMedia
  refine .ite (.stays p) (fun numbers session => ?_) fun _ _ => Iff.rfl
  dsimp only
  cases kindOfName (copyUntil 16 0x20 p).1.bytes with
  | none => rfl
  | some kind => rfl

theorem parseField_carries {type : UInt8} (htype : type ≠ 0x6F) :
    CarriesNumbers (parseField locals type p) := by
  unfold parseField
  simp only [if_neg htype]
  refine .iteConst ?_ (.iteConst ?_ (.iteConst (parseTiming_carries p)
    (.iteConst (parseAttribute_carries p) (.iteConst (parseMedia_carries p) (.stays p)))))
  · exact fun _ _ => rfl
  · exact fun _ _ => rfl

theorem parseField_origin (session : SdpSession) :
    parseField locals 0x6F p session = parseOrigin locals p session := by
  rw [parseField, if_neg (by decide), if_pos rfl]

theorem parseField_zeroLocals {type : UInt8} (htype : type ≠ 0x6F) (session : SdpSession) :
    parseField locals type p session = parseField zeroLocals type p session := by
  rw [parseField, parseField, if_neg htype, if_neg htype]

/-- A line does the same whatever is in the locals, but for the numbers of an origin line. -/
theorem parseLine_withNumbers (type : UInt8) (numbers : Numbers) (session : SdpSession) :
    parseLine locals type p (withNumbers numbers session) =
      (parseLine zeroLocals type p session).map fun next =>
        (next.1, withNumbers (numbersAfter locals (lineOrigin? type p).toList numbers) next.2) := by
  rw [parseLine, parseLine, lineOrigin?]
  by_cases hequals : p.head? = some 0x3D
  · have hfield : parseField locals type p.tail (withNumbers numbers session) =
        ((parseField zeroLocals type p.tail session).1,
          withNumbers (numbersAfter locals
            (if p.head? = some 0x3D ∧ type = 0x6F then some p.tail else none).toList numbers)
            (parseField zeroLocals type p.tail session).2) := by
      by_cases htype : type = 0x6F
      · rw [if_pos ⟨hequals, htype⟩, htype, parseField_origin, parseField_origin,
          parseOrigin_withNumbers, Option.toList_some, numbersAfter_singleton]
      · rw [if_neg fun h => htype h.2, ← parseField_zeroLocals locals p.tail htype]
        exact parseField_carries locals p.tail htype numbers session
    rw [if_neg (not_not.mpr hequals), if_neg (not_not.mpr hequals), hfield]
    dsimp only
    cases findEol (parseField zeroLocals type p.tail session).1 with
    | nil => rfl
    | cons c rest =>
        dsimp only
        split
        · rfl
        · rfl
  · rw [if_pos hequals, if_pos hequals, if_neg fun h => hequals h.1]
    cases advance (findEol p) with
    | none => rfl
    | some next => rfl

end

/-- The locals are in what the loop leaves only as far as the numbers of the last origin line
are theirs. -/
theorem sdpParseLoop_withNumbers (locals : Locals) (fuel : Nat) (p : List UInt8)
    (numbers : Numbers) (session : SdpSession) :
    sdpParseLoop locals fuel p (withNumbers numbers session) =
      (sdpParseLoop zeroLocals fuel p session).map
        (withNumbers (numbersAfter locals (sdpOrigins fuel p session) numbers)) := by
  induction fuel generalizing p numbers session with
  | zero =>
      cases p with
      | nil => rfl
      | cons c rest => rfl
  | succ fuel ih =>
      cases p with
      | nil => rfl
      | cons c rest =>
          rw [sdpParseLoop, sdpParseLoop, sdpOrigins]
          by_cases hnul : c = 0x00
          · rw [if_pos hnul, if_pos hnul, if_pos hnul]
            rfl
          · rw [if_neg hnul, if_neg hnul, if_neg hnul]
            by_cases heol : isEol c = true
            · rw [if_pos heol, if_pos heol, if_pos heol]
              exact ih rest numbers session
            · rw [if_neg heol, if_neg heol, if_neg heol, parseLine_withNumbers]
              cases parseLine zeroLocals c rest session with
              | none => rfl
              | some next =>
                  dsimp only [Option.map_some]
                  rw [ih, numbersAfter_append]

theorem sdpParse_eq_map (locals : Locals) (text : List UInt8) :
    sdpParse locals text = (sdpParse zeroLocals text).map fun result =>
      (result.1, withNumbers (numbersAfter locals (textOrigins text) (0, 0)) result.2) := by
  have hinit : sdpSessionInit = withNumbers (0, 0) sdpSessionInit := rfl
  rw [sdpParse, sdpParse]
  nth_rewrite 1 [hinit]
  rw [sdpParseLoop_withNumbers, Option.map_map, Option.map_map]
  rfl

/-- An origin line that the loop comes to begins the text, or stands behind a line end. -/
theorem mem_sdpOrigins {fuel : Nat} {p origin : List UInt8} {session : SdpSession}
    (hp : 0x00 ∉ p) (h : origin ∈ sdpOrigins fuel p session) :
    0x6F :: 0x3D :: origin = p ∨ BehindEol p (0x6F :: 0x3D :: origin) := by
  induction fuel generalizing p session with
  | zero =>
      cases p with
      | nil => cases h
      | cons c rest => cases h
  | succ fuel ih =>
      cases p with
      | nil => cases h
      | cons c rest =>
          have hrest : 0x00 ∉ rest := fun hmem => hp (List.mem_cons_of_mem c hmem)
          rw [sdpOrigins] at h
          split at h
          · cases h
          · split at h
            · next heol =>
              have hbehind : BehindEol (c :: rest) rest := .inr ⟨[], c, heol, rfl⟩
              exact .inr (hbehind.trans (ih hrest h))
            · split at h
              · cases h
              · next next session' hline =>
                rcases List.mem_append.mp h with hfirst | hlater
                · rw [lineOrigin?] at hfirst
                  split at hfirst
                  · next horigin =>
                    left
                    rw [Option.toList_some, List.mem_singleton] at hfirst
                    rw [hfirst, horigin.2, List.cons_head?_tail horigin.1]
                  · cases hfirst
                · have hbehind :=
                    @behindEol_of_parseLine zeroLocals c rest next session session' hrest hline
                  have hnext : 0x00 ∉ next := fun hmem => hrest (hbehind.suffix.subset hmem)
                  exact .inr ((hbehind.trans (ih hnext hlater)).of_suffix (List.suffix_cons c rest))

/-- Every line of the text has its line end. -/
structure LinesTerminated (text : List UInt8) : Prop where
  no_nul : 0x00 ∉ text
  ends : ∀ c ∈ text.getLast?, isEol c = true

theorem LinesTerminated.of_suffix {p text : List UInt8} (h : LinesTerminated text)
    (hp : p <:+ text) : LinesTerminated p where
  no_nul hmem := h.no_nul (hp.subset hmem)
  ends c hc := by
    obtain ⟨before, rfl⟩ := hp
    apply h.ends
    rw [List.getLast?_append, Option.mem_def.mp hc]
    rfl

/-- No line of the text leads out of it. -/
theorem LinesTerminated.sdpParseLoop_isSome {p : List UInt8} (h : LinesTerminated p) (fuel : Nat)
    (session : SdpSession) : (sdpParseLoop zeroLocals fuel p session).isSome = true := by
  induction fuel generalizing p session with
  | zero =>
      cases p with
      | nil => rfl
      | cons c rest => rfl
  | succ fuel ih =>
      cases p with
      | nil => rfl
      | cons c rest =>
          have hrest := h.of_suffix (List.suffix_cons c rest)
          rw [sdpParseLoop]
          split
          · rfl
          · split
            · exact ih hrest session
            · next heol =>
              cases hline : parseLine zeroLocals c rest session with
              | some next =>
                  have hbehind := @behindEol_of_parseLine zeroLocals c rest next.1 session next.2
                    hrest.no_nul hline
                  exact ih (hrest.of_suffix hbehind.suffix) next.2
              | none =>
                  -- The last byte of an open line is not a line end.
                  obtain ⟨hopen, -⟩ :=
                    (@parseLine_eq_none_iff zeroLocals c rest session hrest.no_nul).mp hline
                  obtain ⟨last, hlast⟩ : ∃ last, (c :: rest).getLast? = some last :=
                    ⟨_, List.getLast?_eq_some_getLast (List.cons_ne_nil c rest)⟩
                  have heol' := h.ends last hlast
                  rcases List.mem_cons.mp (List.mem_of_getLast? hlast) with hc | hmem
                  · exact absurd (hc ▸ heol') heol
                  · rw [hopen last hmem] at heol'
                    cases heol'

theorem LinesTerminated.sdpParse_isSome {text : List UInt8} (h : LinesTerminated text) :
    ∃ err session, sdpParse zeroLocals text = some (err, session) := by
  obtain ⟨session, hloop⟩ :=
    Option.isSome_iff_exists.mp (h.sdpParseLoop_isSome text.length sdpSessionInit)
  exact ⟨_, session, by rw [sdpParse, hloop]; rfl⟩

/-- The session id and the version in the answer that a connection makes to a remote text. -/
def answerNumbers (locals : Locals) (trackOk : Nat → Bool) (crypto : Crypto)
    (env : DescriptionEnv) (pc : PeerConnection) (text : List UInt8) : Option Numbers :=
  (tinyrtcPeerConnectionSetRemoteDescription locals trackOk pc text).bind fun described =>
    (tinyrtcPeerConnectionCreateAnswer crypto env described.2.1).map fun answered =>
      (answered.2.1.localSdp.sessionId, answered.2.1.localSdp.sessionVersion)

/-- What the locals hold when a line declares them makes no difference to what the parser
returns, and none to an answer. -/
structure IgnoresLocals (text : List UInt8) : Prop where
  parsed : ∀ locals locals', sdpParse locals text = sdpParse locals' text
  answered : ∀ locals locals' trackOk crypto env pc,
    answerNumbers locals trackOk crypto env pc text =
      answerNumbers locals' trackOk crypto env pc text

theorem ignoresLocals_of_parsed {text : List UInt8}
    (h : ∀ locals locals', sdpParse locals text = sdpParse locals' text) : IgnoresLocals text where
  parsed := h
  answered := by
    intro locals locals' trackOk crypto env pc
    rw [answerNumbers, answerNumbers, tinyrtcPeerConnectionSetRemoteDescription,
      tinyrtcPeerConnectionSetRemoteDescription, h locals locals']

/-- Numbers that can be read leave nothing to the locals. -/
theorem sdpParse_congr {text : List UInt8}
    (h : ∀ p, (textOrigins text).getLast? = some p → HasNumbers p) (locals locals' : Locals) :
    sdpParse locals text = sdpParse locals' text := by
  rw [sdpParse_eq_map locals, sdpParse_eq_map locals', numbersAfter, numbersAfter]
  cases hlast : (textOrigins text).getLast? with
  | none => rfl
  | some p =>
      rw [Option.map_some, Option.map_some, lineNumbers_of_hasNumbers (h p hlast) locals locals']

/-- The locals make no difference exactly when the last origin line that the parser comes to,
if there is one, has a number for the session id and one for the version. -/
theorem ignoresLocals_iff {text : List UInt8} (htext : LinesTerminated text) :
    IgnoresLocals text ↔ ∀ p, (textOrigins text).getLast? = some p → HasNumbers p := by
  constructor
  · intro hignores p hlast
    apply hasNumbers_of_lineNumbers
    intro locals locals'
    obtain ⟨err, session, hparse⟩ := htext.sdpParse_isSome
    have hafter : ∀ locals, numbersAfter locals (textOrigins text) (0, 0) = lineNumbers locals p :=
      fun locals => by rw [numbersAfter, hlast, Option.map_some, Option.getD_some]
    have hsame := hignores.parsed locals locals'
    rw [sdpParse_eq_map locals, sdpParse_eq_map locals', hparse, hafter, hafter] at hsame
    exact numbers_eq_of_withNumbers (congrArg Prod.snd (Option.some.inj hsame))
  · intro hnumbers
    exact ignoresLocals_of_parsed (sdpParse_congr hnumbers)

/-- Of two origin lines the last one counts. -/
theorem ignoresLocals_numbered :
    IgnoresLocals (ascii "v=0\r\no=- x y IN IP4 0\r\no=- 1 2 IN IP4 0\r\n") := by
  refine (ignoresLocals_iff ⟨by decide +kernel, by decide +kernel⟩).mpr fun p hlast => ?_
  have horigins : (textOrigins
      (ascii "v=0\r\no=- x y IN IP4 0\r\no=- 1 2 IN IP4 0\r\n")).getLast?.all
        (fun p => decide (HasNumbers p)) = true := by
    decide +kernel
  rw [hlast, Option.all_some, decide_eq_true_eq] at horigins
  exact horigins

/-- An offer whose session id and version are no numbers. -/
def leakyOffer : List UInt8 :=
  ascii "v=0\r\no=- x y IN IP4 0\r\n"

/-- What a new connection answers to the offer, with the given locals. -/
def leakyAnswer (locals : Locals) : Option Numbers :=
  answerNumbers locals (fun _ => true) toyCrypto sampleDescriptionEnv
    (tinyrtcPeerConnectionCreate sampleConfig) leakyOffer

/-- The parser accepts the offer, and what happens to be in the locals goes out in the
answer. -/
theorem ignoresLocals_fails :
    LinesTerminated leakyOffer ∧ ¬ IgnoresLocals leakyOffer ∧
      (sdpParse zeroLocals leakyOffer).map Prod.fst = some .ok ∧
      leakyAnswer ⟨fun _ => 5, fun _ => 8⟩ = some (5, 9) ∧
      leakyAnswer ⟨fun _ => 6, fun _ => 8⟩ = some (6, 9) := by
  have hfive : leakyAnswer ⟨fun _ => 5, fun _ => 8⟩ = some (5, 9) := by decide +kernel
  have hsix : leakyAnswer ⟨fun _ => 6, fun _ => 8⟩ = some (6, 9) := by decide +kernel
  refine ⟨⟨by decide +kernel, by decide +kernel⟩, fun hignores => ?_, by decide +kernel, hfive,
    hsix⟩
  have hsame : leakyAnswer ⟨fun _ => 5, fun _ => 8⟩ = leakyAnswer ⟨fun _ => 6, fun _ => 8⟩ :=
    hignores.answered _ _ _ _ _ _
  rw [hfive, hsix] at hsame
  exact absurd hsame (by decide)

end TinyRtc.SdpOrigins
