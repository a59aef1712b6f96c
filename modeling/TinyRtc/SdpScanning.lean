import TinyRtc.LabelledRuns
import TinyRtc.SdpGenerator
import TinyRtc.SdpParser

namespace TinyRtc.SdpScanning

open TinyRtc.CString
open TinyRtc.Decimal
open TinyRtc.LabelledRuns
open TinyRtc.Sdp
open TinyRtc.SdpGenerator
open TinyRtc.SdpParser

def NoEol (text : List UInt8) : Prop :=
  ∀ c ∈ text, isEol c = false

theorem noEol_of_all {text : List UInt8} (h : text.all (fun c => !isEol c) = true) :
    NoEol text := by
  simpa [NoEol] using h

theorem noEol_nil : NoEol [] :=
  fun _ h => absurd h List.not_mem_nil

theorem noEol_cons_iff {c : UInt8} {text : List UInt8} :
    NoEol (c :: text) ↔ isEol c = false ∧ NoEol text :=
  List.forall_mem_cons

theorem noEol_append_iff {first second : List UInt8} :
    NoEol (first ++ second) ↔ NoEol first ∧ NoEol second :=
  List.forall_mem_append

/-- A text that can stand in a line, without blanks around it. -/
structure LineText (text : List UInt8) : Prop where
  no_eol : NoEol text
  head_not_blank : ∀ c ∈ text.head?, c ≠ 0x20 ∧ c ≠ 0x09
  last_not_space : ∀ c ∈ text.getLast?, c ≠ 0x20

/-- A nonempty text without spaces, as stands between the spaces of a line. -/
structure Token (text : List UInt8) : Prop extends LineText text where
  no_space : 0x20 ∉ text
  ne_nil : text ≠ []

def isLineText (text : List UInt8) : Bool :=
  text.all (fun c => !isEol c) && text.head?.all (fun c => c != 0x20 && c != 0x09) &&
    text.getLast?.all (· != 0x20)

theorem lineText_of_isLineText {text : List UInt8} (h : isLineText text = true) :
    LineText text := by
  simp only [isLineText, Bool.and_eq_true, Option.all_eq_true, bne_iff_ne] at h
  obtain ⟨⟨heol, hhead⟩, hlast⟩ := h
  exact ⟨noEol_of_all heol, fun c hc => hhead c hc, fun c hc => hlast c hc⟩

def isToken (text : List UInt8) : Bool :=
  isLineText text && text.all (· != 0x20) && text != []

theorem token_of_isToken {text : List UInt8} (h : isToken text = true) : Token text := by
  simp only [isToken, Bool.and_eq_true, List.all_eq_true, bne_iff_ne] at h
  obtain ⟨⟨htext, hspace⟩, hne⟩ := h
  exact ⟨lineText_of_isLineText htext, fun hmem => hspace _ hmem rfl, hne⟩

theorem isEol_digit : ∀ c : UInt8, isDigit c = true → isEol c = false ∧ c ≠ 0x09 := by
  decide +kernel

theorem token_decimal (n : Nat) : Token (decimal n) where
  no_eol := fun c hc => (isEol_digit c (decimal_isDigit n c hc)).1
  head_not_blank := fun c hc =>
    have hdigit := decimal_isDigit n c (List.mem_of_mem_head? hc)
    ⟨(digit_not_space_sign c hdigit).2.2.2.1, (isEol_digit c hdigit).2⟩
  last_not_space := fun c hc =>
    (digit_not_space_sign c (decimal_isDigit n c (List.mem_of_getLast? hc))).2.2.2.1
  no_space := fun h => (digit_not_space_sign _ (decimal_isDigit n _ h)).2.2.2.1 rfl
  ne_nil := decimal_ne_nil n

theorem token_decimalInt (n : Int) : Token (decimalInt n) := by
  rw [decimalInt]
  split
  · have hdec := token_decimal n.natAbs
    constructor
    · constructor
      · intro c hc
        rcases List.mem_cons.mp hc with rfl | hc
        · rfl
        · exact hdec.no_eol c hc
      · intro c hc
        rw [List.head?_cons, Option.mem_some_iff] at hc
        subst hc
        decide
      · intro c hc
        rw [List.getLast?_cons_of_ne_nil hdec.ne_nil] at hc
        exact hdec.last_not_space c hc
    · intro h
      rcases List.mem_cons.mp h with h | h
      · cases h
      · exact hdec.no_space h
    · exact List.cons_ne_nil _ _
  · exact token_decimal _

/-- Where the copying loop stops: at a separator, or where the line ends. -/
def StopsAt (sep : UInt8) (rest : List UInt8) : Prop :=
  ∀ c ∈ rest.head?, isEol c = true ∨ c = sep

theorem stopsAt_cons {sep stop : UInt8} (hstop : isEol stop ∨ stop = sep) (rest : List UInt8) :
    StopsAt sep (stop :: rest) := by
  rintro c hc
  cases hc
  exact hstop

theorem copyLoop_stopsAt {dstLen : Nat} {sep : UInt8} {rest : List UInt8} (h : StopsAt sep rest)
    (dst : List UInt8) : copyLoop dstLen sep dst rest = (dst, rest) := by
  cases rest with
  | nil => rfl
  | cons stop rest => rw [copyLoop, if_pos (h stop rfl)]

/-- The copying loop copies what fits. -/
theorem copyLoop_append {dstLen : Nat} {sep : UInt8} {dst text : List UInt8} (p : List UInt8)
    (hplain : ∀ c ∈ text, isEol c = false ∧ c ≠ sep)
    (hroom : dst.length + text.length ≤ dstLen - 1)
    (hhead : dst = [] → ∀ c ∈ text.head?, c ≠ 0x20) :
    copyLoop dstLen sep dst (text ++ p) = copyLoop dstLen sep (dst ++ text) p := by
  induction text generalizing dst with
  | nil => rw [List.nil_append, List.append_nil]
  | cons c text ih =>
      obtain ⟨heol, hsep⟩ := hplain c List.mem_cons_self
      have hnot : ¬ (isEol c = true ∨ c = sep) := by simp [heol, hsep]
      have hcopy : (c ≠ 0x20 ∨ 0 < dst.length) ∧ dst.length < dstLen - 1 := by
        rw [List.length_cons] at hroom
        refine ⟨?_, by omega⟩
        cases dst with
        | nil => exact Or.inl (hhead rfl c rfl)
        | cons d dst => exact Or.inr (Nat.succ_pos _)
      rw [List.cons_append, copyLoop, if_neg hnot, if_pos hcopy,
        ih (fun c' hc' => hplain c' (List.mem_cons_of_mem _ hc'))
          (by rw [List.length_append, List.length_singleton]; rw [List.length_cons] at hroom; omega)
          (fun h => absurd h (by simp)),
        List.append_assoc, List.singleton_append]

/-- It goes over the rest. -/
theorem copyLoop_full {dstLen : Nat} {sep : UInt8} {dst text : List UInt8} (p : List UInt8)
    (hplain : ∀ c ∈ text, isEol c = false ∧ c ≠ sep) (hfull : dstLen - 1 ≤ dst.length) :
    copyLoop dstLen sep dst (text ++ p) = copyLoop dstLen sep dst p := by
  induction text with
  | nil => rfl
  | cons c text ih =>
      obtain ⟨heol, hsep⟩ := hplain c List.mem_cons_self
      have hnot : ¬ (isEol c = true ∨ c = sep) := by simp [heol, hsep]
      rw [List.cons_append, copyLoop, if_neg hnot, if_neg fun hcopy => by omega,
        ih fun c' hc' => hplain c' (List.mem_cons_of_mem _ hc')]

/-- A text that is too long is cut off. -/
theorem copyLoop_take {dstLen : Nat} {sep : UInt8} {text rest : List UInt8}
    (hplain : ∀ c ∈ text, isEol c = false ∧ c ≠ sep) (hhead : ∀ c ∈ text.head?, c ≠ 0x20)
    (hrest : StopsAt sep rest) :
    copyLoop dstLen sep [] (text ++ rest) = (text.take (dstLen - 1), rest) := by
  have htake : copyLoop dstLen sep [] (text.take (dstLen - 1) ++ (text.drop (dstLen - 1) ++ rest)) =
      copyLoop dstLen sep (text.take (dstLen - 1)) (text.drop (dstLen - 1) ++ rest) := by
    refine copyLoop_append _ (fun c hc => hplain c (List.mem_of_mem_take hc)) ?_ fun _ c hc => ?_
    · rw [List.length_nil, Nat.zero_add]
      exact List.length_take_le _ _
    · rw [List.head?_take] at hc
      split at hc
      · cases hc
      · exact hhead c hc
  rw [← List.append_assoc, List.take_append_drop] at htake
  rw [htake]
  by_cases hlong : dstLen - 1 ≤ text.length
  · rw [copyLoop_full _ (fun c hc => hplain c (List.mem_of_mem_drop hc)), copyLoop_stopsAt hrest]
    rw [List.length_take]
    omega
  · rw [List.drop_eq_nil_of_le (by omega), List.nil_append, copyLoop_stopsAt hrest]

theorem skipWhitespace_append {text : List UInt8} (htext : LineText text) {rest : List UInt8}
    (hrest : text ≠ [] ∨ ∀ c ∈ rest.head?, c ≠ 0x20 ∧ c ≠ 0x09) :
    skipWhitespace (text ++ rest) = text ++ rest := by
  have hhead : ∀ c ∈ (text ++ rest).head?, c ≠ 0x20 ∧ c ≠ 0x09 := by
    intro c hc
    cases text with
    | nil => exact hrest.resolve_left (fun hne => hne rfl) c hc
    | cons d text => exact htext.head_not_blank c hc
  cases hwhole : text ++ rest with
  | nil => rfl
  | cons c whole =>
      obtain ⟨hspace, htab⟩ := hhead c (by rw [hwhole]; rfl)
      simp [skipWhitespace, hspace, htab]

theorem skipWhitespace_text {text : List UInt8} (htext : LineText text) {stop : UInt8}
    (hstop : text ≠ [] ∨ (stop ≠ 0x20 ∧ stop ≠ 0x09)) (rest : List UInt8) :
    skipWhitespace (text ++ stop :: rest) = text ++ stop :: rest := by
  refine skipWhitespace_append htext (hstop.imp_right fun hstop c hc => ?_)
  cases hc
  exact hstop

theorem copyUntil_stopsAt (cap : Nat) {sep : UInt8} {text rest : List UInt8}
    (htext : LineText text) (hsep : sep ∉ text) (hfits : text.length ≤ cap - 1)
    (hrest : StopsAt sep rest) (hblank : text ≠ [] ∨ ∀ c ∈ rest.head?, c ≠ 0x20 ∧ c ≠ 0x09) :
    (copyUntil cap sep (text ++ rest)).1.bytes = text ∧
      (copyUntil cap sep (text ++ rest)).2 = rest := by
  have hloop : copyLoop cap sep [] (skipWhitespace (text ++ rest)) = (text, rest) := by
    rw [skipWhitespace_append htext hblank, copyLoop_append, copyLoop_stopsAt hrest,
      List.nil_append]
    · exact fun c hc => ⟨htext.no_eol c hc, fun h => hsep (h ▸ hc)⟩
    · rw [List.length_nil]
      omega
    · exact fun _ c hc => (htext.head_not_blank c hc).1
  refine ⟨?_, congrArg Prod.snd hloop⟩
  change (copyLoop cap sep [] (skipWhitespace (text ++ rest))).1.rdropWhile _ = text
  rw [hloop, List.rdropWhile_eq_self_iff]
  intro hne
  have hlast := htext.last_not_space _ (List.getLast?_eq_some_getLast hne)
  simpa using hlast

theorem copyUntil_text (cap : Nat) (sep stop : UInt8) {text : List UInt8}
    (htext : LineText text) (hsep : sep ∉ text) (hfits : text.length ≤ cap - 1)
    (hstop : isEol stop ∨ stop = sep) (hblank : text ≠ [] ∨ (stop ≠ 0x20 ∧ stop ≠ 0x09))
    (rest : List UInt8) :
    (copyUntil cap sep (text ++ stop :: rest)).1.bytes = text ∧
      (copyUntil cap sep (text ++ stop :: rest)).2 = stop :: rest := by
  refine copyUntil_stopsAt cap htext hsep hfits (stopsAt_cons hstop rest)
    (hblank.imp_right fun hstop c hc => ?_)
  cases hc
  exact hstop

theorem copyUntil_cstr {cap : Nat} {sep stop : UInt8} {s : CStr cap}
    (htext : LineText s.bytes) (hsep : sep ∉ s.bytes) (hstop : isEol stop ∨ stop = sep)
    (hblank : s.bytes ≠ [] ∨ (stop ≠ 0x20 ∧ stop ≠ 0x09)) (rest : List UInt8) :
    copyUntil cap sep (s.bytes ++ stop :: rest) = (s, stop :: rest) := by
  obtain ⟨hbytes, hrest⟩ := copyUntil_text cap sep stop htext hsep s.length_le hstop hblank rest
  exact Prod.ext (CStr.ext hbytes) hrest

theorem skipWhitespace_space (p : List UInt8) : skipWhitespace (0x20 :: p) = skipWhitespace p := by
  simp [skipWhitespace]

theorem copyUntil_space (cap : Nat) (sep : UInt8) (p : List UInt8) :
    copyUntil cap sep (0x20 :: p) = copyUntil cap sep p := by
  simp only [copyUntil, skipWhitespace_space]

theorem endsNumber_cons {text : List UInt8} {stop : UInt8} (hstop : isDigit stop = false) :
    EndsNumber (stop :: text) := by
  intro c hc
  rw [List.head?_cons, Option.mem_some_iff] at hc
  exact hc ▸ hstop

theorem findEol_append {text : List UInt8} (htext : NoEol text) {stop : UInt8}
    (hstop : isEol stop = true) (rest : List UInt8) :
    findEol (text ++ stop :: rest) = stop :: rest :=
  dropWhile_append_stop (p := fun c => !isEol c) (fun c hc => by simp [htext c hc])
    (by simp [hstop])

theorem parseField_media (locals : Locals) : parseField locals 0x6D = parseMedia := rfl

theorem parseField_attribute (locals : Locals) : parseField locals 0x61 = parseAttribute := rfl

/-- A line turns one session into another: the switch leaves the cursor in the
line, and the rest of the text does not matter. -/
def LineStep (locals : Locals) (session : SdpSession) (line : List UInt8)
    (session' : SdpSession) : Prop :=
  ∃ type body, line = type :: 0x3D :: body ∧ isEol type = false ∧
    ∀ rest, ∃ left, NoEol left ∧
      parseField locals type (body ++ 0x0D :: rest) session = (left ++ 0x0D :: rest, session')

theorem parseLine_lineStep {locals : Locals} {session session' : SdpSession} {line : List UInt8}
    (h : LineStep locals session line session') :
    ∃ type body, line = type :: body ∧ isEol type = false ∧
      ∀ rest, parseLine locals type (body ++ crlf ++ rest) session = some (rest, session') := by
  obtain ⟨type, body, rfl, htype, hfield⟩ := h
  refine ⟨type, 0x3D :: body, rfl, htype, fun rest => ?_⟩
  obtain ⟨left, hleft, hparse⟩ := hfield (0x0A :: rest)
  have htext : 0x3D :: body ++ crlf ++ rest = 0x3D :: (body ++ 0x0D :: 0x0A :: rest) := by
    simp [crlf]
  rw [htext, parseLine, if_neg (by simp), List.tail_cons, hparse]
  simp only [findEol_append hleft (rfl : isEol 0x0D = true)]
  rfl

/-- The line loop does with a line what the switch does, and goes on behind the
line's end. -/
theorem sdpParseLoop_line {locals : Locals} {session session' : SdpSession} {line : List UInt8}
    (h : LineStep locals session line session') (fuel : Nat) (rest : List UInt8) :
    sdpParseLoop locals (fuel + 1) (line ++ crlf ++ rest) session =
      sdpParseLoop locals fuel rest session' := by
  obtain ⟨type, body, rfl, htype, hline⟩ := parseLine_lineStep h
  have hnul : type ≠ 0x00 := by
    rintro rfl
    simp [isEol] at htype
  have hrest := hline rest
  rw [List.cons_append, List.cons_append, sdpParseLoop, if_neg hnul, if_neg (by simp [htype]),
    hrest]

theorem sdpParseLoop_run {locals : Locals} {session session' : SdpSession}
    {lines : List (List UInt8)} (hrun : Run (LineStep locals) session lines session') {fuel : Nat}
    (hfuel : lines.length ≤ fuel) :
    sdpParseLoop locals fuel (lines.flatMap fun line => line ++ crlf) session =
      some session' := by
  induction hrun generalizing fuel with
  | nil session => cases fuel <;> rfl
  | cons hstep _ ih =>
      rw [List.length_cons] at hfuel
      obtain ⟨fuel, rfl⟩ : ∃ n, fuel = n + 1 := ⟨fuel - 1, by omega⟩
      rw [List.flatMap_cons, sdpParseLoop_line hstep, ih (by omega)]

end TinyRtc.SdpScanning
