import TinyRtc.SignalingExtract
import TinyRtc.SignalingMessages
import TinyRtc.WebSocketFrames

namespace TinyRtc.SignalingCandidates

open TinyRtc.Common
open TinyRtc.CString
open TinyRtc.Decimal
open TinyRtc.FormattedScan
open TinyRtc.Sdp
open TinyRtc.Signaling
open TinyRtc.SignalingEscape (wsFrame_length_le)
open TinyRtc.SignalingExtract
open TinyRtc.SignalingMessages
open TinyRtc.WebSocketFrames (sigWriteLoop_of_total writtenTotal)

/-- What stands in a JSON string as it is. -/
def Plain (text : List UInt8) : Prop :=
  ∀ c ∈ text, c ≠ 0x22 ∧ c ≠ 0x5C ∧ c ≠ 0x00

instance (text : List UInt8) : Decidable (Plain text) :=
  inferInstanceAs (Decidable (∀ _ ∈ _, _))

theorem plain_nil : Plain [] :=
  fun _ h => absurd h List.not_mem_nil

theorem plain_append_iff {first second : List UInt8} :
    Plain (first ++ second) ↔ Plain first ∧ Plain second :=
  List.forall_mem_append

theorem plain_cons_iff {c : UInt8} {text : List UInt8} :
    Plain (c :: text) ↔ (c ≠ 0x22 ∧ c ≠ 0x5C ∧ c ≠ 0x00) ∧ Plain text :=
  List.forall_mem_cons

theorem plain_digit : ∀ c : UInt8, isDigit c = true → c ≠ 0x22 ∧ c ≠ 0x5C ∧ c ≠ 0x00 := by
  decide +kernel

theorem plain_decimal (n : Nat) : Plain (decimal n) :=
  fun c hc => plain_digit c (decimal_isDigit n c hc)

theorem sigQuotedText_plain {text : List UInt8} (h : Plain text) {prev : Option UInt8}
    (hprev : prev ≠ some 0x5C) (rest : List UInt8) :
    sigQuotedText prev (text ++ 0x22 :: rest) = some text := by
  induction text generalizing prev with
  | nil => rw [List.nil_append, sigQuotedText, if_pos ⟨rfl, hprev⟩]
  | cons c text ih =>
      obtain ⟨⟨hquote, hbackslash, -⟩, htext⟩ := plain_cons_iff.mp h
      have hnext : some c ≠ some (0x5C : UInt8) := fun heq => hbackslash (Option.some.inj heq)
      rw [List.cons_append, sigQuotedText, if_neg fun hstop => hquote hstop.1, ih htext hnext,
        Option.map_some]

theorem sigUnescape_of_plain {text : List UInt8} (h : Plain text) : sigUnescape text = text := by
  induction text with
  | nil => rfl
  | cons c text ih =>
      obtain ⟨⟨-, hbackslash, -⟩, htext⟩ := plain_cons_iff.mp h
      rw [sigUnescape_plain hbackslash, ih htext]

/-- What stands between a key and its value: a colon, with blanks behind it. -/
def Separates (sep : List UInt8) : Prop :=
  ∃ gap blanks, sep = gap ++ 0x3A :: blanks ∧ 0x3A ∉ gap ∧ ∀ c ∈ blanks, c = 0x20 ∨ c = 0x09

theorem separates_colon : Separates (ascii ":") :=
  ⟨[], [], rfl, List.not_mem_nil, by simp⟩

theorem separates_colon_space : Separates (ascii ": ") :=
  ⟨[], [0x20], rfl, List.not_mem_nil, by simp⟩

theorem Separates.value {sep : List UInt8} (h : Separates sep) {c : UInt8} (hspace : c ≠ 0x20)
    (htab : c ≠ 0x09) (rest : List UInt8) :
    ∃ value, strchr (sep ++ c :: rest) 0x3A = some value ∧
      skipBlanks (value.drop 1) = c :: rest := by
  obtain ⟨gap, blanks, rfl, hgap, hblanks⟩ := h
  refine ⟨0x3A :: (blanks ++ c :: rest), ?_, ?_⟩
  · rw [List.append_assoc, strchr_append hgap]
    rfl
  · rw [List.drop_one, List.tail_cons, skipBlanks, dropWhile_append_stop]
    · intro d hd
      rcases hblanks d hd with rfl | rfl <;> rfl
    · simp [hspace, htab]

theorem sigExtractJsonStringField_plain {fieldName front sep text : List UInt8}
    (hlength : (ascii "\"" ++ fieldName ++ ascii "\"").length ≤ 63)
    (hfirst : strstr (ascii "\"" ++ fieldName ++ ascii "\"")
      (front ++ (ascii "\"" ++ fieldName ++ ascii "\"")) =
        some (ascii "\"" ++ fieldName ++ ascii "\""))
    (hsep : Separates sep) (htext : Plain text) (rest : List UInt8) :
    sigExtractJsonStringField
      (front ++ (ascii "\"" ++ fieldName ++ ascii "\"" ++ (sep ++ 0x22 :: (text ++ 0x22 :: rest))))
      fieldName true = some text := by
  obtain ⟨value, hcolon, hvalue⟩ := hsep.value (by decide : (0x22 : UInt8) ≠ 0x20) (by decide)
    (text ++ 0x22 :: rest)
  rw [sigExtractJsonStringField, List.take_of_length_le hlength, strstr_append hfirst,
    Option.bind_some, List.drop_left, hcolon, Option.bind_some, hvalue]
  dsimp only
  rw [if_neg (by simp), sigQuotedText_plain htext (by simp), Option.bind_some, if_pos rfl,
    sigUnescape_of_plain htext]

def candidateKey : List UInt8 :=
  ascii "\"candidate\""

/-- A message in which the first `"candidate"` has a text for its value, as a string or as the
string of that name in an object. -/
inductive CandidateMessage (text : List UInt8) : List UInt8 → Prop
  | string {front sep : List UInt8} (rest : List UInt8)
      (hfirst : strstr candidateKey (front ++ candidateKey) = some candidateKey)
      (hsep : Separates sep) :
      CandidateMessage text (front ++ (candidateKey ++ (sep ++ 0x22 :: (text ++ 0x22 :: rest))))
  | object {front sep inner innerSep : List UInt8} (rest : List UInt8)
      (hfirst : strstr candidateKey (front ++ candidateKey) = some candidateKey)
      (hsep : Separates sep)
      (hinner : strstr candidateKey (0x7B :: inner ++ candidateKey) = some candidateKey)
      (hinnerSep : Separates innerSep) :
      CandidateMessage text (front ++ (candidateKey ++ (sep ++ 0x7B :: (inner ++
        (candidateKey ++ (innerSep ++ 0x22 :: (text ++ 0x22 :: rest)))))))

theorem sigExtractCandidateValue_message {env : MessageEnv} (hstring : env.stringOk = true)
    {text json : List UInt8} (htext : Plain text) (h : CandidateMessage text json) :
    sigExtractCandidateValue env json = candidateOfString env text := by
  have hlength : (ascii "\"" ++ ascii "candidate" ++ ascii "\"").length ≤ 63 := by decide
  have hkey : candidateKey = ascii "\"" ++ ascii "candidate" ++ ascii "\"" := by decide
  have hdrop : candidateKey.length = 11 := by decide
  rw [sigExtractCandidateValue, hstring]
  change (strstr candidateKey json).bind _ = _
  cases h with
  | @string front sep rest hfirst hsep =>
      obtain ⟨value, hcolon, hvalue⟩ := hsep.value (by decide : (0x22 : UInt8) ≠ 0x20) (by decide)
        (text ++ 0x22 :: rest)
      have hfound : strstr candidateKey ([] ++ candidateKey) = some candidateKey := by decide
      have hfield := sigExtractJsonStringField_plain hlength (hkey ▸ hfound) hsep htext rest
      rw [← hkey, List.nil_append] at hfield
      rw [strstr_append hfirst, Option.bind_some, ← hdrop, List.drop_left, hcolon,
        Option.bind_some, hvalue]
      dsimp only
      rw [if_pos rfl, hfield, Option.bind_some]
  | @object front sep inner innerSep rest hfirst hsep hinner hinnerSep =>
      obtain ⟨value, hcolon, hvalue⟩ := hsep.value (by decide : (0x7B : UInt8) ≠ 0x20) (by decide)
        (inner ++ (candidateKey ++ (innerSep ++ 0x22 :: (text ++ 0x22 :: rest))))
      have hfield := sigExtractJsonStringField_plain hlength (hkey ▸ hinner) hinnerSep htext rest
      rw [← hkey, List.cons_append] at hfield
      rw [strstr_append hfirst, Option.bind_some, ← hdrop, List.drop_left, hcolon,
        Option.bind_some, hvalue]
      dsimp only
      rw [if_neg (by decide), if_pos rfl, hfield, Option.bind_some]

/-- A field of a candidate that the scanning format takes as a whole. -/
structure Field (width : Nat) (text : List UInt8) : Prop extends Word text where
  length_le : text.length ≤ width
  plain : Plain text

theorem Field.mono {small large : Nat} {text : List UInt8} (h : Field small text)
    (hle : small ≤ large) : Field large text :=
  ⟨h.toWord, h.length_le.trans hle, h.plain⟩

/-- A candidate that a message can carry. -/
structure SignalledCandidate (candidate : IceCandidate) : Prop where
  foundation : Field 31 candidate.foundation
  protocol : Field 31 candidate.protocol
  ip : Field 127 candidate.ip
  type : Field 31 candidate.type
  port_ne : candidate.port ≠ 0
  isIpv6_eq : candidate.isIpv6 = candidate.ip.contains 0x3A

/-- The text of a candidate behind its prefix, as both parsers get it. -/
def candidateText (candidate : IceCandidate) (component : Nat) (tail : List UInt8) :
    List UInt8 :=
  candidate.foundation ++ 0x20 :: (decimal component ++ 0x20 :: (candidate.protocol ++ 0x20 ::
    (decimal candidate.priority.toNat ++ 0x20 :: (candidate.ip ++ 0x20 ::
      (decimal candidate.port.toNat ++ 0x20 :: (ascii "typ" ++ 0x20 ::
        (candidate.type ++ tail)))))))

theorem sscanf_candidateText {candidate : IceCandidate} (h : SignalledCandidate candidate)
    (component : Nat) {tail : List UInt8} (htail : EndsWord tail) :
    sscanf candidateFormat (candidateText candidate component tail) =
      [candidate.foundation, candidate.protocol, decimal candidate.priority.toNat, candidate.ip,
        decimal candidate.port.toNat, candidate.type] := by
  have hprio : (decimal candidate.priority.toNat).length ≤ 31 :=
    (decimal_length_le (k := 10) (by decide)
      (Nat.lt_of_lt_of_le candidate.priority.toNat_lt (by decide))).trans (by decide)
  have hport : (decimal candidate.port.toNat).length ≤ 15 :=
    (decimal_length_le (k := 5) (by decide)
      (Nat.lt_of_lt_of_le candidate.port.toNat_lt (by decide))).trans (by decide)
  have hspace : ∀ text, EndsNumber (0x20 :: text) := by
    rintro text c hc
    cases hc
    rfl
  have htyp : ascii "typ" = [0x74, 0x79, 0x70] := by decide
  have hword : Word ([0x74, 0x79, 0x70] : List UInt8) := ⟨by decide +kernel, by decide⟩
  rw [candidateFormat, candidateText, sscanf_word _ h.foundation.toWord (endsWord_space _)
    h.foundation.length_le, sscanf_next_number _ _ (hspace _),
    sscanf_next_word _ h.protocol.toWord (endsWord_space _) h.protocol.length_le,
    sscanf_next_word _ (word_decimal _) (endsWord_space _) hprio,
    sscanf_next_word _ h.ip.toWord (endsWord_space _) h.ip.length_le,
    sscanf_next_word _ (word_decimal _) (endsWord_space _) hport,
    sscanf_blank_space, htyp, sscanf_blank_word _ hword, List.cons_append, sscanf_literal,
    List.cons_append, sscanf_literal, List.cons_append, sscanf_literal, List.nil_append,
    sscanf_next_word _ h.type.toWord htail h.type.length_le, sscanf]

theorem atoi_decimal_u16 {n : UInt16} (hn : n ≠ 0) :
    ¬ atoi (decimal n.toNat) ≤ 0 ∧ (atoi (decimal n.toNat)).toUInt32.toUInt16 = n := by
  have hread := atoi_decimalInt (Int32.ofInt (n.toNat : Int)) [] endsNumber_nil
  rw [List.append_nil, decimalInt_u16] at hread
  rw [hread]
  refine ⟨?_, toUInt16_ofInt n⟩
  rw [Int32.le_iff_toInt_le, toInt_ofInt_u16]
  have hpos : n.toNat ≠ 0 := fun hzero => hn (UInt16.toNat_inj.mp hzero)
  change ¬ (n.toNat : Int) ≤ 0
  omega

theorem candidateOfString_text {env : MessageEnv} (hcandidate : env.candidateOk = true)
    (hcopies : env.copiesOk = true) {candidate : IceCandidate} (h : SignalledCandidate candidate)
    (component : Nat) {tail : List UInt8} (htail : EndsWord tail) :
    candidateOfString env (ascii "candidate:" ++ candidateText candidate component tail) =
      some candidate := by
  have hlength : (ascii "candidate:").length = 10 := by decide
  obtain ⟨hport, hvalue⟩ := atoi_decimal_u16 h.port_ne
  rw [candidateOfString]
  dsimp only
  rw [← hlength, List.take_left, if_pos rfl, List.drop_left, sscanf_candidateText h component htail]
  dsimp only
  rw [if_neg hport, hcandidate, hcopies, strtoull_decimal_u32, Option.getD_some,
    UInt32.toUInt32_toUInt64, hvalue, ← h.isIpv6_eq]
  rfl

theorem plain_candidateText {candidate : IceCandidate} (h : SignalledCandidate candidate)
    (component : Nat) {tail : List UInt8} (htail : Plain tail) :
    Plain (candidateText candidate component tail) := by
  have hspace : (0x20 : UInt8) ≠ 0x22 ∧ (0x20 : UInt8) ≠ 0x5C ∧ (0x20 : UInt8) ≠ 0x00 := by decide
  have htyp : Plain (ascii "typ") := by decide +kernel
  simp only [candidateText, plain_append_iff, plain_cons_iff]
  exact ⟨h.foundation.plain, hspace, plain_decimal _, hspace, h.protocol.plain, hspace,
    plain_decimal _, hspace, h.ip.plain, hspace, plain_decimal _, hspace, htyp, hspace,
    h.type.plain, htail⟩

theorem candidateJson_message (candidate : IceCandidate) :
    CandidateMessage (ascii "candidate:" ++ candidateText candidate 1 [])
      (candidateJson (argOfCandidate candidate)) := by
  have hhead : ascii "\x7b\"type\": \"ice-candidate\", \"candidate\": \x7b\"candidate\": \"candidate:" =
      ascii "\x7b\"type\": \"ice-candidate\", " ++ (candidateKey ++ (ascii ": " ++ 0x7B ::
        ([] ++ (candidateKey ++ (ascii ": " ++ 0x22 :: ascii "candidate:"))))) := by decide
  have hcomponent : ascii " 1 " = 0x20 :: (decimal 1 ++ [0x20]) := by decide
  have hspace : ascii " " = [0x20] := by decide
  have htyp : ascii " typ " = 0x20 :: (ascii "typ" ++ [0x20]) := by decide
  have hend : ascii "\", \"sdpMid\": \"0\", \"sdpMLineIndex\": 0\x7d\x7d" =
      0x22 :: ascii ", \"sdpMid\": \"0\", \"sdpMLineIndex\": 0\x7d\x7d" := by decide
  have hmessage := @CandidateMessage.object (ascii "candidate:" ++ candidateText candidate 1 [])
    (ascii "\x7b\"type\": \"ice-candidate\", ") (ascii ": ") [] (ascii ": ")
    (ascii ", \"sdpMid\": \"0\", \"sdpMLineIndex\": 0\x7d\x7d") (by decide)
    separates_colon_space (by decide) separates_colon_space
  rw [candidateJson, argOfCandidate, hhead, hcomponent, hspace, htyp, hend]
  simpa only [candidateText, Option.getD_some, List.append_assoc, List.cons_append, List.nil_append,
    List.append_nil] using hmessage

theorem Field.no_nul {width : Nat} {text : List UInt8} (h : Field width text) : 0x00 ∉ text :=
  fun hmem => (h.plain _ hmem).2.2 rfl

theorem decimal_no_nul (n : Nat) : 0x00 ∉ decimal n :=
  fun hmem => (digit_not_space_sign _ (decimal_isDigit n _ hmem)).2.2.2.2 rfl

theorem candidateJson_no_nul {candidate : IceCandidate} (h : SignalledCandidate candidate) :
    0x00 ∉ candidateJson (argOfCandidate candidate) := by
  simp only [candidateJson, argOfCandidate, Option.getD_some, List.mem_append, not_or]
  refine ⟨⟨⟨⟨⟨⟨⟨⟨⟨⟨⟨⟨?_, h.foundation.no_nul⟩, ?_⟩, h.protocol.no_nul⟩, ?_⟩, decimal_no_nul _⟩, ?_⟩,
    h.ip.no_nul⟩, ?_⟩, decimal_no_nul _⟩, ?_⟩, h.type.no_nul⟩, ?_⟩ <;> decide

theorem strchr_type (rest : List UInt8) :
    strchr ((ascii "\"type\"" ++ (ascii ": \"" ++ rest)).drop 6) 0x3A =
      some (ascii ": \"" ++ rest) :=
  rfl

theorem dropWhile_type (rest : List UInt8) :
    ((ascii ": \"" ++ (ascii "ice-candidate" ++ rest)).dropWhile
      fun c => c == 0x3A || c == 0x20 || c == 0x22) = ascii "ice-candidate" ++ rest :=
  rfl

theorem eventTypeOf_candidate (env : MessageEnv) (rest : List UInt8) :
    eventTypeOf env (ascii "ice-candidate" ++ rest) = some .iceCandidate := by
  rfl

/-- The head of the text, up to the value of its type. -/
theorem candidateJson_type (candidate : CandidateArg) :
    ∃ rest, candidateJson candidate =
      ascii "\x7b" ++ (ascii "\"type\"" ++ (ascii ": \"" ++ (ascii "ice-candidate" ++ rest))) := by
  have hhead : ascii "\x7b\"type\": \"ice-candidate\", \"candidate\": \x7b\"candidate\": \"candidate:" =
      ascii "\x7b" ++ (ascii "\"type\"" ++ (ascii ": \"" ++ (ascii "ice-candidate" ++
        ascii "\", \"candidate\": \x7b\"candidate\": \"candidate:"))) := by decide
  rw [candidateJson, hhead]
  simp only [List.append_assoc]
  exact ⟨_, rfl⟩

theorem candidateJson_length_lt {candidate : IceCandidate} (h : SignalledCandidate candidate) :
    (candidateJson (argOfCandidate candidate)).length < 2048 := by
  have hprio : (decimal candidate.priority.toNat).length ≤ 10 :=
    decimal_length_le (by decide) (Nat.lt_of_lt_of_le candidate.priority.toNat_lt (by decide))
  have hport : (decimal candidate.port.toNat).length ≤ 5 :=
    decimal_length_le (by decide) (Nat.lt_of_lt_of_le candidate.port.toNat_lt (by decide))
  have hfoundation := h.foundation.length_le
  have hprotocol := h.protocol.length_le
  have hip := h.ip.length_le
  have htype := h.type.length_le
  have hfixed : (ascii
      "\x7b\"type\": \"ice-candidate\", \"candidate\": \x7b\"candidate\": \"candidate:").length +
        (ascii " 1 ").length + (ascii " ").length + (ascii " typ ").length +
        (ascii "\", \"sdpMid\": \"0\", \"sdpMLineIndex\": 0\x7d\x7d").length ≤ 200 := by
    decide
  simp only [candidateJson, argOfCandidate, Option.getD_some, List.length_append]
  omega

/-- The allocations for a candidate succeed. -/
structure Allocates (env : MessageEnv) : Prop where
  string : env.stringOk = true
  candidate : env.candidateOk = true
  copies : env.copiesOk = true

/-- Every allocation of a message succeeds, and there is a callback. -/
structure Serves (env : MessageEnv) : Prop extends Allocates env where
  json : env.jsonOk = true
  callback : env.hasCallback = true

theorem sigProcessMessage_candidateJson {env : MessageEnv} (henv : Serves env)
    {candidate : IceCandidate} (h : SignalledCandidate candidate) :
    sigProcessMessage env (candidateJson (argOfCandidate candidate)) =
      [⟨.iceCandidate, .candidate candidate⟩] := by
  have hwhole : (candidateJson (argOfCandidate candidate)).takeWhile (· != 0x00) =
      candidateJson (argOfCandidate candidate) :=
    List.takeWhile_eq_self_iff.mpr (bne_of_not_mem (candidateJson_no_nul h))
  have hextracted : sigExtractCandidateValue env (candidateJson (argOfCandidate candidate)) =
      some candidate := by
    have hplain : Plain (ascii "candidate:" ++ candidateText candidate 1 []) :=
      plain_append_iff.mpr ⟨by decide +kernel, plain_candidateText h 1 plain_nil⟩
    rw [sigExtractCandidateValue_message henv.string hplain (candidateJson_message candidate),
      candidateOfString_text henv.candidate henv.copies h 1 endsWord_nil]
  obtain ⟨rest, hjson⟩ := candidateJson_type (argOfCandidate candidate)
  have hfound : strstr (ascii "\"type\"") (candidateJson (argOfCandidate candidate)) =
      some (ascii "\"type\"" ++ (ascii ": \"" ++ (ascii "ice-candidate" ++ rest))) := by
    rw [hjson]
    exact strstr_append (by decide) _
  rw [sigProcessMessage, henv.json, hwhole]
  dsimp only
  rw [hfound, Option.bind_some, strchr_type]
  dsimp only
  rw [dropWhile_type, eventTypeOf_candidate]
  dsimp only
  rw [henv.callback, eventData, hextracted]
  rfl

/-- The transport takes a text as one frame, in whatever parts. -/
structure Takes (env : FrameEnv) (json : List UInt8) : Prop where
  not_failed : .failed ∉ env.writes
  total : (wsFrame wsOpcodeText env.mask json).length ≤ writtenTotal env.writes

/-- Over a transport that takes it, the text for a candidate is handed over whole. -/
theorem sendCandidate_ok {frameEnv : FrameEnv} {sig : SignalingClient}
    (hconnected : sig.state = .connected) {candidate : IceCandidate}
    (h : SignalledCandidate candidate)
    (htakes : Takes frameEnv (candidateJson (argOfCandidate candidate))) :
    tinyrtcSignalingSendCandidate frameEnv sig (some (argOfCandidate candidate)) =
      some ⟨.ok, sig, some (candidateJson (argOfCandidate candidate))⟩ := by
  have hjson := candidateJson_length_lt h
  have hframe := wsFrame_length_le wsOpcodeText frameEnv.mask
    (candidateJson (argOfCandidate candidate))
  rw [tinyrtcSignalingSendCandidate]
  dsimp only
  rw [if_neg (not_not.mpr hconnected), if_neg (Nat.not_le.mpr hjson), sigSendWsFrame,
    if_neg (not_not.mpr hconnected)]
  dsimp only
  rw [if_neg (by rw [sigMaxSendBuf]; omega),
    sigWriteLoop_of_total htakes.not_failed htakes.total]
  rfl

instance (width : Nat) (text : List UInt8) : Decidable (Field width text) :=
  decidable_of_iff ((∀ c ∈ text, isSpace c = false) ∧ text ≠ [] ∧ text.length ≤ width ∧ Plain text)
    ⟨fun ⟨hspace, hne, hlength, hplain⟩ => ⟨⟨hspace, hne⟩, hlength, hplain⟩,
      fun h => ⟨h.no_space, h.ne_nil, h.length_le, h.plain⟩⟩

def sampleCandidate : IceCandidate :=
  ⟨ascii "887687980", 2113937151, ascii "fe80::1", 56032, ascii "host", ascii "udp", true⟩

end TinyRtc.SignalingCandidates
