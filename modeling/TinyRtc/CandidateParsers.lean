import TinyRtc.SdpCandidateLines
import TinyRtc.SignalingCandidates

namespace TinyRtc.CandidateParsers

open TinyRtc.Common
open TinyRtc.CString
open TinyRtc.Decimal
open TinyRtc.FormattedScan
open TinyRtc.SlotArray
open TinyRtc.Sdp
open TinyRtc.SdpParser
open TinyRtc.SdpScanning
open TinyRtc.SdpCandidateLines
open TinyRtc.SignalingMessages
open TinyRtc.SignalingCandidates

theorem not_isSpace_token :
    ∀ c : UInt8, isSpace c = false → c ≠ 0x00 → isEol c = false ∧ c ≠ 0x20 ∧ c ≠ 0x09 := by
  decide +kernel

theorem token_of_word {text : List UInt8} (hword : Word text) (hplain : Plain text) :
    Token text := by
  have hbyte : ∀ c ∈ text, isEol c = false ∧ c ≠ 0x20 ∧ c ≠ 0x09 :=
    fun c hc => not_isSpace_token c (hword.no_space c hc) (hplain c hc).2.2
  exact
    { no_eol := fun c hc => (hbyte c hc).1
      head_not_blank := fun c hc => (hbyte c (List.mem_of_mem_head? hc)).2
      last_not_space := fun c hc => (hbyte c (List.mem_of_getLast? hc)).2.1
      no_space := fun hmem => (hbyte _ hmem).2.1 rfl
      ne_nil := hword.ne_nil }

theorem token_of_field {width : Nat} {text : List UInt8} (h : Field width text) : Token text :=
  token_of_word h.toWord h.plain

/-- The `char` array that a field fills. -/
def fieldStr {width : Nat} (text : List UInt8) (h : Field width text) : CStr (width + 1) :=
  ⟨text, h.no_nul, h.length_le⟩

/-- What the text of a candidate says, with words behind it that no parser reads. -/
structure CandidateText where
  foundation : List UInt8
  component : Nat
  protocol : List UInt8
  priority : UInt32
  ip : List UInt8
  port : UInt16
  type : List UInt8
  extension : List (List UInt8)
  foundation_field : Field 31 foundation
  protocol_field : Field 15 protocol
  ip_field : Field 63 ip
  type_field : Field 31 type
  port_ne : port ≠ 0
  extension_word : ∀ word ∈ extension, Word word ∧ Plain word

namespace CandidateText

variable (c : CandidateText)

def candidate : IceCandidate :=
  ⟨c.foundation, c.priority, c.ip, c.port, c.type, c.protocol, c.ip.contains 0x3A⟩

def sdpCandidate : SdpCandidate where
  foundation := fieldStr c.foundation c.foundation_field
  priority := c.priority
  ip := fieldStr c.ip c.ip_field
  port := c.port
  type := fieldStr c.type c.type_field
  protocol := fieldStr c.protocol c.protocol_field
  isIpv6 := c.ip.contains 0x3A

def tail : List UInt8 :=
  c.extension.flatMap (0x20 :: ·)

def text : List UInt8 :=
  candidateText c.candidate c.component c.tail

theorem signalled : SignalledCandidate c.candidate where
  foundation := c.foundation_field
  protocol := c.protocol_field.mono (by decide)
  ip := c.ip_field.mono (by decide)
  type := c.type_field
  port_ne := c.port_ne
  isIpv6_eq := rfl

theorem carried : CarriedCandidate c.sdpCandidate where
  foundation := token_of_field c.foundation_field
  protocol := token_of_field c.protocol_field
  ip := token_of_field c.ip_field
  type := token_of_field c.type_field
  isIpv6_eq := rfl

/-- There is a space wherever the tail begins. -/
theorem head_tail {head : UInt8} (h : head ∈ c.tail.head?) : head = 0x20 := by
  rw [tail] at h
  cases hext : c.extension with
  | nil =>
      rw [hext, List.flatMap_nil] at h
      cases h
  | cons word rest =>
      rw [hext, List.flatMap_cons] at h
      exact (Option.some.inj h).symm

theorem endsWord_tail : EndsWord c.tail := by
  intro head hhead
  rw [c.head_tail hhead]
  rfl

theorem stopsAt_tail {rest : List UInt8} (hrest : ∀ stop ∈ rest.head?, isEol stop = true) :
    StopsAt 0x20 (c.tail ++ rest) := by
  intro stop hstop
  cases htail : c.tail with
  | nil =>
      rw [htail, List.nil_append] at hstop
      exact .inl (hrest stop hstop)
  | cons head tail =>
      rw [htail] at hstop
      cases hstop
      exact .inr (c.head_tail (by rw [htail]; rfl))

theorem plain_tail : Plain c.tail := by
  intro b hb
  obtain ⟨word, hword, hmem⟩ := List.mem_flatMap.mp hb
  rcases List.mem_cons.mp hmem with rfl | hmem
  · decide
  · exact (c.extension_word word hword).2 b hmem

theorem noEol_tail : NoEol c.tail := by
  intro b hb
  obtain ⟨word, hword, hmem⟩ := List.mem_flatMap.mp hb
  rcases List.mem_cons.mp hmem with rfl | hmem
  · rfl
  · obtain ⟨hword, hplain⟩ := c.extension_word word hword
    exact (token_of_word hword hplain).no_eol b hmem

theorem text_eq : c.text = candidateFields c.sdpCandidate c.component c.tail :=
  rfl

theorem noEol_text : NoEol c.text :=
  noEol_candidateFields c.carried c.component c.noEol_tail

theorem parseCandidate_text {rest : List UInt8} (hrest : ∀ stop ∈ rest.head?, isEol stop = true) :
    parseCandidate (c.text ++ rest) = some c.sdpCandidate := by
  rw [text_eq, candidateFields_append]
  exact parseCandidate_line c.carried c.component (c.stopsAt_tail hrest)

theorem sigExtractCandidateValue_text {env : MessageEnv} (henv : Allocates env) {json : List UInt8}
    (hjson : CandidateMessage (ascii "candidate:" ++ c.text) json) :
    sigExtractCandidateValue env json = some c.candidate := by
  have hplain : Plain (ascii "candidate:" ++ c.text) :=
    plain_append_iff.mpr ⟨by decide +kernel, plain_candidateText c.signalled _ c.plain_tail⟩
  rw [sigExtractCandidateValue_message henv.string hplain hjson, text,
    candidateOfString_text henv.candidate henv.copies c.signalled _ c.endsWord_tail]

end CandidateText

/-- One candidate, as the session description and as the signaling keep it. -/
structure SameCandidate (cand : SdpCandidate) (ice : IceCandidate) : Prop where
  foundation : cand.foundation.bytes = ice.foundation
  protocol : cand.protocol.bytes = ice.protocol
  priority : cand.priority = ice.priority
  ip : cand.ip.bytes = ice.ip
  port : cand.port = ice.port
  type : cand.type.bytes = ice.type
  isIpv6 : cand.isIpv6 = ice.isIpv6

theorem parsers_agree {env : MessageEnv} (henv : Allocates env) (c : CandidateText)
    {json : List UInt8} (hjson : CandidateMessage (ascii "candidate:" ++ c.text) json) :
    ∃ cand ice,
      (∀ rest, (∀ stop ∈ rest.head?, isEol stop = true) →
        parseCandidate (c.text ++ rest) = some cand) ∧
      (∀ locals session (pushed : Slots SdpCandidate tinyrtcMaxCandidates),
        pushed.items = session.candidates.items ++ [cand] →
        LineStep locals session (ascii "a=candidate:" ++ c.text)
          { session with candidates := pushed }) ∧
      sigExtractCandidateValue env json = some ice ∧
      SameCandidate cand ice := by
  refine ⟨c.sdpCandidate, c.candidate, fun rest => c.parseCandidate_text, ?_,
    c.sigExtractCandidateValue_text henv hjson, ⟨rfl, rfl, rfl, rfl, rfl, rfl, rfl⟩⟩
  intro locals session pushed hpushed
  have hname : ascii "a=candidate:" = 0x61 :: 0x3D :: (ascii "candidate" ++ [0x3A]) := by decide
  have hstep := lineStep_candidateText locals session c.noEol_text
    (fun rest => c.parseCandidate_text (by simp [isEol])) pushed hpushed
  rw [hname]
  simpa only [List.cons_append, List.append_assoc, List.nil_append] using hstep

def sampleText : CandidateText where
  foundation := ascii "842163049"
  component := 1
  protocol := ascii "udp"
  priority := 1677729535
  ip := ascii "203.0.113.7"
  port := 46154
  type := ascii "srflx"
  extension := [ascii "raddr", ascii "10.0.0.3", ascii "rport", ascii "50123"]
  foundation_field := by decide +kernel
  protocol_field := by decide +kernel
  ip_field := by decide +kernel
  type_field := by decide +kernel
  port_ne := by decide
  extension_word := by
    intro word hword
    have hfield : ∀ word ∈ [ascii "raddr", ascii "10.0.0.3", ascii "rport", ascii "50123"],
        Field 8 word := by decide +kernel
    exact ⟨(hfield word hword).toWord, (hfield word hword).plain⟩

theorem parsers_agree_sampleText :
    ∃ cand ice,
      (∀ rest, (∀ stop ∈ rest.head?, isEol stop = true) →
        parseCandidate (sampleText.text ++ rest) = some cand) ∧
      (∀ locals session (pushed : Slots SdpCandidate tinyrtcMaxCandidates),
        pushed.items = session.candidates.items ++ [cand] →
        LineStep locals session (ascii "a=candidate:" ++ sampleText.text)
          { session with candidates := pushed }) ∧
      sigExtractCandidateValue ⟨true, true, true, true, true, .offer⟩
        (ascii "\x7b\"type\":\"ice-candidate\"," ++ (candidateKey ++ (ascii ":" ++ 0x22 ::
          (ascii "candidate:" ++ sampleText.text ++ 0x22 :: ascii "\x7d")))) = some ice ∧
      SameCandidate cand ice :=
  parsers_agree ⟨rfl, rfl, rfl⟩ sampleText
    (.string _ (by decide) separates_colon)

end TinyRtc.CandidateParsers
