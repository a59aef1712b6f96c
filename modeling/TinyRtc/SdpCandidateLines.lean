import TinyRtc.SdpMediaLines

namespace TinyRtc.SdpCandidateLines

open TinyRtc.Common
open TinyRtc.CString
open TinyRtc.Decimal
open TinyRtc.LabelledRuns
open TinyRtc.SlotArray
open TinyRtc.Sdp
open TinyRtc.SdpGenerator
open TinyRtc.SdpParser
open TinyRtc.SdpScanning
open TinyRtc.SdpLines

/-- A candidate whose line says everything about it. -/
structure CarriedCandidate (cand : SdpCandidate) : Prop where
  foundation : Token cand.foundation.bytes
  protocol : Token cand.protocol.bytes
  ip : Token cand.ip.bytes
  type : Token cand.type.bytes
  isIpv6_eq : cand.isIpv6 = cand.ip.bytes.contains 0x3A

theorem parseInt_decimal_u16 (n : UInt16) (rest : List UInt8) (hrest : EndsNumber rest) :
    ∃ port, parseInt (decimal n.toNat ++ rest) = some port ∧ port.toUInt32.toUInt16 = n := by
  refine ⟨Int32.ofInt (n.toNat : Int), ?_, toUInt16_ofInt n⟩
  rw [← decimalInt_u16]
  exact parseInt_decimalInt _ rest hrest

/-- A priority survives the check for an unreadable one, zero included. -/
theorem priority_readable (n : UInt32) :
    (strtoull (decimal n.toNat)).getD 0 = n.toUInt64 ∧
      ¬ (n.toUInt64 = 0 ∧ (decimal n.toNat).head? ≠ some 0x30) := by
  refine ⟨by rw [strtoull_decimal_u32, Option.getD_some], ?_⟩
  rintro ⟨hzero, hhead⟩
  apply hhead
  have hn : n.toNat = 0 := by
    rw [← UInt32.toNat_toUInt64, hzero]
    rfl
  rw [hn]
  rfl

/-- Any number will do for the component, also one that the scanner cuts off. -/
theorem copyUntil_component (component : Nat) (p : List UInt8) :
    ∃ compStr : CStr 16, (parseInt compStr.bytes).isNone = false ∧
      copyUntil 16 0x20 (decimal component ++ 0x20 :: p) = (compStr, 0x20 :: p) := by
  have htoken := token_decimal component
  have hdigits : ∀ c ∈ (decimal component).take 15, isDigit c = true :=
    fun c hc => decimal_isDigit component c (List.mem_of_mem_take hc)
  have hne : (decimal component).take 15 ≠ [] := by
    intro hnil
    rcases List.take_eq_nil_iff.mp hnil with hzero | hnil
    · cases hzero
    · exact decimal_ne_nil component hnil
  have hloop : copyLoop 16 0x20 [] (skipWhitespace (decimal component ++ 0x20 :: p)) =
      ((decimal component).take 15, 0x20 :: p) := by
    rw [skipWhitespace_append htoken.toLineText (.inl htoken.ne_nil)]
    refine copyLoop_take (fun c hc => ⟨htoken.no_eol c hc, fun h => htoken.no_space (h ▸ hc)⟩)
      (fun c hc => (htoken.head_not_blank c hc).1) (stopsAt_cons (.inr rfl) p)
  have hleft : (copyUntil 16 0x20 (decimal component ++ 0x20 :: p)).2 = 0x20 :: p :=
    congrArg Prod.snd hloop
  have hlast : ((decimal component).take 15).rdropWhile (· == 0x20) =
      (decimal component).take 15 := by
    rw [List.rdropWhile_eq_self_iff]
    intro hne'
    have hspace := (digit_not_space_sign _ (hdigits _ (List.getLast_mem hne'))).2.2.2.1
    simpa using hspace
  have hscan := scanNumber_digits hdigits hne endsNumber_nil
  rw [List.append_nil] at hscan
  refine ⟨_, ?_, Prod.ext rfl hleft⟩
  change (parseInt ((copyLoop 16 0x20 []
    (skipWhitespace (decimal component ++ 0x20 :: p))).1.rdropWhile _)).isNone = false
  rw [hloop, hlast, parseInt, strtol, hscan]
  rfl

/-- What stands behind `a=candidate:`. -/
def candidateFields (cand : SdpCandidate) (component : Nat) (tail : List UInt8) : List UInt8 :=
  cand.foundation.bytes ++ 0x20 :: (decimal component ++ 0x20 :: (cand.protocol.bytes ++ 0x20 ::
    (decimal cand.priority.toNat ++ 0x20 :: (cand.ip.bytes ++ 0x20 ::
      (decimal cand.port.toNat ++ 0x20 :: (ascii "typ" ++ 0x20 :: (cand.type.bytes ++ tail)))))))

theorem candidateFields_append (cand : SdpCandidate) (component : Nat) (tail rest : List UInt8) :
    candidateFields cand component tail ++ rest = candidateFields cand component (tail ++ rest) := by
  simp only [candidateFields, List.append_assoc, List.cons_append]

theorem noEol_candidateFields {cand : SdpCandidate} (h : CarriedCandidate cand) (component : Nat)
    {tail : List UInt8} (htail : NoEol tail) : NoEol (candidateFields cand component tail) := by
  simp only [candidateFields, noEol_append_iff, noEol_cons_iff]
  exact ⟨h.foundation.no_eol, rfl, (token_decimal _).no_eol, rfl, h.protocol.no_eol, rfl,
    (token_decimal _).no_eol, rfl, h.ip.no_eol, rfl, (token_decimal _).no_eol, rfl,
    (token_of_isToken rfl).no_eol, rfl, h.type.no_eol, htail⟩

theorem parseCandidate_line {cand : SdpCandidate} (h : CarriedCandidate cand) (component : Nat)
    {rest : List UInt8} (hrest : StopsAt 0x20 rest) :
    parseCandidate (candidateFields cand component rest) = some cand := by
  have hprio := token_decimal cand.priority.toNat
  have hport := token_decimal cand.port.toNat
  have hprioLen : (decimal cand.priority.toNat).length ≤ 10 :=
    decimal_length_le (by decide) (Nat.lt_of_lt_of_le cand.priority.toNat_lt (by decide))
  have hportLen : (decimal cand.port.toNat).length ≤ 5 :=
    decimal_length_le (by decide) (Nat.lt_of_lt_of_le cand.port.toNat_lt (by decide))
  obtain ⟨hprioRead, hprioOk⟩ := priority_readable cand.priority
  obtain ⟨portValue, hportRead, hportValue⟩ := parseInt_decimal_u16 cand.port [] endsNumber_nil
  rw [List.append_nil] at hportRead
  have htyp : Token (ascii "typ") := token_of_isToken rfl
  obtain ⟨compStr, hcomp, hcompCopy⟩ := copyUntil_component component
    (cand.protocol.bytes ++ 0x20 :: (decimal cand.priority.toNat ++ 0x20 ::
      (cand.ip.bytes ++ 0x20 :: (decimal cand.port.toNat ++ 0x20 :: (ascii "typ" ++ 0x20 ::
        (cand.type.bytes ++ rest))))))
  obtain ⟨prioStr, hprioBytes, hprioCopy⟩ := copyUntil_local 32 0x20 0x20 hprio hprio.no_space
    (by omega) (Or.inr rfl) (cand.ip.bytes ++ 0x20 :: (decimal cand.port.toNat ++ 0x20 ::
      (ascii "typ" ++ 0x20 :: (cand.type.bytes ++ rest))))
  obtain ⟨portStr, hportBytes, hportCopy⟩ := copyUntil_local 16 0x20 0x20 hport hport.no_space
    (by omega) (Or.inr rfl) (ascii "typ" ++ 0x20 :: (cand.type.bytes ++ rest))
  obtain ⟨typStr, htypBytes, htypCopy⟩ := copyUntil_local 32 0x20 0x20 htyp htyp.no_space
    (by decide) (Or.inr rfl) (cand.type.bytes ++ rest)
  obtain ⟨htypeBytes, htypeRest⟩ := copyUntil_stopsAt 32 h.type.toLineText h.type.no_space
    cand.type.length_le hrest (.inl h.type.ne_nil)
  have htypeCopy : copyUntil 32 0x20 (cand.type.bytes ++ rest) = (cand.type, rest) :=
    Prod.ext (CStr.ext htypeBytes) htypeRest
  simp only [candidateFields, parseCandidate, copyUntil_token h.foundation, if_neg h.foundation.ne_nil,
    copyUntil_space, hcompCopy, hcomp, Bool.false_eq_true,
    if_false, copyUntil_token h.protocol, if_neg h.protocol.ne_nil, hprioCopy, hprioBytes,
    hprioRead, if_neg hprioOk, copyUntil_token h.ip, if_neg h.ip.ne_nil, hportCopy, hportBytes,
    hportRead, htypCopy, htypBytes, htypeCopy, if_neg h.type.ne_nil, hportValue,
    UInt32.toUInt32_toUInt64, ← h.isIpv6_eq, ne_eq, not_true_eq_false]

/-- A line that `parse_candidate` reads puts its candidate behind the others. -/
theorem lineStep_candidateText (locals : Locals) (session : SdpSession) {cand : SdpCandidate}
    {text : List UInt8} (htext : NoEol text)
    (hparse : ∀ rest, parseCandidate (text ++ 0x0D :: rest) = some cand)
    (pushed : Slots SdpCandidate tinyrtcMaxCandidates)
    (hpushed : pushed.items = session.candidates.items ++ [cand]) :
    LineStep locals session (0x61 :: 0x3D :: (ascii "candidate" ++ 0x3A :: text))
      { session with candidates := pushed } := by
  have hroom : session.candidates.count < tinyrtcMaxCandidates := by
    rw [Slots.count]
    have hle := pushed.length_le
    rw [hpushed, List.length_append, List.length_singleton] at hle
    omega
  obtain ⟨slots, hpush, hslots⟩ := Slots.push?_of_lt hroom cand
  have heq : slots = pushed := Slots.ext (hslots.trans hpushed.symm)
  refine lineStep_attribute (ascii "candidate") text rfl fun rest => ⟨text, htext, ?_⟩
  change (if session.candidates.count < tinyrtcMaxCandidates then _ else _) = _
  rw [if_pos hroom]
  simp only [skipByte, if_true, hparse, Option.bind_some, hpush, Option.getD_some, heq]

theorem lineStep_candidate (locals : Locals) (session : SdpSession) {cand : SdpCandidate}
    (h : CarriedCandidate cand) (pushed : Slots SdpCandidate tinyrtcMaxCandidates)
    (hpushed : pushed.items = session.candidates.items ++ [cand]) :
    LineStep locals session (candidateLine cand) { session with candidates := pushed } := by
  have hone : decimal 1 = ascii "1" := by decide
  have hline : candidateLine cand =
      0x61 :: 0x3D :: (ascii "candidate" ++ 0x3A :: candidateFields cand 1 []) := by
    rw [candidateFields, hone]
    simp [candidateLine, ascii, space]
  rw [hline]
  refine lineStep_candidateText locals session (noEol_candidateFields h 1 noEol_nil)
    (fun rest => ?_) pushed hpushed
  rw [candidateFields_append]
  exact parseCandidate_line h 1 (stopsAt_cons (.inl rfl) rest)

end TinyRtc.SdpCandidateLines
