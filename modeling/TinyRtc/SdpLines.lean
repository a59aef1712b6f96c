import TinyRtc.SdpScanning

namespace TinyRtc.SdpLines

open TinyRtc.Common
open TinyRtc.CString
open TinyRtc.Decimal
open TinyRtc.LabelledRuns
open TinyRtc.MediaCodec
open TinyRtc.SlotArray
open TinyRtc.Sdp
open TinyRtc.SdpGenerator
open TinyRtc.SdpParser
open TinyRtc.SdpScanning

theorem copyUntil_token {cap : Nat} {s : CStr cap} (h : Token s.bytes)
    (rest : List UInt8) :
    copyUntil cap 0x20 (s.bytes ++ 0x20 :: rest) = (s, 0x20 :: rest) :=
  copyUntil_cstr h.toLineText h.no_space (Or.inr rfl) (Or.inl h.ne_nil) rest

theorem copyUntil_line {cap : Nat} {s : CStr cap} (h : LineText s.bytes)
    (rest : List UInt8) :
    copyUntil cap 0x0A (s.bytes ++ 0x0D :: rest) = (s, 0x0D :: rest) := by
  apply copyUntil_cstr h
  · intro hmem
    exact absurd (h.no_eol _ hmem) (by decide)
  · exact Or.inl rfl
  · exact Or.inr (by decide)

theorem copyUntil_local (cap : Nat) (sep stop : UInt8) {text : List UInt8}
    (h : Token text) (hsep : sep ∉ text) (hfits : text.length ≤ cap - 1)
    (hstop : isEol stop ∨ stop = sep) (rest : List UInt8) :
    ∃ s : CStr cap, s.bytes = text ∧ copyUntil cap sep (text ++ stop :: rest) =
      (s, stop :: rest) := by
  obtain ⟨hbytes, hrest⟩ :=
    copyUntil_text cap sep stop h.toLineText hsep hfits hstop (Or.inl h.ne_nil) rest
  exact ⟨_, hbytes, Prod.ext rfl hrest⟩

theorem decimal_length_u64 (n : UInt64) : (decimal n.toNat).length ≤ 20 :=
  decimal_length_le (by decide) (Nat.lt_of_lt_of_le n.toNat_lt (by decide))

theorem parseUint64_decimal (n : UInt64) : parseUint64 (decimal n.toNat) = some n := by
  have := strtoull_decimal n [] (by simp [EndsNumber])
  rwa [List.append_nil] at this

theorem parseInt_decimalInt (n : Int32) (rest : List UInt8) (hrest : EndsNumber rest) :
    parseInt (decimalInt n.toInt ++ rest) = some n := by
  rw [parseInt, strtol_decimalInt n rest hrest]
  simp

theorem lineStep_version (locals : Locals) (session : SdpSession) (version : Int32) :
    LineStep locals session (ascii "v=" ++ decimalInt version.toInt)
      { session with version := version } := by
  refine ⟨0x76, decimalInt version.toInt, rfl, rfl, fun rest => ⟨[], noEol_nil, ?_⟩⟩
  have heol := findEol_append (token_decimalInt version.toInt).no_eol
    (rfl : isEol 0x0D = true) rest
  rw [parseField, if_pos rfl, parseInt_decimalInt version _ (endsNumber_cons rfl), heol]
  rfl

theorem orDefault_of_ne_nil {cap : Nat} {s : CStr cap} (h : s.bytes ≠ [])
    (default : List UInt8) : orDefault s default = s.bytes :=
  if_neg h

/-- The o-line carries all six origin fields; nothing of the uninitialised
locals gets into the session. -/
theorem lineStep_origin (locals : Locals) (session origin : SdpSession)
    (husername : Token origin.username.bytes) (hnetworkType : Token origin.networkType.bytes)
    (haddressType : Token origin.addressType.bytes)
    (hunicastAddress : Token origin.unicastAddress.bytes) :
    LineStep locals session (originLine origin)
      { session with
        username := origin.username
        sessionId := origin.sessionId
        sessionVersion := origin.sessionVersion
        networkType := origin.networkType
        addressType := origin.addressType
        unicastAddress := origin.unicastAddress } := by
  refine ⟨0x6F, (originLine origin).drop 2, ?_, rfl, fun rest => ⟨[], noEol_nil, ?_⟩⟩
  · rfl
  · have hid := token_decimal origin.sessionId.toNat
    have hver := token_decimal origin.sessionVersion.toNat
    have hidLen := decimal_length_u64 origin.sessionId
    have hverLen := decimal_length_u64 origin.sessionVersion
    have hbody : (originLine origin).drop 2 ++ 0x0D :: rest =
        origin.username.bytes ++ 0x20 :: (decimal origin.sessionId.toNat ++ 0x20 ::
          (decimal origin.sessionVersion.toNat ++ 0x20 :: (origin.networkType.bytes ++ 0x20 ::
            (origin.addressType.bytes ++ 0x20 ::
              (origin.unicastAddress.bytes ++ 0x0D :: rest))))) := by
      simp only [originLine, orDefault_of_ne_nil husername.ne_nil,
        orDefault_of_ne_nil hnetworkType.ne_nil, orDefault_of_ne_nil haddressType.ne_nil,
        orDefault_of_ne_nil hunicastAddress.ne_nil, space]
      simp [ascii]
    rw [hbody]
    obtain ⟨idStr, hidBytes, hidCopy⟩ := copyUntil_local 64 0x20 0x20 hid hid.no_space
      (by omega) (Or.inr rfl)
      (decimal origin.sessionVersion.toNat ++ 0x20 :: (origin.networkType.bytes ++ 0x20 ::
        (origin.addressType.bytes ++ 0x20 :: (origin.unicastAddress.bytes ++ 0x0D :: rest))))
    obtain ⟨verStr, hverBytes, hverCopy⟩ := copyUntil_local 64 0x20 0x20 hver hver.no_space
      (by omega) (Or.inr rfl)
      (origin.networkType.bytes ++ 0x20 :: (origin.addressType.bytes ++ 0x20 ::
        (origin.unicastAddress.bytes ++ 0x0D :: rest)))
    simp only [parseField, parseOrigin, copyUntil_space, copyUntil_token husername, hidCopy,
      hverCopy, copyUntil_token hnetworkType, copyUntil_token haddressType,
      copyUntil_line hunicastAddress.toLineText, hidBytes, hverBytes, parseUint64_decimal,
      Option.getD_some]
    rfl

theorem lineStep_sessionName (locals : Locals) (session : SdpSession) {sessionName : CStr 256}
    (h : LineText sessionName.bytes) :
    LineStep locals session (ascii "s=" ++ sessionName.bytes)
      { session with sessionName := sessionName } := by
  refine ⟨0x73, sessionName.bytes, rfl, rfl, fun rest => ⟨[], noEol_nil, ?_⟩⟩
  simp only [parseField, copyUntil_line h]
  rfl

theorem lineStep_timing (locals : Locals) (session : SdpSession) (startTime stopTime : UInt64) :
    LineStep locals session
      (ascii "t=" ++ decimal startTime.toNat ++ space ++ decimal stopTime.toNat)
      { session with startTime := startTime, stopTime := stopTime } := by
  refine ⟨0x74, decimal startTime.toNat ++ space ++ decimal stopTime.toNat, by simp [ascii], rfl,
    fun rest => ⟨[], noEol_nil, ?_⟩⟩
  have hstart := token_decimal startTime.toNat
  have hstop := token_decimal stopTime.toNat
  have hstartLen := decimal_length_u64 startTime
  have hstopLen := decimal_length_u64 stopTime
  have hbody : decimal startTime.toNat ++ space ++ decimal stopTime.toNat ++ 0x0D :: rest =
      decimal startTime.toNat ++ 0x20 :: (decimal stopTime.toNat ++ 0x0D :: rest) := by
    simp [space]
  obtain ⟨startStr, hstartBytes, hstartCopy⟩ := copyUntil_local 64 0x20 0x20 hstart
    hstart.no_space (by omega) (Or.inr rfl) (decimal stopTime.toNat ++ 0x0D :: rest)
  obtain ⟨stopStr, hstopBytes, hstopCopy⟩ := copyUntil_local 64 0x0A 0x0D
    hstop (fun hmem => absurd (hstop.no_eol _ hmem) (by decide)) (by omega)
    (Or.inl rfl) rest
  rw [hbody]
  simp only [parseField, parseTiming, copyUntil_space, hstartCopy, hstopCopy, hstartBytes,
    hstopBytes, parseUint64_decimal, Option.getD_some]
  rfl

/-- Attribute names are checked by evaluation. -/
def isAttributeName (name : List UInt8) : Bool :=
  isToken name && name.all (· != 0x3A) && name.length ≤ 64 - 1

theorem token_of_isAttributeName {name : List UInt8} (h : isAttributeName name = true) :
    Token name ∧ 0x3A ∉ name ∧ name.length ≤ 64 - 1 := by
  simp only [isAttributeName, Bool.and_eq_true, List.all_eq_true, bne_iff_ne,
    decide_eq_true_eq] at h
  exact ⟨token_of_isToken h.1.1, fun hmem => h.1.2 _ hmem rfl, h.2⟩

theorem lineStep_attribute {locals : Locals} {session session' : SdpSession}
    (name value : List UInt8) (hname : isAttributeName name = true)
    (hbranch : ∀ rest, ∃ left, NoEol left ∧
      parseNamedAttribute name (0x3A :: (value ++ 0x0D :: rest)) session =
        (left ++ 0x0D :: rest, session')) :
    LineStep locals session (0x61 :: 0x3D :: (name ++ 0x3A :: value)) session' := by
  obtain ⟨htoken, hcolon, hlen⟩ := token_of_isAttributeName hname
  refine ⟨0x61, name ++ 0x3A :: value, rfl, rfl, fun rest => ?_⟩
  obtain ⟨left, hleft, hparse⟩ := hbranch rest
  obtain ⟨attrName, hbytes, hcopy⟩ := copyUntil_local 64 0x3A 0x3A htoken hcolon hlen
    (Or.inr rfl) (value ++ 0x0D :: rest)
  refine ⟨left, hleft, ?_⟩
  rw [List.append_assoc, List.cons_append]
  rw [parseField_attribute]
  simp only [parseAttribute, hcopy, hbytes, hparse]

theorem lineStep_flag (locals : Locals) (session : SdpSession) (name : List UInt8)
    (hname : isAttributeName name = true)
    (hignored : ∀ p, parseNamedAttribute name p session = (p, session)) :
    LineStep locals session (0x61 :: 0x3D :: name) session := by
  obtain ⟨htoken, hcolon, hlen⟩ := token_of_isAttributeName hname
  refine ⟨0x61, name, rfl, rfl, fun rest => ⟨[], noEol_nil, ?_⟩⟩
  obtain ⟨attrName, hbytes, hcopy⟩ := copyUntil_local 64 0x3A 0x0D htoken hcolon hlen
    (Or.inl (rfl : isEol 0x0D = true)) rest
  rw [parseField_attribute]
  simp only [parseAttribute, hcopy, hbytes, hignored]
  rfl

theorem lineStep_iceUfrag (locals : Locals) (session : SdpSession) {iceUfrag : CStr 64}
    (h : LineText iceUfrag.bytes) :
    LineStep locals session (ascii "a=ice-ufrag:" ++ iceUfrag.bytes)
      { session with iceUfrag := iceUfrag } := by
  refine lineStep_attribute (ascii "ice-ufrag") iceUfrag.bytes rfl fun rest => ⟨[], noEol_nil, ?_⟩
  simp only [parseNamedAttribute, skipByte, if_true, copyUntil_line h]
  rfl

theorem lineStep_icePwd (locals : Locals) (session : SdpSession) {icePwd : CStr 128}
    (h : LineText icePwd.bytes) :
    LineStep locals session (ascii "a=ice-pwd:" ++ icePwd.bytes)
      { session with icePwd := icePwd } := by
  refine lineStep_attribute (ascii "ice-pwd") icePwd.bytes rfl fun rest => ⟨[], noEol_nil, ?_⟩
  simp only [parseNamedAttribute, skipByte, if_true, copyUntil_line h]
  rfl

theorem lineStep_dtlsSetup (locals : Locals) (session : SdpSession) {dtlsSetup : CStr 16}
    (h : LineText dtlsSetup.bytes) :
    LineStep locals session (ascii "a=setup:" ++ dtlsSetup.bytes)
      { session with dtlsSetup := dtlsSetup } := by
  refine lineStep_attribute (ascii "setup") dtlsSetup.bytes rfl fun rest => ⟨[], noEol_nil, ?_⟩
  simp only [parseNamedAttribute, skipByte, if_true, copyUntil_line h]
  rfl

theorem lineStep_fingerprint (locals : Locals) (session : SdpSession)
    {fingerprintType : CStr 16} {fingerprint : CStr 128} (htype : Token fingerprintType.bytes)
    (hfingerprint : LineText fingerprint.bytes) :
    LineStep locals session
      (ascii "a=fingerprint:" ++ fingerprintType.bytes ++ space ++ fingerprint.bytes)
      { session with fingerprintType := fingerprintType, fingerprint := fingerprint } := by
  have hline : ascii "a=fingerprint:" ++ fingerprintType.bytes ++ space ++ fingerprint.bytes =
      0x61 :: 0x3D :: (ascii "fingerprint" ++
        0x3A :: (fingerprintType.bytes ++ 0x20 :: fingerprint.bytes)) := by
    simp [ascii, space]
  rw [hline]
  refine lineStep_attribute (ascii "fingerprint") _ rfl fun rest =>
    ⟨fingerprintType.bytes ++ 0x20 :: fingerprint.bytes, ?_, ?_⟩
  · rw [noEol_append_iff, noEol_cons_iff]
    exact ⟨htype.no_eol, rfl, hfingerprint.no_eol⟩
  · have hcopy : parseFingerprint
        (fingerprintType.bytes ++ 0x20 :: fingerprint.bytes ++ 0x0D :: rest) =
          (fingerprintType, some fingerprint) := by
      have hskip : skipWhitespace (0x20 :: (fingerprint.bytes ++ 0x0D :: rest)) =
          fingerprint.bytes ++ 0x0D :: rest := by
        rw [skipWhitespace_space, skipWhitespace_text hfingerprint (Or.inr (by decide))]
      have htake : fingerprintLoop 128 (fingerprint.bytes ++ 0x0D :: rest) =
          fingerprint.bytes := by
        rw [fingerprintLoop, takeWhile_append_stop
          (fun c hc => by simp [hfingerprint.no_eol c hc]) rfl]
        exact List.take_of_length_le fingerprint.length_le
      rw [List.append_assoc, List.cons_append]
      simp only [parseFingerprint, copyUntil_token htype, hskip, htake, if_neg htype.ne_nil]
    simp only [parseNamedAttribute, skipByte, if_true, hcopy]
    rfl

end TinyRtc.SdpLines
