import TinyRtc.SdpCandidateLines

namespace TinyRtc.SdpRoundTrip

open TinyRtc.Common
open TinyRtc.CString
open TinyRtc.Decimal
open TinyRtc.LabelledRuns
open TinyRtc.SlotArray
open TinyRtc.Sdp
open TinyRtc.SdpGenerator
open TinyRtc.SdpParser
open TinyRtc.SdpScanning
open TinyRtc.SdpLines
open TinyRtc.SdpMediaLines
open TinyRtc.SdpCandidateLines

/-- A session of which the generated text carries every field. -/
structure CarriedSession (session : SdpSession) : Prop where
  version_eq : session.version = 0
  username : Token session.username.bytes
  networkType : Token session.networkType.bytes
  addressType : Token session.addressType.bytes
  unicastAddress : Token session.unicastAddress.bytes
  sessionName : LineText session.sessionName.bytes ∧ session.sessionName.bytes ≠ []
  iceUfrag : LineText session.iceUfrag.bytes
  icePwd : LineText session.icePwd.bytes
  fingerprint : LineText session.fingerprint.bytes
  fingerprintType : session.fingerprint.bytes ≠ [] → Token session.fingerprintType.bytes
  no_fingerprintType : session.fingerprint.bytes = [] → session.fingerprintType.bytes = []
  dtlsSetup : LineText session.dtlsSetup.bytes
  media : ∀ media ∈ session.media.items, CarriedMedia media
  payloadTypes : (session.media.items.map SdpMedia.payloadType).Nodup
  candidates : ∀ cand ∈ session.candidates.items, CarriedCandidate cand

theorem length_flatMap_le {α : Type*} (f : α → List UInt8) (items : List α) {k : Nat}
    (h : ∀ item ∈ items, (f item).length ≤ k) : (items.flatMap f).length ≤ items.length * k := by
  induction items with
  | nil => simp
  | cons item items ih =>
      have hitem := h item List.mem_cons_self
      have hrest := ih fun i hi => h i (List.mem_cons_of_mem _ hi)
      rw [List.flatMap_cons, List.length_append, List.length_cons, Nat.succ_mul]
      omega

/-- The bytes that lines take up in the text, their ends included. -/
def textLength (lines : List (List UInt8)) : Nat :=
  (lines.flatMap fun line => line ++ crlf).length

@[simp] theorem textLength_nil : textLength [] = 0 := rfl

@[simp] theorem textLength_cons (line : List UInt8) (lines : List (List UInt8)) :
    textLength (line :: lines) = line.length + 2 + textLength lines := by
  rw [textLength, List.flatMap_cons, List.length_append, List.length_append]
  rfl

@[simp] theorem textLength_append (first second : List (List UInt8)) :
    textLength (first ++ second) = textLength first + textLength second := by
  simp [textLength]

theorem textLength_optionalLine {cap : Nat} (s : CStr cap) (line : List UInt8) :
    textLength (optionalLine s line) ≤ line.length + 2 := by
  rw [optionalLine]
  split <;> simp

theorem length_orDefault {cap : Nat} (s : CStr cap) (default : List UInt8)
    (h : default.length ≤ cap - 1) : (orDefault s default).length ≤ cap - 1 := by
  rw [orDefault]
  split
  · exact h
  · exact s.length_le

theorem decimal_length_u32 (n : UInt32) : (decimal n.toNat).length ≤ 10 :=
  decimal_length_le (by decide) (Nat.lt_of_lt_of_le n.toNat_lt (by decide))

theorem decimal_length_u16 (n : UInt16) : (decimal n.toNat).length ≤ 5 :=
  decimal_length_le (by decide) (Nat.lt_of_lt_of_le n.toNat_lt (by decide))

theorem textLength_candidates (session : SdpSession) :
    textLength (session.candidates.items.map candidateLine) ≤ 32 * 180 := by
  have hline : ∀ cand : SdpCandidate, (candidateLine cand ++ crlf).length ≤ 180 := by
    intro cand
    have hfoundation := cand.foundation.length_le
    have hprotocol := cand.protocol.length_le
    have hip := cand.ip.length_le
    have htype := cand.type.length_le
    have hprio := decimal_length_u32 cand.priority
    have hport := decimal_length_u16 cand.port
    simp only [candidateLine, space, crlf, List.length_append]
    change 12 + _ + 3 + _ + 1 + _ + 1 + _ + 1 + _ + 5 + _ + 2 ≤ 180
    omega
  have hle := session.candidates.length_le
  rw [textLength, List.flatMap_map]
  have hall := length_flatMap_le (fun cand => candidateLine cand ++ crlf)
    session.candidates.items fun cand _ => hline cand
  change _ ≤ 32 at hle
  omega

theorem textLength_mediaLines (media : SdpMedia) : textLength (mediaLines media) ≤ 240 := by
  have hport := decimalInt_length media.port
  have hpt := decimalInt_length media.payloadType
  have hname : (mediaName media.kind).length = 5 := by cases media.kind <;> rfl
  have hcodec : (MediaCodec.tinyrtcCodecGetName media.codecId).length ≤ 4 := by
    cases media.codecId <;> decide
  have hencoding := encoding_length_le media
  have hmid := media.mid.length_le
  have hmidLine := textLength_optionalLine media.mid (ascii "a=mid:" ++ media.mid.bytes)
  have hdirection : (directionLine media).length ≤ 10 := by
    rw [directionLine]
    split_ifs <;> decide
  simp only [List.length_append, ascii] at hencoding hmidLine
  simp [mediaLines, space, ascii] at hencoding hmidLine ⊢
  omega

theorem textLength_groupLine (session : SdpSession) : textLength (groupLine session) ≤ 48 := by
  have hle := session.media.length_le
  have hmids := length_flatMap_le (k := 16) (fun media => space ++ media.mid.bytes)
    session.media.items fun media _ => by
      have := media.mid.length_le
      simp [space]
      omega
  change _ ≤ 2 at hle
  rw [groupLine]
  split
  · simp [ascii] at hmids ⊢
    omega
  · simp

theorem textLength_sessionLines (session : SdpSession) :
    textLength (sessionLines session) ≤ 1300 := by
  have hversion := decimalInt_length session.version
  have husername := length_orDefault session.username (ascii "-") (by decide)
  have hid := decimal_length_u64 session.sessionId
  have hver := decimal_length_u64 session.sessionVersion
  have hnetwork := length_orDefault session.networkType (ascii "IN") (by decide)
  have haddress := length_orDefault session.addressType (ascii "IP4") (by decide)
  have hunicast := length_orDefault session.unicastAddress (ascii "0.0.0.0")
    (by decide)
  have hname := length_orDefault session.sessionName (ascii "-") (by decide)
  have hstart := decimal_length_u64 session.startTime
  have hstop := decimal_length_u64 session.stopTime
  have hufrag := session.iceUfrag.length_le
  have hpwd := session.icePwd.length_le
  have htype := session.fingerprintType.length_le
  have hfp := session.fingerprint.length_le
  have hsetup := session.dtlsSetup.length_le
  have hufragLine := textLength_optionalLine session.iceUfrag
    (ascii "a=ice-ufrag:" ++ session.iceUfrag.bytes)
  have hpwdLine := textLength_optionalLine session.icePwd
    (ascii "a=ice-pwd:" ++ session.icePwd.bytes)
  have hfpLine := textLength_optionalLine session.fingerprint
    (ascii "a=fingerprint:" ++ session.fingerprintType.bytes ++ space ++
      session.fingerprint.bytes)
  have hsetupLine := textLength_optionalLine session.dtlsSetup
    (ascii "a=setup:" ++ session.dtlsSetup.bytes)
  have hgroup := textLength_groupLine session
  simp only [sessionLines, originLine, textLength_append, textLength_cons, textLength_nil,
    List.length_append] at hufragLine hpwdLine hfpLine hsetupLine ⊢
  have hascii : (ascii "v=").length = 2 ∧ (ascii "o=").length = 2 ∧ (ascii "s=").length = 2 ∧
      (ascii "t=").length = 2 ∧ (ascii "a=ice-ufrag:").length = 12 ∧
      (ascii "a=ice-pwd:").length = 10 ∧ (ascii "a=fingerprint:").length = 14 ∧
      (ascii "a=setup:").length = 8 ∧ (ascii "a=ice-options:trickle").length = 21 ∧
      space.length = 1 := by
    decide
  omega

theorem sdpText_length_lt (session : SdpSession) : (sdpText session).length < estimatedSize := by
  have hsession := textLength_sessionLines session
  have hcandidates := textLength_candidates session
  have hmedia : textLength (session.media.items.flatMap mediaLines) ≤ 2 * 240 := by
    have hle := session.media.length_le
    have hall := length_flatMap_le (k := 240)
      (fun media => (mediaLines media).flatMap fun line => line ++ crlf) session.media.items
      fun media _ => textLength_mediaLines media
    change _ ≤ 2 at hle
    rw [textLength, List.flatMap_assoc]
    omega
  have htotal : (sdpText session).length = textLength (sessionLines session) +
      textLength (session.media.items.flatMap mediaLines) +
        textLength (session.candidates.items.map candidateLine) := by
    rw [← textLength_append, ← textLength_append]
    rfl
  rw [htotal, estimatedSize]
  omega

theorem sdpGenerate_ok (session : SdpSession) :
    sdpGenerate true session = some (.ok (sdpText session)) := by
  rw [sdpGenerate, if_neg (by simp), if_pos (sdpText_length_lt session)]

theorem optionalLine_run {locals : Locals} {cap : Nat} {s : CStr cap} {line : List UInt8}
    {session session' : SdpSession} (hempty : s.bytes = [] → session = session')
    (hline : s.bytes ≠ [] → LineStep locals session line session') :
    Run (LineStep locals) session (optionalLine s line) session' := by
  rw [optionalLine]
  split
  · rename_i h
    rw [hempty h]
    exact .nil _
  · rename_i h
    exact .singleton (hline h)

def header (session : SdpSession) : SdpSession :=
  { session with media := .empty, candidates := .empty }

theorem groupLine_run (locals : Locals) {session : SdpSession} (h : CarriedSession session) :
    Run (LineStep locals) (header session) (groupLine session) (header session) := by
  rw [groupLine]
  split
  · have hmids : NoEol (session.media.items.flatMap fun media => space ++ media.mid.bytes) := by
      intro c hc
      obtain ⟨media, hmem, hc⟩ := List.mem_flatMap.mp hc
      rcases List.mem_append.mp hc with hc | hc
      · exact (noEol_of_all rfl : NoEol space) c hc
      · exact (h.media media hmem).mid.no_eol c hc
    have hline : ascii "a=group:BUNDLE" ++
        (session.media.items.flatMap fun media => space ++ media.mid.bytes) =
        0x61 :: 0x3D :: (ascii "group" ++ 0x3A :: (ascii "BUNDLE" ++
          session.media.items.flatMap fun media => space ++ media.mid.bytes)) := by
      simp [ascii]
    rw [hline]
    refine .singleton (lineStep_attribute (ascii "group") _ rfl fun rest =>
      ⟨0x3A :: (ascii "BUNDLE" ++
        session.media.items.flatMap fun media => space ++ media.mid.bytes), ?_, rfl⟩)
    rw [noEol_cons_iff, noEol_append_iff]
    exact ⟨rfl, noEol_of_all rfl, hmids⟩
  · exact .nil _

/-- The lines before the media descriptions set the fields one after the other. -/
theorem sessionLines_run (locals : Locals) {session : SdpSession} (h : CarriedSession session) :
    Run (LineStep locals) sdpSessionInit (sessionLines session) (header session) := by
  have hversion := lineStep_version locals sdpSessionInit session.version
  have horigin := lineStep_origin locals { sdpSessionInit with version := session.version }
    session h.username h.networkType h.addressType h.unicastAddress
  have hname := lineStep_sessionName locals
    { header session with
      sessionName := .empty, startTime := 0, stopTime := 0, iceUfrag := .empty, icePwd := .empty,
      fingerprint := .empty, fingerprintType := .empty, dtlsSetup := .empty }
    h.sessionName.1
  have htiming := lineStep_timing locals
    { header session with
      startTime := 0, stopTime := 0, iceUfrag := .empty, icePwd := .empty,
      fingerprint := .empty, fingerprintType := .empty, dtlsSetup := .empty }
    session.startTime session.stopTime
  have hufrag : Run (LineStep locals)
      { header session with
        iceUfrag := .empty, icePwd := .empty, fingerprint := .empty,
        fingerprintType := .empty, dtlsSetup := .empty }
      (optionalLine session.iceUfrag (ascii "a=ice-ufrag:" ++ session.iceUfrag.bytes))
      { header session with
        icePwd := .empty, fingerprint := .empty, fingerprintType := .empty, dtlsSetup := .empty } :=
    optionalLine_run
      (fun hempty => by rw [header, show session.iceUfrag = .empty from CStr.ext hempty])
      fun _ => lineStep_iceUfrag locals _ h.iceUfrag
  have hpwd : Run (LineStep locals)
      { header session with
        icePwd := .empty, fingerprint := .empty, fingerprintType := .empty, dtlsSetup := .empty }
      (optionalLine session.icePwd (ascii "a=ice-pwd:" ++ session.icePwd.bytes))
      { header session with
        fingerprint := .empty, fingerprintType := .empty, dtlsSetup := .empty } :=
    optionalLine_run
      (fun hempty => by rw [header, show session.icePwd = .empty from CStr.ext hempty])
      fun _ => lineStep_icePwd locals _ h.icePwd
  have hfingerprint : Run (LineStep locals)
      { header session with
        fingerprint := .empty, fingerprintType := .empty, dtlsSetup := .empty }
      (optionalLine session.fingerprint
        (ascii "a=fingerprint:" ++ session.fingerprintType.bytes ++ space ++
          session.fingerprint.bytes))
      { header session with dtlsSetup := .empty } :=
    optionalLine_run
      (fun hempty => by
        rw [header, show session.fingerprint = .empty from CStr.ext hempty,
          show session.fingerprintType = .empty from CStr.ext (h.no_fingerprintType hempty)])
      fun hne => lineStep_fingerprint locals _ (h.fingerprintType hne) h.fingerprint
  have hsetup : Run (LineStep locals) { header session with dtlsSetup := .empty }
      (optionalLine session.dtlsSetup (ascii "a=setup:" ++ session.dtlsSetup.bytes))
      (header session) :=
    optionalLine_run
      (fun hempty => by rw [header, show session.dtlsSetup = .empty from CStr.ext hempty])
      fun _ => lineStep_dtlsSetup locals _ h.dtlsSetup
  have hgroup := groupLine_run locals h
  have hoptions : LineStep locals (header session) (ascii "a=ice-options:trickle")
      (header session) :=
    lineStep_attribute (ascii "ice-options") (ascii "trickle") rfl
    fun rest => ⟨0x3A :: ascii "trickle", noEol_of_all rfl, rfl⟩
  have hfirst : Run (LineStep locals) sdpSessionInit
      [ascii "v=" ++ decimalInt session.version.toInt, originLine session,
        ascii "s=" ++ orDefault session.sessionName (ascii "-"),
        ascii "t=" ++ decimal session.startTime.toNat ++ space ++
          decimal session.stopTime.toNat]
      { header session with
        iceUfrag := .empty, icePwd := .empty, fingerprint := .empty,
        fingerprintType := .empty, dtlsSetup := .empty } := by
    rw [orDefault_of_ne_nil h.sessionName.2]
    exact .cons hversion (.cons horigin (.cons hname (.singleton htiming)))
  exact (((((hfirst.append hufrag).append hpwd).append hfingerprint).append hsetup).append
    hgroup).append (.singleton hoptions)

theorem media_run (locals : Locals) (session : SdpSession) {todo : List SdpMedia}
    (hcarried : ∀ media ∈ todo, CarriedMedia media)
    (hdistinct : ((session.media.items ++ todo).map SdpMedia.payloadType).Nodup)
    (final : Slots SdpMedia sdpMaxMedia) (hfinal : final.items = session.media.items ++ todo) :
    Run (LineStep locals) session (todo.flatMap mediaLines) { session with media := final } := by
  induction todo generalizing session with
  | nil =>
      have heq : final = session.media := Slots.ext (by rw [hfinal, List.append_nil])
      rw [heq]
      exact .nil _
  | cons media todo ih =>
      have hroom : (session.media.items ++ [media]).length ≤ sdpMaxMedia := by
        have hle := final.length_le
        rw [hfinal] at hle
        simp only [List.length_append, List.length_cons, List.length_nil] at hle ⊢
        omega
      have hnew : ∀ other ∈ session.media.items, other.payloadType ≠ media.payloadType := by
        intro other hother
        rw [List.map_append, List.nodup_append] at hdistinct
        exact hdistinct.2.2 _ (List.mem_map_of_mem hother) _
          (List.mem_map_of_mem List.mem_cons_self)
      have hhead := mediaLines_run locals session (hcarried media List.mem_cons_self) hnew
        ⟨session.media.items ++ [media], hroom⟩ rfl
      have hrest := ih { session with media := ⟨session.media.items ++ [media], hroom⟩ }
        (fun m hm => hcarried m (List.mem_cons_of_mem _ hm)) (by simpa using hdistinct)
        (by simpa using hfinal)
      rw [List.flatMap_cons]
      exact hhead.append hrest

theorem candidates_run (locals : Locals) (session : SdpSession) {todo : List SdpCandidate}
    (hcarried : ∀ cand ∈ todo, CarriedCandidate cand)
    (final : Slots SdpCandidate tinyrtcMaxCandidates)
    (hfinal : final.items = session.candidates.items ++ todo) :
    Run (LineStep locals) session (todo.map candidateLine)
      { session with candidates := final } := by
  induction todo generalizing session with
  | nil =>
      have heq : final = session.candidates := Slots.ext (by rw [hfinal, List.append_nil])
      rw [heq]
      exact .nil _
  | cons cand todo ih =>
      have hroom : (session.candidates.items ++ [cand]).length ≤ tinyrtcMaxCandidates := by
        have hle := final.length_le
        rw [hfinal] at hle
        simp only [List.length_append, List.length_cons, List.length_nil] at hle ⊢
        omega
      have hhead := lineStep_candidate locals session (hcarried cand List.mem_cons_self)
        ⟨session.candidates.items ++ [cand], hroom⟩ rfl
      have hrest := ih
        { session with candidates := ⟨session.candidates.items ++ [cand], hroom⟩ }
        (fun c hc => hcarried c (List.mem_cons_of_mem _ hc)) (by simpa using hfinal)
      exact .cons hhead hrest

/-- Parsing the generated text gives back the session, whatever is left in the
parser's uninitialised locals. -/
theorem sdpParse_generate (locals : Locals) {session : SdpSession} (h : CarriedSession session) :
    ∃ text, sdpGenerate true session = some (.ok text) ∧
      sdpParse locals text = some (.ok, session) := by
  refine ⟨sdpText session, sdpGenerate_ok session, ?_⟩
  have hmedia := media_run locals (header session) h.media h.payloadTypes session.media rfl
  have hcandidates := candidates_run locals { header session with media := session.media }
    h.candidates session.candidates rfl
  have hrun : Run (LineStep locals) sdpSessionInit (sdpLines session) session :=
    ((sessionLines_run locals h).append hmedia).append hcandidates
  have hfuel : (sdpLines session).length ≤ (sdpText session).length := by
    have : ∀ lines : List (List UInt8), lines.length ≤ textLength lines := by
      intro lines
      induction lines with
      | nil => simp
      | cons line lines ih =>
          rw [textLength_cons, List.length_cons]
          omega
    exact this _
  have hloop : sdpParseLoop locals (sdpText session).length (sdpText session) sdpSessionInit =
      some session :=
    sdpParseLoop_run hrun hfuel
  rw [sdpParse, hloop]
  simp [h.version_eq]

/-- A session as the tests generate it, with a candidate. -/
def sampleSession : SdpSession :=
  { sdpSessionInit with
    username := CStr.strncpy (ascii "-")
    sessionId := 1234567890
    sessionVersion := 2
    networkType := CStr.strncpy (ascii "IN")
    addressType := CStr.strncpy (ascii "IP4")
    unicastAddress := CStr.strncpy (ascii "0.0.0.0")
    sessionName := CStr.strncpy (ascii "TinyRTC Test")
    iceUfrag := CStr.strncpy (ascii "abcd")
    fingerprint := CStr.strncpy (ascii "AA:BB:CC")
    fingerprintType := CStr.strncpy (ascii "sha-256")
    dtlsSetup := CStr.strncpy (ascii "actpass")
    media :=
      ⟨[{ kind := .video
          port := 9
          payloadType := 100
          codecId := .h264
          clockRate := 90000
          channels := 1
          mid := CStr.strncpy (ascii "video0")
          directionSend := true
          directionRecv := true }], by decide⟩
    candidates :=
      ⟨[{ foundation := CStr.strncpy (ascii "1")
          priority := 0
          ip := CStr.strncpy (ascii "fe80::1")
          port := 40000
          type := CStr.strncpy (ascii "host")
          protocol := CStr.strncpy (ascii "udp")
          isIpv6 := true }], by decide⟩ }

theorem sampleSession_carried : CarriedSession sampleSession where
  version_eq := rfl
  username := token_of_isToken rfl
  networkType := token_of_isToken rfl
  addressType := token_of_isToken rfl
  unicastAddress := token_of_isToken rfl
  sessionName := ⟨lineText_of_isLineText rfl, by decide⟩
  iceUfrag := lineText_of_isLineText rfl
  icePwd := lineText_of_isLineText rfl
  fingerprint := lineText_of_isLineText rfl
  fingerprintType := fun _ => token_of_isToken rfl
  no_fingerprintType := fun h => absurd h (by decide)
  dtlsSetup := lineText_of_isLineText rfl
  media := by
    intro media hmem
    obtain rfl := List.mem_singleton.mp hmem
    exact ⟨by decide, by decide, fun _ => rfl, lineText_of_isLineText rfl, rfl, rfl⟩
  payloadTypes := by decide
  candidates := by
    intro cand hmem
    obtain rfl := List.mem_singleton.mp hmem
    exact ⟨token_of_isToken rfl, token_of_isToken rfl, token_of_isToken rfl,
      token_of_isToken rfl, by decide⟩

theorem sdpParse_generate_sampleSession :
    ∃ text, sdpGenerate true sampleSession = some (.ok text) ∧
      sdpParse ⟨fun _ => 7, fun _ => 7⟩ text = some (.ok, sampleSession) :=
  sdpParse_generate ⟨fun _ => 7, fun _ => 7⟩ sampleSession_carried

end TinyRtc.SdpRoundTrip
