import TinyRtc.SdpRoundTrip

namespace TinyRtc.SdpBuffer

open TinyRtc.Common
open TinyRtc.CString
open TinyRtc.Decimal
open TinyRtc.MediaCodec
open TinyRtc.Sdp
open TinyRtc.SdpGenerator
open TinyRtc.SdpMediaLines
open TinyRtc.SdpRoundTrip

/-- `tinyrtc_codec_get_name`. `none` is a number that no entry of the table has. -/
def codecName (codec : Option CodecId) : List UInt8 :=
  codec.elim (ascii "UNKNOWN") tinyrtcCodecGetName

/-- The lines of one media description, with the codec that its number is found to be. -/
def mediaDescription (codec : Option CodecId) (media : SdpMedia) : List (List UInt8) :=
  [ascii "m=" ++ mediaName media.kind ++ space ++ decimalInt media.port.toInt ++
      ascii " UDP/TLS/RTP/SAVPF " ++ decimalInt media.payloadType.toInt,
    ascii "a=rtpmap:" ++ decimalInt media.payloadType.toInt ++ space ++ codecName codec ++
      ascii "/" ++ decimal media.clockRate.toNat ++ channelSuffix media] ++
  optionalLine media.mid (ascii "a=mid:" ++ media.mid.bytes) ++
  [ascii "a=rtcp-mux", directionLine media]

theorem mediaDescription_some (media : SdpMedia) :
    mediaDescription (some media.codecId) media = mediaLines media := rfl

/-- The texts that the group line is written in. -/
def groupPieces (session : SdpSession) : List (List UInt8) :=
  if session.media.items ≠ [] ∧ ∀ media ∈ session.media.items, media.mid.bytes ≠ [] then
    ascii "a=group:BUNDLE" :: (session.media.items.map fun media => space ++ media.mid.bytes) ++
      [crlf]
  else []

/-- The text of one `SDP_APPEND_LINE`. -/
def linePiece (line : List UInt8) : List UInt8 :=
  line ++ crlf

def headPieces (session : SdpSession) : List (List UInt8) :=
  ([ascii "v=" ++ decimalInt session.version.toInt,
      originLine session,
      ascii "s=" ++ orDefault session.sessionName (ascii "-"),
      ascii "t=" ++ decimal session.startTime.toNat ++ space ++
        decimal session.stopTime.toNat] ++
    optionalLine session.iceUfrag (ascii "a=ice-ufrag:" ++ session.iceUfrag.bytes) ++
    optionalLine session.icePwd (ascii "a=ice-pwd:" ++ session.icePwd.bytes) ++
    optionalLine session.fingerprint
      (ascii "a=fingerprint:" ++ session.fingerprintType.bytes ++ space ++
        session.fingerprint.bytes) ++
    optionalLine session.dtlsSetup (ascii "a=setup:" ++ session.dtlsSetup.bytes)).map linePiece

/-- What the calls of `snprintf` write, one after the other. -/
def sdpPieces (codecOf : SdpMedia → Option CodecId) (session : SdpSession) :
    List (List UInt8) :=
  headPieces session ++ groupPieces session ++ [linePiece (ascii "a=ice-options:trickle")] ++
    (session.media.items.flatMap fun media => mediaDescription (codecOf media) media).map
      linePiece ++
    (session.candidates.items.map candidateLine).map linePiece

/-- The buffer, and how far it is written. -/
structure TextBuffer where
  bytes : List UInt8
  offset : Nat

/-- `buf_size - offset` as a `size_t`. -/
def room (offset : Nat) : Nat :=
  (2 ^ 64 + estimatedSize - offset) % 2 ^ 64

/-- `snprintf` at an offset of the buffer: what the size leaves of the text, and a NUL.
`none` is a write past the end of the buffer. -/
def snprintf (bytes : List UInt8) (offset size : Nat) (text : List UInt8) :
    Option (List UInt8) :=
  if size = 0 then some bytes
  else
    let written := text.take (size - 1) ++ [0x00]
    if offset + written.length ≤ bytes.length then
      some (bytes.take offset ++ written ++ bytes.drop (offset + written.length))
    else none

/-- The offset grows by the length of the text, whether all of it is written or not. -/
def sdpAppend (buffer : TextBuffer) (text : List UInt8) : Option TextBuffer :=
  (snprintf buffer.bytes buffer.offset (room buffer.offset) text).map fun bytes =>
    ⟨bytes, (buffer.offset + text.length) % 2 ^ 64⟩

def sdpAppendAll (buffer : TextBuffer) : List (List UInt8) → Option TextBuffer
  | [] => some buffer
  | text :: texts => (sdpAppend buffer text).bind fun buffer => sdpAppendAll buffer texts

/-- `buf[offset] = '\0'`. -/
def terminate (buffer : TextBuffer) : Option (List UInt8) :=
  if buffer.offset < buffer.bytes.length then some (buffer.bytes.set buffer.offset 0x00)
  else none

/-- The buffer that `sdp_generate` returns, from what `tinyrtc_malloc` gave. -/
def sdpWrite (codecOf : SdpMedia → Option CodecId) (session : SdpSession)
    (memory : List UInt8) : Option (List UInt8) :=
  (sdpAppendAll ⟨memory, 0⟩ (sdpPieces codecOf session)).bind terminate

/-- No call of `snprintf` is short of room, and the terminator is in the buffer. -/
structure TextFits (codecOf : SdpMedia → Option CodecId) (session : SdpSession) : Prop where
  length_le : (sdpPieces codecOf session).flatten.length ≤ 8191
  roomy : ∀ memory, memory.length = estimatedSize → ∀ before text after,
    sdpPieces codecOf session = before ++ text :: after →
      ∃ buffer, sdpAppendAll ⟨memory, 0⟩ before = some buffer ∧
        buffer.offset ≤ estimatedSize ∧ room buffer.offset = estimatedSize - buffer.offset ∧
        text.length < room buffer.offset
  written : ∀ memory, memory.length = estimatedSize → ∃ rest,
    sdpWrite codecOf session memory =
        some ((sdpPieces codecOf session).flatten ++ 0x00 :: rest) ∧
      ((sdpPieces codecOf session).flatten ++ 0x00 :: rest).length = estimatedSize

/-- The text is written from the start of the buffer. -/
structure Written (memory text : List UInt8) (buffer : TextBuffer) : Prop where
  offset_eq : buffer.offset = text.length
  bytes_prefix : text <+: buffer.bytes
  length_eq : buffer.bytes.length = memory.length

theorem room_eq {offset : Nat} (h : offset ≤ estimatedSize) :
    room offset = estimatedSize - offset := by
  rw [estimatedSize] at h
  rw [room, estimatedSize]
  omega

theorem sdpAppend_written {memory before : List UInt8} {buffer : TextBuffer}
    (hmemory : memory.length = estimatedSize) (hbuffer : Written memory before buffer)
    (text : List UInt8) (hfits : before.length + text.length < estimatedSize) :
    ∃ next, sdpAppend buffer text = some next ∧ Written memory (before ++ text) next := by
  obtain ⟨hoffset, ⟨tail, htail⟩, hlength⟩ := hbuffer
  have hroom : room buffer.offset = estimatedSize - buffer.offset := room_eq (by omega)
  have hsize : estimatedSize = 8192 := rfl
  have htake : text.take (room buffer.offset - 1) = text :=
    List.take_of_length_le (by omega)
  have hbefore : buffer.bytes.take buffer.offset = before := by
    rw [← htail, hoffset, List.take_left]
  have hwritten : snprintf buffer.bytes buffer.offset (room buffer.offset) text =
      some (before ++ (text ++ [0x00]) ++
        buffer.bytes.drop (buffer.offset + (text ++ [0x00]).length)) := by
    rw [snprintf, if_neg (by omega), htake, hbefore]
    exact if_pos (by rw [List.length_append, List.length_singleton]; omega)
  refine ⟨_, by rw [sdpAppend, hwritten]; rfl, ?_, ?_, ?_⟩
  · change (buffer.offset + text.length) % 2 ^ 64 = (before ++ text).length
    rw [List.length_append, ← hoffset]
    exact Nat.mod_eq_of_lt (by omega)
  · exact ⟨0x00 :: buffer.bytes.drop (buffer.offset + (text ++ [0x00]).length), by simp⟩
  · simp only [List.length_append, List.length_drop, List.length_singleton]
    omega

theorem sdpAppendAll_written {memory : List UInt8} (hmemory : memory.length = estimatedSize)
    (texts : List (List UInt8)) {before : List UInt8} {buffer : TextBuffer}
    (hbuffer : Written memory before buffer)
    (hfits : before.length + texts.flatten.length < estimatedSize) :
    ∃ last, sdpAppendAll buffer texts = some last ∧
      Written memory (before ++ texts.flatten) last := by
  induction texts generalizing before buffer with
  | nil => exact ⟨buffer, rfl, by rwa [List.flatten_nil, List.append_nil]⟩
  | cons text texts ih =>
      rw [List.flatten_cons, List.length_append] at hfits
      obtain ⟨next, hnext, hwritten⟩ :=
        sdpAppend_written hmemory hbuffer text (by omega)
      obtain ⟨last, hlast, hall⟩ := ih hwritten (by rw [List.length_append]; omega)
      refine ⟨last, ?_, ?_⟩
      · rw [sdpAppendAll, hnext, Option.bind_some, hlast]
      · rwa [List.flatten_cons, ← List.append_assoc]

theorem written_start (memory : List UInt8) : Written memory [] ⟨memory, 0⟩ :=
  ⟨rfl, List.nil_prefix, rfl⟩

theorem terminate_written {memory text : List UInt8} {buffer : TextBuffer}
    (hbuffer : Written memory text buffer) (hfits : text.length < memory.length) :
    ∃ rest, terminate buffer = some (text ++ 0x00 :: rest) ∧
      (text ++ 0x00 :: rest).length = memory.length := by
  obtain ⟨hoffset, ⟨tail, htail⟩, hlength⟩ := hbuffer
  have htotal := congrArg List.length htail
  rw [List.length_append] at htotal
  cases tail with
  | nil =>
      rw [List.length_nil] at htotal
      omega
  | cons c rest =>
      refine ⟨rest, ?_, ?_⟩
      · rw [terminate, if_pos (by omega), ← htail, hoffset, 
          List.set_append_right _ _ (Nat.le_refl text.length), Nat.sub_self, List.set_cons_zero]
      · rw [← hlength, ← htail, List.length_append, List.length_append]
        rfl

/-- A text that is short enough as a whole leaves room for each of its pieces. -/
theorem textFits_of_length {codecOf : SdpMedia → Option CodecId} {session : SdpSession}
    (h : (sdpPieces codecOf session).flatten.length < estimatedSize) :
    TextFits codecOf session where
  length_le := Nat.le_of_lt_succ h
  roomy memory hmemory before text after hpieces := by
    rw [hpieces, List.flatten_append, List.flatten_cons, List.length_append,
      List.length_append] at h
    obtain ⟨buffer, hbuffer, hwritten⟩ := sdpAppendAll_written hmemory before
      (written_start memory) (by rw [List.length_nil]; omega)
    have hoffset := hwritten.offset_eq
    rw [List.nil_append] at hoffset
    have hle : buffer.offset ≤ estimatedSize := by omega
    refine ⟨buffer, hbuffer, hle, room_eq hle, ?_⟩
    rw [room_eq hle]
    omega
  written memory hmemory := by
    obtain ⟨buffer, hbuffer, hwritten⟩ := sdpAppendAll_written hmemory
      (sdpPieces codecOf session) (written_start memory) (by rw [List.length_nil]; omega)
    rw [List.nil_append] at hwritten
    obtain ⟨rest, hterminated, hlength⟩ := terminate_written hwritten (by omega)
    refine ⟨rest, ?_, hlength.trans hmemory⟩
    rw [sdpWrite, hbuffer, Option.bind_some, hterminated]

theorem flatten_map_linePiece (lines : List (List UInt8)) :
    (lines.map linePiece).flatten = lines.flatMap fun line => line ++ crlf := rfl

theorem flatten_groupPieces (session : SdpSession) :
    (groupPieces session).flatten = (groupLine session).flatMap fun line => line ++ crlf := by
  rw [groupPieces, groupLine]
  split
  · simp [List.flatMap]
  · rfl

/-- The pieces make up the lines. -/
theorem flatten_sdpPieces (codecOf : SdpMedia → Option CodecId) (session : SdpSession) :
    (sdpPieces codecOf session).flatten =
      (sessionLines session ++
        (session.media.items.flatMap fun media => mediaDescription (codecOf media) media) ++
        session.candidates.items.map candidateLine).flatMap fun line => line ++ crlf := by
  simp only [sdpPieces, headPieces, sessionLines, List.flatten_append, flatten_map_linePiece,
    flatten_groupPieces, List.flatMap_append, List.append_assoc]
  rfl

theorem length_codecName (codec : Option CodecId) : (codecName codec).length ≤ 7 := by
  cases codec with
  | none => decide
  | some id => cases id <;> decide

theorem textLength_mediaDescription (codec : Option CodecId) (media : SdpMedia) :
    textLength (mediaDescription codec media) ≤ 243 := by
  have hport := decimalInt_length media.port
  have hpt := decimalInt_length media.payloadType
  have hname : (mediaName media.kind).length = 5 := by cases media.kind <;> rfl
  have hcodec := length_codecName codec
  have hencoding := encoding_length_le media
  have hmid := media.mid.length_le
  have hmidLine := textLength_optionalLine media.mid (ascii "a=mid:" ++ media.mid.bytes)
  have hdirection : (directionLine media).length ≤ 10 := by
    rw [directionLine]
    split_ifs <;> decide
  simp only [List.length_append, ascii] at hencoding hmidLine
  simp [mediaDescription, space, ascii] at hencoding hmidLine ⊢
  omega

theorem length_flatten_sdpPieces (codecOf : SdpMedia → Option CodecId) (session : SdpSession) :
    (sdpPieces codecOf session).flatten.length < estimatedSize := by
  have hsession := textLength_sessionLines session
  have hcandidates := textLength_candidates session
  have hmedia : textLength (session.media.items.flatMap fun media =>
      mediaDescription (codecOf media) media) ≤ 2 * 243 := by
    have hle : session.media.items.length ≤ 2 := session.media.length_le
    have hall := length_flatMap_le (k := 243) (fun media =>
      (mediaDescription (codecOf media) media).flatMap fun line => line ++ crlf)
        session.media.items fun media _ => textLength_mediaDescription (codecOf media) media
    rw [textLength, List.flatMap_assoc]
    exact Nat.le_trans hall (Nat.mul_le_mul_right 243 hle)
  rw [flatten_sdpPieces]
  change textLength _ < _
  rw [textLength_append, textLength_append, estimatedSize]
  omega

/-- Every session's text fits, whatever numbers its codecs have. -/
theorem textFits (codecOf : SdpMedia → Option CodecId) (session : SdpSession) :
    TextFits codecOf session :=
  textFits_of_length (length_flatten_sdpPieces codecOf session)

theorem flatten_sdpPieces_codecId (session : SdpSession) :
    (sdpPieces (fun media => some media.codecId) session).flatten = sdpText session := by
  simp only [flatten_sdpPieces, mediaDescription_some]
  rfl

theorem not_mem_nul_decimal (n : Nat) : 0x00 ∉ decimal n :=
  not_mem_decimal rfl n

theorem not_mem_nul_decimalInt (n : Int) : 0x00 ∉ decimalInt n := by
  intro hmem
  rcases plain_decimalInt n 0x00 hmem with h | h | h
  · cases h
  · cases h
  · cases h

theorem not_mem_nul_orDefault {cap : Nat} (s : CStr cap) {default : List UInt8}
    (h : 0x00 ∉ default) : 0x00 ∉ orDefault s default := by
  rw [orDefault]
  split
  · exact h
  · exact s.no_nul

theorem not_mem_nul_optionalLine {cap : Nat} {s : CStr cap} {line : List UInt8}
    (h : 0x00 ∉ line) : ∀ text ∈ optionalLine s line, 0x00 ∉ text := by
  rw [optionalLine]
  split
  · exact List.forall_mem_nil _
  · exact List.forall_mem_singleton.mpr h

theorem not_mem_nul_originLine (session : SdpSession) : 0x00 ∉ originLine session := by
  have hdefaults : 0x00 ∉ ascii "-" ∧ 0x00 ∉ ascii "IN" ∧ 0x00 ∉ ascii "IP4" ∧
      0x00 ∉ ascii "0.0.0.0" ∧ 0x00 ∉ ascii "o=" ∧ 0x00 ∉ space := by
    decide
  have husername := not_mem_nul_orDefault session.username hdefaults.1
  have hnetwork := not_mem_nul_orDefault session.networkType hdefaults.2.1
  have haddress := not_mem_nul_orDefault session.addressType hdefaults.2.2.1
  have hunicast := not_mem_nul_orDefault session.unicastAddress hdefaults.2.2.2.1
  simp only [originLine, List.mem_append, not_or, not_mem_nul_decimal, husername, hnetwork,
    haddress, hunicast, hdefaults, not_false_eq_true, and_self]

theorem not_mem_nul_sessionLines (session : SdpSession) :
    ∀ line ∈ sessionLines session, 0x00 ∉ line := by
  have hplain : 0x00 ∉ ascii "v=" ∧ 0x00 ∉ ascii "s=" ∧ 0x00 ∉ ascii "t=" ∧ 0x00 ∉ space ∧
      0x00 ∉ ascii "-" ∧ 0x00 ∉ ascii "a=ice-ufrag:" ∧ 0x00 ∉ ascii "a=ice-pwd:" ∧
      0x00 ∉ ascii "a=fingerprint:" ∧ 0x00 ∉ ascii "a=setup:" ∧ 0x00 ∉ ascii "a=group:BUNDLE" ∧
      0x00 ∉ ascii "a=ice-options:trickle" := by
    decide
  have hname := not_mem_nul_orDefault session.sessionName hplain.2.2.2.2.1
  have hufrag : 0x00 ∉ ascii "a=ice-ufrag:" ++ session.iceUfrag.bytes := by
    simp only [List.mem_append, not_or, hplain, session.iceUfrag.no_nul, not_false_eq_true,
      and_self]
  have hpwd : 0x00 ∉ ascii "a=ice-pwd:" ++ session.icePwd.bytes := by
    simp only [List.mem_append, not_or, hplain, session.icePwd.no_nul, not_false_eq_true, and_self]
  have hfingerprint : 0x00 ∉ ascii "a=fingerprint:" ++ session.fingerprintType.bytes ++ space ++
      session.fingerprint.bytes := by
    simp only [List.mem_append, not_or, hplain, session.fingerprintType.no_nul,
      session.fingerprint.no_nul, not_false_eq_true, and_self]
  have hsetup : 0x00 ∉ ascii "a=setup:" ++ session.dtlsSetup.bytes := by
    simp only [List.mem_append, not_or, hplain, session.dtlsSetup.no_nul, not_false_eq_true,
      and_self]
  have hgroup : ∀ line ∈ groupLine session, 0x00 ∉ line := by
    have hmids : 0x00 ∉ session.media.items.flatMap fun media => space ++ media.mid.bytes := by
      intro hmem
      obtain ⟨media, -, hmem⟩ := List.mem_flatMap.mp hmem
      rcases List.mem_append.mp hmem with hmem | hmem
      · exact hplain.2.2.2.1 hmem
      · exact media.mid.no_nul hmem
    rw [groupLine]
    split
    · refine List.forall_mem_singleton.mpr ?_
      simp only [List.mem_append, not_or, hplain, hmids, not_false_eq_true, and_self]
    · exact List.forall_mem_nil _
  simp only [sessionLines, List.forall_mem_append, List.forall_mem_cons]
  refine ⟨⟨⟨⟨⟨⟨⟨?_, not_mem_nul_originLine session, ?_, ?_, List.forall_mem_nil _⟩,
    not_mem_nul_optionalLine hufrag⟩, not_mem_nul_optionalLine hpwd⟩,
    not_mem_nul_optionalLine hfingerprint⟩, not_mem_nul_optionalLine hsetup⟩, hgroup⟩,
    hplain.2.2.2.2.2.2.2.2.2.2, List.forall_mem_nil _⟩
  · simp only [List.mem_append, not_or, hplain, not_mem_nul_decimalInt, not_false_eq_true,
      and_self]
  · simp only [List.mem_append, not_or, hplain, hname, not_false_eq_true, and_self]
  · simp only [List.mem_append, not_or, hplain, not_mem_nul_decimal, not_false_eq_true, and_self]

theorem not_mem_nul_mediaLines (media : SdpMedia) :
    ∀ line ∈ mediaLines media, 0x00 ∉ line := by
  have hplain : 0x00 ∉ ascii "m=" ∧ 0x00 ∉ space ∧ 0x00 ∉ ascii " UDP/TLS/RTP/SAVPF " ∧
      0x00 ∉ ascii "a=rtpmap:" ∧ 0x00 ∉ ascii "/" ∧ 0x00 ∉ ascii "/1" ∧ 0x00 ∉ ascii "a=mid:" ∧
      0x00 ∉ ascii "a=rtcp-mux" := by
    decide
  have hname : 0x00 ∉ mediaName media.kind := by
    cases media.kind <;> decide
  have hcodec : 0x00 ∉ tinyrtcCodecGetName media.codecId := by
    cases media.codecId <;> decide
  have hchannels : 0x00 ∉ channelSuffix media := by
    rw [channelSuffix]
    split_ifs
    · simp only [List.mem_append, not_or, hplain, not_mem_nul_decimalInt, not_false_eq_true,
        and_self]
    · exact hplain.2.2.2.2.2.1
    · exact List.not_mem_nil
  have hdirection : 0x00 ∉ directionLine media := by
    rw [directionLine]
    split_ifs <;> decide
  have hmid : 0x00 ∉ ascii "a=mid:" ++ media.mid.bytes := by
    simp only [List.mem_append, not_or, hplain, media.mid.no_nul, not_false_eq_true, and_self]
  simp only [mediaLines, List.forall_mem_append, List.forall_mem_cons]
  refine ⟨⟨⟨?_, ?_, List.forall_mem_nil _⟩, not_mem_nul_optionalLine hmid⟩,
    hplain.2.2.2.2.2.2.2, hdirection, List.forall_mem_nil _⟩
  · simp only [List.mem_append, not_or, hplain, hname, not_mem_nul_decimalInt, not_false_eq_true,
      and_self]
  · simp only [List.mem_append, not_or, hplain, hcodec, hchannels, not_mem_nul_decimal,
      not_mem_nul_decimalInt, not_false_eq_true, and_self]

theorem not_mem_nul_candidateLine (cand : SdpCandidate) : 0x00 ∉ candidateLine cand := by
  have hplain : 0x00 ∉ ascii "a=candidate:" ∧ 0x00 ∉ ascii " 1 " ∧ 0x00 ∉ space ∧
      0x00 ∉ ascii " typ " := by
    decide
  simp only [candidateLine, List.mem_append, not_or, hplain, cand.foundation.no_nul,
    cand.protocol.no_nul, cand.ip.no_nul, cand.type.no_nul, not_mem_nul_decimal,
    not_false_eq_true, and_self]

/-- The strings of a session bring no NUL into the text. -/
theorem not_mem_nul_sdpText (session : SdpSession) : 0x00 ∉ sdpText session := by
  have hlines : ∀ line ∈ sdpLines session, 0x00 ∉ line := by
    simp only [sdpLines, List.forall_mem_append]
    refine ⟨⟨not_mem_nul_sessionLines session, fun line hline => ?_⟩, fun line hline => ?_⟩
    · obtain ⟨media, -, hline⟩ := List.mem_flatMap.mp hline
      exact not_mem_nul_mediaLines media line hline
    · obtain ⟨cand, -, rfl⟩ := List.mem_map.mp hline
      exact not_mem_nul_candidateLine cand
  intro hmem
  obtain ⟨line, hline, hmem⟩ := List.mem_flatMap.mp hmem
  rcases List.mem_append.mp hmem with hmem | hmem
  · exact hlines line hline hmem
  · revert hmem
    decide

/-- The string in the buffer is the text of the session's lines. -/
theorem sdpWrite_refines (session : SdpSession) {memory : List UInt8}
    (hmemory : memory.length = estimatedSize) :
    (sdpWrite (fun media => some media.codecId) session memory).map
        (fun bytes => some (.ok (bytes.takeWhile (· != 0x00)))) =
      some (sdpGenerate true session) := by
  have hfits : TextFits (fun media => some media.codecId) session :=
    textFits_of_length (length_flatten_sdpPieces _ session)
  obtain ⟨rest, hwrite, -⟩ := hfits.written memory hmemory
  have hplain := bne_of_not_mem (not_mem_nul_sdpText session)
  rw [hwrite, Option.map_some, flatten_sdpPieces_codecId,
    takeWhile_append_stop hplain (rfl : ((0x00 : UInt8) != 0x00) = false), sdpGenerate_ok]

end TinyRtc.SdpBuffer
