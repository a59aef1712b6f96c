import TinyRtc.SdpLines

namespace TinyRtc.SdpMediaLines

open TinyRtc.Common
open TinyRtc.CString
open TinyRtc.Decimal
open TinyRtc.LabelledRuns
open TinyRtc.MediaCodec
open TinyRtc.SlotArray
open TinyRtc.Sdp
open TinyRtc.SdpGenerator
open TinyRtc.SdpParser
open TinyRtc.SdpScanning
open TinyRtc.SdpLines

/-- A media description whose lines say everything about it. -/
structure CarriedMedia (media : SdpMedia) : Prop where
  clockRate_pos : 0 < media.clockRate
  audio_channels : media.kind = .audio → 1 ≤ media.channels
  video_channels : media.kind = .video → media.channels = 1
  mid : LineText media.mid.bytes
  direction : media.directionSend = true ∧ media.directionRecv = true

theorem decimalInt_length (n : Int32) : (decimalInt n.toInt).length ≤ 11 := by
  have hlow := n.le_toInt
  have hhigh := n.toInt_lt
  have hdigits : (decimal n.toInt.natAbs).length ≤ 10 :=
    decimal_length_le (by decide) (by omega)
  rw [decimalInt]
  split
  · rw [List.length_cons]
    omega
  · omega

theorem not_mem_decimal {c : UInt8} (hc : isDigit c = false) (n : Nat) : c ∉ decimal n :=
  fun h => by simp [decimal_isDigit n c h] at hc

/-- The conversions of `atoi` to `int` and of `int` to `uint32_t` cancel. -/
theorem atoi_decimal (n : UInt32) (rest : List UInt8) (hrest : EndsNumber rest) :
    (atoi (decimal n.toNat ++ rest)).toUInt32 = n := by
  have hlt := n.toNat_lt
  have hscan : strtol (decimal n.toNat ++ rest) = some ((n.toNat : Int), rest) := by
    rw [strtol, scanNumber_decimal _ hrest]
    simp only [Option.map_some, Bool.false_eq_true, if_false]
    rw [Int.min_eq_left (by omega)]
  rw [atoi, hscan]
  apply UInt32.toBitVec_inj.mp
  simp only [Option.elim_some]
  change BitVec.ofInt 32 (n.toNat : Int) = n.toBitVec
  simp

/-- The cursor ends on the stop character even when the array is too small for the
text. -/
theorem copyLoop_cursor {dstLen : Nat} {sep stop : UInt8} (hstop : isEol stop ∨ stop = sep)
    (dst : List UInt8) {text : List UInt8} (hplain : ∀ c ∈ text, isEol c = false ∧ c ≠ sep)
    (rest : List UInt8) : (copyLoop dstLen sep dst (text ++ stop :: rest)).2 = stop :: rest := by
  induction text generalizing dst with
  | nil => rw [List.nil_append, copyLoop, if_pos hstop]
  | cons c text ih =>
      obtain ⟨heol, hsep⟩ := hplain c List.mem_cons_self
      have hrest := fun dst => ih dst fun c' hc' => hplain c' (List.mem_cons_of_mem _ hc')
      rw [List.cons_append, copyLoop, if_neg (by simp [heol, hsep])]
      split
      · exact hrest _
      · exact hrest _

theorem copyUntil_cursor (cap : Nat) {text : List UInt8} (htext : Token text)
    (rest : List UInt8) : (copyUntil cap 0x20 (text ++ 0x20 :: rest)).2 = 0x20 :: rest := by
  change (copyLoop cap 0x20 [] (skipWhitespace (text ++ 0x20 :: rest))).2 = _
  rw [skipWhitespace_text htext.toLineText (Or.inl htext.ne_nil)]
  refine copyLoop_cursor (Or.inr rfl) [] (fun c hc => ⟨htext.no_eol c hc, ?_⟩) rest
  rintro rfl
  exact htext.no_space hc

theorem strtol_space (s : List UInt8) : strtol (0x20 :: s) = strtol s := rfl

/-- The entry of an m-line before its `a=rtpmap` and `a=mid` lines. -/
def announced (media : SdpMedia) : SdpMedia :=
  { withStaticCodec
      { SdpMedia.zero with
        kind := media.kind, port := media.port, payloadType := media.payloadType } with
    directionSend := true
    directionRecv := true }

theorem withStaticCodec_fields (media : SdpMedia) :
    (withStaticCodec media).kind = media.kind ∧ (withStaticCodec media).port = media.port ∧
      (withStaticCodec media).payloadType = media.payloadType ∧
      (withStaticCodec media).mid = media.mid := by
  rw [withStaticCodec]
  split_ifs <;> exact ⟨rfl, rfl, rfl, rfl⟩

theorem token_mediaName (kind : TrackKind) :
    Token (mediaName kind) ∧ (mediaName kind).length ≤ 16 - 1 ∧
      kindOfName (mediaName kind) = some kind := by
  cases kind
  · exact ⟨token_of_isToken rfl, by decide, rfl⟩
  · exact ⟨token_of_isToken rfl, by decide, rfl⟩

theorem lineStep_media (locals : Locals) (session : SdpSession) (media : SdpMedia)
    {announcedMedia : Slots SdpMedia sdpMaxMedia}
    (hitems : announcedMedia.items = session.media.items ++ [announced media]) :
    LineStep locals session
      (ascii "m=" ++ mediaName media.kind ++ space ++ decimalInt media.port.toInt ++
        ascii " UDP/TLS/RTP/SAVPF " ++ decimalInt media.payloadType.toInt)
      { session with media := announcedMedia } := by
  have hroom : session.media.items.length < sdpMaxMedia := by
    have hle := announcedMedia.length_le
    rw [hitems, List.length_append, List.length_singleton] at hle
    omega
  obtain ⟨pushed, hpush, hpushed⟩ := Slots.push?_of_lt hroom (announced media)
  have heq : pushed = announcedMedia := Slots.ext (hpushed.trans hitems.symm)
  obtain ⟨hname, hnameLen, hkind⟩ := token_mediaName media.kind
  have hport := token_decimalInt media.port.toInt
  have hportLen := decimalInt_length media.port
  refine ⟨0x6D, mediaName media.kind ++ 0x20 :: (decimalInt media.port.toInt ++ 0x20 ::
    (ascii "UDP/TLS/RTP/SAVPF" ++ 0x20 :: decimalInt media.payloadType.toInt)),
    by simp [ascii, space], rfl, fun rest => ⟨[], noEol_nil, ?_⟩⟩
  obtain ⟨typeStr, htypeBytes, htypeCopy⟩ := copyUntil_local 16 0x20 0x20 hname hname.no_space
    hnameLen (Or.inr rfl) (decimalInt media.port.toInt ++ 0x20 ::
      (ascii "UDP/TLS/RTP/SAVPF" ++ 0x20 :: (decimalInt media.payloadType.toInt ++
        0x0D :: rest)))
  obtain ⟨portStr, hportBytes, hportCopy⟩ := copyUntil_local 16 0x20 0x20 hport hport.no_space
    (by omega) (Or.inr rfl) (ascii "UDP/TLS/RTP/SAVPF" ++ 0x20 ::
      (decimalInt media.payloadType.toInt ++ 0x0D :: rest))
  have hproto : (copyUntil 16 0x20 (ascii "UDP/TLS/RTP/SAVPF" ++ 0x20 ::
      (decimalInt media.payloadType.toInt ++ 0x0D :: rest))).2 =
        0x20 :: (decimalInt media.payloadType.toInt ++ 0x0D :: rest) :=
    copyUntil_cursor 16 (token_of_isToken rfl) _
  have hparsePt := strtol_decimalInt media.payloadType (0x0D :: rest)
    (endsNumber_cons rfl)
  have hparsePort : parseInt (decimalInt media.port.toInt) = some media.port := by
    have := parseInt_decimalInt media.port [] (by simp [EndsNumber])
    rwa [List.append_nil] at this
  have hbody : mediaName media.kind ++ 0x20 :: (decimalInt media.port.toInt ++ 0x20 ::
      (ascii "UDP/TLS/RTP/SAVPF" ++ 0x20 :: decimalInt media.payloadType.toInt)) ++
        0x0D :: rest = mediaName media.kind ++ 0x20 :: (decimalInt media.port.toInt ++ 0x20 ::
      (ascii "UDP/TLS/RTP/SAVPF" ++ 0x20 :: (decimalInt media.payloadType.toInt ++
        0x0D :: rest))) := by
    simp
  rw [hbody]
  have hcount : ¬ sdpMaxMedia ≤ session.media.count := Nat.not_le.mpr hroom
  rw [parseField_media]
  simp only [parseMedia, if_neg hcount, htypeCopy, htypeBytes, hkind, copyUntil_space, hportCopy,
    hportBytes, hparsePort, hproto, strtol_space, hparsePt, Option.getD_some, Int32.ofInt_toInt]
  change (0x0D :: rest, { session with
    media := (session.media.push? (announced media)).getD session.media }) = _
  rw [hpush, Option.getD_some, heq]
  rfl

theorem updateFirst_append {pt : Int32} {f : SdpMedia → SdpMedia} {others : List SdpMedia}
    {media : SdpMedia} (hothers : ∀ other ∈ others, other.payloadType ≠ pt)
    (hmedia : media.payloadType = pt) :
    updateFirst pt f (others ++ [media]) = others ++ [f media] := by
  induction others with
  | nil => simp [updateFirst, hmedia]
  | cons other others ih =>
      rw [List.cons_append, updateFirst, if_neg (hothers other List.mem_cons_self),
        ih fun o ho => hothers o (List.mem_cons_of_mem _ ho), List.cons_append]

theorem updateLast_append (f : SdpMedia → SdpMedia) (others : List SdpMedia) (media : SdpMedia) :
    updateLast f (others ++ [media]) = others ++ [f media] := by
  induction others with
  | nil => rfl
  | cons other others ih =>
      obtain ⟨next, rest, hrest⟩ : ∃ next rest, others ++ [media] = next :: rest :=
        List.exists_cons_of_ne_nil (by simp)
      rw [List.cons_append, hrest, updateLast, ← hrest, ih, List.cons_append]

/-- The channels that an encoding parameter text stands for. -/
theorem channelSuffix_cases {media : SdpMedia} (h : CarriedMedia media) :
    (channelSuffix media = [] ∧ media.channels = 1) ∨
      channelSuffix media = 0x2F :: decimalInt media.channels.toInt := by
  rw [channelSuffix]
  cases hkind : media.kind with
  | audio =>
      right
      by_cases hmany : 1 < media.channels
      · simp [hmany, ascii]
      · have hone : media.channels = 1 := by
          have hle := h.audio_channels hkind
          apply Int32.toInt_inj.mp
          rw [Int32.le_iff_toInt_le] at hle
          rw [Int32.lt_iff_toInt_lt] at hmany
          omega
        rw [hone]
        rfl
  | video => exact Or.inl ⟨rfl, h.video_channels hkind⟩

theorem token_codecName (codec : CodecId) :
    Token (tinyrtcCodecGetName codec) ∧ 0x2F ∉ tinyrtcCodecGetName codec ∧
      (tinyrtcCodecGetName codec).length ≤ 64 - 1 ∧
      codecOfName (tinyrtcCodecGetName codec) = some codec := by
  cases codec <;>
    exact ⟨token_of_isToken rfl, by decide, by decide, rfl⟩

theorem lineText_of_plain {text : List UInt8}
    (h : ∀ c ∈ text, isDigit c = true ∨ c = 0x2F ∨ c = 0x2D) : LineText text := by
  have hplain : ∀ c : UInt8, (isDigit c = true ∨ c = 0x2F ∨ c = 0x2D) →
      isEol c = false ∧ c ≠ 0x20 ∧ c ≠ 0x09 := by
    decide +kernel
  exact
    { no_eol := fun c hc => (hplain c (h c hc)).1
      head_not_blank := fun c hc => (hplain c (h c (List.mem_of_mem_head? hc))).2
      last_not_space := fun c hc => (hplain c (h c (List.mem_of_getLast? hc))).2.1 }

theorem plain_decimalInt (n : Int) :
    ∀ c ∈ decimalInt n, isDigit c = true ∨ c = 0x2F ∨ c = 0x2D := by
  intro c hc
  rw [decimalInt] at hc
  split at hc
  · rcases List.mem_cons.mp hc with rfl | hc
    · exact Or.inr (Or.inr rfl)
    · exact Or.inl (decimal_isDigit _ c hc)
  · exact Or.inl (decimal_isDigit _ c hc)

theorem splitSlash_encoding {media : SdpMedia} (h : CarriedMedia media) :
    ∃ channels, splitSlash (decimal media.clockRate.toNat ++ channelSuffix media) =
        (decimal media.clockRate.toNat, channels) ∧
      (channels.map atoi).getD 1 = media.channels := by
  have hdigits : ∀ c ∈ decimal media.clockRate.toNat, (c != 0x2F) = true :=
    bne_of_not_mem (not_mem_decimal rfl _)
  rcases channelSuffix_cases h with ⟨hsuffix, hone⟩ | hsuffix
  · refine ⟨none, ?_, hone.symm⟩
    rw [hsuffix, List.append_nil, splitSlash, List.takeWhile_eq_self_iff.mpr hdigits,
      List.dropWhile_eq_nil_iff.mpr hdigits]
    rfl
  · refine ⟨some (decimalInt media.channels.toInt), ?_, ?_⟩
    · rw [hsuffix, splitSlash, takeWhile_append_stop hdigits rfl, dropWhile_append_stop hdigits rfl]
      rfl
    · have := atoi_decimalInt media.channels [] (by simp [EndsNumber])
      rw [List.append_nil] at this
      simpa using this

theorem encoding_length_le (media : SdpMedia) :
    (decimal media.clockRate.toNat ++ channelSuffix media).length ≤ 64 - 1 := by
  have hrate : (decimal media.clockRate.toNat).length ≤ 10 :=
    decimal_length_le (by decide) (Nat.lt_of_lt_of_le media.clockRate.toNat_lt (by decide))
  have hchannels := decimalInt_length media.channels
  rw [List.length_append, channelSuffix]
  split_ifs
  · simp only [ascii, List.length_append, List.length_map, String.length_toList]
    change _ + (1 + _) ≤ 63
    omega
  · change _ + 2 ≤ 63
    omega
  · change _ + 0 ≤ 63
    omega

theorem lineText_encoding {media : SdpMedia} (h : CarriedMedia media) :
    LineText (decimal media.clockRate.toNat ++ channelSuffix media) := by
  apply lineText_of_plain
  intro c hc
  rcases List.mem_append.mp hc with hc | hc
  · exact Or.inl (decimal_isDigit _ c hc)
  · rcases channelSuffix_cases h with ⟨hsuffix, -⟩ | hsuffix
    · rw [hsuffix] at hc
      cases hc
    · rw [hsuffix] at hc
      rcases List.mem_cons.mp hc with rfl | hc
      · exact Or.inr (Or.inl rfl)
      · exact plain_decimalInt _ c hc

/-- The rtpmap line is matched with the last media, which is the only one with its
payload type. -/
theorem lineStep_rtpmap (locals : Locals) (session : SdpSession) {media entry : SdpMedia}
    (h : CarriedMedia media) {others : List SdpMedia}
    (hsession : session.media.items = others ++ [entry])
    (hothers : ∀ other ∈ others, other.payloadType ≠ media.payloadType)
    (hentry : entry.payloadType = media.payloadType) {mapped : Slots SdpMedia sdpMaxMedia}
    (hmapped : mapped.items = others ++
      [{ entry with
          codecId := media.codecId, clockRate := media.clockRate, channels := media.channels }]) :
    LineStep locals session
      (ascii "a=rtpmap:" ++ decimalInt media.payloadType.toInt ++ space ++
        tinyrtcCodecGetName media.codecId ++ ascii "/" ++ decimal media.clockRate.toNat ++
        channelSuffix media)
      { session with media := mapped } := by
  obtain ⟨hname, hslash, hnameLen, hcodec⟩ := token_codecName media.codecId
  obtain ⟨channels, hsplit, hchannels⟩ := splitSlash_encoding h
  have hencoding := lineText_encoding h
  have hencodingNe : decimal media.clockRate.toNat ++ channelSuffix media ≠ [] := by
    simp [decimal_ne_nil]
  have hline : ascii "a=rtpmap:" ++ decimalInt media.payloadType.toInt ++ space ++
      tinyrtcCodecGetName media.codecId ++ ascii "/" ++ decimal media.clockRate.toNat ++
        channelSuffix media =
      0x61 :: 0x3D :: (ascii "rtpmap" ++ 0x3A :: (decimalInt media.payloadType.toInt ++ 0x20 ::
        (tinyrtcCodecGetName media.codecId ++ 0x2F ::
          (decimal media.clockRate.toNat ++ channelSuffix media)))) := by
    simp [ascii, space]
  rw [hline]
  refine lineStep_attribute (ascii "rtpmap") _ rfl fun rest => ⟨[], noEol_nil, ?_⟩
  have hbody : decimalInt media.payloadType.toInt ++ 0x20 ::
      (tinyrtcCodecGetName media.codecId ++ 0x2F ::
        (decimal media.clockRate.toNat ++ channelSuffix media)) ++ 0x0D :: rest =
      decimalInt media.payloadType.toInt ++ 0x20 :: (tinyrtcCodecGetName media.codecId ++
        0x2F :: (decimal media.clockRate.toNat ++ channelSuffix media ++ 0x0D :: rest)) := by
    simp
  obtain ⟨nameStr, hnameBytes, hnameCopy⟩ := copyUntil_local 64 0x2F 0x2F hname
    hslash hnameLen (Or.inr rfl)
    (decimal media.clockRate.toNat ++ channelSuffix media ++ 0x0D :: rest)
  obtain ⟨hencBytes, hencRest⟩ := copyUntil_text 64 0x0A 0x0D
    hencoding (fun hmem => absurd (hencoding.no_eol _ hmem) (by decide))
    (encoding_length_le media) (Or.inl rfl) (Or.inl hencodingNe) rest
  have hparsePt := parseInt_decimalInt media.payloadType (0x20 ::
    (tinyrtcCodecGetName media.codecId ++ 0x2F ::
      (decimal media.clockRate.toNat ++ channelSuffix media ++ 0x0D :: rest)))
    (endsNumber_cons rfl)
  have hskip : ∀ tail, (decimalInt media.payloadType.toInt ++ 0x20 :: tail).dropWhile
      (fun c => c != 0x20 && c != 0x00 && c != 0x0A) = 0x20 :: tail := by
    intro tail
    apply dropWhile_append_stop _ rfl
    have hplain : ∀ c : UInt8, (isDigit c = true ∨ c = 0x2F ∨ c = 0x2D) →
        (c != 0x20 && c != 0x00 && c != 0x0A) = true := by
      decide +kernel
    exact fun c hc => hplain c (plain_decimalInt _ c hc)
  have hrate : (atoi (decimal media.clockRate.toNat)).toUInt32 = media.clockRate := by
    have := atoi_decimal media.clockRate [] (by simp [EndsNumber])
    rwa [List.append_nil] at this
  have hupdate : session.media.mapItems
      (updateFirst media.payloadType
        (applyRtpmap (tinyrtcCodecGetName media.codecId) media.clockRate media.channels))
      (updateFirst_length _ _) = mapped := by
    apply Slots.ext
    change updateFirst _ _ session.media.items = mapped.items
    rw [hsession, updateFirst_append hothers hentry, hmapped]
    simp [applyRtpmap, hcodec, h.clockRate_pos]
  rw [hbody]
  change parseRtpmap _ session = _
  simp only [parseRtpmap, hparsePt, hskip, skipByte, if_true, hnameCopy, hnameBytes, hencBytes,
    hencRest, hsplit, hrate, hchannels, hupdate, List.nil_append]

theorem lineStep_mid (locals : Locals) (session : SdpSession) {mid : CStr 16}
    (h : LineText mid.bytes) {others : List SdpMedia} {entry : SdpMedia}
    (hsession : session.media.items = others ++ [entry]) {named : Slots SdpMedia sdpMaxMedia}
    (hnamed : named.items = others ++ [{ entry with mid := mid }]) :
    LineStep locals session (ascii "a=mid:" ++ mid.bytes) { session with media := named } := by
  have hpos : 0 < session.media.count := by
    rw [Slots.count, hsession, List.length_append, List.length_singleton]
    omega
  have hupdate : session.media.mapItems
      (updateLast fun media => { media with mid := CStr.strncpy mid.bytes })
      (updateLast_length _) = named := by
    apply Slots.ext
    change updateLast _ session.media.items = named.items
    rw [hsession, updateLast_append, hnamed, CStr.strncpy_self]
  refine lineStep_attribute (ascii "mid") mid.bytes rfl fun rest => ⟨[], noEol_nil, ?_⟩
  obtain ⟨hbytes, hrest⟩ := copyUntil_text 32 0x0A 0x0D h
    (fun hmem => absurd (h.no_eol _ hmem) (by decide))
    (Nat.le_trans mid.length_le (by decide)) (Or.inl rfl) (Or.inr (by decide)) rest
  change (if 0 < session.media.count then parseMid (mid.bytes ++ 0x0D :: rest) session
    else _) = _
  rw [if_pos hpos]
  simp only [parseMid, hbytes, hrest, hupdate, List.nil_append]

/-- The lines of a media description append it to the session's media, if its
payload type is new. -/
theorem mediaLines_run (locals : Locals) (session : SdpSession) {media : SdpMedia}
    (h : CarriedMedia media)
    (hnew : ∀ other ∈ session.media.items, other.payloadType ≠ media.payloadType)
    (appended : Slots SdpMedia sdpMaxMedia)
    (happended : appended.items = session.media.items ++ [media]) :
    Run (LineStep locals) session (mediaLines media) { session with media := appended } := by
  obtain ⟨hkind, hport, hpt, hmid⟩ := withStaticCodec_fields
    { SdpMedia.zero with
      kind := media.kind, port := media.port, payloadType := media.payloadType }
  have hroom := appended.length_le
  rw [happended, List.length_append, List.length_singleton] at hroom
  have hslots : ∀ entry : SdpMedia, ∃ slots : Slots SdpMedia sdpMaxMedia,
      slots.items = session.media.items ++ [entry] := by
    intro entry
    refine ⟨⟨session.media.items ++ [entry], ?_⟩, rfl⟩
    rw [List.length_append, List.length_singleton]
    exact hroom
  obtain ⟨first, hfirst⟩ := hslots (announced media)
  obtain ⟨mapped, hmapped⟩ := hslots
    { announced media with
      codecId := media.codecId, clockRate := media.clockRate, channels := media.channels }
  have hmappedEntry : { announced media with
      codecId := media.codecId, clockRate := media.clockRate, channels := media.channels } =
      { media with mid := CStr.empty } :=
    SdpMedia.ext hkind hport hpt rfl rfl rfl hmid h.direction.1.symm h.direction.2.symm
  have hdirection : directionLine media = ascii "a=sendrecv" := by
    simp [directionLine, h.direction]
  have hstart := lineStep_media locals session media hfirst
  have hrtpmap := lineStep_rtpmap locals { session with media := first } h hfirst hnew hpt hmapped
  have hmidRun : Run (LineStep locals) { session with media := mapped }
      (optionalLine media.mid (ascii "a=mid:" ++ media.mid.bytes))
      { session with media := appended } := by
    rw [optionalLine]
    split
    · rename_i hempty
      have hmediaMid : media.mid = CStr.empty := CStr.ext hempty
      have : mapped = appended := by
        apply Slots.ext
        rw [hmapped, happended, hmappedEntry, ← hmediaMid]
      rw [this]
      exact .nil _
    · exact .singleton (lineStep_mid locals _ h.mid hmapped
        (by rw [happended, hmappedEntry]))
  have hflags : Run (LineStep locals) { session with media := appended }
      [ascii "a=rtcp-mux", directionLine media] { session with media := appended } := by
    rw [hdirection]
    exact .cons (lineStep_flag locals _ (ascii "rtcp-mux") rfl fun _ => rfl)
      (.singleton (lineStep_flag locals _ (ascii "sendrecv") rfl fun _ => rfl))
  exact ((Run.cons hstart (.singleton hrtpmap)).append hmidRun).append hflags

end TinyRtc.SdpMediaLines
