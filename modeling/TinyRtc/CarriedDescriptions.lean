import TinyRtc.AnswerMedia
import TinyRtc.CertifiedContexts
import TinyRtc.HostPriorities
import TinyRtc.SdpRoundTrip

namespace TinyRtc.CarriedDescriptions

open TinyRtc.AnswerMedia
open TinyRtc.CallEffects
open TinyRtc.CertifiedContexts
open TinyRtc.Common
open TinyRtc.Connection
open TinyRtc.CString
open TinyRtc.Decimal
open TinyRtc.Dtls
open TinyRtc.HostPriorities
open TinyRtc.Ice
open TinyRtc.IceEffects
open TinyRtc.Inet
open TinyRtc.LabelledRuns
open TinyRtc.MediaCodec
open TinyRtc.Negotiation
open TinyRtc.Sdp
open TinyRtc.SdpCandidateLines
open TinyRtc.SdpGenerator
open TinyRtc.SdpMediaLines
open TinyRtc.SdpParser
open TinyRtc.SdpRoundTrip
open TinyRtc.SdpScanning
open TinyRtc.SlotArray
open TinyRtc.Srtp

/-- A text of bytes that mean nothing to the lines it stands in. -/
def Solid (text : List UInt8) : Prop :=
  ∀ c ∈ text, isEol c = false ∧ c ≠ 0x20 ∧ c ≠ 0x09

instance : DecidablePred Solid :=
  fun text => inferInstanceAs (Decidable (∀ c ∈ text, _))

theorem Solid.append {first second : List UInt8} (hfirst : Solid first) (hsecond : Solid second) :
    Solid (first ++ second) :=
  List.forall_mem_append.mpr ⟨hfirst, hsecond⟩

theorem Solid.lineText {text : List UInt8} (h : Solid text) : LineText text where
  no_eol c hc := (h c hc).1
  head_not_blank c hc := (h c (List.mem_of_mem_head? hc)).2
  last_not_space c hc := (h c (List.mem_of_mem_getLast? hc)).2.1

theorem Solid.token {text : List UInt8} (h : Solid text) (hne : text ≠ []) : Token text :=
  ⟨h.lineText, fun hspace => (h _ hspace).2.1 rfl, hne⟩

theorem Solid.strncpy {text : List UInt8} (h : Solid text) {cap : Nat} :
    Solid (CStr.strncpy text : CStr cap).bytes :=
  fun c hc => h c ((List.takeWhile_prefix _).subset (List.mem_of_mem_take hc))

theorem solid_decimal (n : Nat) : Solid (decimal n) := by
  intro c hc
  have hdigit := decimal_isDigit n c hc
  refine ⟨(isEol_digit c hdigit).1, ?_, (isEol_digit c hdigit).2⟩
  rintro rfl
  cases hdigit

theorem solid_of_ge {text : List UInt8} (h : ∀ c ∈ text, 0x30 ≤ c.toNat) : Solid text := by
  intro c hc
  have hge := h c hc
  have hne : ∀ low : UInt8, low.toNat < 0x30 → c ≠ low := by
    rintro low hlow rfl
    omega
  refine ⟨?_, hne 0x20 (by decide), hne 0x09 (by decide)⟩
  simp only [isEol, Bool.or_eq_false_iff, beq_eq_false_iff_ne]
  exact ⟨⟨hne 0x00 (by decide), hne 0x0A (by decide)⟩, hne 0x0D (by decide)⟩

theorem hexDigit_ge {n : UInt8} (h : n.toNat < 16) : 0x30 ≤ (hexDigit n).toNat := by
  rw [hexDigit]
  split
  · next hlow =>
    have hlow : n.toNat < 10 := hlow
    rw [UInt8.toNat_add]
    change 0x30 ≤ (0x30 + n.toNat) % 256
    omega
  · rw [UInt8.toNat_add]
    change 0x30 ≤ (0x37 + n.toNat) % 256
    omega

theorem solid_hexByte (byte : UInt8) : Solid (hexByte byte) := by
  have hhigh : (byte >>> 4).toNat < 16 := by
    have hsize := byte.toNat_lt
    rw [UInt8.toNat_shiftRight, Nat.shiftRight_eq_div_pow]
    exact Nat.div_lt_of_lt_mul hsize
  have hlow : (byte &&& 0x0F).toNat < 16 := by
    rw [UInt8.toNat_and]
    exact Nat.and_lt_two_pow _ (by decide : (0x0F : UInt8).toNat < 2 ^ 4)
  apply solid_of_ge
  intro c hc
  simp only [hexByte, List.mem_cons, List.not_mem_nil, or_false] at hc
  rcases hc with rfl | rfl
  · exact hexDigit_ge hhigh
  · exact hexDigit_ge hlow

theorem solid_intercalate {sep : List UInt8} (hsep : Solid sep) {parts : List (List UInt8)}
    (hparts : ∀ part ∈ parts, Solid part) : Solid (List.intercalate sep parts) := by
  induction parts with
  | nil => exact fun c hc => absurd hc List.not_mem_nil
  | cons part parts ih =>
      obtain ⟨hpart, hrest⟩ := List.forall_mem_cons.mp hparts
      cases parts with
      | nil =>
          have hone : List.intercalate sep [part] = part := List.append_nil part
          rwa [hone]
      | cons next parts =>
          have hmore : List.intercalate sep (part :: next :: parts) =
              part ++ (sep ++ List.intercalate sep (next :: parts)) := rfl
          rw [hmore]
          exact hpart.append (hsep.append (ih hrest))

theorem solid_certificateFingerprint (crypto : Crypto) (certificate : List UInt8) :
    Solid (certificateFingerprint crypto certificate) := by
  refine solid_intercalate (by decide +kernel) fun part hpart => ?_
  obtain ⟨byte, -, rfl⟩ := List.mem_map.mp hpart
  exact solid_hexByte byte

theorem solid_inetNtop (addr : UInt32) : Solid (inetNtop addr) := by
  obtain ⟨a, b, c, d, htext⟩ := inetNtop_eq addr
  have hdot : Solid [0x2E] := by decide +kernel
  rw [htext]
  exact (solid_decimal _).append (hdot.append ((solid_decimal _).append (hdot.append
    ((solid_decimal _).append (hdot.append (solid_decimal _))))))

/-- Parsing the generated text gives back the session. -/
theorem sdpParse_sdpText (locals : Locals) {session : SdpSession} (h : CarriedSession session) :
    sdpParse locals (sdpText session) = some (.ok, session) := by
  have hmedia := media_run locals (header session) h.media h.payloadTypes session.media rfl
  have hcandidates := candidates_run locals { header session with media := session.media }
    h.candidates session.candidates rfl
  have hrun : Run (LineStep locals) sdpSessionInit (sdpLines session) session :=
    ((sessionLines_run locals h).append hmedia).append hcandidates
  have hfuel : (sdpLines session).length ≤ (sdpText session).length := by
    rw [sdpText]
    induction sdpLines session with
    | nil => exact Nat.le_refl _
    | cons line lines ih =>
        rw [List.flatMap_cons, List.length_append, List.length_append, List.length_cons]
        have hend : crlf.length = 2 := rfl
        omega
  have hloop : sdpParseLoop locals (sdpText session).length (sdpText session) sdpSessionInit =
      some session :=
    sdpParseLoop_run hrun hfuel
  rw [sdpParse, hloop, Option.map_some, h.version_eq]
  rfl

/-- What stands in a description in front of its media can be carried. -/
structure CarriedHead (session : SdpSession) : Prop where
  version_eq : session.version = 0
  username : Token session.username.bytes
  networkType : Token session.networkType.bytes
  addressType : Token session.addressType.bytes
  unicastAddress : Token session.unicastAddress.bytes
  sessionName : LineText session.sessionName.bytes ∧ session.sessionName.bytes ≠ []
  iceUfrag : LineText session.iceUfrag.bytes
  icePwd : LineText session.icePwd.bytes
  fingerprint : LineText session.fingerprint.bytes
  fingerprintType : session.fingerprint.bytes ≠ [] → Token session.fingerprintType.bytes
  no_fingerprintType : session.fingerprint.bytes = [] → session.fingerprintType.bytes = []
  dtlsSetup : LineText session.dtlsSetup.bytes

theorem CarriedHead.carriedSession {session : SdpSession} (h : CarriedHead session)
    {media : Slots SdpMedia sdpMaxMedia} {candidates : Slots SdpCandidate tinyrtcMaxCandidates}
    (hmedia : ∀ entry ∈ media.items, CarriedMedia entry)
    (hpayloadTypes : (media.items.map SdpMedia.payloadType).Nodup)
    (hcandidates : ∀ cand ∈ candidates.items, CarriedCandidate cand) :
    CarriedSession { session with media := media, candidates := candidates } where
  version_eq := h.version_eq
  username := h.username
  networkType := h.networkType
  addressType := h.addressType
  unicastAddress := h.unicastAddress
  sessionName := h.sessionName
  iceUfrag := h.iceUfrag
  icePwd := h.icePwd
  fingerprint := h.fingerprint
  fingerprintType := h.fingerprintType
  no_fingerprintType := h.no_fingerprintType
  dtlsSetup := h.dtlsSetup
  media := hmedia
  payloadTypes := hpayloadTypes
  candidates := hcandidates

/-- The head of a local description, before its fingerprint is set. -/
def localHead (now : UInt64) (setup : List UInt8) (session : SdpSession) : SdpSession :=
  { pcGenerateLocalIceCredentials now (descriptionDefaults session) with
    dtlsSetup := CStr.strncpy setup }

theorem carriedHead_local {session : SdpSession} (husername : Token session.username.bytes)
    (hnetworkType : Token session.networkType.bytes)
    (haddressType : Token session.addressType.bytes)
    (hfingerprint : session.fingerprint = .empty) (htype : session.fingerprintType = .empty)
    (now : UInt64) {setup : List UInt8} (hsetup : Solid setup) :
    CarriedHead (localHead now setup session) := by
  have hempty : (localHead now setup session).fingerprint.bytes = [] := by
    change session.fingerprint.bytes = []
    rw [hfingerprint]
    rfl
  have htypeEmpty : (localHead now setup session).fingerprintType.bytes = [] := by
    change session.fingerprintType.bytes = []
    rw [htype]
    rfl
  have hname : (CStr.strncpy (ascii "TinyRTC") : CStr 256).bytes ≠ [] := by decide
  have hufrag : Solid (ascii "tiny" ++ decimal now.toNat) :=
    Solid.append (by decide +kernel) (solid_decimal _)
  have hpwd : Solid (ascii "rtc" ++ decimal (now + 12345).toNat ++ ascii "random") :=
    Solid.append (Solid.append (by decide +kernel) (solid_decimal _)) (by decide +kernel)
  exact
    { version_eq := rfl
      username := husername
      networkType := hnetworkType
      addressType := haddressType
      unicastAddress := token_of_isToken rfl
      sessionName := ⟨lineText_of_isLineText rfl, hname⟩
      iceUfrag := hufrag.strncpy.lineText
      icePwd := hpwd.strncpy.lineText
      fingerprint := by
        rw [hempty]
        exact lineText_of_isLineText rfl
      fingerprintType := fun hne => absurd hempty hne
      no_fingerprintType := fun _ => htypeEmpty
      dtlsSetup := hsetup.strncpy.lineText }

theorem pcEnsureLocalDtlsMaterial_cases (crypto : Crypto) (certificate : Option (List UInt8))
    (pc : PeerConnection) (session : SdpSession) :
    (pcEnsureLocalDtlsMaterial crypto certificate pc session).2 = session ∨
      ∃ dtls, (pcEnsureLocalDtlsMaterial crypto certificate pc session).1.dtls = some dtls ∧
        dtls.fingerprint.bytes ≠ [] ∧
        (pcEnsureLocalDtlsMaterial crypto certificate pc session).2 =
          { session with
            fingerprintType := CStr.strncpy (ascii "sha-256")
            fingerprint := CStr.strncpy dtls.fingerprint.bytes } := by
  rw [pcEnsureLocalDtlsMaterial]
  split
  · exact .inl rfl
  · next dtls hdtls =>
    split
    · exact .inl rfl
    · next hne => exact .inr ⟨dtls, hdtls, hne, rfl⟩

theorem strncpy_ne_nil {cap n : Nat} (src : CStr n) (hcap : 1 < cap) (hne : src.bytes ≠ []) :
    (CStr.strncpy src.bytes : CStr cap).bytes ≠ [] := by
  change (src.bytes.takeWhile (· != 0x00)).take (cap - 1) ≠ []
  rw [List.takeWhile_eq_self_iff.mpr (bne_of_not_mem src.no_nul)]
  intro hnil
  rcases List.take_eq_nil_iff.mp hnil with hzero | hnil
  · omega
  · exact hne hnil

theorem carriedHead_ensure {crypto : Crypto} {pc : PeerConnection} (hpc : Certified crypto pc)
    (certificate : Option (List UInt8)) {session : SdpSession} (h : CarriedHead session) :
    CarriedHead (pcEnsureLocalDtlsMaterial crypto certificate pc session).2 := by
  rcases pcEnsureLocalDtlsMaterial_cases crypto certificate pc session with
    hsame | ⟨dtls, hdtls, hne, hset⟩
  · rwa [hsame]
  · obtain ⟨signed, hsigned⟩ :=
      pcEnsureLocalDtlsMaterial_certified hpc certificate session dtls hdtls
    have hsolid : Solid dtls.fingerprint.bytes := by
      rw [hsigned]
      exact (solid_certificateFingerprint crypto signed).strncpy
    rw [hset]
    exact
      { version_eq := h.version_eq
        username := h.username
        networkType := h.networkType
        addressType := h.addressType
        unicastAddress := h.unicastAddress
        sessionName := h.sessionName
        iceUfrag := h.iceUfrag
        icePwd := h.icePwd
        fingerprint := hsolid.strncpy.lineText
        fingerprintType := fun _ => token_of_isToken rfl
        no_fingerprintType := fun hempty =>
          absurd hempty (strncpy_ne_nil dtls.fingerprint (by decide) hne)
        dtlsSetup := h.dtlsSetup }

/-- The loops that fill a description: entry by entry, as long as there is room. -/
theorem foldl_addConfigs {α : Type*} (config : α → TrackConfig) (p : α → Bool) (entries : List α)
    (session : SdpSession) (hroom : session.media.items.length + entries.length ≤ sdpMaxMedia) :
    ∃ media,
      entries.foldl (fun session entry =>
        if p entry then (sdpAddMedia session (config entry)).getD session else session) session =
          { session with media := media } ∧
        media.items = session.media.items ++
          (entries.filter p).map fun entry => sdpMediaOfConfig (config entry) := by
  induction entries generalizing session with
  | nil => exact ⟨session.media, rfl, (List.append_nil _).symm⟩
  | cons entry entries ih =>
      rw [List.length_cons] at hroom
      rw [List.foldl_cons]
      by_cases hp : p entry = true
      · obtain ⟨pushed, hpush, hitems⟩ := session.media.push?_of_lt (by omega)
          (sdpMediaOfConfig (config entry))
        obtain ⟨media, hrest, hmedia⟩ := ih { session with media := pushed } (by
          change pushed.items.length + _ ≤ _
          rw [hitems, List.length_append, List.length_singleton]
          omega)
        refine ⟨media, ?_, ?_⟩
        · rw [if_pos hp, sdpAddMedia, hpush, Option.map_some, Option.getD_some, hrest]
        · rw [hmedia, List.filter_cons_of_pos hp, List.map_cons]
          change pushed.items ++ _ = _
          rw [hitems, List.append_assoc, List.singleton_append]
      · rw [if_neg hp, List.filter_cons_of_neg hp]
        exact ih session (by omega)

theorem iceAddRemoteCandidate_localCandidates (ice : IceSession) (candidate : SdpCandidate) :
    (iceAddRemoteCandidate ice candidate).2.localCandidates = ice.localCandidates := by
  rw [iceAddRemoteCandidate]
  split
  · rfl
  · split
    · rfl
    · split <;> rfl

theorem foldl_remote_localCandidates (candidates : List SdpCandidate) (ice : IceSession) :
    (candidates.foldl (fun ice candidate => (iceAddRemoteCandidate ice candidate).2)
      ice).localCandidates = ice.localCandidates := by
  induction candidates generalizing ice with
  | nil => rfl
  | cons candidate candidates ih =>
      exact (ih _).trans (iceAddRemoteCandidate_localCandidates ice candidate)

theorem carriedCandidate_host (port : UInt16) (n : Nat) (addr : UInt32) :
    CarriedCandidate (iceCandidateToSdp (hostCandidate port n addr)) := by
  have hip : (hostCandidate port n addr).ip.bytes = inetNtop addr := strncpy_inetNtop addr
  have hne : inetNtop addr ≠ [] := by
    obtain ⟨a, b, c, d, htext⟩ := inetNtop_eq addr
    rw [htext]
    exact List.append_ne_nil_of_left_ne_nil (decimal_ne_nil _) _
  refine ⟨token_of_isToken rfl, token_of_isToken rfl, ?_, token_of_isToken rfl, ?_⟩
  · change Token (hostCandidate port n addr).ip.bytes
    rw [hip]
    exact (solid_inetNtop addr).token hne
  · change (inetNtop addr).contains 0x3A = (hostCandidate port n addr).ip.bytes.contains 0x3A
    rw [hip]

theorem sdpGenerate_eq_ok {mallocOk : Bool} {session : SdpSession} {text : List UInt8}
    (h : sdpGenerate mallocOk session = some (.ok text)) : text = sdpText session := by
  rw [sdpGenerate] at h
  split at h
  · cases h
  · split at h
    · cases h
      rfl
    · cases h

/-- What gathering puts into the description, and the text that is made of it. -/
theorem pcGatherAndGenerate_text {env : DescriptionEnv} {pc pc' : PeerConnection}
    {text : List UInt8} {events : List PcEvent}
    (h : pcGatherAndGenerate env pc = some (.ok text, pc', events)) :
    ∃ candidates : Slots SdpCandidate tinyrtcMaxCandidates,
      pc'.localSdp = { pc.localSdp with candidates := candidates } ∧
        (∀ cand ∈ candidates.items, CarriedCandidate cand) ∧
        text = sdpText pc'.localSdp ∧ pc'.remoteSdp = pc.remoteSdp := by
  rw [pcGatherAndGenerate] at h
  split at h
  · cases h
  · obtain ⟨generated, hgenerated, hresult⟩ := Option.map_eq_some_iff.mp h
    cases hresult
    refine ⟨_, rfl, ?_, sdpGenerate_eq_ok hgenerated, rfl⟩
    intro cand hcand
    obtain ⟨internal, hinternal, rfl⟩ := List.mem_map.mp hcand
    rw [foldl_remote_localCandidates] at hinternal
    change internal ∈ (gathered env.gathering pc.config.stunServer).localCandidates.items
      at hinternal
    rw [gathered_localCandidates] at hinternal
    obtain ⟨n, hn, rfl⟩ := List.mem_mapIdx.mp hinternal
    exact carriedCandidate_host _ _ _

section

variable {crypto : Crypto} {env : DescriptionEnv} {pc pc' : PeerConnection} {text : List UInt8}
  {events : List PcEvent}

/-- The common end of the two calls that make a description: the entries that it is made of, and
then gathering. -/
def describe {α : Type*} (config : α → TrackConfig) (p : α → Bool) (entries : List α)
    (env : DescriptionEnv) (ensured : PeerConnection × SdpSession) :
    Option (Except TinyrtcError (List UInt8) × PeerConnection × List PcEvent) :=
  pcGatherAndGenerate env
    { ensured.1 with
      localSdp := entries.foldl (fun session entry =>
        if p entry then (sdpAddMedia session (config entry)).getD session else session) ensured.2 }

theorem describe_carried {α : Type*} {config : α → TrackConfig} {p : α → Bool}
    {entries : List α} {ensured : PeerConnection × SdpSession} (hhead : CarriedHead ensured.2)
    (hempty : ensured.2.media.items = []) (hroom : entries.length ≤ sdpMaxMedia)
    (hmedia : ∀ entry ∈ entries.filter p, CarriedMedia (sdpMediaOfConfig (config entry)))
    (hpayloadTypes :
      ((entries.filter p).map fun entry => (sdpMediaOfConfig (config entry)).payloadType).Nodup)
    (h : describe config p entries env ensured = some (.ok text, pc', events)) :
    text = sdpText pc'.localSdp ∧ CarriedSession pc'.localSdp ∧
      pc'.remoteSdp = ensured.1.remoteSdp ∧
      pc'.localSdp.media.items =
        (entries.filter p).map fun entry => sdpMediaOfConfig (config entry) := by
  obtain ⟨media, hfold, hitems⟩ := foldl_addConfigs config p entries ensured.2 (by
    rw [hempty]
    exact (Nat.zero_add _).trans_le hroom)
  rw [hempty, List.nil_append] at hitems
  rw [describe, hfold] at h
  obtain ⟨candidates, hlocal, hcandidates, htext, hremote⟩ := pcGatherAndGenerate_text h
  refine ⟨htext, ?_, hremote, ?_⟩
  · rw [hlocal]
    refine hhead.carriedSession ?_ ?_ hcandidates
    · intro entry hentry
      rw [hitems] at hentry
      obtain ⟨source, hsource, rfl⟩ := List.mem_map.mp hentry
      exact hmedia source hsource
    · rw [hitems, List.map_map]
      exact hpayloadTypes
  · rw [hlocal]
    exact hitems

/-- The entry that an offer has for a local track. -/
def offeredMedia (track : Track) : SdpMedia :=
  sdpMediaOfConfig (offerConfig track)

/-- A local track that an offer can carry: its mid can stand in a line, and a video track has a
codec with one channel. -/
structure OfferedTrack (track : Track) : Prop where
  mid : LineText track.mid.bytes
  video : track.kind = .video → tinyrtcCodecGetChannels track.codecId = 1

/-- The local tracks of a connection can all be offered, and told apart. -/
structure Offers (pc : PeerConnection) : Prop where
  tracks : ∀ track ∈ pc.localTracks.items, OfferedTrack track
  payloadTypes : (pc.localTracks.items.map fun track => (offeredMedia track).payloadType).Nodup

theorem codecInfo_spec (codec : CodecId) :
    0 < tinyrtcCodecGetClockRate codec ∧ 1 ≤ tinyrtcCodecGetChannels codec := by
  cases codec <;> exact ⟨by decide, by decide⟩

theorem carriedMedia_offered {track : Track} (h : OfferedTrack track) :
    CarriedMedia (offeredMedia track) := by
  obtain ⟨hrate, hchannels⟩ := codecInfo_spec track.codecId
  have hsame : (offeredMedia track).channels = tinyrtcCodecGetChannels track.codecId := rfl
  refine ⟨?_, ?_, ?_, ?_, rfl, rfl⟩
  · change 0 < if track.clockRate ≠ 0 then track.clockRate else tinyrtcCodecGetClockRate _
    split
    · next hne => exact UInt32.pos_iff_ne_zero.mpr hne
    · exact hrate
  · exact fun _ => hsame ▸ hchannels
  · exact fun hvideo => hsame ▸ h.video hvideo
  · change LineText (CStr.strncpy track.mid.bytes : CStr 16).bytes
    rw [CStr.strncpy_self]
    exact h.mid

/-- An entry that stays as it is when it is taken over into an answer. -/
def Settled (media : SdpMedia) : Prop :=
  sdpMediaOfConfig (answerConfig media) = media

theorem settled_offered (track : Track) : Settled (offeredMedia track) := by
  have hchoice : ∀ {α : Type} [DecidableEq α] (zero chosen default : α),
      (if (if chosen ≠ zero then chosen else default) ≠ zero then
        (if chosen ≠ zero then chosen else default) else default) =
          if chosen ≠ zero then chosen else default := by
    intro α _ zero chosen default
    by_cases hchosen : chosen = zero
    · rw [if_neg (not_not.mpr hchosen)]
      exact ite_self _
    · rw [if_pos hchosen, if_pos hchosen]
  apply SdpMedia.ext
  · rfl
  · rfl
  · exact hchoice 0 track.payloadType _
  · rfl
  · exact hchoice 0 track.clockRate _
  · exact hchoice (0 : Int32) 0 (tinyrtcCodecGetChannels track.codecId)
  · exact CStr.strncpy_self _
  · rfl
  · rfl

/-- The head of an offer. -/
def offerHead (now sessionId sessionVersion : UInt64) : SdpSession :=
  localHead now (ascii "actpass")
    { sdpSessionInit with
      username := CStr.strncpy (ascii "-")
      sessionId := sessionId
      sessionVersion := sessionVersion
      networkType := CStr.strncpy (ascii "IN")
      addressType := CStr.strncpy (ascii "IP4") }

/-- The head of an answer. -/
def answerHead (now : UInt64) (remote : SdpSession) : SdpSession :=
  localHead now (ascii "active")
    { sdpSessionInit with
      username := remote.username
      sessionId := remote.sessionId
      sessionVersion := remote.sessionVersion + 1
      networkType := remote.networkType
      addressType := remote.addressType }

/-- The connection and the head once there is a DTLS context. -/
def ensuredHead (crypto : Crypto) (env : DescriptionEnv) (pc : PeerConnection)
    (session : SdpSession) : PeerConnection × SdpSession :=
  pcEnsureLocalDtlsMaterial crypto env.certificate { pc with state := .connecting } session

theorem createOffer_eq (hopen : pc.state ≠ .closed) :
    tinyrtcPeerConnectionCreateOffer crypto env pc =
      describe offerConfig (fun _ => true)
        (ensuredHead crypto env pc
          (offerHead (env.clock 2) (env.clock 0) (env.clock 1))).1.localTracks.items env
        (ensuredHead crypto env pc (offerHead (env.clock 2) (env.clock 0) (env.clock 1))) := by
  rw [tinyrtcPeerConnectionCreateOffer, if_neg hopen]
  rfl

theorem createAnswer_eq (hopen : pc.state ≠ .closed) :
    tinyrtcPeerConnectionCreateAnswer crypto env pc =
      describe answerConfig
        (fun media =>
          (ensuredHead crypto env pc
            (answerHead (env.clock 2) pc.remoteSdp)).1.localTracks.items.any
              fun track => track.kind == media.kind)
        (ensuredHead crypto env pc (answerHead (env.clock 2) pc.remoteSdp)).1.remoteSdp.media.items
        env
        (ensuredHead crypto env pc (answerHead (env.clock 2) pc.remoteSdp)) := by
  rw [tinyrtcPeerConnectionCreateAnswer, if_neg hopen]
  rfl

theorem ensuredHead_spec (env : DescriptionEnv) (hpc : Certified crypto pc) {session : SdpSession}
    (hhead : CarriedHead session) :
    CarriedHead (ensuredHead crypto env pc session).2 ∧
      (ensuredHead crypto env pc session).2.media = session.media ∧
      (ensuredHead crypto env pc session).1.localTracks = pc.localTracks ∧
      (ensuredHead crypto env pc session).1.remoteSdp = pc.remoteSdp := by
  have hconnecting : Certified crypto { pc with state := .connecting } := hpc.of_eq rfl
  obtain ⟨htracks, hremote, hsession⟩ := pcEnsureLocalDtlsMaterial_media crypto env.certificate
    { pc with state := .connecting } session
  exact ⟨carriedHead_ensure hconnecting env.certificate hhead, hsession, htracks, hremote⟩

theorem createOffer_carried (hpc : Certified crypto pc) (hoffers : Offers pc)
    (h : tinyrtcPeerConnectionCreateOffer crypto env pc = some (.ok text, pc', events)) :
    text = sdpText pc'.localSdp ∧ CarriedSession pc'.localSdp ∧ pc'.remoteSdp = pc.remoteSdp ∧
      pc'.localSdp.media.items = pc.localTracks.items.map offeredMedia := by
  have hopen : pc.state ≠ .closed := by
    intro hclosed
    rw [tinyrtcPeerConnectionCreateOffer, if_pos hclosed] at h
    cases h
  have hhead : CarriedHead (offerHead (env.clock 2) (env.clock 0) (env.clock 1)) :=
    carriedHead_local (token_of_isToken rfl) (token_of_isToken rfl) (token_of_isToken rfl) rfl rfl
      (env.clock 2) (by decide +kernel)
  obtain ⟨hcarried, hmedia, htracks, hremote⟩ := ensuredHead_spec env hpc hhead
  have hall : ∀ tracks : List Track, tracks.filter (fun _ => true) = tracks :=
    fun tracks => List.filter_eq_self.mpr fun _ _ => rfl
  rw [createOffer_eq hopen] at h
  generalize ensuredHead crypto env pc (offerHead (env.clock 2) (env.clock 0) (env.clock 1)) =
    ensured at *
  obtain ⟨htext, hsession, hsame, hitems⟩ := describe_carried hcarried (by rw [hmedia]; rfl)
    ensured.1.localTracks.length_le
    (fun track htrack => by
      rw [hall, htracks] at htrack
      exact carriedMedia_offered (hoffers.tracks track htrack))
    (by
      rw [hall, htracks]
      exact hoffers.payloadTypes) h
  rw [hall, htracks] at hitems
  exact ⟨htext, hsession, hsame.trans hremote, hitems⟩

/-- A description that can be answered: it can be carried, and its entries are settled. -/
structure Answerable (session : SdpSession) : Prop where
  carried : CarriedSession session
  settled : ∀ media ∈ session.media.items, Settled media

/-- The entries for which a connection has a local track of the same kind. -/
def taken (pc : PeerConnection) (media : List SdpMedia) : List SdpMedia :=
  media.filter fun entry => pc.localTracks.items.any fun track => track.kind == entry.kind

theorem createAnswer_carried (hpc : Certified crypto pc) (hremote : Answerable pc.remoteSdp)
    (h : tinyrtcPeerConnectionCreateAnswer crypto env pc = some (.ok text, pc', events)) :
    text = sdpText pc'.localSdp ∧ CarriedSession pc'.localSdp ∧ pc'.remoteSdp = pc.remoteSdp ∧
      pc'.localSdp.media.items = taken pc pc.remoteSdp.media.items := by
  have hopen : pc.state ≠ .closed := by
    intro hclosed
    rw [tinyrtcPeerConnectionCreateAnswer, if_pos hclosed] at h
    cases h
  have hhead : CarriedHead (answerHead (env.clock 2) pc.remoteSdp) := by
    have husername := hremote.carried.username
    have hnetworkType := hremote.carried.networkType
    have haddressType := hremote.carried.addressType
    rw [answerHead]
    apply carriedHead_local
    · exact husername
    · exact hnetworkType
    · exact haddressType
    · rfl
    · rfl
    · decide +kernel
  obtain ⟨hcarried, hmedia, htracks, hsameRemote⟩ := ensuredHead_spec env hpc hhead
  have hsettled : ∀ entry ∈ taken pc pc.remoteSdp.media.items,
      sdpMediaOfConfig (answerConfig entry) = entry :=
    fun entry hentry => hremote.settled entry (List.mem_of_mem_filter hentry)
  have hnodup : ((taken pc pc.remoteSdp.media.items).map SdpMedia.payloadType).Nodup :=
    hremote.carried.payloadTypes.sublist (List.filter_sublist.map _)
  rw [createAnswer_eq hopen] at h
  generalize ensuredHead crypto env pc (answerHead (env.clock 2) pc.remoteSdp) = ensured at *
  rw [htracks, hsameRemote] at h
  obtain ⟨htext, hsession, hsame, hitems⟩ := describe_carried hcarried (by rw [hmedia]; rfl)
    pc.remoteSdp.media.length_le
    (fun entry hentry => by
      rw [hsettled entry hentry]
      exact hremote.carried.media entry (List.mem_of_mem_filter hentry))
    (by
      have hmap := List.map_congr_left fun entry hentry =>
        congrArg SdpMedia.payloadType (hsettled entry hentry)
      exact hmap ▸ hnodup) h
  refine ⟨htext, hsession, hsame.trans hsameRemote, hitems.trans ?_⟩
  exact (List.map_congr_left hsettled).trans (List.map_id _)

end

end TinyRtc.CarriedDescriptions
