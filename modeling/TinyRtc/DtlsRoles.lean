import TinyRtc.SecureMedia

namespace TinyRtc.DtlsRoles

open TinyRtc.BigEndian
open TinyRtc.CallEffects
open TinyRtc.Common
open TinyRtc.Connection
open TinyRtc.CString
open TinyRtc.Dtls
open TinyRtc.Ice
open TinyRtc.IncomingRtp
open TinyRtc.Inet
open TinyRtc.LabelledRuns
open TinyRtc.MediaSend
open TinyRtc.Negotiation
open TinyRtc.ProcessEvents
open TinyRtc.Sdp
open TinyRtc.SdpParser
open TinyRtc.SecureMedia
open TinyRtc.Srtp

section

variable (dtls : DtlsContext)

theorem dtlsContinueHandshake_role (answer : HandshakeAnswer) :
    (dtlsContinueHandshake dtls answer).2.role = dtls.role := by
  rw [dtlsContinueHandshake]
  split <;> rfl

theorem dtlsHandleHandshakeResult_role (env : HandshakeEnv) (result : HandshakeResult) :
    (dtlsHandleHandshakeResult dtls env result).2.role = dtls.role := by
  cases result with
  | helloVerifyRequired =>
      rw [dtlsHandleHandshakeResult]
      split
      · split
        · rfl
        · dsimp only
          split <;> rfl
      · rfl
  | _ => rfl

theorem dtlsPollHandshake_role (env : HandshakeEnv) :
    (dtlsPollHandshake dtls env).2.role = dtls.role := by
  rw [dtlsPollHandshake]
  exact (dtlsHandleHandshakeResult_role _ _ _).trans (dtlsContinueHandshake_role _ _)

theorem dtlsProcessData_role (first second : HandshakeEnv) (len : Nat) :
    (dtlsProcessData dtls first second len).2.role = dtls.role := by
  have hfirst := dtlsContinueHandshake_role dtls first.answer
  have hhandled := (dtlsHandleHandshakeResult_role (dtlsContinueHandshake dtls first.answer).2 first
    (dtlsContinueHandshake dtls first.answer).1).trans hfirst
  rw [dtlsProcessData]
  split
  · rfl
  · dsimp only
    split
    · split
      · exact hhandled
      · exact (dtlsHandleHandshakeResult_role _ _ _).trans
          ((dtlsContinueHandshake_role _ _).trans hhandled)
    · exact hhandled

theorem dtlsStart_role (env : HandshakeEnv) (ice : IceSession) :
    (dtlsStart dtls env ice).2.role = dtls.role := by
  rw [dtlsStart]
  split
  · rfl
  · dsimp only
    split
    · rfl
    · exact dtlsContinueHandshake_role _ _

end

/-- A DTLS context has the role that the flag of the configuration stands for. -/
def RolesByFlag (pc : PeerConnection) : Prop :=
  ∀ dtls, pc.dtls = some dtls → dtls.role = pcDtlsRole pc

structure KeepsRoles (pc pc' : PeerConnection) : Prop where
  config : pc'.config = pc.config
  roles : RolesByFlag pc → RolesByFlag pc'

structure KeepsSetup (pc pc' : PeerConnection) : Prop extends KeepsRoles pc pc' where
  localSdp : pc'.localSdp = pc.localSdp

section

variable {pc pc' pc'' : PeerConnection}

theorem pcDtlsRole_congr (h : pc'.config = pc.config) : pcDtlsRole pc' = pcDtlsRole pc := by
  rw [pcDtlsRole, pcDtlsRole, h]

theorem KeepsRoles.of_eq (hconfig : pc'.config = pc.config) (hdtls : pc'.dtls = pc.dtls) :
    KeepsRoles pc pc' := by
  refine ⟨hconfig, fun hroles dtls hsome => ?_⟩
  rw [hdtls] at hsome
  rw [hroles dtls hsome, pcDtlsRole_congr hconfig]

theorem KeepsRoles.trans (hfirst : KeepsRoles pc pc') (hsecond : KeepsRoles pc' pc'') :
    KeepsRoles pc pc'' :=
  ⟨hsecond.config.trans hfirst.config, hsecond.roles ∘ hfirst.roles⟩

theorem KeepsSetup.of_eq (hconfig : pc'.config = pc.config) (hdtls : pc'.dtls = pc.dtls)
    (hlocal : pc'.localSdp = pc.localSdp) : KeepsSetup pc pc' :=
  ⟨.of_eq hconfig hdtls, hlocal⟩

theorem KeepsSetup.refl (pc : PeerConnection) : KeepsSetup pc pc :=
  .of_eq rfl rfl rfl

theorem KeepsSetup.trans (hfirst : KeepsSetup pc pc') (hsecond : KeepsSetup pc' pc'') :
    KeepsSetup pc pc'' :=
  ⟨hfirst.toKeepsRoles.trans hsecond.toKeepsRoles, hsecond.localSdp.trans hfirst.localSdp⟩

end

theorem dtlsInit_role {crypto : Crypto} {role : DtlsRole} {certificate : Option (List UInt8)}
    {dtls : DtlsContext} (h : dtlsInit crypto role certificate = some dtls) : dtls.role = role := by
  obtain ⟨_, -, rfl⟩ := Option.map_eq_some_iff.mp h
  rfl

theorem pcEnsureLocalDtlsMaterial_roles (crypto : Crypto) (certificate : Option (List UInt8))
    (pc : PeerConnection) (session : SdpSession) :
    KeepsRoles pc (pcEnsureLocalDtlsMaterial crypto certificate pc session).1 ∧
      (pcEnsureLocalDtlsMaterial crypto certificate pc session).2.dtlsSetup =
        session.dtlsSetup := by
  obtain ⟨fingerprintType, fingerprint, hsession⟩ :=
    pcEnsureLocalDtlsMaterial_snd crypto certificate pc session
  rw [pcEnsureLocalDtlsMaterial_fst, hsession]
  refine ⟨?_, rfl⟩
  split
  · exact ⟨rfl, fun _ _ hinit => dtlsInit_role hinit⟩
  · exact .of_eq rfl rfl

theorem sdpAddMedia_dtlsSetup (session : SdpSession) (config : TrackConfig) :
    ((sdpAddMedia session config).getD session).dtlsSetup = session.dtlsSetup := by
  rw [sdpAddMedia]
  cases session.media.push? (sdpMediaOfConfig config) <;> rfl

theorem foldl_dtlsSetup {α : Type*} {add : SdpSession → α → SdpSession}
    (hadd : ∀ session entry, (add session entry).dtlsSetup = session.dtlsSetup)
    (entries : List α) (session : SdpSession) :
    (entries.foldl add session).dtlsSetup = session.dtlsSetup := by
  induction entries generalizing session with
  | nil => rfl
  | cons entry entries ih => exact (ih _).trans (hadd session entry)

section

variable {crypto : Crypto} {env : DescriptionEnv} {pc pc' : PeerConnection}
  {text : Except TinyrtcError (List UInt8)} {events : List PcEvent}

theorem makeDescription_roles {session localSdp : SdpSession}
    {ensured : PeerConnection × SdpSession}
    (hensured : ensured = pcEnsureLocalDtlsMaterial crypto env.certificate
      { pc with state := .connecting } session)
    (h : pcGatherAndGenerate env { ensured.1 with localSdp := localSdp } =
      some (text, pc', events))
    (hlocal : localSdp.dtlsSetup = ensured.2.dtlsSetup) :
    KeepsRoles pc pc' ∧ pc'.localSdp.dtlsSetup = session.dtlsSetup := by
  obtain ⟨hensure, hsetup⟩ := pcEnsureLocalDtlsMaterial_roles crypto env.certificate
    { pc with state := .connecting } session
  rw [← hensured] at hensure hsetup
  obtain ⟨candidates, outputs, rfl, rfl⟩ := pcGatherAndGenerate_cases h
  have hconnecting : KeepsRoles pc { pc with state := .connecting } := .of_eq rfl rfl
  exact ⟨(hconnecting.trans hensure).trans (.of_eq rfl rfl), hlocal.trans hsetup⟩

theorem createOffer_roles
    (h : tinyrtcPeerConnectionCreateOffer crypto env pc = some (text, pc', events)) :
    KeepsRoles pc pc' ∧
      ∀ offer, text = .ok offer → pc'.localSdp.dtlsSetup = CStr.strncpy (ascii "actpass") := by
  rw [tinyrtcPeerConnectionCreateOffer] at h
  split at h
  · cases h
    exact ⟨.of_eq rfl rfl, by simp⟩
  · obtain ⟨hroles, hsetup⟩ := makeDescription_roles rfl h
      (foldl_dtlsSetup (fun session track => sdpAddMedia_dtlsSetup session _) _ _)
    exact ⟨hroles, fun _ _ => hsetup⟩

theorem createAnswer_roles
    (h : tinyrtcPeerConnectionCreateAnswer crypto env pc = some (text, pc', events)) :
    KeepsRoles pc pc' ∧
      ∀ answer, text = .ok answer → pc'.localSdp.dtlsSetup = CStr.strncpy (ascii "active") := by
  rw [tinyrtcPeerConnectionCreateAnswer] at h
  split at h
  · cases h
    exact ⟨.of_eq rfl rfl, by simp⟩
  · have hlocal : ∀ (tracks : List Track) (session : SdpSession) (media : SdpMedia),
        (if tracks.any fun track => track.kind == media.kind then
          (sdpAddMedia session (answerConfig media)).getD session
        else session).dtlsSetup = session.dtlsSetup := by
      intro tracks session media
      split
      · exact sdpAddMedia_dtlsSetup session _
      · rfl
    obtain ⟨hroles, hsetup⟩ := makeDescription_roles rfl h (foldl_dtlsSetup (hlocal _) _ _)
    exact ⟨hroles, fun _ _ => hsetup⟩

end

theorem setRemoteDescription_setup {locals : Locals} {trackOk : Nat → Bool}
    {pc pc' : PeerConnection} {sdp : List UInt8} {err : TinyrtcError} {events : List PcEvent}
    (h : tinyrtcPeerConnectionSetRemoteDescription locals trackOk pc sdp =
      some (err, pc', events)) : KeepsSetup pc pc' := by
  rcases setRemoteDescription_cases h with
    ⟨-, rfl, -⟩ | ⟨session, -, ⟨-, rfl, -⟩ | ⟨-, ⟨remoteTracks, rfl⟩, -⟩⟩
  · exact .refl pc'
  · exact .of_eq rfl rfl rfl
  · exact .of_eq rfl rfl rfl

section

variable {crypto : Crypto} {hostOrder : UInt32 → List UInt8} {pc pc' : PeerConnection}
  {events : List PcEvent}

theorem processDatagram_setup {input : EventInput} {ice : IceSession} {datagram : Datagram}
    (h : processDatagram crypto input pc ice datagram = some (pc', events)) :
    KeepsSetup pc pc' := by
  obtain ⟨dtls, srtpRx, remoteTracks, media, rfl, -, -, hdtls⟩ := processDatagram_parts h
  rcases hdtls with rfl | ⟨context, hcontext, rfl⟩
  · exact .of_eq rfl rfl rfl
  · refine ⟨⟨rfl, fun hroles processed hprocessed => ?_⟩, rfl⟩
    cases hprocessed
    exact (dtlsProcessData_role _ _ _ _).trans (hroles context hcontext)

theorem notifyConnected_setup (input : EventInput) (pc : PeerConnection) (ice : IceSession) :
    KeepsSetup pc (notifyConnected crypto input pc ice).1 := by
  rw [notifyConnected]
  split
  · refine ⟨⟨rfl, fun hroles started hstarted => ?_⟩, rfl⟩
    obtain ⟨dtls, hdtls, rfl⟩ := Option.map_eq_some_iff.mp hstarted
    refine (dtlsStart_role _ _ _).trans ?_
    split at hdtls
    · exact dtlsInit_role hdtls
    · exact hroles dtls hdtls
  · exact .refl pc

theorem pollDtls_setup (input : EventInput) (pc : PeerConnection) (ice : IceSession) :
    KeepsSetup pc (pollDtls crypto hostOrder input pc ice) := by
  rcases pollDtls_cases crypto hostOrder input pc ice with
    hidle | ⟨dtls, polled, hdtls, -, rfl, hrest⟩
  · rw [hidle]
    exact .refl pc
  · have hpolled : KeepsSetup pc
        { pc with dtls := some (dtlsPollHandshake dtls input.pollHandshake).2 } := by
      refine ⟨⟨rfl, fun hroles polled hpolled => ?_⟩, rfl⟩
      cases hpolled
      exact (dtlsPollHandshake_role _ _).trans (hroles dtls hdtls)
    rcases hrest with hrest | ⟨-, srtp, srtpRx, hrest⟩
    · rw [hrest]
      exact hpolled
    · rw [hrest]
      exact hpolled.trans (.of_eq rfl rfl rfl)

theorem processEvents_setup {input : EventInput}
    (h : tinyrtcProcessEvents crypto hostOrder input pc = some (pc', events)) :
    KeepsSetup pc pc' := by
  obtain ⟨received, hreceived, hrest⟩ := processEvents_parts h
  have hround : KeepsSetup pc received := by
    rcases hreceived with rfl | ⟨ice, datagram, receivedEvents, -, hreceived⟩
    · exact .refl _
    · exact processDatagram_setup hreceived
  rcases hrest with rfl | ⟨ice, -, rfl⟩
  · exact hround
  · refine (hround.trans ?_).trans (pollDtls_setup _ _ _)
    refine KeepsSetup.trans ?_ (notifyConnected_setup _ _ _)
    exact .of_eq rfl rfl rfl

def MakesDescription : PcCall → Prop
  | .createOffer _ => True
  | .createAnswer _ => True
  | _ => False

theorem pcCall_setup {call : PcCall} (h : pcCall crypto hostOrder pc call = some (pc', events))
    (hcall : ¬ MakesDescription call) : KeepsSetup pc pc' := by
  cases pcCall_course h with
  | addTrack localTracks => exact .of_eq rfl rfl rfl
  | removeTrack localTracks => exact .of_eq rfl rfl rfl
  | createOffer hoffer => exact absurd trivial hcall
  | setRemoteDescription hset => exact setRemoteDescription_setup hset
  | createAnswer hanswer => exact absurd trivial hcall
  | addIceCandidate candidate =>
      obtain ⟨remoteSdp, ice, hadded, -⟩ := addIceCandidate_frame pc candidate
      rw [hadded]
      exact .of_eq rfl rfl rfl
  | close => exact .of_eq rfl rfl rfl
  | sendAudioFrame hsend =>
      obtain ⟨⟨srtp, localTracks, rfl⟩, -⟩ := trackSendFrame_cases hsend
      exact .of_eq rfl rfl rfl
  | sendVideoFrame hsend =>
      obtain ⟨⟨srtp, localTracks, rfl⟩, -⟩ := trackSendFrame_cases hsend
      exact .of_eq rfl rfl rfl
  | processEvents hround => exact processEvents_setup hround

theorem pcCall_roles {call : PcCall} (h : pcCall crypto hostOrder pc call = some (pc', events)) :
    KeepsRoles pc pc' := by
  by_cases hcall : MakesDescription call
  · cases pcCall_course h with
    | createOffer hoffer => exact (createOffer_roles hoffer).1
    | createAnswer hanswer => exact (createAnswer_roles hanswer).1
    | _ => exact hcall.elim
  · exact (pcCall_setup h hcall).toKeepsRoles

def QuietStep (crypto : Crypto) (hostOrder : UInt32 → List UInt8) (pc : PeerConnection)
    (call : PcCall × List PcEvent) (pc' : PeerConnection) : Prop :=
  PcStep crypto hostOrder pc call pc' ∧ ¬ MakesDescription call.1

theorem quietRun_setup {calls : List (PcCall × List PcEvent)}
    (hrun : Run (QuietStep crypto hostOrder) pc calls pc') : KeepsSetup pc pc' := by
  induction hrun with
  | nil pc => exact .refl pc
  | cons hstep _ ih => exact (pcCall_setup hstep.1 hstep.2).trans ih

theorem pcRun_roles {calls : List (PcCall × List PcEvent)}
    (hrun : Run (PcStep crypto hostOrder) pc calls pc') : KeepsRoles pc pc' := by
  induction hrun with
  | nil pc => exact .of_eq rfl rfl
  | cons hstep _ ih => exact (pcCall_roles hstep).trans ih

end

/-- The connections that the party that offers can have once it has set the answer: other
calls may come in front of its two, between them and behind them. -/
inductive OffererSide (crypto : Crypto) (hostOrder : UInt32 → List UInt8) (config : PcConfig)
    (offer answer : List UInt8) : PeerConnection → Prop
  | intro {history between later : List (PcCall × List PcEvent)}
      {pc offered waiting answered final : PeerConnection} {env : DescriptionEnv}
      {locals : Locals} {trackOk : Nat → Bool} {events events' : List PcEvent} :
      Run (PcStep crypto hostOrder) (tinyrtcPeerConnectionCreate config) history pc →
      tinyrtcPeerConnectionCreateOffer crypto env pc = some (.ok offer, offered, events) →
      Run (QuietStep crypto hostOrder) offered between waiting →
      tinyrtcPeerConnectionSetRemoteDescription locals trackOk waiting answer =
        some (.ok, answered, events') →
      Run (QuietStep crypto hostOrder) answered later final →
      OffererSide crypto hostOrder config offer answer final

inductive AnswererSide (crypto : Crypto) (hostOrder : UInt32 → List UInt8) (config : PcConfig)
    (offer answer : List UInt8) : PeerConnection → Prop
  | intro {history between later : List (PcCall × List PcEvent)}
      {pc offered waiting answered final : PeerConnection} {env : DescriptionEnv}
      {locals : Locals} {trackOk : Nat → Bool} {events events' : List PcEvent} :
      Run (PcStep crypto hostOrder) (tinyrtcPeerConnectionCreate config) history pc →
      tinyrtcPeerConnectionSetRemoteDescription locals trackOk pc offer =
        some (.ok, offered, events) →
      Run (QuietStep crypto hostOrder) offered between waiting →
      tinyrtcPeerConnectionCreateAnswer crypto env waiting = some (.ok answer, answered, events') →
      Run (QuietStep crypto hostOrder) answered later final →
      AnswererSide crypto hostOrder config offer answer final

/-- Roles by the flag, whatever the setup says. -/
structure HasSetup (config : PcConfig) (setup : CStr 16) (pc : PeerConnection) : Prop where
  config : pc.config = config
  roles : RolesByFlag pc
  setup : pc.localSdp.dtlsSetup = setup

theorem rolesByFlag_create (config : PcConfig) :
    RolesByFlag (tinyrtcPeerConnectionCreate config) := by
  intro dtls hdtls
  cases hdtls

section

variable {crypto : Crypto} {hostOrder : UInt32 → List UInt8} {config : PcConfig}
  {offer answer : List UInt8} {pc : PeerConnection}

theorem OffererSide.hasSetup (h : OffererSide crypto hostOrder config offer answer pc) :
    HasSetup config (CStr.strncpy (ascii "actpass")) pc := by
  obtain ⟨hhistory, hoffer, hbetween, hanswer, hlater⟩ := h
  obtain ⟨hroles, hsetup⟩ := createOffer_roles hoffer
  have hquiet := ((quietRun_setup hbetween).trans (setRemoteDescription_setup hanswer)).trans
    (quietRun_setup hlater)
  have hall := ((pcRun_roles hhistory).trans hroles).trans hquiet.toKeepsRoles
  refine ⟨hall.config, hall.roles (rolesByFlag_create config), ?_⟩
  rw [hquiet.localSdp]
  exact hsetup offer rfl

theorem AnswererSide.hasSetup (h : AnswererSide crypto hostOrder config offer answer pc) :
    HasSetup config (CStr.strncpy (ascii "active")) pc := by
  obtain ⟨hhistory, hoffer, hbetween, hanswer, hlater⟩ := h
  obtain ⟨hroles, hsetup⟩ := createAnswer_roles hanswer
  have hquiet := quietRun_setup hlater
  have hfirst := (setRemoteDescription_setup hoffer).trans (quietRun_setup hbetween)
  have hall := (((pcRun_roles hhistory).trans hfirst.toKeepsRoles).trans hroles).trans
    hquiet.toKeepsRoles
  refine ⟨hall.config, hall.roles (rolesByFlag_create config), ?_⟩
  rw [hquiet.localSdp]
  exact hsetup answer rfl

end

/-- Exactly one of the two is the client: the one that has said `active`, or the one that
offers when the answer says `passive`. -/
structure RolesFollowSetup (offerer answerer : PeerConnection) : Prop where
  oneClient : ∀ dtls dtls', offerer.dtls = some dtls → answerer.dtls = some dtls' →
    (dtls.role = .client ↔ dtls'.role ≠ .client)
  offererClient : ∀ dtls, offerer.dtls = some dtls →
    (dtls.role = .client ↔ offerer.localSdp.dtlsSetup.bytes = ascii "active" ∨
      answerer.localSdp.dtlsSetup.bytes = ascii "passive")
  answererClient : ∀ dtls, answerer.dtls = some dtls →
    (dtls.role = .client ↔ answerer.localSdp.dtlsSetup.bytes = ascii "active")

theorem HasSetup.role_eq_client_iff {config : PcConfig} {setup : CStr 16} {pc : PeerConnection}
    (h : HasSetup config setup pc) {dtls : DtlsContext} (hdtls : pc.dtls = some dtls) :
    dtls.role = .client ↔ config.isInitiator = true := by
  rw [h.roles dtls hdtls, pcDtlsRole, h.config]
  split
  · next hflag => exact iff_of_true rfl hflag
  · next hflag => exact iff_of_false (by simp) hflag

theorem rolesFollowSetup_iff {crypto crypto' : Crypto} {hostOrder hostOrder' : UInt32 → List UInt8}
    {config config' : PcConfig} {offer answer : List UInt8} {offerer answerer : PeerConnection}
    (hofferer : OffererSide crypto hostOrder config offer answer offerer)
    (hanswerer : AnswererSide crypto' hostOrder' config' offer answer answerer)
    (hdtls : offerer.dtls.isSome = true) (hdtls' : answerer.dtls.isSome = true) :
    RolesFollowSetup offerer answerer ↔
      config.isInitiator = false ∧ config'.isInitiator = true := by
  obtain ⟨dtls, hdtls⟩ := Option.isSome_iff_exists.mp hdtls
  obtain ⟨dtls', hdtls'⟩ := Option.isSome_iff_exists.mp hdtls'
  have hrole := hofferer.hasSetup.role_eq_client_iff hdtls
  have hrole' := hanswerer.hasSetup.role_eq_client_iff hdtls'
  have hactpass : ¬ (offerer.localSdp.dtlsSetup.bytes = ascii "active" ∨
      answerer.localSdp.dtlsSetup.bytes = ascii "passive") := by
    rw [hofferer.hasSetup.setup, hanswerer.hasSetup.setup]
    decide
  have hactive : answerer.localSdp.dtlsSetup.bytes = ascii "active" := by
    rw [hanswerer.hasSetup.setup]
    decide
  constructor
  · intro hfollow
    have hserver := (hfollow.offererClient dtls hdtls).not.mpr hactpass
    have hclient := (hfollow.answererClient dtls' hdtls').mpr hactive
    rw [hrole, Bool.not_eq_true] at hserver
    exact ⟨hserver, hrole'.mp hclient⟩
  · rintro ⟨hflag, hflag'⟩
    rw [hflag] at hrole
    rw [hflag'] at hrole'
    have hserver : dtls.role ≠ .client := fun hclient => Bool.false_ne_true (hrole.mp hclient)
    have hclient : dtls'.role = .client := hrole'.mpr rfl
    refine ⟨?_, ?_, ?_⟩
    · intro d d' hd hd'
      cases hdtls.symm.trans hd
      cases hdtls'.symm.trans hd'
      exact iff_of_false hserver (not_not.mpr hclient)
    · intro d hd
      cases hdtls.symm.trans hd
      exact iff_of_false hserver hactpass
    · intro d' hd'
      cases hdtls'.symm.trans hd'
      exact iff_of_true hclient hactive

def sampleLocals : Locals :=
  ⟨fun _ => 0, fun _ => 0⟩

def exchanges (config config' : PcConfig) (p : PeerConnection → PeerConnection → Bool) : Bool :=
  (tinyrtcPeerConnectionCreateOffer toyCrypto sampleDescriptionEnv
      (tinyrtcPeerConnectionCreate config)).any fun (offer, offered, _) =>
    offer.toOption.any fun offer =>
      (tinyrtcPeerConnectionSetRemoteDescription sampleLocals (fun _ => true)
          (tinyrtcPeerConnectionCreate config') offer).any fun (err, described, _) =>
        err == .ok &&
          (tinyrtcPeerConnectionCreateAnswer toyCrypto sampleDescriptionEnv
              described).any fun (answer, answerer, _) =>
            answer.toOption.any fun answer =>
              (tinyrtcPeerConnectionSetRemoteDescription sampleLocals (fun _ => true) offered
                  answer).any fun (err, offerer, _) => err == .ok && p offerer answerer

theorem toOption_eq_some {ε α : Type*} {result : Except ε α} {a : α}
    (h : result.toOption = some a) : result = .ok a := by
  cases result with
  | error e => cases h
  | ok b => exact congrArg Except.ok (Option.some.inj h)

theorem exists_exchange (config config' : PcConfig)
    (p : PeerConnection → PeerConnection → Bool) (h : exchanges config config' p = true) :
    ∃ offer answer offerer answerer,
      OffererSide toyCrypto write32 config offer answer offerer ∧
      AnswererSide toyCrypto write32 config' offer answer answerer ∧
      p offerer answerer = true := by
  simp only [exchanges, Option.any_eq_true, Bool.and_eq_true, beq_iff_eq] at h
  obtain ⟨⟨_, offered, events⟩, hoffer, offer, hofferOk, ⟨_, described, events'⟩, hdescribe, rfl,
    ⟨_, answerer, events''⟩, hanswer, answer, hanswerOk, ⟨_, offerer, events'''⟩, haccept, rfl, hp⟩ := h
  cases toOption_eq_some hofferOk
  cases toOption_eq_some hanswerOk
  exact ⟨offer, answer, offerer, answerer,
    .intro (.nil _) hoffer (.nil _) haccept (.nil _),
    .intro (.nil _) hdescribe (.nil _) hanswer (.nil _), hp⟩

def configOf (isInitiator : Bool) : PcConfig :=
  { sampleConfig with isInitiator := isInitiator }

theorem rolesFollowSetup_sampleExchange :
    ∃ offer answer offerer answerer,
      OffererSide toyCrypto write32 (configOf false) offer answer offerer ∧
      AnswererSide toyCrypto write32 (configOf true) offer answer answerer ∧
      RolesFollowSetup offerer answerer := by
  obtain ⟨offer, answer, offerer, answerer, hofferer, hanswerer, hp⟩ :=
    exists_exchange (configOf false) (configOf true)
      (fun offerer answerer => offerer.dtls.isSome && answerer.dtls.isSome) (by decide +kernel)
  rw [Bool.and_eq_true] at hp
  exact ⟨offer, answer, offerer, answerer, hofferer, hanswerer,
    (rolesFollowSetup_iff hofferer hanswerer hp.1 hp.2).mpr ⟨rfl, rfl⟩⟩

/-- The party that offers is the initiator, and both parties take the other role than the
answer says. -/
theorem rolesFollowSetup_fails :
    ∃ offer answer offerer answerer,
      OffererSide toyCrypto write32 (configOf true) offer answer offerer ∧
      AnswererSide toyCrypto write32 (configOf false) offer answer answerer ∧
      offerer.dtls.isSome = true ∧ answerer.dtls.isSome = true ∧
      ¬ RolesFollowSetup offerer answerer := by
  obtain ⟨offer, answer, offerer, answerer, hofferer, hanswerer, hp⟩ :=
    exists_exchange (configOf true) (configOf false)
      (fun offerer answerer => offerer.dtls.isSome && answerer.dtls.isSome) (by decide +kernel)
  rw [Bool.and_eq_true] at hp
  obtain ⟨dtls', hdtls'⟩ := Option.isSome_iff_exists.mp hp.2
  refine ⟨offer, answer, offerer, answerer, hofferer, hanswerer, hp.1, hp.2, ?_⟩
  intro hfollow
  have hclient := (hfollow.answererClient dtls' hdtls').mpr (by
    rw [hanswerer.hasSetup.setup]
    decide)
  have hflag := (hanswerer.hasSetup.role_eq_client_iff hdtls').mp hclient
  cases hflag

end TinyRtc.DtlsRoles
