import TinyRtc.SecureMedia

namespace TinyRtc.CertifiedContexts

open TinyRtc.CallEffects
open TinyRtc.Common
open TinyRtc.Connection
open TinyRtc.CString
open TinyRtc.Dtls
open TinyRtc.Ice
open TinyRtc.Inet
open TinyRtc.LabelledRuns
open TinyRtc.Negotiation
open TinyRtc.ProcessEvents
open TinyRtc.Sdp
open TinyRtc.SdpParser
open TinyRtc.Srtp

section

variable (dtls : DtlsContext)

theorem dtlsContinueHandshake_fingerprint (answer : HandshakeAnswer) :
    (dtlsContinueHandshake dtls answer).2.fingerprint = dtls.fingerprint := by
  rw [dtlsContinueHandshake]
  split <;> rfl

theorem dtlsHandleHandshakeResult_fingerprint (env : HandshakeEnv) (result : HandshakeResult) :
    (dtlsHandleHandshakeResult dtls env result).2.fingerprint = dtls.fingerprint := by
  cases result with
  | helloVerifyRequired =>
      rw [dtlsHandleHandshakeResult]
      split
      · split
        · rfl
        · dsimp only
          split <;> rfl
      · rfl
  | _ => rfl

theorem dtlsPollHandshake_fingerprint (env : HandshakeEnv) :
    (dtlsPollHandshake dtls env).2.fingerprint = dtls.fingerprint := by
  rw [dtlsPollHandshake]
  exact (dtlsHandleHandshakeResult_fingerprint _ _ _).trans
    (dtlsContinueHandshake_fingerprint _ _)

theorem dtlsProcessData_fingerprint (first second : HandshakeEnv) (len : Nat) :
    (dtlsProcessData dtls first second len).2.fingerprint = dtls.fingerprint := by
  have hfirst := dtlsContinueHandshake_fingerprint dtls first.answer
  have hhandled := (dtlsHandleHandshakeResult_fingerprint
    (dtlsContinueHandshake dtls first.answer).2 first
    (dtlsContinueHandshake dtls first.answer).1).trans hfirst
  rw [dtlsProcessData]
  split
  · rfl
  · dsimp only
    split
    · split
      · exact hhandled
      · exact (dtlsHandleHandshakeResult_fingerprint _ _ _).trans
          ((dtlsContinueHandshake_fingerprint _ _).trans hhandled)
    · exact hhandled

theorem dtlsStart_fingerprint (env : HandshakeEnv) (ice : IceSession) :
    (dtlsStart dtls env ice).2.fingerprint = dtls.fingerprint := by
  rw [dtlsStart]
  split
  · rfl
  · dsimp only
    split
    · rfl
    · exact dtlsContinueHandshake_fingerprint _ _

end

/-- The fingerprint of a context is the one of a certificate. -/
def Certified (crypto : Crypto) (pc : PeerConnection) : Prop :=
  ∀ dtls, pc.dtls = some dtls → ∃ certificate,
    dtls.fingerprint = CStr.strncpy (certificateFingerprint crypto certificate)

theorem certified_create (crypto : Crypto) (config : PcConfig) :
    Certified crypto (tinyrtcPeerConnectionCreate config) := by
  intro dtls hdtls
  cases hdtls

section

variable {crypto : Crypto} {pc pc' : PeerConnection}

theorem Certified.of_eq (h : Certified crypto pc) (hdtls : pc'.dtls = pc.dtls) :
    Certified crypto pc' :=
  fun dtls hsome => h dtls (hdtls ▸ hsome)

theorem dtlsInit_certified {role : DtlsRole} {certificate : Option (List UInt8)}
    {dtls : DtlsContext} (h : dtlsInit crypto role certificate = some dtls) : ∃ certificate,
      dtls.fingerprint = CStr.strncpy (certificateFingerprint crypto certificate) := by
  obtain ⟨certificate, -, rfl⟩ := Option.map_eq_some_iff.mp h
  exact ⟨certificate, rfl⟩

theorem pcEnsureLocalDtlsMaterial_certified (h : Certified crypto pc)
    (certificate : Option (List UInt8)) (session : SdpSession) :
    Certified crypto (pcEnsureLocalDtlsMaterial crypto certificate pc session).1 := by
  rw [pcEnsureLocalDtlsMaterial_fst]
  split
  · exact fun dtls hinit => dtlsInit_certified hinit
  · exact h

section

variable {env : DescriptionEnv} {text : Except TinyrtcError (List UInt8)}
  {events : List PcEvent}

theorem makeDescription_certified (hpc : Certified crypto pc) {session localSdp : SdpSession}
    (h : pcGatherAndGenerate env
      { (pcEnsureLocalDtlsMaterial crypto env.certificate
          { pc with state := .connecting } session).1 with localSdp := localSdp } =
        some (text, pc', events)) : Certified crypto pc' := by
  have hconnecting : Certified crypto { pc with state := .connecting } := hpc.of_eq rfl
  obtain ⟨candidates, outputs, rfl, rfl⟩ := pcGatherAndGenerate_cases h
  exact (pcEnsureLocalDtlsMaterial_certified hconnecting env.certificate session).of_eq rfl

theorem createOffer_certified (hpc : Certified crypto pc)
    (h : tinyrtcPeerConnectionCreateOffer crypto env pc = some (text, pc', events)) :
    Certified crypto pc' := by
  rw [tinyrtcPeerConnectionCreateOffer] at h
  split at h
  · cases h
    exact hpc
  · exact makeDescription_certified hpc h

theorem createAnswer_certified (hpc : Certified crypto pc)
    (h : tinyrtcPeerConnectionCreateAnswer crypto env pc = some (text, pc', events)) :
    Certified crypto pc' := by
  rw [tinyrtcPeerConnectionCreateAnswer] at h
  split at h
  · cases h
    exact hpc
  · exact makeDescription_certified hpc h

end

theorem setRemoteDescription_certified (hpc : Certified crypto pc) {locals : Locals}
    {trackOk : Nat → Bool} {sdp : List UInt8} {err : TinyrtcError} {events : List PcEvent}
    (h : tinyrtcPeerConnectionSetRemoteDescription locals trackOk pc sdp =
      some (err, pc', events)) : Certified crypto pc' := by
  rcases setRemoteDescription_cases h with
    ⟨-, rfl, -⟩ | ⟨session, -, ⟨-, rfl, -⟩ | ⟨-, ⟨remoteTracks, rfl⟩, -⟩⟩
  · exact hpc
  · exact hpc.of_eq rfl
  · exact hpc.of_eq rfl

variable {hostOrder : UInt32 → List UInt8} {events : List PcEvent}

theorem processDatagram_certified (hpc : Certified crypto pc) {input : EventInput}
    {ice : IceSession} {datagram : Datagram}
    (h : processDatagram crypto input pc ice datagram = some (pc', events)) :
    Certified crypto pc' := by
  obtain ⟨dtls, srtpRx, remoteTracks, media, rfl, -, -, hdtls⟩ := processDatagram_parts h
  rcases hdtls with rfl | ⟨context, hcontext, rfl⟩
  · exact hpc.of_eq rfl
  · intro processed hprocessed
    cases hprocessed
    rw [dtlsProcessData_fingerprint]
    exact hpc context hcontext

theorem notifyConnected_certified (hpc : Certified crypto pc) (input : EventInput)
    (ice : IceSession) : Certified crypto (notifyConnected crypto input pc ice).1 := by
  rw [notifyConnected]
  split
  · intro started hstarted
    obtain ⟨dtls, hdtls, rfl⟩ := Option.map_eq_some_iff.mp hstarted
    rw [dtlsStart_fingerprint]
    split at hdtls
    · exact dtlsInit_certified hdtls
    · exact hpc dtls hdtls
  · exact hpc

theorem pollDtls_certified (hpc : Certified crypto pc) (input : EventInput) (ice : IceSession) :
    Certified crypto (pollDtls crypto hostOrder input pc ice) := by
  rcases pollDtls_cases crypto hostOrder input pc ice with
    hidle | ⟨dtls, polled, hdtls, -, rfl, hrest⟩
  · rw [hidle]
    exact hpc
  · have hpolled : Certified crypto
        { pc with dtls := some (dtlsPollHandshake dtls input.pollHandshake).2 } := by
      intro polled hpolled
      cases hpolled
      rw [dtlsPollHandshake_fingerprint]
      exact hpc dtls hdtls
    rcases hrest with hrest | ⟨-, srtp, srtpRx, hrest⟩
    · rw [hrest]
      exact hpolled
    · rw [hrest]
      exact hpolled.of_eq rfl

theorem processEvents_certified (hpc : Certified crypto pc) {input : EventInput}
    (h : tinyrtcProcessEvents crypto hostOrder input pc = some (pc', events)) :
    Certified crypto pc' := by
  obtain ⟨received, hreceived, hrest⟩ := processEvents_parts h
  have hround : Certified crypto received := by
    rcases hreceived with rfl | ⟨ice, datagram, receivedEvents, -, hreceived⟩
    · exact hpc
    · exact processDatagram_certified hpc hreceived
  rcases hrest with rfl | ⟨ice, -, rfl⟩
  · exact hround
  · refine pollDtls_certified (notifyConnected_certified ?_ _ _) _ _
    exact hround.of_eq rfl

theorem pcCall_certified (hpc : Certified crypto pc) {call : PcCall}
    (h : pcCall crypto hostOrder pc call = some (pc', events)) : Certified crypto pc' := by
  cases pcCall_course h with
  | addTrack localTracks => exact hpc.of_eq rfl
  | removeTrack localTracks => exact hpc.of_eq rfl
  | createOffer hoffer => exact createOffer_certified hpc hoffer
  | setRemoteDescription hset => exact setRemoteDescription_certified hpc hset
  | createAnswer hanswer => exact createAnswer_certified hpc hanswer
  | addIceCandidate candidate =>
      obtain ⟨remoteSdp, ice, hadded, -⟩ := addIceCandidate_frame pc candidate
      rw [hadded]
      exact hpc.of_eq rfl
  | close => exact hpc.of_eq rfl
  | sendAudioFrame hsend =>
      obtain ⟨⟨srtp, localTracks, rfl⟩, -⟩ := trackSendFrame_cases hsend
      exact hpc.of_eq rfl
  | sendVideoFrame hsend =>
      obtain ⟨⟨srtp, localTracks, rfl⟩, -⟩ := trackSendFrame_cases hsend
      exact hpc.of_eq rfl
  | processEvents hround => exact processEvents_certified hpc hround

/-- Every context of a connection has a certificate, whatever calls have made the connection what
it is. -/
theorem certified_run {config : PcConfig} {calls : List (PcCall × List PcEvent)}
    (hrun : Run (PcStep crypto hostOrder) (tinyrtcPeerConnectionCreate config) calls pc) :
    Certified crypto pc :=
  hrun.invariant (fun _ _ _ hpc hstep => pcCall_certified hpc hstep)
    (certified_create crypto config)

end

end TinyRtc.CertifiedContexts
