import TinyRtc.DescriptionExchange
import TinyRtc.SdpBuffer
import TinyRtc.SignalingCandidates
import TinyRtc.SignalingExtract

namespace TinyRtc.SignalledDescriptions

open TinyRtc.AnswerMedia
open TinyRtc.BigEndian
open TinyRtc.CarriedDescriptions
open TinyRtc.CertifiedContexts
open TinyRtc.Common
open TinyRtc.Connection
open TinyRtc.CString
open TinyRtc.DescriptionExchange
open TinyRtc.LabelledRuns
open TinyRtc.Negotiation
open TinyRtc.ProcessEvents
open TinyRtc.Sdp
open TinyRtc.SdpBuffer
open TinyRtc.SdpGenerator
open TinyRtc.SdpParser
open TinyRtc.SdpRoundTrip
open TinyRtc.SecureMedia
open TinyRtc.Signaling
open TinyRtc.SignalingCandidates
open TinyRtc.SignalingEscape
open TinyRtc.SignalingExtract
open TinyRtc.SignalingMessages
open TinyRtc.Srtp

/-- The name that a description goes by on the wire. -/
inductive Named : SignalEventType → List UInt8 → Prop
  | offer : Named .offer (ascii "offer")
  | answer : Named .answer (ascii "answer")

theorem not_mem_nul_escaped {text : List UInt8} (h : 0x00 ∉ text) : 0x00 ∉ escaped text := by
  intro hmem
  obtain ⟨c, hc, hmem⟩ := List.mem_flatMap.mp hmem
  have hne : c ≠ 0x00 := fun hnul => h (hnul ▸ hc)
  revert hmem
  rw [sigEscape]
  split_ifs
  · decide
  · decide
  · decide
  · decide
  · decide
  · exact fun hmem => hne (List.mem_singleton.mp hmem).symm

theorem descriptionJson_type (name value : List UInt8) :
    ∃ rest, descriptionJson name value =
      ascii "\x7b" ++ (ascii "\"type\"" ++ (ascii ": \"" ++ (name ++ rest))) := by
  have hhead : ascii "\x7b\"type\": \"" = ascii "\x7b" ++ (ascii "\"type\"" ++ ascii ": \"") := by
    decide
  rw [descriptionJson, hhead]
  simp only [List.append_assoc]
  exact ⟨_, rfl⟩

theorem Named.eventTypeOf {type : SignalEventType} {name : List UInt8} (h : Named type name)
    (env : MessageEnv) (rest : List UInt8) :
    eventTypeOf env ((ascii ": \"" ++ (name ++ rest)).dropWhile
      fun c => c == 0x3A || c == 0x20 || c == 0x22) = some type := by
  cases h <;> rfl

theorem Named.not_mem_nul {type : SignalEventType} {name : List UInt8} (h : Named type name) :
    0x00 ∉ name := by
  cases h <;> decide

theorem Named.eventData {type : SignalEventType} {name sdp : List UInt8} (h : Named type name)
    {env : MessageEnv} (hstring : env.stringOk = true) (hlast : sdp.getLast? ≠ some 0x5C) :
    eventData env (descriptionJson name (escaped sdp)) type = .sdp sdp := by
  have hextract : sigExtractSdpValue (descriptionJson name (escaped sdp)) env.stringOk =
      some sdp := by
    have hkey : strstr sdpKey (typeFront name ++ sdpKey) = some sdpKey := by
      cases h <;> decide
    rw [sigExtractSdpValue_escaped hkey, if_pos ⟨hstring, hlast⟩]
  cases h with
  | offer => rw [SignalingMessages.eventData, hextract, Option.map_some, Option.getD_some]
  | answer => rw [SignalingMessages.eventData, hextract, Option.map_some, Option.getD_some]

/-- The text that is sent for a description that fits brings it to the callback as it was. -/
theorem sigProcessMessage_description {env : MessageEnv} (henv : Serves env)
    {type : SignalEventType} {name sdp : List UInt8} (hname : Named type name)
    (hnul : 0x00 ∉ sdp) (hlast : sdp.getLast? ≠ some 0x5C) :
    sigProcessMessage env (descriptionJson name (escaped sdp)) = [⟨type, .sdp sdp⟩] := by
  have hwhole : (descriptionJson name (escaped sdp)).takeWhile (· != 0x00) =
      descriptionJson name (escaped sdp) := by
    have hplain : 0x00 ∉ ascii "\x7b\"type\": \"" ∧ 0x00 ∉ ascii "\", \"sdp\": \x7b\"type\": \"" ∧
        0x00 ∉ ascii "\", \"sdp\": \"" ∧ 0x00 ∉ ascii "\"\x7d\x7d" := by
      decide
    apply List.takeWhile_eq_self_iff.mpr
    apply bne_of_not_mem
    simp only [descriptionJson, List.mem_append, not_or, hplain, hname.not_mem_nul,
      not_mem_nul_escaped hnul, not_false_eq_true, and_self]
  obtain ⟨rest, hjson⟩ := descriptionJson_type name (escaped sdp)
  have hfound : strstr (ascii "\"type\"") (descriptionJson name (escaped sdp)) =
      some (ascii "\"type\"" ++ (ascii ": \"" ++ (name ++ rest))) := by
    rw [hjson]
    exact strstr_append (by decide) _
  rw [sigProcessMessage, henv.json, hwhole]
  dsimp only
  rw [hfound, Option.bind_some, strchr_type]
  dsimp only
  rw [hname.eventTypeOf]
  dsimp only
  rw [henv.callback, hname.eventData henv.string hlast]
  rfl

theorem getLast?_sdpText (session : SdpSession) : (sdpText session).getLast? = some 0x0A := by
  rcases List.eq_nil_or_concat (sdpLines session) with hnil | ⟨front, last, hlines⟩
  · have hsession : sessionLines session = [] :=
      (List.append_eq_nil_iff.mp (List.append_eq_nil_iff.mp hnil).1).1
    simp [sessionLines] at hsession
  · rw [sdpText, hlines, List.concat_eq_append, List.flatMap_append, List.flatMap_singleton,
      List.getLast?_append, List.getLast?_append]
    rfl

/-- A connection makes a description that can be carried. -/
inductive Describes (crypto : Crypto) (pc pc' : PeerConnection) :
    SignalEventType → List UInt8 → Prop
  | offer {env : DescriptionEnv} {text : List UInt8} {events : List PcEvent} (hoffers : Offers pc)
      (h : tinyrtcPeerConnectionCreateOffer crypto env pc = some (.ok text, pc', events)) :
      Describes crypto pc pc' .offer text
  | answer {env : DescriptionEnv} {text : List UInt8} {events : List PcEvent}
      (hremote : Answerable pc.remoteSdp)
      (h : tinyrtcPeerConnectionCreateAnswer crypto env pc = some (.ok text, pc', events)) :
      Describes crypto pc pc' .answer text

/-- A client sends a description as what it is. -/
def Sends (env : FrameEnv) (sig : SignalingClient) (sdp : List UInt8) (sent : SentDescription) :
    SignalEventType → Prop
  | .offer => tinyrtcSignalingSendOffer env sig sdp = some sent
  | .answer => tinyrtcSignalingSendAnswer env sig sdp = some sent
  | _ => False

theorem Describes.carried {crypto : Crypto} {pc pc' : PeerConnection} {type : SignalEventType}
    {text : List UInt8} (h : Describes crypto pc pc' type text) (hpc : Certified crypto pc) :
    text = sdpText pc'.localSdp ∧ CarriedSession pc'.localSdp := by
  cases h with
  | offer hoffers h =>
      obtain ⟨htext, hcarried, -⟩ := createOffer_carried hpc hoffers h
      exact ⟨htext, hcarried⟩
  | answer hremote h =>
      obtain ⟨htext, hcarried, -⟩ := createAnswer_carried hpc hremote h
      exact ⟨htext, hcarried⟩

theorem Describes.handed {crypto : Crypto} {pc pc' : PeerConnection} {type : SignalEventType}
    {text json : List UInt8} {env : FrameEnv} {sig : SignalingClient} {sent : SentDescription}
    (h : Describes crypto pc pc' type text) (hfits : (escaped text).length ≤ 4095)
    (hsent : Sends env sig text sent type) (hjson : sent.handed = some json) :
    ∃ name, Named type name ∧ json = descriptionJson name (escaped text) := by
  cases h with
  | offer => exact ⟨_, .offer, handed_of_fits hfits hsent hjson⟩
  | answer => exact ⟨_, .answer, handed_of_fits hfits hsent hjson⟩

/-- A description that a connection makes and a client sends raises one event at the client it is
relayed to, which brings it as it was. A connection that is given it takes it, and then has for
the other side what that one has for itself. -/
theorem description_signalled {crypto : Crypto} {hostOrder : UInt32 → List UInt8}
    {config : PcConfig} {history : List (PcCall × List PcEvent)} {pc pc' : PeerConnection}
    {type : SignalEventType} {text json : List UInt8} {frameEnv : FrameEnv}
    {sig : SignalingClient} {sent : SentDescription} {env : MessageEnv}
    (hrun : Run (PcStep crypto hostOrder) (tinyrtcPeerConnectionCreate config) history pc)
    (hdescribes : Describes crypto pc pc' type text) (hfits : (escaped text).length ≤ 4095)
    (hsent : Sends frameEnv sig text sent type) (hjson : sent.handed = some json)
    (henv : Serves env) :
    sigProcessMessage env json = [⟨type, .sdp text⟩] ∧
      ∀ (locals : Locals) (trackOk : Nat → Bool) (remote : PeerConnection),
        remote.state ≠ .closed →
        ∃ remote' events,
          tinyrtcPeerConnectionSetRemoteDescription locals trackOk remote text =
              some (.ok, remote', events) ∧
            remote'.remoteSdp = pc'.localSdp := by
  obtain ⟨htext, hcarried⟩ := hdescribes.carried (certified_run hrun)
  obtain ⟨name, hname, rfl⟩ := hdescribes.handed hfits hsent hjson
  subst htext
  constructor
  · apply sigProcessMessage_description henv hname (not_mem_nul_sdpText pc'.localSdp)
    rw [getLast?_sdpText]
    decide
  · intro locals trackOk remote hopen
    exact exists_setRemoteDescription locals trackOk hopen hcarried

theorem description_signalled_oneTrack :
    ∃ text json frameEnv sent pc' events remote' remoteEvents,
      tinyrtcPeerConnectionCreateOffer toyCrypto sampleDescriptionEnv oneTrack =
          some (.ok text, pc', events) ∧
        tinyrtcSignalingSendOffer frameEnv ⟨.connected, none⟩ text = some sent ∧
        sent.handed = some json ∧
        sigProcessMessage ⟨true, true, true, true, true, .peerJoin⟩ json =
          [⟨.offer, .sdp text⟩] ∧
        tinyrtcPeerConnectionSetRemoteDescription sampleLocals (fun _ => true) oneTrack text =
            some (.ok, remote', remoteEvents) ∧
          remote'.remoteSdp = pc'.localSdp := by
  have hoffer : ((tinyrtcPeerConnectionCreateOffer toyCrypto sampleDescriptionEnv oneTrack).any
      fun offered => offered.1.toOption.any fun offer =>
        decide ((escaped offer).length ≤ 4095)) = true := by
    decide +kernel
  simp only [Option.any_eq_true, decide_eq_true_eq] at hoffer
  obtain ⟨⟨offerText, pc', events⟩, hoffer, text, htext, hfits⟩ := hoffer
  cases offerText with
  | error _ => cases htext
  | ok _ =>
    cases htext
    obtain ⟨frameEnv, hsent⟩ := sendDescription_ok (by decide : (ascii "offer").length ≤ 100)
      (rfl : (⟨.connected, none⟩ : SignalingClient).state = .connected) text
    have hrun : Run (PcStep toyCrypto write32) (tinyrtcPeerConnectionCreate sampleConfig)
        [(.addTrack true (sampleTrack .audio .opus), [])] oneTrack := .singleton rfl
    obtain ⟨hraised, htaken⟩ := description_signalled hrun (.offer offers_oneTrack hoffer) hfits
      hsent rfl (⟨⟨rfl, rfl, rfl⟩, rfl, rfl⟩ : Serves ⟨true, true, true, true, true, .peerJoin⟩)
    obtain ⟨remote', remoteEvents, hset, hremote⟩ :=
      htaken sampleLocals (fun _ => true) oneTrack (by decide)
    exact ⟨text, _, frameEnv, _, pc', events, remote', remoteEvents, hoffer, hsent, rfl, hraised,
      hset, hremote⟩

end TinyRtc.SignalledDescriptions
