import TinyRtc.SignalingMessages

namespace TinyRtc.RecognisedMessages

open TinyRtc.CString
open TinyRtc.Signaling
open TinyRtc.SignalingMessages

/-- The text at the value of a message's type, with what follows it. -/
def typeText (data : List UInt8) : Option (List UInt8) :=
  ((strstr (ascii "\"type\"") (data.takeWhile (· != 0x00))).bind fun found =>
    strchr (found.drop 6) 0x3A).map
      (List.dropWhile fun c => c == 0x3A || c == 0x20 || c == 0x22)

/-- The types that are known: those that raise an event, and those that do not. -/
def knownTypes : List (List UInt8 × Option SignalEventType) :=
  [(ascii "joined", none), (ascii "peer-joined", some .peerJoin),
    (ascii "peer-left", some .peerLeave), (ascii "offer", some .offer),
    (ascii "answer", some .answer), (ascii "ice-candidate", some .iceCandidate),
    (ascii "error", none)]

/-- The value of the message's type starts with a name of an event type. -/
def Announces (data : List UInt8) (type : SignalEventType) : Prop :=
  ∃ text name, typeText data = some text ∧ (name, some type) ∈ knownTypes ∧ name <+: text

/-- The callback is called for the messages that announce an event, once and with its type. -/
structure RaisesRecognised (env : MessageEnv) (data : List UInt8) : Prop where
  once : (sigProcessMessage env data).length ≤ 1
  raised_iff : sigProcessMessage env data ≠ [] ↔ ∃ type, Announces data type
  type_eq : ∀ event ∈ sigProcessMessage env data, Announces data event.type

/-- No known name is the beginning of another one. -/
theorem knownTypes_unique : ∀ entry ∈ knownTypes, ∀ other ∈ knownTypes,
    entry.1 <+: other.1 → entry = other := by
  decide

theorem known_unique {entry other : List UInt8 × Option SignalEventType} {text : List UInt8}
    (hentry : entry ∈ knownTypes) (hother : other ∈ knownTypes) (htext : entry.1 <+: text)
    (htext' : other.1 <+: text) : entry = other := by
  rcases List.prefix_or_prefix_of_prefix htext htext' with hstarts | hstarts
  · exact knownTypes_unique entry hentry other hother hstarts
  · exact (knownTypes_unique other hother entry hentry hstarts).symm

/-- The comparisons look the text up among the known names; behind them the variable is
as it was. -/
theorem eventTypeOf_eq (env : MessageEnv) (text : List UInt8) :
    eventTypeOf env text =
      ((knownTypes.find? fun entry => entry.1.isPrefixOf text).map Prod.snd).getD
        (some env.unsetType) := by
  have htake : ∀ name : List UInt8, text.take name.length = name ↔ name.isPrefixOf text = true := by
    intro name
    rw [List.isPrefixOf_iff_prefix, List.prefix_iff_eq_take, eq_comm]
  have hfirst : ∀ (entry : List UInt8 × Option SignalEventType)
      (entries : List (List UInt8 × Option SignalEventType)),
      (((entry :: entries).find? fun entry => entry.1.isPrefixOf text).map Prod.snd).getD
          (some env.unsetType) =
        if text.take entry.1.length = entry.1 then entry.2
        else ((entries.find? fun entry => entry.1.isPrefixOf text).map Prod.snd).getD
          (some env.unsetType) := by
    intro entry entries
    rw [List.find?_cons]
    by_cases hstarts : entry.1.isPrefixOf text = true
    · rw [hstarts, if_pos ((htake entry.1).mpr hstarts)]
      rfl
    · rw [Bool.not_eq_true] at hstarts
      rw [hstarts, if_neg fun htext => by
        rw [(htake entry.1).mp htext] at hstarts
        cases hstarts]
  simp only [knownTypes, hfirst]
  rfl

theorem find?_known_cases (text : List UInt8) :
    (∃ entry ∈ knownTypes, entry.1 <+: text ∧
        (knownTypes.find? fun entry => entry.1.isPrefixOf text) = some entry) ∨
      (∀ entry ∈ knownTypes, ¬ entry.1 <+: text) ∧
        (knownTypes.find? fun entry => entry.1.isPrefixOf text) = none := by
  cases hfind : knownTypes.find? fun entry => entry.1.isPrefixOf text with
  | none =>
      refine .inr ⟨fun entry hentry hstarts => ?_, rfl⟩
      exact List.find?_eq_none.mp hfind entry hentry (List.isPrefixOf_iff_prefix.mpr hstarts)
  | some entry =>
      refine .inl ⟨entry, List.mem_of_find?_eq_some hfind, ?_, rfl⟩
      have hfound := List.find?_some hfind
      exact List.isPrefixOf_iff_prefix.mp hfound

theorem sigProcessMessage_eq {env : MessageEnv} (hjson : env.jsonOk = true)
    (hcallback : env.hasCallback = true) (data : List UInt8) :
    sigProcessMessage env data = (((typeText data).bind (eventTypeOf env)).map fun type =>
      ⟨type, eventData env (data.takeWhile (· != 0x00)) type⟩).toList := by
  rw [sigProcessMessage, hjson, typeText]
  simp only [Bool.not_true, Bool.false_eq_true, if_false, hcallback, if_true]
  split
  · next hnone =>
    rw [hnone]
    rfl
  · next typePtr hsome =>
    rw [hsome, Option.map_some, Option.bind_some]
    split
    · next hsilent =>
      rw [hsilent]
      rfl
    · next type htype =>
      rw [htype]
      rfl

/-- A message without memory for it raises nothing. -/
theorem sigProcessMessage_memory {env : MessageEnv} (hjson : env.jsonOk = false)
    (data : List UInt8) : sigProcessMessage env data = [] := by
  rw [sigProcessMessage, hjson]
  rfl

theorem raisesRecognised_of_nil {env : MessageEnv} {data : List UInt8}
    (h : sigProcessMessage env data = []) :
    RaisesRecognised env data ↔ ∀ type, ¬ Announces data type := by
  constructor
  · intro hraises type hannounces
    exact hraises.raised_iff.mpr ⟨type, hannounces⟩ h
  · intro hnone
    refine ⟨by rw [h]; exact Nat.zero_le 1, ?_, by rw [h]; exact List.forall_mem_nil _⟩
    exact ⟨fun hraised => absurd h hraised, fun ⟨type, hannounces⟩ => absurd hannounces (hnone type)⟩

/-- The value of the type, if there is one, starts with a known name. -/
def HasKnownType (data : List UInt8) : Prop :=
  ∀ text, typeText data = some text → ∃ entry ∈ knownTypes, entry.1 <+: text

theorem raisesRecognised_of_served {env : MessageEnv} (hjson : env.jsonOk = true)
    (hcallback : env.hasCallback = true) (data : List UInt8) :
    RaisesRecognised env data ↔ HasKnownType data := by
  have hevents := sigProcessMessage_eq hjson hcallback data
  cases htext : typeText data with
  | none =>
      rw [htext] at hevents
      rw [raisesRecognised_of_nil hevents]
      refine iff_of_true ?_ fun text h => ?_
      · rintro type ⟨text, name, h, -⟩
        rw [htext] at h
        cases h
      · rw [htext] at h
        cases h
  | some text =>
      rw [htext, Option.bind_some, eventTypeOf_eq] at hevents
      rcases find?_known_cases text with ⟨⟨name, kind⟩, hentry, hstarts, hfind⟩ | ⟨hnone, hfind⟩
      · have hknown : HasKnownType data := fun text' h => by
          rw [htext] at h
          cases h
          exact ⟨_, hentry, hstarts⟩
        refine iff_of_true ?_ hknown
        rw [hfind] at hevents
        cases kind with
        | none =>
            refine (raisesRecognised_of_nil hevents).mpr ?_
            rintro type ⟨text', name', h, hother, hstarts'⟩
            rw [htext] at h
            cases h
            cases known_unique hentry hother hstarts hstarts'
        | some type =>
            have hannounces : Announces data type := ⟨text, name, htext, hentry, hstarts⟩
            refine ⟨by rw [hevents]; exact Nat.le_refl 1, ?_, ?_⟩
            · exact iff_of_true (by rw [hevents]; exact List.cons_ne_nil _ _) ⟨type, hannounces⟩
            · rw [hevents]
              intro event hevent
              rw [List.mem_singleton.mp hevent]
              exact hannounces
      · rw [hfind] at hevents
        refine iff_of_false (fun hraises => ?_) fun hknown => ?_
        · obtain ⟨type, text', name, h, hentry, hstarts⟩ :=
            hraises.raised_iff.mp (by rw [hevents]; exact List.cons_ne_nil _ _)
          rw [htext] at h
          cases h
          exact hnone _ hentry hstarts
        · obtain ⟨entry, hentry, hstarts⟩ := hknown text htext
          exact hnone entry hentry hstarts

/-- The callback is called for the right messages exactly if the type has a known name; a
message that there is no memory for must not announce an event. -/
theorem raisesRecognised_iff {env : MessageEnv} (hcallback : env.hasCallback = true)
    (data : List UInt8) :
    RaisesRecognised env data ↔
      if env.jsonOk then HasKnownType data else ∀ type, ¬ Announces data type := by
  cases hjson : env.jsonOk with
  | true => exact raisesRecognised_of_served hjson hcallback data
  | false => exact raisesRecognised_of_nil (sigProcessMessage_memory hjson data)

/-- Every allocation succeeds, and the stack holds the number of an offer. -/
def servingEnv : MessageEnv :=
  ⟨true, true, true, true, true, .offer⟩

theorem raisesRecognised_peerLeft :
    RaisesRecognised servingEnv (ascii "\x7b\"type\": \"peer-left\"\x7d") := by
  refine (raisesRecognised_iff rfl _).mpr ?_
  change HasKnownType _
  intro text htext
  refine ⟨(ascii "peer-left", some .peerLeave), by decide, ?_⟩
  have hvalue : typeText (ascii "\x7b\"type\": \"peer-left\"\x7d") =
      some (ascii "peer-left\"\x7d") := by decide
  rw [hvalue] at htext
  cases htext
  decide

/-- A keep-alive of the server comes to the application as an offer without a text. -/
theorem raisesRecognised_fails :
    sigProcessMessage servingEnv (ascii "\x7b\"type\": \"ping\"\x7d") = [⟨.offer, .null⟩] ∧
      ¬ RaisesRecognised servingEnv (ascii "\x7b\"type\": \"ping\"\x7d") := by
  refine ⟨by decide, fun hraises => ?_⟩
  obtain ⟨entry, hentry, hstarts⟩ := (raisesRecognised_of_served rfl rfl _).mp hraises
    (ascii "ping\"\x7d") (by decide)
  revert entry
  decide

end TinyRtc.RecognisedMessages
