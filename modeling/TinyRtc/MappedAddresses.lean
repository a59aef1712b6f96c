import TinyRtc.LastWrites
import TinyRtc.StunMessages

namespace TinyRtc.MappedAddresses

open TinyRtc.BigEndian
open TinyRtc.BoundedReads
open TinyRtc.Common
open TinyRtc.Inet
open TinyRtc.LastWrites
open TinyRtc.Stun
open TinyRtc.StunMessages
open TinyRtc.TypeLengthValue

/-- The types that carry a mapped address. -/
def kinds : List UInt16 :=
  [stunAttrXorMappedAddress, stunAttrMappedAddress]

/-- What the address and the port of a type are combined with. -/
def mask (kind : UInt16) : UInt32 :=
  if kind = stunAttrXorMappedAddress then stunMagicCookie else 0

/-- The port of an attribute of the type, whatever its family. -/
def portIn (kind : UInt16) (attr : Attribute) : Option UInt16 :=
  if attr.type = kind ∧ 4 ≤ attr.value.length then
    some (stunRead16 (padded attr.value) 2 ^^^ (mask kind >>> 16).toUInt16)
  else none

/-- The address of an IPv4 attribute of the type. -/
def ipv4In (kind : UInt16) (attr : Attribute) : Option UInt32 :=
  if attr.type = kind ∧ attr.value.length = 8 ∧ padded attr.value 1 = 0x01 then
    some (stunRead32 (padded attr.value) 4 ^^^ mask kind)
  else none

def HasIpv4 (kind : UInt16) (attrs : List Attribute) : Prop :=
  ∃ attr ∈ attrs, ipv4In kind attr ≠ none

/-- Address and port stand in one IPv4 attribute, of the type that goes before the other. -/
def DecodedFrom (attrs : List Attribute) (addr : UInt32) (port : UInt16) : Prop :=
  ∃ kind ∈ kinds, (HasIpv4 stunAttrXorMappedAddress attrs → kind = stunAttrXorMappedAddress) ∧
    ∃ attr ∈ attrs, ipv4In kind attr = some addr ∧ portIn kind attr = some port

/-- The attributes of each type keep their order among themselves. -/
def Rearranged (attrs attrs' : List Attribute) : Prop :=
  attrs'.Perm attrs ∧
    ∀ kind ∈ kinds, attrs'.filter (fun attr => attr.type == kind) =
      attrs.filter fun attr => attr.type == kind

/-- The two outputs, if the response is found to be good. -/
def stunAnswer (buffer : Nat → UInt8) (len : Nat) (addr : List UInt8) (port : UInt16)
    (mappedAddrLen : Nat) : Option (List UInt8 × UInt16) :=
  let result := stunProcessResponse buffer len ⟨addr, port, false⟩ mappedAddrLen
  if result.1 = .ok then some (result.2.addr, result.2.port) else none

/-- What comes of a response with these attributes in some receive buffer, whatever the
outputs hold before. -/
def Answers (mappedAddrLen : Nat) (attrs : List Attribute)
    (answer : Option (List UInt8 × UInt16)) : Prop :=
  ∃ transactionId buffer addr port, transactionId.length = 12 ∧
    BeginsWith (stunMessage stunBindingResponse transactionId attrs) buffer ∧
    stunAnswer buffer (stunMessage stunBindingResponse transactionId attrs).length addr port
      mappedAddrLen = answer

/-- The answer is one attribute's, and it is the same in whatever order the two types
stand. -/
structure FromOneAttribute (mappedAddrLen : Nat) (attrs : List Attribute) : Prop where
  source : ∀ text port, Answers mappedAddrLen attrs (some (text, port)) →
    ∃ addr, text = inetNtop addr ∧ DecodedFrom attrs addr port
  order : ∀ attrs', Rearranged attrs attrs' → ∀ answer answer',
    Answers mappedAddrLen attrs answer → Answers mappedAddrLen attrs' answer' → answer' = answer

/-- The last port of each type is this one, and so is the last IPv4 address. -/
def Agrees (attrs : List Attribute) (addr : UInt32) (port : UInt16) : Prop :=
  ∀ kind ∈ kinds, (∀ a, last? (ipv4In kind) attrs = some a → a = addr) ∧
    ∀ p, last? (portIn kind) attrs = some p → p = port

/-- If there is an IPv4 attribute at all, the last ones of both types agree with one. -/
def Agreeing (attrs : List Attribute) : Prop :=
  (∃ kind ∈ kinds, HasIpv4 kind attrs) →
    ∃ addr port, DecodedFrom attrs addr port ∧ Agrees attrs addr port

def anyPort (attr : Attribute) : Option UInt16 :=
  (portIn stunAttrXorMappedAddress attr).or (portIn stunAttrMappedAddress attr)

def anyIpv4 (attr : Attribute) : Option UInt32 :=
  (ipv4In stunAttrXorMappedAddress attr).or (ipv4In stunAttrMappedAddress attr)

theorem portIn_of_ipv4In {kind : UInt16} {attr : Attribute} {addr : UInt32}
    (h : ipv4In kind attr = some addr) : ∃ port, portIn kind attr = some port := by
  rw [ipv4In] at h
  split at h
  · next hipv4 => exact ⟨_, if_pos ⟨hipv4.1, by omega⟩⟩
  · cases h

theorem type_of_portIn {kind : UInt16} {attr : Attribute} {port : UInt16}
    (h : portIn kind attr = some port) : attr.type = kind := by
  rw [portIn] at h
  split at h
  · next hport => exact hport.1
  · cases h

theorem portIn_other {kind : UInt16} {attr : Attribute} (h : attr.type ≠ kind) :
    portIn kind attr = none :=
  if_neg fun hport => h hport.1

theorem ipv4In_other {kind : UInt16} {attr : Attribute} (h : attr.type ≠ kind) :
    ipv4In kind attr = none :=
  if_neg fun hipv4 => h hipv4.1

theorem visitAttribute_kind {kind : UInt16} (hkind : kind ∈ kinds) {attr : Attribute}
    (htype : attr.type = kind) {mappedAddrLen : Nat} (hlen : inetAddrStrLen ≤ mappedAddrLen)
    (mapped : MappedAddress) :
    visitAttribute mappedAddrLen mapped attr =
      ⟨((ipv4In kind attr).map inetNtop).getD mapped.addr, (portIn kind attr).getD mapped.port,
        mapped.found || (ipv4In kind attr).isSome⟩ := by
  have hvisit : visitAttribute mappedAddrLen mapped attr =
      if attr.value.length < 4 then mapped
      else if padded attr.value 1 = 0x01 ∧ attr.value.length = 8 then
        ⟨inetNtop (stunRead32 (padded attr.value) 4 ^^^ mask kind),
          stunRead16 (padded attr.value) 2 ^^^ (mask kind >>> 16).toUInt16, true⟩
      else { mapped with
        port := stunRead16 (padded attr.value) 2 ^^^ (mask kind >>> 16).toUInt16 } := by
    rw [visitAttribute, stunProcessAttr, htype]
    simp only [hlen, and_true, Nat.zero_add]
    rcases List.mem_cons.mp hkind with rfl | hkind
    · rfl
    · rw [List.mem_singleton.mp hkind]
      simp only [mask, if_neg (by decide : stunAttrMappedAddress ≠ stunAttrXorMappedAddress),
        if_true, UInt32.zero_shiftRight, UInt32.xor_zero]
      exact if_congr Iff.rfl rfl (by rw [show (0 : UInt32).toUInt16 = 0 from rfl, UInt16.xor_zero])
  by_cases hshort : attr.value.length < 4
  · have hport : portIn kind attr = none := if_neg (by omega)
    have hipv4 : ipv4In kind attr = none := if_neg (by omega)
    rw [hvisit, if_pos hshort, hport, hipv4, Option.isSome_none, Bool.or_false]
    rfl
  · have hport : portIn kind attr =
        some (stunRead16 (padded attr.value) 2 ^^^ (mask kind >>> 16).toUInt16) :=
      if_pos ⟨htype, by omega⟩
    rw [hvisit, if_neg hshort, hport]
    by_cases hfamily : padded attr.value 1 = 0x01 ∧ attr.value.length = 8
    · have hipv4 : ipv4In kind attr = some (stunRead32 (padded attr.value) 4 ^^^ mask kind) :=
        if_pos ⟨htype, hfamily.2, hfamily.1⟩
      rw [if_pos hfamily, hipv4, Option.isSome_some, Bool.or_true]
      rfl
    · have hipv4 : ipv4In kind attr = none := if_neg fun h => hfamily ⟨h.2.2, h.2.1⟩
      rw [if_neg hfamily, hipv4, Option.isSome_none, Bool.or_false]
      rfl

theorem anyIpv4_of_type {kind : UInt16} (hkind : kind ∈ kinds) {attr : Attribute}
    (htype : attr.type = kind) : anyIpv4 attr = ipv4In kind attr := by
  have hdistinct : stunAttrMappedAddress ≠ stunAttrXorMappedAddress := by decide
  rw [anyIpv4]
  rcases List.mem_cons.mp hkind with rfl | hkind
  · rw [ipv4In_other fun h => hdistinct (h.symm.trans htype), Option.or_none]
  · rw [List.mem_singleton.mp hkind] at htype ⊢
    rw [ipv4In_other fun h => hdistinct (htype.symm.trans h), Option.none_or]

theorem anyPort_of_type {kind : UInt16} (hkind : kind ∈ kinds) {attr : Attribute}
    (htype : attr.type = kind) : anyPort attr = portIn kind attr := by
  have hdistinct : stunAttrMappedAddress ≠ stunAttrXorMappedAddress := by decide
  rw [anyPort]
  rcases List.mem_cons.mp hkind with rfl | hkind
  · rw [portIn_other fun h => hdistinct (h.symm.trans htype), Option.or_none]
  · rw [List.mem_singleton.mp hkind] at htype ⊢
    rw [portIn_other fun h => hdistinct (htype.symm.trans h), Option.none_or]

/-- One attribute overwrites what it has a value for. -/
theorem visitAttribute_eq {mappedAddrLen : Nat} (hlen : inetAddrStrLen ≤ mappedAddrLen)
    (mapped : MappedAddress) (attr : Attribute) :
    visitAttribute mappedAddrLen mapped attr =
      ⟨((anyIpv4 attr).map inetNtop).getD mapped.addr, (anyPort attr).getD mapped.port,
        mapped.found || (anyIpv4 attr).isSome⟩ := by
  by_cases hkind : attr.type ∈ kinds
  · rw [anyIpv4_of_type hkind rfl, anyPort_of_type hkind rfl]
    exact visitAttribute_kind hkind rfl hlen mapped
  · have hxor : attr.type ≠ stunAttrXorMappedAddress := fun h => hkind (h ▸ by decide)
    have hmapped : attr.type ≠ stunAttrMappedAddress := fun h => hkind (h ▸ by decide)
    rw [anyIpv4, anyPort, portIn_other hxor, ipv4In_other hxor, Option.none_or, Option.none_or,
      portIn_other hmapped, ipv4In_other hmapped, visitAttribute_other hxor hmapped,
      Option.isSome_none, Bool.or_false]
    rfl

theorem visitAttribute_short {mappedAddrLen : Nat} (hlen : ¬ inetAddrStrLen ≤ mappedAddrLen)
    (mapped : MappedAddress) (attr : Attribute) :
    (visitAttribute mappedAddrLen mapped attr).found = mapped.found := by
  rw [visitAttribute, stunProcessAttr]
  simp only [hlen, and_false, if_false]
  split_ifs <;> rfl

theorem foldl_visitAttribute {mappedAddrLen : Nat} (hlen : inetAddrStrLen ≤ mappedAddrLen)
    (attrs : List Attribute) (mapped : MappedAddress) :
    attrs.foldl (visitAttribute mappedAddrLen) mapped =
      ⟨((last? anyIpv4 attrs).map inetNtop).getD mapped.addr,
        (last? anyPort attrs).getD mapped.port,
        mapped.found || (last? anyIpv4 attrs).isSome⟩ := by
  induction attrs using List.reverseRecOn with
  | nil =>
      simp only [List.foldl_nil, last?_nil, Option.map_none, Option.getD_none, Option.isSome_none,
        Bool.or_false]
  | append_singleton attrs attr ih =>
      rw [List.foldl_append, List.foldl_cons, List.foldl_nil, ih, visitAttribute_eq hlen,
        last?_concat, last?_concat]
      cases anyIpv4 attr <;> cases anyPort attr <;> simp

theorem foldl_visitAttribute_short {mappedAddrLen : Nat}
    (hlen : ¬ inetAddrStrLen ≤ mappedAddrLen) (attrs : List Attribute) (mapped : MappedAddress) :
    (attrs.foldl (visitAttribute mappedAddrLen) mapped).found = mapped.found := by
  induction attrs generalizing mapped with
  | nil => rfl
  | cons attr attrs ih => rw [List.foldl_cons, ih, visitAttribute_short hlen]

/-- The last address and the last port, each on its own. -/
def answerOf (attrs : List Attribute) : Option (List UInt8 × UInt16) :=
  (last? anyIpv4 attrs).map fun addr => (inetNtop addr, (last? anyPort attrs).getD 0)

theorem last?_anyPort_of_anyIpv4 {attrs : List Attribute} {addr : UInt32}
    (h : last? anyIpv4 attrs = some addr) : ∃ port, last? anyPort attrs = some port := by
  obtain ⟨attr, hattr, hipv4⟩ := exists_of_last? h
  rw [anyIpv4, Option.or_eq_some_iff] at hipv4
  rcases hipv4 with hipv4 | ⟨-, hipv4⟩
  · obtain ⟨port, hport⟩ := portIn_of_ipv4In hipv4
    exact last?_isSome_of_mem hattr (by rw [anyPort, hport, Option.some_or])
  · obtain ⟨port, hport⟩ := portIn_of_ipv4In hipv4
    have hany : anyPort attr ≠ none := by
      rw [anyPort, Ne, Option.or_eq_none_iff, hport]
      exact fun hnone => Option.some_ne_none _ hnone.2
    obtain ⟨port', hport'⟩ := Option.ne_none_iff_exists'.mp hany
    exact last?_isSome_of_mem hattr hport'

theorem stunProcessResponse_tooLong {transactionId : List UInt8} {attrs : List Attribute}
    (hlength : (encode 4 attrs).length < 2 ^ 16) (hlong : 1500 < (encode 4 attrs).length)
    {buffer : Nat → UInt8}
    (h : BeginsWith (stunMessage stunBindingResponse transactionId attrs) buffer) (len : Nat)
    (mapped : MappedAddress) (mappedAddrLen : Nat) :
    (stunProcessResponse buffer len mapped mappedAddrLen).1 = .error := by
  have hwhole : BeginsWith (stunMessage stunBindingResponse transactionId attrs)
      fun k => buffer (0 + k) := by
    simpa only [Nat.zero_add] using h
  obtain ⟨hheader, -⟩ := beginsWith_append.mp hwhole
  obtain ⟨hheader, -⟩ := beginsWith_append.mp hheader
  obtain ⟨hheader, -⟩ := beginsWith_append.mp hheader
  obtain ⟨-, hcount⟩ := beginsWith_append.mp hheader
  have hread : stunRead16 buffer 2 = (encode 4 attrs).length.toUInt16 :=
    read16_of_beginsWith hcount
  rw [stunProcessResponse, hread, toNat_toUInt16 hlength, if_pos hlong]
  split_ifs <;> rfl

theorem stunAnswer_of_fits {transactionId : List UInt8} (hid : transactionId.length = 12)
    {attrs : List Attribute} (hfits : (encode 4 attrs).length ≤ 1500) {buffer : Nat → UInt8}
    (h : BeginsWith (stunMessage stunBindingResponse transactionId attrs) buffer)
    (addr : List UInt8) (port : UInt16) (mappedAddrLen : Nat) {mapped : MappedAddress}
    (hmapped : attrs.foldl (visitAttribute mappedAddrLen) ⟨addr, port, false⟩ = mapped) :
    stunAnswer buffer (stunMessage stunBindingResponse transactionId attrs).length addr port
        mappedAddrLen =
      if mapped.found then some (mapped.addr, mapped.port) else none := by
  obtain ⟨hresponse, -⟩ := stunProcessResponse_stunMessage hid hfits h ⟨addr, port, false⟩
    mappedAddrLen
  rw [stunAnswer, hresponse, hmapped]
  cases hfound : mapped.found with
  | false => rfl
  | true => rfl

theorem stunAnswer_eq {transactionId : List UInt8} (hid : transactionId.length = 12)
    {attrs : List Attribute} (hlength : (encode 4 attrs).length < 2 ^ 16) {buffer : Nat → UInt8}
    (h : BeginsWith (stunMessage stunBindingResponse transactionId attrs) buffer)
    (addr : List UInt8) (port : UInt16) (mappedAddrLen : Nat) :
    stunAnswer buffer (stunMessage stunBindingResponse transactionId attrs).length addr port
        mappedAddrLen =
      if inetAddrStrLen ≤ mappedAddrLen ∧ (encode 4 attrs).length ≤ 1500 then answerOf attrs
      else none := by
  by_cases hfits : (encode 4 attrs).length ≤ 1500
  · by_cases hlen : inetAddrStrLen ≤ mappedAddrLen
    · have hboth : inetAddrStrLen ≤ mappedAddrLen ∧ (encode 4 attrs).length ≤ 1500 :=
        ⟨hlen, hfits⟩
      rw [if_pos hboth, answerOf, stunAnswer_of_fits hid hfits h addr port mappedAddrLen
        (foldl_visitAttribute hlen attrs _)]
      cases hipv4 : last? anyIpv4 attrs with
      | none => rfl
      | some a =>
          obtain ⟨p, hport⟩ := last?_anyPort_of_anyIpv4 hipv4
          rw [hport]
          rfl
    · have hnot : ¬ (inetAddrStrLen ≤ mappedAddrLen ∧ (encode 4 attrs).length ≤ 1500) :=
        fun hboth => hlen hboth.1
      rw [if_neg hnot, stunAnswer_of_fits hid hfits h addr port mappedAddrLen rfl,
        foldl_visitAttribute_short hlen]
      rfl
  · have hnot : ¬ (inetAddrStrLen ≤ mappedAddrLen ∧ (encode 4 attrs).length ≤ 1500) :=
      fun hboth => hfits hboth.2
    rw [if_neg hnot, stunAnswer, stunProcessResponse_tooLong hlength (by omega) h]
    rfl

theorem answers_iff {attrs : List Attribute} (hlength : (encode 4 attrs).length < 2 ^ 16)
    (mappedAddrLen : Nat) (answer : Option (List UInt8 × UInt16)) :
    Answers mappedAddrLen attrs answer ↔
      answer = if inetAddrStrLen ≤ mappedAddrLen ∧ (encode 4 attrs).length ≤ 1500 then
        answerOf attrs else none := by
  constructor
  · rintro ⟨transactionId, buffer, addr, port, hid, hbuffer, rfl⟩
    exact stunAnswer_eq hid hlength hbuffer addr port mappedAddrLen
  · rintro rfl
    have hid : (List.replicate 12 (0x00 : UInt8)).length = 12 := rfl
    exact ⟨_, _, [], 0, hid, padded_beginsWith _,
      stunAnswer_eq hid hlength (padded_beginsWith _) [] 0 mappedAddrLen⟩

theorem Rearranged.encode_length {attrs attrs' : List Attribute} (h : Rearranged attrs attrs') :
    (encode 4 attrs').length = (encode 4 attrs).length :=
  (h.1.flatMap_right _).length_eq

theorem Rearranged.last?_ipv4In {attrs attrs' : List Attribute} (h : Rearranged attrs attrs')
    {kind : UInt16} (hkind : kind ∈ kinds) :
    last? (ipv4In kind) attrs' = last? (ipv4In kind) attrs := by
  have hother : ∀ attr : Attribute, (attr.type == kind) = false → ipv4In kind attr = none :=
    fun attr hne => ipv4In_other (by simpa using hne)
  rw [← last?_filter hother attrs', h.2 kind hkind, last?_filter hother]

theorem Rearranged.last?_portIn {attrs attrs' : List Attribute} (h : Rearranged attrs attrs')
    {kind : UInt16} (hkind : kind ∈ kinds) :
    last? (portIn kind) attrs' = last? (portIn kind) attrs := by
  have hother : ∀ attr : Attribute, (attr.type == kind) = false → portIn kind attr = none :=
    fun attr hne => portIn_other (by simpa using hne)
  rw [← last?_filter hother attrs', h.2 kind hkind, last?_filter hother]

theorem Rearranged.refl (attrs : List Attribute) : Rearranged attrs attrs :=
  ⟨.refl attrs, fun _ _ => rfl⟩

/-- The attributes of one type moved behind all others. -/
theorem rearranged_moved (kind : UInt16) (attrs : List Attribute) :
    Rearranged attrs (attrs.filter (fun attr => !(attr.type == kind)) ++
      attrs.filter fun attr => attr.type == kind) := by
  refine ⟨List.perm_append_comm.trans (List.filter_append_perm _ attrs), fun other _ => ?_⟩
  rw [List.filter_append, List.filter_filter, List.filter_filter]
  by_cases hsame : other = kind
  · subst hsame
    simp
  · have hfirst : ∀ attr : Attribute,
        ((attr.type == other) && !(attr.type == kind)) = (attr.type == other) := by
      intro attr
      by_cases htype : attr.type = other
      · simp [htype, hsame]
      · simp [htype]
    have hsecond : ∀ attr : Attribute, ((attr.type == other) && (attr.type == kind)) = false := by
      intro attr
      by_cases htype : attr.type = other
      · simp [htype, hsame]
      · simp [htype]
    simp only [hfirst, hsecond, List.filter_false, List.append_nil]

section

variable {attrs attrs' : List Attribute} {addr : UInt32} {port : UInt16} {kind : UInt16}

theorem HasIpv4.rearranged (h : HasIpv4 kind attrs) (hperm : attrs.Perm attrs') :
    HasIpv4 kind attrs' := by
  obtain ⟨attr, hattr, hipv4⟩ := h
  exact ⟨attr, hperm.mem_iff.mp hattr, hipv4⟩

theorem DecodedFrom.rearranged (h : DecodedFrom attrs addr port)
    (hrearranged : Rearranged attrs attrs') : DecodedFrom attrs' addr port := by
  obtain ⟨kind, hkind, hfirst, attr, hattr, hvalues⟩ := h
  exact ⟨kind, hkind, fun hhas => hfirst (hhas.rearranged hrearranged.1), attr,
    hrearranged.1.mem_iff.mpr hattr, hvalues⟩

theorem Agrees.rearranged (h : Agrees attrs addr port) (hrearranged : Rearranged attrs attrs') :
    Agrees attrs' addr port := by
  intro kind hkind
  rw [hrearranged.last?_ipv4In hkind, hrearranged.last?_portIn hkind]
  exact h kind hkind

/-- What the last attributes agree on is the answer. -/
theorem answerOf_of_agrees (hfrom : DecodedFrom attrs addr port)
    (hagrees : Agrees attrs addr port) : answerOf attrs = some (inetNtop addr, port) := by
  have hxor := hagrees stunAttrXorMappedAddress (by decide)
  have hmapped := hagrees stunAttrMappedAddress (by decide)
  obtain ⟨kind, hkind, -, attr, hattr, hipv4, -⟩ := hfrom
  have htype : attr.type = kind := by
    obtain ⟨_, hport⟩ := portIn_of_ipv4In hipv4
    exact type_of_portIn hport
  obtain ⟨a, ha⟩ := last?_isSome_of_mem hattr ((anyIpv4_of_type hkind htype).trans hipv4)
  obtain ⟨p, hp⟩ := last?_anyPort_of_anyIpv4 ha
  have haddr : a = addr := by
    rcases last?_or (ipv4In stunAttrXorMappedAddress) (ipv4In stunAttrMappedAddress) attrs with
      hlast | hlast
    · exact hxor.1 a (hlast.symm.trans ha)
    · exact hmapped.1 a (hlast.symm.trans ha)
  have hport : p = port := by
    rcases last?_or (portIn stunAttrXorMappedAddress) (portIn stunAttrMappedAddress) attrs with
      hlast | hlast
    · exact hxor.2 p (hlast.symm.trans hp)
    · exact hmapped.2 p (hlast.symm.trans hp)
  rw [answerOf, ha, hp, haddr, hport]
  rfl

theorem hasIpv4_of_answerOf {answer : List UInt8 × UInt16} (h : answerOf attrs = some answer) :
    ∃ kind ∈ kinds, HasIpv4 kind attrs := by
  obtain ⟨a, ha, -⟩ := Option.map_eq_some_iff.mp h
  obtain ⟨attr, hattr, hipv4⟩ := exists_of_last? ha
  rw [anyIpv4, Option.or_eq_some_iff] at hipv4
  rcases hipv4 with hipv4 | ⟨-, hipv4⟩
  · exact ⟨stunAttrXorMappedAddress, by decide, attr, hattr,
      by rw [hipv4]; exact Option.some_ne_none a⟩
  · exact ⟨stunAttrMappedAddress, by decide, attr, hattr,
      by rw [hipv4]; exact Option.some_ne_none a⟩

theorem answerOf_isSome (hkind : kind ∈ kinds) (h : HasIpv4 kind attrs) :
    ∃ a p, last? anyIpv4 attrs = some a ∧ last? anyPort attrs = some p := by
  obtain ⟨attr, hattr, hipv4⟩ := h
  obtain ⟨addr, hipv4⟩ := Option.ne_none_iff_exists'.mp hipv4
  obtain ⟨_, hport⟩ := portIn_of_ipv4In hipv4
  obtain ⟨a, ha⟩ := last?_isSome_of_mem hattr
    ((anyIpv4_of_type hkind (type_of_portIn hport)).trans hipv4)
  obtain ⟨p, hp⟩ := last?_anyPort_of_anyIpv4 ha
  exact ⟨a, p, ha, hp⟩

theorem last?_anyIpv4_moved (hkind : kind ∈ kinds)
    (h : last? (ipv4In kind) attrs = some addr) :
    last? anyIpv4 (attrs.filter (fun attr => !(attr.type == kind)) ++
      attrs.filter fun attr => attr.type == kind) = some addr := by
  have hother : ∀ attr : Attribute, (attr.type == kind) = false → ipv4In kind attr = none :=
    fun attr hne => ipv4In_other (by simpa using hne)
  have hlast : last? anyIpv4 (attrs.filter fun attr => attr.type == kind) = some addr := by
    rw [last?_congr fun attr hattr => anyIpv4_of_type hkind (beq_iff_eq.mp
      (List.mem_filter.mp hattr).2), last?_filter hother, h]
  rw [last?_append, hlast, Option.some_or]

theorem last?_anyPort_moved (hkind : kind ∈ kinds)
    (h : last? (portIn kind) attrs = some port) :
    last? anyPort (attrs.filter (fun attr => !(attr.type == kind)) ++
      attrs.filter fun attr => attr.type == kind) = some port := by
  have hother : ∀ attr : Attribute, (attr.type == kind) = false → portIn kind attr = none :=
    fun attr hne => portIn_other (by simpa using hne)
  have hlast : last? anyPort (attrs.filter fun attr => attr.type == kind) = some port := by
    rw [last?_congr fun attr hattr => anyPort_of_type hkind (beq_iff_eq.mp
      (List.mem_filter.mp hattr).2), last?_filter hother, h]
  rw [last?_append, hlast, Option.some_or]

/-- An answer that no rearrangement changes is what the last attributes agree on. -/
theorem agrees_of_order (hanswer : answerOf attrs = some (inetNtop addr, port))
    (horder : ∀ attrs', Rearranged attrs attrs' → answerOf attrs' = answerOf attrs) :
    Agrees attrs addr port := by
  intro kind hkind
  have hmoved := (horder _ (rearranged_moved kind attrs)).trans hanswer
  obtain ⟨a, ha, hpair⟩ := Option.map_eq_some_iff.mp hmoved
  obtain ⟨htext, hport⟩ := Prod.mk.inj hpair
  constructor
  · intro a' ha'
    rw [last?_anyIpv4_moved hkind ha', Option.some_inj] at ha
    rw [ha, inetNtop_injective htext]
  · intro p hp
    rw [last?_anyPort_moved hkind hp] at hport
    exact hport

theorem answerOf_rearranged (h : Agreeing attrs) (hrearranged : Rearranged attrs attrs') :
    answerOf attrs' = answerOf attrs := by
  by_cases hhas : ∃ kind ∈ kinds, HasIpv4 kind attrs
  · obtain ⟨addr, port, hfrom, hagrees⟩ := h hhas
    rw [answerOf_of_agrees hfrom hagrees, answerOf_of_agrees (hfrom.rearranged hrearranged)
      (hagrees.rearranged hrearranged)]
  · have hnone : answerOf attrs = none :=
      Option.eq_none_iff_forall_ne_some.mpr fun answer hanswer =>
        hhas (hasIpv4_of_answerOf hanswer)
    have hnone' : answerOf attrs' = none := by
      refine Option.eq_none_iff_forall_ne_some.mpr fun answer hanswer => hhas ?_
      obtain ⟨kind, hkind, hhas'⟩ := hasIpv4_of_answerOf hanswer
      exact ⟨kind, hkind, hhas'.rearranged hrearranged.1⟩
    rw [hnone, hnone']

end

/-- The mapped address comes from one attribute exactly if the last attributes of both types
agree with one, or the response is refused anyway. -/
theorem fromOneAttribute_iff (mappedAddrLen : Nat) {attrs : List Attribute}
    (hlength : (encode 4 attrs).length < 2 ^ 16) :
    FromOneAttribute mappedAddrLen attrs ↔
      (inetAddrStrLen ≤ mappedAddrLen ∧ (encode 4 attrs).length ≤ 1500 → Agreeing attrs) := by
  constructor
  · rintro hone hread ⟨kind, hkind, hhas⟩
    obtain ⟨a, p, ha, hp⟩ := answerOf_isSome hkind hhas
    have hanswer : answerOf attrs = some (inetNtop a, p) := by
      rw [answerOf, ha, hp]
      rfl
    have hanswers : Answers mappedAddrLen attrs (answerOf attrs) :=
      (answers_iff hlength mappedAddrLen _).mpr (if_pos hread).symm
    rw [hanswer] at hanswers
    obtain ⟨addr, htext, hfrom⟩ := hone.source _ _ hanswers
    rw [← inetNtop_injective htext] at hfrom
    refine ⟨a, p, hfrom, agrees_of_order hanswer fun attrs' hrearranged => ?_⟩
    rw [hanswer]
    refine hone.order attrs' hrearranged _ _ hanswers ?_
    refine (answers_iff (hrearranged.encode_length ▸ hlength) mappedAddrLen _).mpr ?_
    rw [hrearranged.encode_length, if_pos hread]
  · intro hagreeing
    refine ⟨fun text port hanswer => ?_, fun attrs' hrearranged answer answer' h h' => ?_⟩
    · have hgiven := (answers_iff hlength mappedAddrLen _).mp hanswer
      split at hgiven
      · next hread =>
        obtain ⟨addr, port', hfrom, hagrees⟩ := hagreeing hread (hasIpv4_of_answerOf hgiven.symm)
        rw [answerOf_of_agrees hfrom hagrees] at hgiven
        obtain ⟨htext, hport⟩ := Prod.mk.inj (Option.some.inj hgiven)
        exact ⟨addr, htext, hport ▸ hfrom⟩
      · cases hgiven
    · have hlength' := hrearranged.encode_length
      rw [(answers_iff hlength mappedAddrLen _).mp h,
        (answers_iff (hlength' ▸ hlength) mappedAddrLen _).mp h', hlength']
      split
      · next hread => exact answerOf_rearranged (hagreeing hread) hrearranged
      · rfl

/-- 192.0.2.1 port 5000 in attributes of both types. -/
def bothTypes : List Attribute :=
  [⟨stunAttrMappedAddress, 0x00 :: 0x01 :: write16 5000 ++ write32 0xC0000201, by decide⟩,
    xorMappedAddress ⟨0xC0000201, 5000⟩]

theorem fromOneAttribute_bothTypes :
    Answers 64 bothTypes (some (CString.ascii "192.0.2.1", 5000)) ∧
      FromOneAttribute 64 bothTypes := by
  have hlast : ∀ kind ∈ kinds, last? (ipv4In kind) bothTypes = some 0xC0000201 ∧
      last? (portIn kind) bothTypes = some 5000 := by
    rw [kinds, List.forall_mem_cons, List.forall_mem_singleton]
    exact ⟨⟨by decide, by decide⟩, ⟨by decide, by decide⟩⟩
  have hanswer : answerOf bothTypes = some (CString.ascii "192.0.2.1", 5000) := by decide
  refine ⟨(answers_iff (by decide) 64 _).mpr (by rw [← hanswer]; decide),
    (fromOneAttribute_iff 64 (by decide)).mpr fun _ _ => ⟨0xC0000201, 5000, ?_, ?_⟩⟩
  · exact ⟨stunAttrXorMappedAddress, by decide, fun _ => rfl, xorMappedAddress ⟨0xC0000201, 5000⟩,
      by simp [bothTypes], by decide, by decide⟩
  · intro kind hkind
    obtain ⟨haddr, hport⟩ := hlast kind hkind
    rw [haddr, hport]
    exact ⟨fun _ h => (Option.some.inj h).symm, fun _ h => (Option.some.inj h).symm⟩

/-- An IPv6 address with port 6000. -/
def xorMappedIpv6 : Attribute where
  type := stunAttrXorMappedAddress
  value := 0x00 :: 0x02 :: write16 ((6000 : UInt16) ^^^ (stunMagicCookie >>> 16).toUInt16) ++
    List.replicate 16 0x00
  length_lt := by decide

/-- 192.0.2.1 port 5000, and the IPv6 address behind it. -/
def dualStack : List Attribute :=
  [xorMappedAddress ⟨0xC0000201, 5000⟩, xorMappedIpv6]

/-- The answer has the IPv4 address and the IPv6 port. -/
theorem fromOneAttribute_fails :
    Answers 64 dualStack (some (CString.ascii "192.0.2.1", 6000)) ∧
      ¬ FromOneAttribute 64 dualStack := by
  have hanswer : answerOf dualStack = some (CString.ascii "192.0.2.1", 6000) := by decide
  have hanswers : Answers 64 dualStack (answerOf dualStack) :=
    (answers_iff (by decide) 64 _).mpr (if_pos ⟨by decide, by decide⟩).symm
  rw [hanswer] at hanswers
  refine ⟨hanswers, fun hone => ?_⟩
  obtain ⟨addr, -, kind, hkind, -, attr, hattr, hipv4, hport⟩ := hone.source _ _ hanswers
  rcases List.mem_cons.mp hattr with rfl | hattr
  · rcases List.mem_cons.mp hkind with rfl | hkind
    · have hfirst : portIn stunAttrXorMappedAddress (xorMappedAddress ⟨0xC0000201, 5000⟩) =
          some 5000 := by decide
      rw [hfirst] at hport
      cases hport
    · rw [List.mem_singleton.mp hkind] at hport
      cases hport
  · rw [List.mem_singleton.mp hattr] at hipv4
    have hipv6 : ipv4In kind xorMappedIpv6 = none :=
      if_neg fun h => absurd h.2.1 (by decide)
    rw [hipv6] at hipv4
    cases hipv4

end TinyRtc.MappedAddresses
