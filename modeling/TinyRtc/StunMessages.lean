import TinyRtc.BoundedReads
import TinyRtc.IceMatching
import TinyRtc.StunFinalize
import TinyRtc.TypeLengthValue

namespace TinyRtc.StunMessages

open TinyRtc.BigEndian
open TinyRtc.BoundedReads
open TinyRtc.Common
open TinyRtc.CString
open TinyRtc.Ice
open TinyRtc.IceMatching
open TinyRtc.Inet
open TinyRtc.Srtp
open TinyRtc.Stun
open TinyRtc.StunFinalize
open TinyRtc.TypeLengthValue

/-- A message as it is meant: a header with the length of what follows, and the
attributes. -/
def stunMessage (type : UInt16) (transactionId : List UInt8) (attrs : List Attribute) :
    List UInt8 :=
  write16 type ++ write16 (encode 4 attrs).length.toUInt16 ++ write32 stunMagicCookie ++
    transactionId ++ encode 4 attrs

/-- `message` is whole: its length field counts what follows the header, and a walk
over that visits `attrs` and ends where the message ends. -/
structure WellFormed (message : List UInt8) (attrs : List Attribute) : Prop where
  length_field : (stunRead16 (padded message) 2).toNat + stunHeaderLen = message.length
  length_mod : message.length % 4 = 0
  length_le : message.length ≤ 512
  walk_eq : walk 4 (message.drop stunHeaderLen) = some attrs

theorem stunMessage_length (type : UInt16) {transactionId : List UInt8}
    (hid : transactionId.length = 12) (attrs : List Attribute) :
    (stunMessage type transactionId attrs).length = 20 + (encode 4 attrs).length := by
  simp only [stunMessage, List.length_append, write16_length, write32_length, hid]

theorem stunMessage_wellFormed (type : UInt16) {transactionId : List UInt8}
    (hid : transactionId.length = 12) {attrs : List Attribute}
    (hlength : (encode 4 attrs).length ≤ 492) :
    WellFormed (stunMessage type transactionId attrs) attrs := by
  have hmod := encode_length_mod (by decide : 0 < 4) rfl attrs
  have hwhole := stunMessage_length type hid attrs
  constructor
  · have hfield : stunRead16 (padded (stunMessage type transactionId attrs)) 2 =
        (encode 4 attrs).length.toUInt16 :=
      read16_write16 _
    rw [hfield, toNat_toUInt16 (by omega), hwhole, stunHeaderLen, Nat.add_comm]
  · omega
  · omega
  · have hheader : (write16 type ++ write16 (encode 4 attrs).length.toUInt16 ++
        write32 stunMagicCookie ++ transactionId).length = stunHeaderLen := by
      simp only [List.length_append, write16_length, write32_length, hid]
      rfl
    rw [stunMessage, List.drop_left' hheader, walk_encode]

theorem stunSetLength_stunHeader (type : UInt16) (transactionId rest : List UInt8) (length : Nat) :
    stunSetLength (stunHeader type transactionId ++ rest) length =
      write16 type ++ write16 length.toUInt16 ++ write32 stunMagicCookie ++ transactionId ++
        rest :=
  rfl

section Finalize

variable (crypto : Crypto) (type : UInt16) (transactionId : List UInt8) (attrs : List Attribute)
  (password : List UInt8)

/-- What is hashed, and what it is hashed to. -/
def messageIntegrity : Attribute where
  type := stunAttrMessageIntegrity
  value := integrityValue crypto (stunHeader type transactionId ++ encode 4 attrs) password
  length_lt := by
    rw [integrityValue_length]
    decide

def fingerprint : Attribute where
  type := stunAttrFingerprint
  value := write32 (stunCrc32 (fingerprintInput crypto
    (stunHeader type transactionId ++ encode 4 attrs) password ++
      stunAttrHeader stunAttrFingerprint 4) ^^^ 0x5354554E)
  length_lt := by
    rw [write32_length]
    decide

/-- The two attributes that every message ends with. -/
def trailer : List Attribute :=
  [messageIntegrity crypto type transactionId attrs password,
    fingerprint crypto type transactionId attrs password]

theorem encode_trailer : encode 4 (trailer crypto type transactionId attrs password) =
    stunAttrHeader stunAttrMessageIntegrity 20 ++
      integrityValue crypto (stunHeader type transactionId ++ encode 4 attrs) password ++
        (stunAttrHeader stunAttrFingerprint 4 ++
          (fingerprint crypto type transactionId attrs password).value) := by
  have hintegrity : (messageIntegrity crypto type transactionId attrs password).value.length = 20 :=
    integrityValue_length ..
  have hfingerprint : (fingerprint crypto type transactionId attrs password).value.length = 4 :=
    write32_length _
  rw [trailer, encode_cons, encode_cons, encode_nil, encodeAttribute, encodeAttribute, hintegrity,
    hfingerprint]
  simp only [show paddingLen 4 20 = 0 from rfl, show paddingLen 4 4 = 0 from rfl,
    List.replicate_zero, List.append_nil]
  rfl

theorem encode_trailer_length :
    (encode 4 (trailer crypto type transactionId attrs password)).length = 32 := by
  rw [encode_trailer, List.length_append, List.length_append, integrityValue_length]
  rfl

variable {transactionId attrs}

theorem stunHeader_length (hid : transactionId.length = 12) :
    (stunHeader type transactionId).length = 20 := by
  simp only [stunHeader, List.length_append, write16_length, write32_length, hid]

/-- The bytes that the source puts behind the attributes are two more attributes, and the
length that it leaves in the header counts them all. -/
theorem stunFinalizeMessage_encode (hid : transactionId.length = 12) {bufSize : Nat}
    (hfit : (encode 4 attrs).length + 52 ≤ bufSize) :
    stunFinalizeMessage crypto (stunHeader type transactionId ++ encode 4 attrs) bufSize password =
      .ok (stunMessage type transactionId
        (attrs ++ trailer crypto type transactionId attrs password)) := by
  have hwhole : (stunHeader type transactionId ++ encode 4 attrs).length =
      20 + (encode 4 attrs).length := by
    rw [List.length_append, stunHeader_length type hid]
  have hcount : (stunHeader type transactionId ++ encode 4 attrs).length + 32 - stunHeaderLen =
      (encode 4 (attrs ++ trailer crypto type transactionId attrs password)).length := by
    rw [hwhole, encode_append, List.length_append, encode_trailer_length, stunHeaderLen]
    omega
  rw [stunFinalizeMessage_ok (by omega) (by omega)]
  congr 1
  change fingerprintInput crypto _ password ++ _ ++
    (fingerprint crypto type transactionId attrs password).value = _
  rw [fingerprintInput_eq (by omega), hcount, stunSetLength_stunHeader, stunMessage, encode_append,
    encode_trailer]
  simp only [List.append_assoc]

end Finalize

/-- The user name of a connectivity check. -/
def checkUsername (peer : IcePeer) : Attribute where
  type := stunAttrUsername
  value := peer.remoteUfrag.bytes ++ ascii ":" ++ peer.localUfrag.bytes
  length_lt := by
    have hremote := peer.remoteUfrag.length_le
    have hlocal := peer.localUfrag.length_le
    have hcolon : (ascii ":").length = 1 := rfl
    rw [List.length_append, List.length_append, hcolon]
    omega

/-- ICE-CONTROLLING of the initiator, ICE-CONTROLLED of the other side. -/
def checkRole (peer : IcePeer) (clock : UInt64) : Attribute where
  type := if peer.isInitiator then 0x802A else 0x8029
  value := write64 clock
  length_lt := by
    rw [write64_length]
    decide

def checkPriority (priority : UInt32) : Attribute where
  type := stunAttrPriority
  value := write32 priority
  length_lt := by
    rw [write32_length]
    decide

def checkAttributes (peer : IcePeer) (clock : UInt64) (priority : UInt32) : List Attribute :=
  [checkUsername peer, checkRole peer clock, checkPriority priority]

def xorMappedAddress (mapped : SockAddr) : Attribute where
  type := stunAttrXorMappedAddress
  value := ([0x00, 0x01] : List UInt8) ++
    write16 (mapped.port ^^^ (stunMagicCookie >>> 16).toUInt16) ++
      write32 (mapped.addr ^^^ stunMagicCookie)
  length_lt := by
    simp only [List.length_append, write16_length, write32_length]
    decide

theorem encodeAttribute_of_aligned {attr : Attribute} {length : Nat}
    (hlength : attr.value.length = length) (haligned : paddingLen 4 length = 0) :
    encodeAttribute 4 attr = stunAttrHeader attr.type length.toUInt16 ++ attr.value := by
  rw [encodeAttribute, hlength, haligned, List.replicate_zero, List.append_nil]
  rfl

theorem connectivityCheck_eq (peer : IcePeer) (clock : UInt64) (priority : UInt32) :
    connectivityCheck peer clock priority =
      stunHeader stunBindingRequest (stunTransactionId clock) ++
        encode 4 (checkAttributes peer clock priority) := by
  have hrole : encodeAttribute 4 (checkRole peer clock) =
      stunAttrHeader (if peer.isInitiator then 0x802A else 0x8029) 8 ++ write64 clock :=
    encodeAttribute_of_aligned (write64_length clock) rfl
  have hpriority : encodeAttribute 4 (checkPriority priority) =
      stunAttrHeader stunAttrPriority 4 ++ write32 priority :=
    encodeAttribute_of_aligned (write32_length priority) rfl
  rw [checkAttributes, encode_cons, encode_cons, encode_cons, encode_nil, hrole, hpriority,
    connectivityCheck]
  simp only [encodeAttribute, checkUsername, stunAttrHeader, paddingLen, List.append_assoc,
    List.append_nil]

theorem encode_checkAttributes_length (peer : IcePeer) (clock : UInt64) (priority : UInt32) :
    (encode 4 (checkAttributes peer clock priority)).length ≤ 154 := by
  have hlength := (connectivityCheck_length peer clock priority).2
  rw [connectivityCheck_eq, List.length_append,
    stunHeader_length _ (stunTransactionId_length clock)] at hlength
  omega

theorem stunFinalizeMessage_check (crypto : Crypto) (peer : IcePeer) (clock : UInt64)
    (priority : UInt32) (password : List UInt8) :
    stunFinalizeMessage crypto (connectivityCheck peer clock priority) 512 password =
      .ok (stunMessage stunBindingRequest (stunTransactionId clock)
        (checkAttributes peer clock priority ++ trailer crypto stunBindingRequest
          (stunTransactionId clock) (checkAttributes peer clock priority) password)) := by
  have hlength := encode_checkAttributes_length peer clock priority
  rw [connectivityCheck_eq]
  exact stunFinalizeMessage_encode crypto _ password (stunTransactionId_length clock) (by omega)

theorem encode_xorMappedAddress_length (mapped : SockAddr) :
    (encode 4 [xorMappedAddress mapped]).length = 12 := by
  have hvalue : (xorMappedAddress mapped).value.length = 8 := rfl
  rw [encode_cons, encode_nil, List.append_nil, encodeAttribute_length, hvalue]
  rfl

theorem stunCreateBindingResponse_eq (crypto : Crypto) {bufSize : Nat} (hsize : 64 ≤ bufSize)
    {transactionId : List UInt8} (hid : transactionId.length = 12) (mapped : SockAddr)
    (password : List UInt8) :
    stunCreateBindingResponse crypto bufSize transactionId (some mapped) password =
      stunMessage stunBindingResponse transactionId
        ([xorMappedAddress mapped] ++ trailer crypto stunBindingResponse transactionId
          [xorMappedAddress mapped] password) := by
  have hmapped : encode 4 [xorMappedAddress mapped] =
      stunAttrHeader stunAttrXorMappedAddress 8 ++ (xorMappedAddress mapped).value := by
    rw [encode_cons, encode_nil, List.append_nil]
    exact @encodeAttribute_of_aligned (xorMappedAddress mapped) 8 rfl rfl
  have hmessage : stunHeader stunBindingResponse transactionId ++
      stunAttrHeader stunAttrXorMappedAddress 8 ++ ([0x00, 0x01] : List UInt8) ++
        write16 (mapped.port ^^^ (stunMagicCookie >>> 16).toUInt16) ++
          write32 (mapped.addr ^^^ stunMagicCookie) =
      stunHeader stunBindingResponse transactionId ++ encode 4 [xorMappedAddress mapped] := by
    rw [hmapped, xorMappedAddress]
    simp only [List.append_assoc]
  have hfits : stunHeaderLen + 12 ≤ bufSize := le_trans (by decide) hsize
  rw [stunCreateBindingResponse]
  simp only [if_pos hfits, hmessage]
  rw [stunFinalizeMessage_encode crypto _ password hid]
  rw [encode_xorMappedAddress_length]
  omega

/-- The checking loop sends nothing but finalized connectivity checks. -/
theorem mem_iceSendChecks {crypto : Crypto} {peer : IcePeer} {ice : IceSession}
    {now : UInt64} {clock : Nat → UInt64} {output : IceOutput}
    (h : output ∈ (iceSendChecks crypto peer ice now clock).2) :
    ∃ i dest priority message, output = .check i dest message ∧
      stunFinalizeMessage crypto (connectivityCheck peer (clock i) priority) 512
        peer.remotePwd.bytes = .ok message := by
  rw [iceSendChecks, List.mem_flatten] at h
  obtain ⟨outputs, houtputs, hmem⟩ := h
  obtain ⟨i, hi, rfl⟩ := List.mem_mapIdx.mp houtputs
  obtain ⟨⟨dest, message⟩, hsent, rfl⟩ := Option.map_eq_some_iff.mp (Option.mem_toList.mp hmem)
  refine ⟨i, dest, (ice.localOf ice.checkPairs.items[i]).priority, message, rfl, ?_⟩
  simp only [iceCheckPair] at hsent
  split at hsent
  · split at hsent
    · next hfinal =>
      cases hsent
      exact hfinal
    · cases hsent
  · cases hsent

theorem mem_iceCheckConnectivity {crypto : Crypto} {peer : IcePeer} {ice : IceSession}
    {now : UInt64} {clock : Nat → UInt64} {output : IceOutput}
    (h : output ∈ (iceCheckConnectivity crypto peer ice now clock).2) :
    ∃ i dest priority message, output = .check i dest message ∧
      stunFinalizeMessage crypto (connectivityCheck peer (clock i) priority) 512
        peer.remotePwd.bytes = .ok message := by
  rw [iceCheckConnectivity] at h
  split at h
  · cases h
  · exact mem_iceSendChecks h

/-- `message` is whole and its attributes have these types, in this order. -/
def HasAttributes (message : List UInt8) (types : List UInt16) : Prop :=
  ∃ attrs, WellFormed message attrs ∧ attrs.map Attribute.type = types

/-- The types of the attributes of a connectivity check. -/
def checkTypes (peer : IcePeer) : List UInt16 :=
  [stunAttrUsername, if peer.isInitiator then 0x802A else 0x8029, stunAttrPriority,
    stunAttrMessageIntegrity, stunAttrFingerprint]

def responseTypes : List UInt16 :=
  [stunAttrXorMappedAddress, stunAttrMessageIntegrity, stunAttrFingerprint]

theorem stunFinalizeMessage_hasAttributes (crypto : Crypto) (type : UInt16)
    {transactionId : List UInt8} (hid : transactionId.length = 12) {attrs : List Attribute}
    (password : List UInt8) (hlength : (encode 4 attrs).length ≤ 460) :
    HasAttributes (stunMessage type transactionId
        (attrs ++ trailer crypto type transactionId attrs password))
      (attrs.map Attribute.type ++ [stunAttrMessageIntegrity, stunAttrFingerprint]) := by
  refine ⟨_, stunMessage_wellFormed type hid ?_, List.map_append⟩
  rw [encode_append, List.length_append, encode_trailer_length]
  omega

theorem check_hasAttributes {crypto : Crypto} {peer : IcePeer} {clock : UInt64}
    {priority : UInt32} {password message : List UInt8}
    (h : stunFinalizeMessage crypto (connectivityCheck peer clock priority) 512 password =
      .ok message) :
    HasAttributes message (checkTypes peer) := by
  have hlength := encode_checkAttributes_length peer clock priority
  rw [stunFinalizeMessage_check] at h
  cases h
  exact stunFinalizeMessage_hasAttributes crypto _ (stunTransactionId_length clock) password
    (by omega)

/-- Every check is built, every check that the loop sends and every response that answers
one is whole. -/
theorem emitted_messages_hasAttributes (crypto : Crypto) :
    (∀ (peer : IcePeer) (clock : UInt64) (priority : UInt32) (password : List UInt8),
      ∃ message, stunFinalizeMessage crypto (connectivityCheck peer clock priority) 512 password =
        .ok message ∧ HasAttributes message (checkTypes peer)) ∧
    (∀ (peer : IcePeer) (ice : IceSession) (now : UInt64) (clock : Nat → UInt64),
      ∀ output ∈ (iceCheckConnectivity crypto peer ice now clock).2,
        ∃ i dest message, output = .check i dest message ∧
          HasAttributes message (checkTypes peer)) ∧
    (∀ (request : Nat → UInt8) (mapped : SockAddr) (password : List UInt8) (bufSize : Nat),
      64 ≤ bufSize → HasAttributes (stunCreateBindingResponse crypto bufSize
        (transactionIdAt request) (some mapped) password) responseTypes) := by
  refine ⟨?_, ?_, ?_⟩
  · intro peer clock priority password
    exact ⟨_, stunFinalizeMessage_check crypto peer clock priority password,
      check_hasAttributes (stunFinalizeMessage_check ..)⟩
  · intro peer ice now clock output hmem
    obtain ⟨i, dest, priority, message, rfl, hfinal⟩ := mem_iceCheckConnectivity hmem
    exact ⟨i, dest, message, rfl, check_hasAttributes hfinal⟩
  · intro request mapped password bufSize hsize
    rw [stunCreateBindingResponse_eq crypto hsize rfl]
    refine stunFinalizeMessage_hasAttributes crypto _ rfl password ?_
    rw [encode_xorMappedAddress_length]
    decide

theorem response_hasAttributes_sample :
    HasAttributes (stunCreateBindingResponse toyCrypto 64 (transactionIdAt fun i => i.toUInt8)
      (some ⟨0xC0A80001, 5000⟩) [0x70]) responseTypes :=
  (emitted_messages_hasAttributes toyCrypto).2.2 (fun i => i.toUInt8) ⟨0xC0A80001, 5000⟩ [0x70] 64
    (le_refl 64)

section Reading

variable {buffer : Nat → UInt8} {p : Nat}

/-- What the attribute loop does with one attribute, wherever it stands. -/
def visitAttribute (mappedAddrLen : Nat) (mapped : MappedAddress) (attr : Attribute) :
    MappedAddress :=
  stunProcessAttr (padded attr.value) mappedAddrLen 0 attr.type attr.value.length mapped

theorem stunProcessAttr_eq_visit {attr : Attribute}
    (h : BeginsWith attr.value fun k => buffer (p + k)) (mappedAddrLen : Nat)
    (mapped : MappedAddress) :
    stunProcessAttr buffer mappedAddrLen p attr.type attr.value.length mapped =
      visitAttribute mappedAddrLen mapped attr := by
  have hbyte : ∀ k, k < attr.value.length → buffer (p + k) = padded attr.value k := by
    intro k hk
    rw [padded_beginsWith attr.value k hk]
    exact h k hk
  have hport : ¬ attr.value.length < 4 →
      stunRead16 buffer (p + 2) = stunRead16 (padded attr.value) (0 + 2) := by
    intro hlong
    rw [stunRead16, stunRead16, hbyte 2 (by omega)]
    exact congrArg _ (hbyte 3 (by omega))
  have haddr : attr.value.length = 8 →
      stunRead32 buffer (p + 4) = stunRead32 (padded attr.value) (0 + 4) := by
    intro hlong
    rw [stunRead32, stunRead32, hbyte 4 (by omega), Nat.add_assoc p, Nat.add_assoc p,
      Nat.add_assoc p, hbyte (4 + 1) (by omega), hbyte (4 + 2) (by omega),
      hbyte (4 + 3) (by omega), Nat.zero_add]
  rw [visitAttribute, stunProcessAttr, stunProcessAttr]
  by_cases hlong : attr.value.length < 4
  · simp only [if_pos hlong]
  · rw [hport hlong, hbyte 1 (by omega)]
    by_cases height : attr.value.length = 8
    · rw [haddr height]
    · simp only [height, false_and, and_false, if_false]

/-- The loop visits the attributes that were encoded, one after the other. -/
theorem stunProcessAttrs_encode (mappedAddrLen : Nat) {attrs : List Attribute} {fuel : Nat}
    (h : BeginsWith (encode 4 attrs) fun k => buffer (p + k)) (hfuel : attrs.length ≤ fuel)
    (mapped : MappedAddress) :
    stunProcessAttrs buffer mappedAddrLen (p + (encode 4 attrs).length) fuel p mapped =
      attrs.foldl (visitAttribute mappedAddrLen) mapped := by
  induction attrs generalizing p fuel mapped with
  | nil =>
      cases fuel with
      | zero => rfl
      | succ fuel =>
          rw [stunProcessAttrs, if_pos]
          · rfl
          · rw [encode_nil, List.length_nil]
            omega
  | cons attr attrs ih =>
      obtain ⟨fuel, rfl⟩ := Nat.exists_eq_add_of_le' (Nat.le_trans (Nat.le_add_left 1 _) hfuel)
      obtain ⟨hattr, hattrs⟩ := beginsWith_append.mp h
      rw [encodeAttribute] at hattr
      obtain ⟨hvalue, -⟩ := beginsWith_append.mp hattr
      obtain ⟨hheader, hvalue⟩ := beginsWith_append.mp hvalue
      obtain ⟨htype, hlength⟩ := beginsWith_append.mp hheader
      have hpadded : (attr.value.length + 3) / 4 * 4 =
          attr.value.length + paddingLen 4 attr.value.length := by
        rw [paddingLen]
        omega
      have hnext : p + 4 + (attr.value.length + paddingLen 4 attr.value.length) =
          p + (encodeAttribute 4 attr).length := by
        rw [encodeAttribute_length]
        omega
      have hread : (stunRead16 buffer (p + 2)).toNat = attr.value.length := by
        have hword : stunRead16 buffer (p + 2) = attr.value.length.toUInt16 :=
          read16_of_beginsWith hlength
        rw [hword, toNat_toUInt16 attr.length_lt]
      have htag : stunRead16 buffer p = attr.type := read16_of_beginsWith htype
      have hvisit : stunProcessAttr buffer mappedAddrLen (p + 4) attr.type attr.value.length mapped =
          visitAttribute mappedAddrLen mapped attr :=
        stunProcessAttr_eq_visit hvalue mappedAddrLen mapped
      rw [encode_cons, List.length_append, ← Nat.add_assoc, stunProcessAttrs, if_neg]
      · simp only [hread, hpadded, hnext, htag, hvisit]
        rw [if_neg (by omega), ih hattrs (Nat.le_of_succ_le_succ hfuel), List.foldl_cons]
      · rw [encodeAttribute_length]
        omega

/-- What the reader makes of a whole response is what its attributes make of the output
arguments, in their order. -/
theorem stunProcessResponse_stunMessage {transactionId : List UInt8}
    (hid : transactionId.length = 12) {attrs : List Attribute}
    (hlength : (encode 4 attrs).length ≤ 1500)
    (h : BeginsWith (stunMessage stunBindingResponse transactionId attrs) buffer)
    (mapped : MappedAddress) (mappedAddrLen : Nat) :
    stunProcessResponse buffer (stunMessage stunBindingResponse transactionId attrs).length mapped
        mappedAddrLen =
      (if (attrs.foldl (visitAttribute mappedAddrLen) mapped).found then .ok else .error,
        attrs.foldl (visitAttribute mappedAddrLen) mapped) ∧
    transactionIdAt buffer = transactionId := by
  have hwhole : BeginsWith (stunMessage stunBindingResponse transactionId attrs)
      fun k => buffer (0 + k) := by
    simpa only [Nat.zero_add] using h
  obtain ⟨hheader, hattrs⟩ := beginsWith_append.mp hwhole
  obtain ⟨hheader, htransaction⟩ := beginsWith_append.mp hheader
  obtain ⟨hheader, hcookie⟩ := beginsWith_append.mp hheader
  obtain ⟨htype, hcount⟩ := beginsWith_append.mp hheader
  have hread0 : stunRead16 buffer 0 = stunBindingResponse := read16_of_beginsWith htype
  have hread2 : stunRead16 buffer 2 = (encode 4 attrs).length.toUInt16 :=
    read16_of_beginsWith hcount
  have hread4 : stunRead32 buffer 4 = stunMagicCookie := read32_of_beginsWith hcookie
  have hbody : BeginsWith (encode 4 attrs) fun k => buffer (stunHeaderLen + k) := by
    have hplace : 0 + (write16 stunBindingResponse ++ write16 (encode 4 attrs).length.toUInt16 ++
        write32 stunMagicCookie ++ transactionId).length = stunHeaderLen := by
      simp only [List.length_append, write16_length, write32_length, hid]
      rfl
    rwa [hplace] at hattrs
  constructor
  · have hlong : ¬ (stunMessage stunBindingResponse transactionId attrs).length < stunHeaderLen := by
      rw [stunMessage_length _ hid, stunHeaderLen]
      omega
    have hsmall : ¬ (encode 4 attrs).length > 1500 := by omega
    have hfuel : attrs.length ≤ (encode 4 attrs).length := length_le_encode_length attrs
    have hloop := stunProcessAttrs_encode mappedAddrLen hbody hfuel mapped
    rw [stunProcessResponse, if_neg hlong, hread4, if_neg (not_not.mpr rfl), hread2,
      toNat_toUInt16 (by omega), if_neg hsmall, hread0, if_neg (not_not.mpr rfl)]
    simp only [hloop]
  · rw [transactionIdAt]
    refine List.ext_getElem (by simp [hid]) ?_
    intro i hi hi'
    have hbyte := htransaction i hi'
    simp only [List.length_append, write16_length, write32_length] at hbyte
    rw [← hbyte]
    simp

end Reading

theorem visitAttribute_xorMappedAddress (address : SockAddr) {mappedAddrLen : Nat}
    (hlen : inetAddrStrLen ≤ mappedAddrLen) (mapped : MappedAddress) :
    visitAttribute mappedAddrLen mapped (xorMappedAddress address) =
      ⟨inetNtop address.addr, address.port, true⟩ := by
  have hport : stunRead16 (padded (xorMappedAddress address).value) 2 =
      address.port ^^^ (stunMagicCookie >>> 16).toUInt16 :=
    read16_write16 _
  have haddr : stunRead32 (padded (xorMappedAddress address).value) 4 =
      address.addr ^^^ stunMagicCookie :=
    read32_write32 _
  have hlength : (xorMappedAddress address).value.length = 8 := rfl
  have hfamily : padded (xorMappedAddress address).value 1 = 0x01 := rfl
  have htype : (xorMappedAddress address).type = stunAttrXorMappedAddress := rfl
  rw [visitAttribute, stunProcessAttr, if_pos htype, hlength, if_neg (by decide)]
  simp only [Nat.zero_add, hport, haddr, hfamily, hlen, and_self, if_true, UInt16.xor_assoc,
    UInt32.xor_assoc, UInt16.xor_self, UInt32.xor_self, UInt16.xor_zero, UInt32.xor_zero]

theorem visitAttribute_other {attr : Attribute} (hxor : attr.type ≠ stunAttrXorMappedAddress)
    (hmapped : attr.type ≠ stunAttrMappedAddress) (mappedAddrLen : Nat) (mapped : MappedAddress) :
    visitAttribute mappedAddrLen mapped attr = mapped := by
  rw [visitAttribute, stunProcessAttr, if_neg hxor, if_neg hmapped]

theorem foldl_trailer (crypto : Crypto) (type : UInt16) (transactionId : List UInt8)
    (attrs : List Attribute) (password : List UInt8) (mappedAddrLen : Nat)
    (mapped : MappedAddress) :
    (trailer crypto type transactionId attrs password).foldl (visitAttribute mappedAddrLen) mapped =
      mapped := by
  have hintegrity : (messageIntegrity crypto type transactionId attrs password).type =
      stunAttrMessageIntegrity := rfl
  have hfingerprint : (fingerprint crypto type transactionId attrs password).type =
      stunAttrFingerprint := rfl
  rw [trailer, List.foldl_cons, List.foldl_cons, List.foldl_nil, visitAttribute_other,
    visitAttribute_other]
  · rw [hintegrity]
    decide
  · rw [hintegrity]
    decide
  · rw [hfingerprint]
    decide
  · rw [hfingerprint]
    decide

/-- Whatever the hash and the CRC come to, the reader steps over them and undoes what the
builder did to the address. -/
theorem stunProcessResponse_createBindingResponse (crypto : Crypto) (request : Nat → UInt8)
    (address : SockAddr) (password : List UInt8) {bufSize : Nat} (hsize : 64 ≤ bufSize)
    {buffer : Nat → UInt8}
    (hbuffer : BeginsWith (stunCreateBindingResponse crypto bufSize (transactionIdAt request)
      (some address) password) buffer)
    (mapped : MappedAddress) {mappedAddrLen : Nat} (hlen : inetAddrStrLen ≤ mappedAddrLen) :
    stunProcessResponse buffer (stunCreateBindingResponse crypto bufSize (transactionIdAt request)
        (some address) password).length mapped mappedAddrLen =
      (.ok, ⟨inetNtop address.addr, address.port, true⟩) ∧
    transactionIdAt buffer = transactionIdAt request := by
  have hid : (transactionIdAt request).length = 12 := rfl
  have hlength : (encode 4 ([xorMappedAddress address] ++ trailer crypto stunBindingResponse
      (transactionIdAt request) [xorMappedAddress address] password)).length ≤ 1500 := by
    rw [encode_append, List.length_append, encode_trailer_length, encode_xorMappedAddress_length]
    decide
  rw [stunCreateBindingResponse_eq crypto hsize hid] at hbuffer ⊢
  obtain ⟨hresponse, htransaction⟩ :=
    stunProcessResponse_stunMessage hid hlength hbuffer mapped mappedAddrLen
  refine ⟨?_, htransaction⟩
  rw [hresponse, List.foldl_append, foldl_trailer, List.foldl_cons, List.foldl_nil,
    visitAttribute_xorMappedAddress address hlen]
  rfl

/-- A request from 192.168.0.1 port 5000, answered in the smallest buffer. -/
theorem stunProcessResponse_sample :
    (stunProcessResponse (padded (stunCreateBindingResponse toyCrypto 64
        (transactionIdAt fun i => i.toUInt8) (some ⟨0xC0A80001, 5000⟩) [0x70]))
      (stunCreateBindingResponse toyCrypto 64 (transactionIdAt fun i => i.toUInt8)
        (some ⟨0xC0A80001, 5000⟩) [0x70]).length ⟨[], 0, false⟩ 64).1 = .ok :=
  congrArg Prod.fst (stunProcessResponse_createBindingResponse toyCrypto (fun i => i.toUInt8)
    ⟨0xC0A80001, 5000⟩ [0x70] (le_refl 64) (padded_beginsWith _) ⟨[], 0, false⟩ (by decide)).1

end TinyRtc.StunMessages
