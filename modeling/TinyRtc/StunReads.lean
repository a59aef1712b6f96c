import Mathlib.Logic.Relation
import TinyRtc.BoundedReads
import TinyRtc.IceMatching

namespace TinyRtc.StunReads

open TinyRtc.BigEndian
open TinyRtc.BoundedReads
open TinyRtc.Common
open TinyRtc.Ice
open TinyRtc.IceMatching
open TinyRtc.Inet
open TinyRtc.LabelledRuns
open TinyRtc.SlotArray
open TinyRtc.Srtp
open TinyRtc.Stun

def stunRead16? (bytes : List UInt8) (i : Nat) : Option UInt16 :=
  readAt? bytes i 2 fun buffer => stunRead16 buffer i

def stunRead32? (bytes : List UInt8) (i : Nat) : Option UInt32 :=
  readAt? bytes i 4 fun buffer => stunRead32 buffer i

def transactionIdAt? (bytes : List UInt8) : Option (List UInt8) :=
  readAt? bytes 8 12 transactionIdAt

/-- The family and the port of an address attribute whose value starts at `p`, and its
address when it is an IPv4 one of the right length. -/
def stunAddress? (bytes : List UInt8) (p attrLen : Nat) :
    Option (UInt16 × Option UInt32) :=
  (readAt? bytes (p + 1) 1 fun buffer => buffer (p + 1)).bind fun family =>
    (stunRead16? bytes (p + 2)).bind fun port =>
      if family = 0x01 ∧ attrLen = 8 then
        (stunRead32? bytes (p + 4)).map fun addr => (port, some addr)
      else some (port, none)

/-- `stunProcessAttr` on a buffer that ends with the datagram, like all that follows:
`none` is a read at or behind the end. -/
def stunProcessAttr? (bytes : List UInt8) (mappedAddrLen p : Nat) (attrType : UInt16)
    (attrLen : Nat) (mapped : MappedAddress) : Option MappedAddress :=
  if attrType = stunAttrXorMappedAddress then
    if attrLen < 4 then some mapped
    else
      (stunAddress? bytes p attrLen).map fun (portXor, addrXor) =>
        let port := portXor ^^^ (stunMagicCookie >>> 16).toUInt16
        match addrXor with
        | some addr =>
            if inetAddrStrLen ≤ mappedAddrLen then ⟨inetNtop (addr ^^^ stunMagicCookie), port, true⟩
            else { mapped with port := port }
        | none => { mapped with port := port }
  else if attrType = stunAttrMappedAddress then
    if attrLen < 4 then some mapped
    else
      (stunAddress? bytes p attrLen).map fun (port, addr) =>
        match addr with
        | some addr =>
            if inetAddrStrLen ≤ mappedAddrLen then ⟨inetNtop addr, port, true⟩
            else { mapped with port := port }
        | none => { mapped with port := port }
  else some mapped

def stunProcessAttrs? (bytes : List UInt8) (mappedAddrLen stop : Nat) :
    (fuel p : Nat) → MappedAddress → Option MappedAddress
  | 0, _, mapped => some mapped
  | fuel + 1, p, mapped =>
      if p + 4 > stop then some mapped
      else
        (stunRead16? bytes p).bind fun attrType =>
          (stunRead16? bytes (p + 2)).bind fun length =>
            let attrLen := length.toNat
            let paddedLen := (attrLen + 3) / 4 * 4
            if p + 4 + paddedLen > stop then some mapped
            else
              (stunProcessAttr? bytes mappedAddrLen (p + 4) attrType attrLen mapped).bind
                (stunProcessAttrs? bytes mappedAddrLen stop fuel (p + 4 + paddedLen))

def stunProcessResponse? (bytes : List UInt8) (mapped : MappedAddress) (mappedAddrLen : Nat) :
    Option (TinyrtcError × MappedAddress) :=
  if bytes.length < stunHeaderLen then some (.error, mapped)
  else
    (stunRead32? bytes 4).bind fun cookie =>
      if cookie ≠ stunMagicCookie then some (.error, mapped)
      else
        (stunRead16? bytes 2).bind fun length =>
          if length.toNat > 1500 then some (.error, mapped)
          else
            (stunRead16? bytes 0).bind fun msgType =>
              if msgType ≠ stunBindingResponse then some (.error, mapped)
              else
                (stunProcessAttrs? bytes mappedAddrLen (stunHeaderLen + length.toNat)
                  length.toNat stunHeaderLen mapped).map fun mapped =>
                    (if mapped.found then .ok else .error, mapped)

/-- A transaction ID is compared only with one that the session has made. -/
def hasTransactionId (ice : IceSession) : Bool :=
  ice.stunServerTransactionIdValid || ice.checkPairs.items.any (·.lastTransactionIdValid)

def iceMarkResponse? (ice : IceSession) (bytes : List UInt8) : Option IceSession :=
  if hasTransactionId ice then (transactionIdAt? bytes).map (iceMarkResponse ice) else some ice

def iceProcessPacket? (crypto : Crypto) (peer : IcePeer) (ice : IceSession)
    (bytes : List UInt8) (source : SockAddr) : Option (Bool × IceSession × List IceOutput) :=
  if bytes.length < 8 then some (true, ice, [])
  else
    (stunRead32? bytes 4).bind fun cookie =>
      if cookie ≠ stunMagicCookie then some (true, ice, [])
      else
        (stunRead16? bytes 0).bind fun msgType =>
          if msgType = stunBindingRequest then
            (transactionIdAt? bytes).map fun transactionId =>
              let response := stunCreateBindingResponse crypto 512 transactionId (some source)
                peer.localPwd.bytes
              (false, iceMarkSource ice source, [.bindingResponse source response])
          else
            (if msgType = stunBindingResponse then iceMarkResponse? ice bytes else some ice).bind
              fun ice =>
                (stunProcessResponse? bytes ⟨[], 0, false⟩ 64).map fun (err, mapped) =>
                  if err = .ok ∧ mapped.addr ≠ [] then
                    let (ice, outputs) := iceAddReflexiveCandidate peer ice mapped
                    (false, ice, outputs)
                  else (false, ice, [])

section

variable {bytes : List UInt8} {buffer : Nat → UInt8}

theorem stunRead16?_eq (h : BeginsWith bytes buffer) (i : Nat) :
    stunRead16? bytes i =
      if i + 2 ≤ bytes.length then some (stunRead16 buffer i) else none := by
  apply readAt?_eq h
  intro buffer buffer' hagree
  change stunRead16 buffer i = stunRead16 buffer' i
  rw [stunRead16, stunRead16, hagree i (by omega) (by omega), hagree (i + 1) (by omega) (by omega)]

theorem stunRead32?_eq (h : BeginsWith bytes buffer) (i : Nat) :
    stunRead32? bytes i =
      if i + 4 ≤ bytes.length then some (stunRead32 buffer i) else none := by
  apply readAt?_eq h
  intro buffer buffer' hagree
  change stunRead32 buffer i = stunRead32 buffer' i
  rw [stunRead32, stunRead32, hagree i (by omega) (by omega), hagree (i + 1) (by omega) (by omega),
    hagree (i + 2) (by omega) (by omega), hagree (i + 3) (by omega) (by omega)]

theorem transactionIdAt?_eq (h : BeginsWith bytes buffer) :
    transactionIdAt? bytes =
      if stunHeaderLen ≤ bytes.length then some (transactionIdAt buffer) else none := by
  apply readAt?_eq h
  intro buffer buffer' hagree
  apply List.map_congr_left
  intro i hi
  have hi' := List.mem_range.mp hi
  exact hagree (8 + i) (by omega) (by omega)

/-- The address of an attribute is read to its end. -/
def IsIpv4At (buffer : Nat → UInt8) (p attrLen : Nat) : Prop :=
  buffer (p + 1) = 0x01 ∧ attrLen = 8

instance (buffer : Nat → UInt8) (p attrLen : Nat) : Decidable (IsIpv4At buffer p attrLen) :=
  inferInstanceAs (Decidable (_ ∧ _))

theorem stunAddress?_eq (h : BeginsWith bytes buffer) (p attrLen : Nat) :
    stunAddress? bytes p attrLen =
      if (if IsIpv4At buffer p attrLen then p + 8 else p + 4) ≤ bytes.length then
        some (stunRead16 buffer (p + 2),
          if IsIpv4At buffer p attrLen then some (stunRead32 buffer (p + 4)) else none)
      else none := by
  have hfamily : readAt? bytes (p + 1) 1 (fun buffer => buffer (p + 1)) =
      if p + 1 + 1 ≤ bytes.length then some (buffer (p + 1)) else none := by
    apply readAt?_eq h
    intro buffer buffer' hagree
    exact hagree (p + 1) (by omega) (by omega)
  rw [stunAddress?, hfamily, stunRead16?_eq h, stunRead32?_eq h]
  by_cases hport : p + 4 ≤ bytes.length
  · rw [if_pos (by omega), Option.bind_some, if_pos (by omega), Option.bind_some]
    by_cases hipv4 : IsIpv4At buffer p attrLen
    · have hfields : buffer (p + 1) = 0x01 ∧ attrLen = 8 := hipv4
      simp only [if_pos hipv4, if_pos hfields]
      by_cases haddr : p + 8 ≤ bytes.length
      · rw [if_pos haddr, if_pos (by omega)]
        rfl
      · rw [if_neg haddr, if_neg (by omega)]
        rfl
    · have hfields : ¬ (buffer (p + 1) = 0x01 ∧ attrLen = 8) := hipv4
      simp only [if_neg hipv4, if_neg hfields, if_pos hport]
  · have hreach : ¬ (if IsIpv4At buffer p attrLen then p + 8 else p + 4) ≤ bytes.length := by
      split <;> omega
    rw [if_neg hreach]
    by_cases hfirst : p + 1 + 1 ≤ bytes.length
    · rw [if_pos hfirst, Option.bind_some, if_neg (by omega)]
      rfl
    · rw [if_neg hfirst]
      rfl

/-- The place behind the last byte of a value that is looked at. -/
def valueEnd (buffer : Nat → UInt8) (p : Nat) (attrType : UInt16) (attrLen : Nat) : Nat :=
  if (attrType = stunAttrXorMappedAddress ∨ attrType = stunAttrMappedAddress) ∧ 4 ≤ attrLen then
    if IsIpv4At buffer p attrLen then p + 8 else p + 4
  else p

theorem stunProcessAttr?_eq (h : BeginsWith bytes buffer) (mappedAddrLen : Nat) {p : Nat}
    (hp : p ≤ bytes.length) (attrType : UInt16) (attrLen : Nat) (mapped : MappedAddress) :
    stunProcessAttr? bytes mappedAddrLen p attrType attrLen mapped =
      if valueEnd buffer p attrType attrLen ≤ bytes.length then
        some (stunProcessAttr buffer mappedAddrLen p attrType attrLen mapped)
      else none := by
  have htypes : stunAttrMappedAddress ≠ stunAttrXorMappedAddress := by decide
  by_cases hread :
      (attrType = stunAttrXorMappedAddress ∨ attrType = stunAttrMappedAddress) ∧ 4 ≤ attrLen
  · rw [valueEnd, if_pos hread]
    obtain ⟨htype, hlong⟩ := hread
    have hshort : ¬ attrLen < 4 := by omega
    have hipv4 : ∀ P : Prop, (buffer (p + 1) = 0x01 ∧ attrLen = 8 ∧ P) ↔
        IsIpv4At buffer p attrLen ∧ P := fun _ => and_assoc.symm
    rcases htype with rfl | rfl
    · rw [stunProcessAttr?, if_pos rfl, if_neg hshort, stunAddress?_eq h, map_ite_some]
      congr 2
      simp only [stunProcessAttr, if_neg hshort, hipv4, if_true]
      by_cases haddr : IsIpv4At buffer p attrLen
      · simp only [haddr, true_and, if_true]
      · simp only [haddr, false_and, if_false]
    · rw [stunProcessAttr?, if_neg htypes, if_pos rfl, if_neg hshort, stunAddress?_eq h,
        map_ite_some]
      congr 2
      simp only [stunProcessAttr, if_neg htypes, if_neg hshort, hipv4, if_true]
      by_cases haddr : IsIpv4At buffer p attrLen
      · simp only [haddr, true_and, if_true]
      · simp only [haddr, false_and, if_false]
  · rw [valueEnd, if_neg hread, if_pos hp, stunProcessAttr?, stunProcessAttr]
    by_cases hxor : attrType = stunAttrXorMappedAddress
    · have hshort : attrLen < 4 := by
        by_contra hlong
        exact hread ⟨.inl hxor, by omega⟩
      rw [if_pos hxor, if_pos hxor, if_pos hshort, if_pos hshort]
    · by_cases hmapped : attrType = stunAttrMappedAddress
      · have hshort : attrLen < 4 := by
          by_contra hlong
          exact hread ⟨.inr hmapped, by omega⟩
        rw [if_neg hxor, if_neg hxor, if_pos hmapped, if_pos hmapped, if_pos hshort,
          if_pos hshort]
      · rw [if_neg hxor, if_neg hxor, if_neg hmapped, if_neg hmapped]

theorem le_valueEnd (buffer : Nat → UInt8) (p : Nat) (attrType : UInt16) (attrLen : Nat) :
    p ≤ valueEnd buffer p attrType attrLen := by
  rw [valueEnd]
  split
  · split <;> omega
  · exact le_rfl

def paddedLenAt (buffer : Nat → UInt8) (p : Nat) : Nat :=
  ((stunRead16 buffer (p + 2)).toNat + 3) / 4 * 4

/-- The walk goes on behind an attribute that ends in front of `stop`. -/
def NextAttr (buffer : Nat → UInt8) (stop p next : Nat) : Prop :=
  p + 4 + paddedLenAt buffer p ≤ stop ∧ next = p + 4 + paddedLenAt buffer p

/-- The place behind the last byte of an attribute that is looked at: only its header when
it ends behind `stop`. -/
def attrEnd (buffer : Nat → UInt8) (stop p : Nat) : Nat :=
  if p + 4 + paddedLenAt buffer p ≤ stop then
    valueEnd buffer (p + 4) (stunRead16 buffer p) (stunRead16 buffer (p + 2)).toNat
  else p + 4

/-- From `p` on, the walk up to `stop` looks at nothing at or behind `len`. -/
def AttrsWithin (buffer : Nat → UInt8) (stop len p : Nat) : Prop :=
  ∀ q, Relation.ReflTransGen (NextAttr buffer stop) p q → q + 4 ≤ stop →
    attrEnd buffer stop q ≤ len

theorem attrsWithin_iff {stop len p : Nat} :
    AttrsWithin buffer stop len p ↔
      (p + 4 ≤ stop → attrEnd buffer stop p ≤ len) ∧
      (p + 4 + paddedLenAt buffer p ≤ stop →
        AttrsWithin buffer stop len (p + 4 + paddedLenAt buffer p)) := by
  constructor
  · intro h
    refine ⟨h p .refl, ?_⟩
    intro hnext q hq
    exact h q (.head ⟨hnext, rfl⟩ hq)
  · rintro ⟨hhere, hrest⟩ q hq
    rcases hq.cases_head with rfl | ⟨next, ⟨hnext, rfl⟩, hq⟩
    · exact hhere
    · exact hrest hnext q hq

theorem attrsWithin_of_end {stop len p : Nat} (hp : stop < p + 4) :
    AttrsWithin buffer stop len p :=
  attrsWithin_iff.mpr ⟨fun h => absurd h (by omega), fun h => absurd h (by omega)⟩

open Classical in
theorem stunProcessAttrs?_eq (h : BeginsWith bytes buffer) (mappedAddrLen stop : Nat)
    {fuel p : Nat} (hfuel : stop ≤ p + fuel) (mapped : MappedAddress) :
    stunProcessAttrs? bytes mappedAddrLen stop fuel p mapped =
      if AttrsWithin buffer stop bytes.length p then
        some (stunProcessAttrs buffer mappedAddrLen stop fuel p mapped)
      else none := by
  induction fuel generalizing p mapped with
  | zero =>
      rw [if_pos (attrsWithin_of_end (by omega))]
      rfl
  | succ fuel ih =>
      rw [stunProcessAttrs?, stunProcessAttrs]
      by_cases hstop : p + 4 > stop
      · rw [if_pos hstop, if_pos hstop, if_pos (attrsWithin_of_end hstop)]
      · rw [if_neg hstop, if_neg hstop, stunRead16?_eq h, stunRead16?_eq h]
        have hend : p + 4 ≤ attrEnd buffer stop p := by
          rw [attrEnd]
          split
          · exact le_valueEnd _ _ _ _
          · exact le_rfl
        by_cases hheader : p + 4 ≤ bytes.length
        · rw [if_pos (by omega), if_pos (by omega), Option.bind_some, Option.bind_some]
          change (if p + 4 + paddedLenAt buffer p > stop then _ else _) =
            if _ then some (if p + 4 + paddedLenAt buffer p > stop then _ else _) else _
          by_cases hfits : p + 4 + paddedLenAt buffer p > stop
          · have hwithin : AttrsWithin buffer stop bytes.length p := by
              refine attrsWithin_iff.mpr ⟨fun _ => ?_, fun hnext => absurd hnext (by omega)⟩
              rw [attrEnd, if_neg (by omega)]
              exact hheader
            rw [if_pos hfits, if_pos hfits, if_pos hwithin]
          · have hvalue : attrEnd buffer stop p = valueEnd buffer (p + 4) (stunRead16 buffer p)
                (stunRead16 buffer (p + 2)).toNat := by
              rw [attrEnd, if_pos (by omega)]
            rw [if_neg hfits, if_neg hfits, stunProcessAttr?_eq h _ hheader, ← hvalue]
            by_cases hread : attrEnd buffer stop p ≤ bytes.length
            · have hwithin : AttrsWithin buffer stop bytes.length p ↔
                  AttrsWithin buffer stop bytes.length (p + 4 + paddedLenAt buffer p) :=
                attrsWithin_iff.trans
                  ⟨fun hp => hp.2 (by omega), fun hp => ⟨fun _ => hread, fun _ => hp⟩⟩
              rw [if_pos hread, Option.bind_some, if_congr hwithin rfl rfl]
              exact ih (by omega) _
            · rw [if_neg hread, if_neg fun hp => hread ((attrsWithin_iff.mp hp).1 (by omega))]
              rfl
        · rw [if_neg fun hp => hheader (hend.trans ((attrsWithin_iff.mp hp).1 (by omega)))]
          by_cases htype : p + 2 ≤ bytes.length
          · rw [if_pos htype, Option.bind_some, if_neg hheader]
            rfl
          · rw [if_neg htype]
            rfl

/-- The attributes of a response whose header is accepted are read inside `len`. -/
def ResponseWithin (buffer : Nat → UInt8) (len : Nat) : Prop :=
  stunHeaderLen ≤ len → stunRead32 buffer 4 = stunMagicCookie →
    (stunRead16 buffer 2).toNat ≤ 1500 → stunRead16 buffer 0 = stunBindingResponse →
    AttrsWithin buffer (stunHeaderLen + (stunRead16 buffer 2).toNat) len stunHeaderLen

open Classical in
theorem stunProcessResponse?_eq (h : BeginsWith bytes buffer) (mapped : MappedAddress)
    (mappedAddrLen : Nat) :
    stunProcessResponse? bytes mapped mappedAddrLen =
      if ResponseWithin buffer bytes.length then
        some (stunProcessResponse buffer bytes.length mapped mappedAddrLen)
      else none := by
  rw [stunProcessResponse?, stunProcessResponse]
  by_cases hlen : bytes.length < stunHeaderLen
  · have hin : ResponseWithin buffer bytes.length := fun hlong => absurd hlen (by omega)
    rw [if_pos hlen, if_pos hlen, if_pos hin]
  have hlong : 20 ≤ bytes.length := Nat.le_of_not_lt hlen
  rw [if_neg hlen, if_neg hlen, stunRead32?_eq h, if_pos (by omega), Option.bind_some]
  by_cases hcookie : stunRead32 buffer 4 = stunMagicCookie
  · rw [if_neg (not_not_intro hcookie), if_neg (not_not_intro hcookie), stunRead16?_eq h,
      if_pos (by omega), Option.bind_some]
    by_cases hlength : (stunRead16 buffer 2).toNat > 1500
    · have hin : ResponseWithin buffer bytes.length := fun _ _ hl => absurd hlength (by omega)
      rw [if_pos hlength, if_pos hlength, if_pos hin]
    rw [if_neg hlength, if_neg hlength, stunRead16?_eq h, if_pos (by omega), Option.bind_some]
    by_cases htype : stunRead16 buffer 0 = stunBindingResponse
    · have hwithin : ResponseWithin buffer bytes.length ↔
          AttrsWithin buffer (stunHeaderLen + (stunRead16 buffer 2).toNat) bytes.length
            stunHeaderLen :=
        ⟨fun hin => hin hlong hcookie (by omega) htype, fun hattrs _ _ _ _ => hattrs⟩
      rw [if_neg (not_not_intro htype), if_neg (not_not_intro htype),
        stunProcessAttrs?_eq h _ _ le_rfl, map_ite_some, if_congr hwithin rfl rfl]
    · have hin : ResponseWithin buffer bytes.length := fun _ _ _ ht => absurd ht htype
      rw [if_pos htype, if_pos htype, if_pos hin]
  · have hin : ResponseWithin buffer bytes.length := fun _ hc => absurd hc hcookie
    rw [if_pos hcookie, if_pos hcookie, if_pos hin]

theorem markFirst_of_none {transactionId : List UInt8} {pairs : List IceCheckPair}
    (h : ∀ pair ∈ pairs, pair.lastTransactionIdValid = false) :
    markFirst transactionId pairs = pairs := by
  induction pairs with
  | nil => rfl
  | cons pair pairs ih =>
      have hpair : pair.matches transactionId = false := by
        rw [IceCheckPair.matches, h pair (List.mem_cons_self ..), Bool.false_and]
      rw [markFirst, hpair, ih fun p hp => h p (List.mem_cons_of_mem _ hp)]
      rfl

theorem iceMarkResponse_of_none {ice : IceSession} (h : hasTransactionId ice = false)
    (transactionId : List UInt8) : iceMarkResponse ice transactionId = ice := by
  rw [hasTransactionId, Bool.or_eq_false_iff, List.any_eq_false] at h
  obtain ⟨hserver, hpairs⟩ := h
  have hkept : ice.checkPairs.mapItems (markFirst transactionId) (markFirst_length _) =
      ice.checkPairs :=
    Slots.ext (markFirst_of_none fun pair hpair => Bool.eq_false_iff.mpr (hpairs pair hpair))
  have htest : ¬ (ice.stunServerTransactionIdValid &&
      ice.stunServerTransactionId == transactionId) = true := by
    rw [hserver, Bool.false_and]
    exact Bool.false_ne_true
  rw [iceMarkResponse, if_neg htest, hkept]

/-- The header of what looks like a STUN message is long enough where its transaction ID
is needed, and so is the rest of a response. -/
structure PacketWithin (ice : IceSession) (buffer : Nat → UInt8) (len : Nat) : Prop where
  transactionId : 8 ≤ len → stunRead32 buffer 4 = stunMagicCookie →
    (stunRead16 buffer 0 = stunBindingRequest ∨
      stunRead16 buffer 0 = stunBindingResponse ∧ hasTransactionId ice = true) →
    stunHeaderLen ≤ len
  response : ResponseWithin buffer len

theorem iceMarkResponse?_eq (h : BeginsWith bytes buffer) (ice : IceSession) :
    iceMarkResponse? ice bytes =
      if hasTransactionId ice = true → stunHeaderLen ≤ bytes.length then
        some (iceMarkResponse ice (transactionIdAt buffer))
      else none := by
  rw [iceMarkResponse?]
  cases hid : hasTransactionId ice with
  | true =>
      rw [if_pos rfl, transactionIdAt?_eq h, map_ite_some]
      simp only [forall_const]
  | false => simp [iceMarkResponse_of_none hid]

theorem markStep?_eq (h : BeginsWith bytes buffer) (ice : IceSession) (msgType : UInt16) :
    (if msgType = stunBindingResponse then iceMarkResponse? ice bytes else some ice) =
      if msgType = stunBindingResponse → hasTransactionId ice = true →
          stunHeaderLen ≤ bytes.length then
        some (if msgType = stunBindingResponse then
          iceMarkResponse ice (transactionIdAt buffer) else ice)
      else none := by
  by_cases htype : msgType = stunBindingResponse
  · rw [if_pos htype, if_pos htype, iceMarkResponse?_eq h]
    exact if_congr ⟨fun hid _ => hid, fun hid => hid htype⟩ rfl rfl
  · rw [if_neg htype, if_neg htype, if_pos fun hresponse => absurd hresponse htype]

theorem byteAt_beginsWith (datagram : Datagram) :
    BeginsWith datagram.bytes datagram.byteAt := by
  intro i hi
  rw [Datagram.byteAt, List.getElem?_eq_getElem hi, Option.getD_some]

theorem packetWithin_of_short (ice : IceSession) {buffer : Nat → UInt8} {len : Nat}
    (hlen : len < 8) : PacketWithin ice buffer len := by
  constructor
  · intro h8
    exact absurd hlen (by omega)
  · intro hheader
    rw [stunHeaderLen] at hheader
    exact absurd hlen (by omega)

theorem packetWithin_of_no_cookie (ice : IceSession) {buffer : Nat → UInt8} (len : Nat)
    (hcookie : stunRead32 buffer 4 ≠ stunMagicCookie) : PacketWithin ice buffer len :=
  ⟨fun _ hc => absurd hc hcookie, fun _ hc => absurd hc hcookie⟩

theorem packetWithin_request_iff (ice : IceSession) {buffer : Nat → UInt8} {len : Nat}
    (hlen : 8 ≤ len) (hcookie : stunRead32 buffer 4 = stunMagicCookie)
    (hrequest : stunRead16 buffer 0 = stunBindingRequest) :
    PacketWithin ice buffer len ↔ stunHeaderLen ≤ len := by
  constructor
  · intro hin
    exact hin.transactionId hlen hcookie (.inl hrequest)
  · intro hlong
    refine ⟨fun _ _ _ => hlong, fun _ _ _ hresponse => ?_⟩
    rw [hrequest] at hresponse
    exact absurd hresponse (by decide)

theorem packetWithin_other_iff (ice : IceSession) {buffer : Nat → UInt8} {len : Nat}
    (hlen : 8 ≤ len) (hcookie : stunRead32 buffer 4 = stunMagicCookie)
    (hrequest : stunRead16 buffer 0 ≠ stunBindingRequest) :
    PacketWithin ice buffer len ↔
      (stunRead16 buffer 0 = stunBindingResponse → hasTransactionId ice = true →
        stunHeaderLen ≤ len) ∧ ResponseWithin buffer len := by
  constructor
  · intro hin
    exact ⟨fun htype hid => hin.transactionId hlen hcookie (.inr ⟨htype, hid⟩), hin.response⟩
  · rintro ⟨htid, hresponse⟩
    refine ⟨fun _ _ htype => ?_, hresponse⟩
    rcases htype with htype | ⟨htype, hid⟩
    · exact absurd htype hrequest
    · exact htid htype hid

open Classical in
theorem iceProcessPacket?_eq (crypto : Crypto) (peer : IcePeer) (ice : IceSession)
    (datagram : Datagram) :
    iceProcessPacket? crypto peer ice datagram.bytes datagram.source =
      if PacketWithin ice datagram.byteAt datagram.bytes.length then
        some (iceProcessPacket crypto peer ice datagram)
      else none := by
  have h := byteAt_beginsWith datagram
  rw [iceProcessPacket?, iceProcessPacket]
  by_cases hshort : datagram.bytes.length < 8
  · rw [if_pos hshort, if_pos hshort, if_pos (packetWithin_of_short ice hshort)]
  have hlen : 8 ≤ datagram.bytes.length := by omega
  rw [if_neg hshort, if_neg hshort, stunRead32?_eq h, if_pos hlen, Option.bind_some]
  by_cases hcookie : stunRead32 datagram.byteAt 4 = stunMagicCookie
  · rw [if_neg (not_not_intro hcookie), if_neg (not_not_intro hcookie), stunRead16?_eq h,
      if_pos (by omega), Option.bind_some]
    dsimp only
    by_cases hrequest : stunRead16 datagram.byteAt 0 = stunBindingRequest
    · rw [if_pos hrequest, if_pos hrequest, transactionIdAt?_eq h, map_ite_some,
        if_congr (packetWithin_request_iff ice hlen hcookie hrequest) rfl rfl]
    · rw [if_neg hrequest, if_neg hrequest, stunProcessResponse?_eq h, markStep?_eq h,
        if_congr (packetWithin_other_iff ice hlen hcookie hrequest) rfl rfl, ite_and]
      split
      · rw [Option.bind_some, map_ite_some]
        congr 2
        generalize stunProcessResponse datagram.byteAt datagram.bytes.length ⟨[], 0, false⟩ 64 =
          result
        obtain ⟨err, mapped⟩ := result
        cases err with
        | ok => simp
        | _ => simp
      · rfl
  · rw [if_pos hcookie, if_pos hcookie, if_pos (packetWithin_of_no_cookie ice _ hcookie)]

end

/-- The bytes of a datagram determine what is made of it, and no other byte of the receive
buffer is looked at. -/
structure DependsOnDatagram (crypto : Crypto) (peer : IcePeer) (ice : IceSession)
    (bytes : List UInt8) (source : SockAddr) : Prop where
  response : ∀ buffer buffer', BeginsWith bytes buffer → BeginsWith bytes buffer' →
    ∀ mapped mappedAddrLen, stunProcessResponse buffer bytes.length mapped mappedAddrLen =
      stunProcessResponse buffer' bytes.length mapped mappedAddrLen
  packet : ∀ stale stale', iceProcessPacket crypto peer ice ⟨bytes, stale, source⟩ =
    iceProcessPacket crypto peer ice ⟨bytes, stale', source⟩
  responseInside : ∀ mapped mappedAddrLen,
    (stunProcessResponse? bytes mapped mappedAddrLen).isSome = true
  packetInside : (iceProcessPacket? crypto peer ice bytes source).isSome = true

theorem padded_eq_byteAt (bytes : List UInt8) (source : SockAddr) :
    padded bytes = (Datagram.mk bytes (fun _ => default) source).byteAt := by
  funext i
  rw [padded, List.getD_eq_getElem?_getD]
  rfl

/-- Both calls stay inside the datagram exactly where its header is long enough for the
transaction ID, when that is needed, and the attributes of a response are inside too. -/
theorem dependsOnDatagram_iff (crypto : Crypto) (peer : IcePeer) (ice : IceSession)
    (bytes : List UInt8) (source : SockAddr) :
    DependsOnDatagram crypto peer ice bytes source ↔
      PacketWithin ice (padded bytes) bytes.length := by
  classical
  have hpacket := iceProcessPacket?_eq crypto peer ice ⟨bytes, fun _ => default, source⟩
  rw [← padded_eq_byteAt] at hpacket
  constructor
  · intro hdepends
    by_contra hout
    have hsome := hdepends.packetInside
    rw [hpacket, if_neg hout] at hsome
    cases hsome
  · intro hin
    rw [if_pos hin] at hpacket
    have hresponse : ∀ buffer, BeginsWith bytes buffer → ∀ mapped mappedAddrLen,
        stunProcessResponse? bytes mapped mappedAddrLen =
          some (stunProcessResponse buffer bytes.length mapped mappedAddrLen) := by
      intro buffer hbuffer mapped mappedAddrLen
      have hpadded := stunProcessResponse?_eq (padded_beginsWith bytes) mapped mappedAddrLen
      rw [if_pos hin.response] at hpadded
      have hagree := (stunProcessResponse?_eq hbuffer mapped mappedAddrLen).symm.trans hpadded
      rw [hpadded, ← (Option.ite_none_right_eq_some.mp hagree).2]
    have hstale : ∀ stale, iceProcessPacket? crypto peer ice bytes source =
        some (iceProcessPacket crypto peer ice ⟨bytes, stale, source⟩) := by
      intro stale
      have hagree := (iceProcessPacket?_eq crypto peer ice ⟨bytes, stale, source⟩).symm.trans hpacket
      rw [hpacket, ← (Option.ite_none_right_eq_some.mp hagree).2]
    refine ⟨?_, ?_, ?_, ?_⟩
    · intro buffer buffer' hbuffer hbuffer' mapped mappedAddrLen
      exact Option.some.inj ((hresponse buffer hbuffer mapped mappedAddrLen).symm.trans
        (hresponse buffer' hbuffer' mapped mappedAddrLen))
    · intro stale stale'
      exact Option.some.inj ((hstale stale).symm.trans (hstale stale'))
    · intro mapped mappedAddrLen
      rw [hresponse _ (padded_beginsWith bytes)]
      rfl
    · rw [hpacket]
      rfl

def sampleSession : IceSession :=
  (afterCalls toyCrypto sampleCalls .start).ice

/-- A binding request that is cut off behind the magic cookie, in a buffer full of one byte. -/
def cutRequest (rest : UInt8) : Datagram :=
  ⟨(stunHeader stunBindingRequest []).take 8, fun _ => rest, ⟨0x0A000001, 5000⟩⟩

/-- The header of a response of twelve more bytes, which are not the datagram's. -/
def cutResponse (rest : List UInt8) : Datagram :=
  ⟨stunSetLength (stunHeader stunBindingResponse (List.replicate 12 0)) 12,
    fun i => rest.getD (i - stunHeaderLen) 0, ⟨0x0A000001, 5000⟩⟩

def answeredIds : List IceOutput → List (List UInt8) :=
  List.filterMap fun
    | .bindingResponse _ message => some (messageTransactionId message)
    | _ => none

/-- The answer to a request of eight bytes takes its transaction ID from an earlier
datagram, and a response without attributes its mapped address. -/
theorem dependsOnDatagram_fails :
    Run (LoggedStep toyCrypto) .start sampleCalls (afterCalls toyCrypto sampleCalls .start) ∧
      iceProcessPacket toyCrypto samplePeer sampleSession (cutRequest 1) ≠
        iceProcessPacket toyCrypto samplePeer sampleSession (cutRequest 2) ∧
      (stunProcessResponse (cutResponse []).byteAt 20 ⟨[], 0, false⟩ 64).1 ≠
        (stunProcessResponse (cutResponse (stunAttrHeader stunAttrXorMappedAddress 8 ++
          ([0x00, 0x01] : List UInt8))).byteAt 20 ⟨[], 0, false⟩ 64).1 := by
  refine ⟨run_afterCalls toyCrypto sampleCalls .start, ?_, by decide +kernel⟩
  intro heq
  have hids := congrArg (fun result => answeredIds result.2.2) heq
  revert hids
  decide +kernel

end TinyRtc.StunReads
