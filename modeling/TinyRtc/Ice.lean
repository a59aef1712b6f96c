import TinyRtc.Sdp
import TinyRtc.Stun

namespace TinyRtc.Ice

open TinyRtc.BigEndian
open TinyRtc.Common
open TinyRtc.CString
open TinyRtc.Decimal
open TinyRtc.Inet
open TinyRtc.Sdp
open TinyRtc.SlotArray
open TinyRtc.Srtp
open TinyRtc.Stun

/-- `ICE_MAX_CANDIDATES`. -/
def iceMaxCandidates : Nat := tinyrtcMaxCandidates

/-- `ICE_STUN_TIMEOUT_MS * ICE_MAX_RETRIES`. -/
def iceRetryMs : UInt64 := 1000 * 3

/-- `ice_candidate_type_t`. -/
inductive IceCandidateType where
  | host
  | srflx
  | relay
  deriving DecidableEq, Repr

/-- `ice_candidate_internal_t`, less the fields that nothing reads. -/
structure IceCandidateInternal where
  type : IceCandidateType
  priority : UInt32
  ip : CStr 64
  port : UInt16
  protocol : CStr 16
  isIpv6 : Bool
  selected : Bool
  deriving DecidableEq

def IceCandidateInternal.zero : IceCandidateInternal :=
  ⟨.host, 0, .empty, 0, .empty, false, false⟩

/-- `ice_check_pair_t`. The pointers to the two candidates are their places in the
session's tables. -/
structure IceCheckPair where
  localIdx : Nat
  remoteIdx : Nat
  succeeded : Bool
  lastPingMs : UInt64
  lastTransactionId : List UInt8
  lastTransactionIdValid : Bool
  deriving DecidableEq

def IceCheckPair.fresh (localIdx remoteIdx : Nat) : IceCheckPair :=
  ⟨localIdx, remoteIdx, false, 0, List.replicate 12 0x00, false⟩

/-- `ice_session_t`, less the back pointer. The states are 0 = new,
1 = gathering, 2 = gathered, 3 = checking, 4 = done; `selectedPair` is a place in
`checkPairs`, and `socket` is `none` for the source's -1. -/
structure IceSession where
  state : Nat
  localCandidates : Slots IceCandidateInternal iceMaxCandidates
  remoteCandidates : Slots IceCandidateInternal iceMaxCandidates
  checkPairs : Slots IceCheckPair (iceMaxCandidates * iceMaxCandidates)
  selectedPair : Option Nat
  socket : Option Nat
  gatheringComplete : Bool
  stunServerTransactionId : List UInt8
  stunServerTransactionIdValid : Bool

/-- What the session reads through its back pointer to the peer connection. -/
structure IcePeer where
  localUfrag : CStr 64
  localPwd : CStr 128
  remoteUfrag : CStr 64
  remotePwd : CStr 128
  isInitiator : Bool
  onIceCandidate : Bool

/-- What an ICE function hands to the network or the application. -/
inductive IceOutput where
  | serverRequest (dest : SockAddr) (message : List UInt8)
  | bindingResponse (dest : SockAddr) (message : List UInt8)
  | check (pair : Nat) (dest : SockAddr) (message : List UInt8)
  | candidate (candidate : SdpCandidate)

/-- `parse_stun_url`. A host name that fills the source's buffer is cut. -/
def parseStunUrl (url : List UInt8) (hostLen : Nat) : Option (List UInt8 × UInt16) :=
  let url := if url.take 5 = ascii "stun:" then url.drop 5 else url
  let host := (url.takeWhile (· != 0x3A)).take (hostLen - 1)
  let port :=
    match url.dropWhile (· != 0x3A) with
    | [] => 3478
    | _ :: rest =>
        let port := (atoi rest).toUInt32.toUInt16
        if port = 0 then 3478 else port
  if host = [] then none else some (host, port)

def iceCalculatePriority (type : IceCandidateType) : UInt32 :=
  let typePref : UInt32 :=
    match type with
    | .host => 126
    | .srflx => 110
    | .relay => 100
  (typePref <<< 24) ||| ((0 : UInt32) <<< 8) ||| 255

/-- `ICE_PRIORITY_HOST - n * 10`: the macro has no parentheses, so the
difference is taken from its last operand. -/
def icePriorityHostMinus (n : UInt32) : UInt32 :=
  ((126 : UInt32) <<< 24) ||| ((0 : UInt32) <<< 8) ||| (126 - n)

/-- `ICE_PRIORITY_HOST`. -/
def icePriorityHost : UInt32 :=
  ((126 : UInt32) <<< 24) ||| ((0 : UInt32) <<< 8) ||| 126

def iceAddLocalCandidate (ice : IceSession) (ip : List UInt8) (port : UInt16)
    (priority : UInt32) : IceSession :=
  if ice.localCandidates.items.any fun cand => cand.ip.bytes == ip && cand.port == port then ice
  else
    match ice.localCandidates.push?
        { type := .host
          priority := priority
          ip := CStr.strncpy ip
          port := port
          protocol := CStr.strncpy (ascii "udp")
          isIpv6 := ip.contains 0x3A
          selected := false } with
    | none => ice
    | some localCandidates => { ice with localCandidates := localCandidates }

def iceAddCheckPairs (ice : IceSession) (pairs : List (Nat × Nat)) : IceSession :=
  { ice with
    checkPairs := pairs.foldl
      (fun checkPairs pair =>
        (checkPairs.push? (IceCheckPair.fresh pair.1 pair.2)).getD checkPairs)
      ice.checkPairs }

def iceAddCheckPairsForLocalCandidate (ice : IceSession) (localIdx : Nat) : IceSession :=
  iceAddCheckPairs ice ((List.range ice.remoteCandidates.count).map fun i => (localIdx, i))

/-- `ice_session_create` when its allocation succeeds. -/
def iceSessionCreate : IceSession :=
  { state := 0
    localCandidates := .empty
    remoteCandidates := .empty
    checkPairs := .empty
    selectedPair := none
    socket := none
    gatheringComplete := false
    stunServerTransactionId := List.replicate 12 0x00
    stunServerTransactionIdValid := false }

/-- What gathering finds on the host: the socket and whether it can be bound, the
port it got, the addresses of the usable IPv4 interfaces, the clock, and the
resolver. -/
structure GatheringEnv where
  socket : Option Nat
  bindOk : Bool
  localPort : UInt16
  interfaces : List UInt32
  now : UInt64
  resolve : (host : List UInt8) → (port : UInt16) → Option SockAddr

def stunSendBindingRequest (env : GatheringEnv) (ice : IceSession) (serverAddr : List UInt8)
    (serverPort : UInt16) : IceSession × List IceOutput :=
  let transactionId := stunTransactionId env.now
  let ice :=
    { ice with
      stunServerTransactionId := transactionId
      stunServerTransactionIdValid := true }
  match env.resolve serverAddr serverPort with
  | none => (ice, [])
  | some dest => (ice, [.serverRequest dest (stunHeader stunBindingRequest transactionId)])

def iceStartGathering (env : GatheringEnv) (ice : IceSession) (stunUrl : Option (List UInt8)) :
    TinyrtcError × IceSession × List IceOutput :=
  match env.socket with
  | none => (.network, { ice with state := 2, gatheringComplete := true }, [])
  | some sock =>
      if !env.bindOk then (.network, { ice with state := 2, gatheringComplete := true }, [])
      else
        let ice := { ice with socket := some sock }
        let ice := env.interfaces.foldl
          (fun ice addr =>
            iceAddLocalCandidate ice (inetNtop addr) env.localPort
              (icePriorityHostMinus (ice.localCandidates.count * 10).toUInt32))
          ice
        let ice :=
          if ice.localCandidates.count = 0 then
            iceAddLocalCandidate ice (ascii "127.0.0.1") env.localPort icePriorityHost
          else ice
        let (ice, outputs) :=
          match stunUrl.bind fun url => parseStunUrl url 128 with
          | none => (ice, [])
          | some (host, port) => stunSendBindingRequest env ice host port
        (.ok, { ice with state := 2, gatheringComplete := true }, outputs)

/-- The fields that `ice_candidate_to_sdp` writes are all fields of the entry. -/
def iceCandidateToSdp (src : IceCandidateInternal) : SdpCandidate :=
  { foundation := CStr.strncpy (ascii "tiny")
    priority := src.priority
    ip := src.ip
    port := src.port
    type := CStr.strncpy
      (match src.type with
        | .host => ascii "host"
        | .srflx => ascii "srflx"
        | .relay => ascii "relay")
    protocol := src.protocol
    isIpv6 := src.isIpv6 }

def iceCandidateFromSdp (src : SdpCandidate) : IceCandidateInternal :=
  { type :=
      if src.type.bytes = ascii "host" then .host
      else if src.type.bytes = ascii "srflx" then .srflx
      else .relay
    priority := src.priority
    ip := src.ip
    port := src.port
    protocol := src.protocol
    isIpv6 := src.isIpv6
    selected := false }

def iceAddRemoteCandidate (ice : IceSession) (sdpCand : SdpCandidate) :
    TinyrtcError × IceSession :=
  if ice.remoteCandidates.count ≥ iceMaxCandidates then (.error, ice)
  else if !strcaseEq sdpCand.protocol.bytes (ascii "udp") then (.ok, ice)
  else
    match ice.remoteCandidates.push? (iceCandidateFromSdp sdpCand) with
    | none => (.error, ice)
    | some remoteCandidates =>
        let remoteIdx := ice.remoteCandidates.count
        let ice := { ice with remoteCandidates := remoteCandidates }
        (.ok, iceAddCheckPairs ice
          ((List.range ice.localCandidates.count).map fun i => (i, remoteIdx)))

def IceSession.remoteOf (ice : IceSession) (pair : IceCheckPair) : IceCandidateInternal :=
  (ice.remoteCandidates.items[pair.remoteIdx]?).getD .zero

def IceSession.localOf (ice : IceSession) (pair : IceCheckPair) : IceCandidateInternal :=
  (ice.localCandidates.items[pair.localIdx]?).getD .zero

def IceSession.isFrom (ice : IceSession) (pair : IceCheckPair) (source : SockAddr) : Bool :=
  (ice.remoteOf pair).port == source.port && (ice.remoteOf pair).ip.bytes == inetNtop source.addr

/-- The loop over the pairs for a binding request: every pair with that remote has
succeeded. -/
def iceMarkSource (ice : IceSession) (source : SockAddr) : IceSession :=
  { ice with
    checkPairs := ice.checkPairs.mapItems
      (List.map fun pair => if ice.isFrom pair source then { pair with succeeded := true } else pair)
      fun _ => List.length_map _ }

/-- The test of a pair in the loop for a binding response. -/
def IceCheckPair.matches (transactionId : List UInt8) (pair : IceCheckPair) : Bool :=
  pair.lastTransactionIdValid && pair.lastTransactionId == transactionId

/-- The first pair that passes the test has succeeded. -/
def markFirst (transactionId : List UInt8) : List IceCheckPair → List IceCheckPair
  | [] => []
  | pair :: pairs =>
      if pair.matches transactionId then { pair with succeeded := true } :: pairs
      else pair :: markFirst transactionId pairs

@[simp] theorem markFirst_length (transactionId : List UInt8) (pairs : List IceCheckPair) :
    (markFirst transactionId pairs).length = pairs.length := by
  induction pairs with
  | nil => rfl
  | cons pair pairs ih =>
      rw [markFirst]
      split
      · rfl
      · simp [ih]

theorem markFirst_getElem? (transactionId : List UInt8) (pairs : List IceCheckPair) (i : Nat) :
    (markFirst transactionId pairs)[i]? =
      pairs[i]?.map fun pair =>
        if pairs.findIdx? (·.matches transactionId) = some i then { pair with succeeded := true }
        else pair := by
  induction pairs generalizing i with
  | nil => rfl
  | cons head pairs ih =>
      rw [markFirst, List.findIdx?_cons]
      by_cases hmatch : head.matches transactionId = true
      · rw [if_pos hmatch, if_pos hmatch]
        cases i with
        | zero => rfl
        | succ i => simp
      · rw [if_neg hmatch, if_neg hmatch]
        cases i with
        | zero => simp
        | succ i =>
            rw [List.getElem?_cons_succ, List.getElem?_cons_succ, ih]
            simp

def iceMarkResponse (ice : IceSession) (transactionId : List UInt8) : IceSession :=
  if ice.stunServerTransactionIdValid && ice.stunServerTransactionId == transactionId then ice
  else
    { ice with
      checkPairs := ice.checkPairs.mapItems (markFirst transactionId) (markFirst_length _) }

/-- A mapped address becomes a server-reflexive candidate, if there is room. -/
def iceAddReflexiveCandidate (peer : IcePeer) (ice : IceSession) (mapped : MappedAddress) :
    IceSession × List IceOutput :=
  let cand : IceCandidateInternal :=
    { type := .srflx
      priority := iceCalculatePriority .srflx
      ip := CStr.strncpy mapped.addr
      port := mapped.port
      protocol := CStr.strncpy (ascii "udp")
      isIpv6 := mapped.addr.contains 0x3A
      selected := false }
  match ice.localCandidates.push? cand with
  | none => (ice, [])
  | some localCandidates =>
      let localIdx := ice.localCandidates.count
      (iceAddCheckPairsForLocalCandidate { ice with localCandidates := localCandidates } localIdx,
        if peer.onIceCandidate then [.candidate (iceCandidateToSdp cand)] else [])

/-- The result says whether the datagram is media, the source's 1. -/
def iceProcessPacket (crypto : Crypto) (peer : IcePeer) (ice : IceSession)
    (datagram : Datagram) : Bool × IceSession × List IceOutput :=
  if datagram.bytes.length < 8 then (true, ice, [])
  else if stunRead32 datagram.byteAt 4 ≠ stunMagicCookie then (true, ice, [])
  else
    let msgType := stunRead16 datagram.byteAt 0
    let transactionId := transactionIdAt datagram.byteAt
    if msgType = stunBindingRequest then
      let response := stunCreateBindingResponse crypto 512 transactionId (some datagram.source)
        peer.localPwd.bytes
      (false, iceMarkSource ice datagram.source, [.bindingResponse datagram.source response])
    else
      let ice := if msgType = stunBindingResponse then iceMarkResponse ice transactionId else ice
      -- The port is not initialised; it is read only when an attribute has set it.
      match stunProcessResponse datagram.byteAt datagram.bytes.length ⟨[], 0, false⟩ 64 with
      | (.ok, mapped) =>
          if mapped.addr ≠ [] then
            let (ice, outputs) := iceAddReflexiveCandidate peer ice mapped
            (false, ice, outputs)
          else (false, ice, [])
      | (_, _) => (false, ice, [])

/-- The binding request that is sent for a pair, up to its integrity attributes. -/
def connectivityCheck (peer : IcePeer) (clock : UInt64) (priority : UInt32) : List UInt8 :=
  let username := peer.remoteUfrag.bytes ++ ascii ":" ++ peer.localUfrag.bytes
  stunHeader stunBindingRequest (stunTransactionId clock) ++
    stunAttrHeader stunAttrUsername username.length.toUInt16 ++ username ++
    List.replicate ((4 - username.length % 4) % 4) 0x00 ++
    stunAttrHeader (if peer.isInitiator then 0x802A else 0x8029) 8 ++ write64 clock ++
    stunAttrHeader stunAttrPriority 4 ++ write32 priority

/-- One turn of the checking loop. `clock` is the time that the turn reads; an IP
text that `inet_pton` rejects leaves the address zero. -/
def iceCheckPair (crypto : Crypto) (peer : IcePeer) (ice : IceSession) (now clock : UInt64)
    (pair : IceCheckPair) : IceCheckPair × Option (SockAddr × List UInt8) :=
  if !pair.succeeded && (pair.lastPingMs == 0 || now - pair.lastPingMs > iceRetryMs) then
    let remote := ice.remoteOf pair
    let dest : SockAddr := ⟨(inetPton remote.ip.bytes).getD 0, remote.port⟩
    let sent :=
      match stunFinalizeMessage crypto
          (connectivityCheck peer clock (ice.localOf pair).priority) 512 peer.remotePwd.bytes with
      | .ok message => some (dest, message)
      | .error _ => none
    ({ pair with
        lastPingMs := now
        lastTransactionId := stunTransactionId clock
        lastTransactionIdValid := true }, sent)
  else (pair, none)

/-- The checking loop; `clock i` is the time that turn `i` reads. -/
def iceSendChecks (crypto : Crypto) (peer : IcePeer) (ice : IceSession) (now : UInt64)
    (clock : Nat → UInt64) : IceSession × List IceOutput :=
  let checkAt := fun i pair => iceCheckPair crypto peer ice now (clock i) pair
  ({ ice with
      checkPairs := ice.checkPairs.mapItems (List.mapIdx fun i pair => (checkAt i pair).1)
        fun _ => List.length_mapIdx },
    (ice.checkPairs.items.mapIdx fun i pair =>
      ((checkAt i pair).2.map fun sent => IceOutput.check i sent.1 sent.2).toList).flatten)

/-- The selecting loop: the first pair that has succeeded, if none is selected
yet. -/
def iceSelectPair (ice : IceSession) : IceSession :=
  match ice.selectedPair with
  | some _ => ice
  | none =>
      match ice.checkPairs.items.findIdx? (·.succeeded) with
      | none => ice
      | some i =>
          let localIdx := ((ice.checkPairs.items[i]?).getD (.fresh 0 0)).localIdx
          { ice with
            selectedPair := some i
            state := 4
            localCandidates := ice.localCandidates.mapItems
              (fun cands => cands.modify localIdx fun cand => { cand with selected := true })
              fun _ => List.length_modify _ _ _ }

def iceCheckConnectivity (crypto : Crypto) (peer : IcePeer) (ice : IceSession) (now : UInt64)
    (clock : Nat → UInt64) : IceSession × List IceOutput :=
  if ice.state < 2 then (ice, [])
  else
    let ice := if ice.state = 2 then { ice with state := 3 } else ice
    let (ice, outputs) := iceSendChecks crypto peer ice now clock
    (iceSelectPair ice, outputs)

def iceIsConnected (ice : IceSession) : Bool :=
  match ice.selectedPair.bind fun i => ice.checkPairs.items[i]? with
  | none => false
  | some pair => pair.succeeded

end TinyRtc.Ice
