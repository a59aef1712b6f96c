import TinyRtc.LabelledRuns
import TinyRtc.ProcessEvents

namespace TinyRtc.SrtpRoundTrip

open TinyRtc.BigEndian
open TinyRtc.Common
open TinyRtc.Connection
open TinyRtc.CounterMode
open TinyRtc.Dtls
open TinyRtc.LabelledRuns
open TinyRtc.ProcessEvents
open TinyRtc.Sdp
open TinyRtc.Srtp

theorem foldl_or_replicate_zero (n : Nat) (acc : UInt8) :
    (List.replicate n (0 : UInt8)).foldl (· ||| ·) acc = acc := by
  induction n with
  | zero => rfl
  | succ n ih => rw [List.replicate_succ, List.foldl_cons, UInt8.or_zero, ih]

@[simp] theorem timingsafeBcmp_self (b : List UInt8) : timingsafeBcmp b b = 0 := by
  have hzeros : List.zipWith (· ^^^ ·) b b = List.replicate b.length 0 := by
    induction b with
    | nil => rfl
    | cons c b ih => rw [List.zipWith_cons_cons, ih, UInt8.xor_self, List.length_cons,
        List.replicate_succ]
  rw [timingsafeBcmp, hzeros, foldl_or_replicate_zero]

theorem srtpGenerateAuth_length (crypto : Crypto) (srtp : SrtpContext) (packet : List UInt8) :
    (srtpGenerateAuth crypto srtp packet).length = srtpAuthTagLen := by
  rw [srtpGenerateAuth, List.length_take, List.length_ofFn]
  rfl

/-- The tag that is put behind a packet passes the check, under any context with
the same key. -/
theorem srtpVerifyAuth_generate {crypto : Crypto} {sender receiver : SrtpContext}
    (hkey : sender.key = receiver.key) (packet rest : List UInt8) :
    srtpVerifyAuth crypto receiver packet (srtpGenerateAuth crypto sender packet ++ rest) =
      true := by
  have htag : (srtpGenerateAuth crypto sender packet ++ rest).take srtpAuthTagLen =
      srtpGenerateAuth crypto sender packet :=
    List.take_left' (srtpGenerateAuth_length _ _ _)
  rw [srtpVerifyAuth, htag, srtpGenerateAuth, hkey, timingsafeBcmp_self]
  rfl

theorem srtpDeriveKey_congr (crypto : Crypto) {sender receiver : SrtpContext}
    (hkey : sender.key = receiver.key) (hsalt : sender.salt = receiver.salt) (ssrc : UInt32) :
    srtpDeriveKey crypto sender ssrc = srtpDeriveKey crypto receiver ssrc := by
  rw [srtpDeriveKey, srtpDeriveKey, hkey, hsalt]

theorem packetSsrc_congr {first second : List UInt8}
    (h : first.take headerLen = second.take headerLen) : packetSsrc first = packetSsrc second := by
  have hbyte : ∀ i < headerLen, first.getD i 0 = second.getD i 0 := by
    intro i hi
    rw [List.getD_eq_getElem?_getD, List.getD_eq_getElem?_getD, ← List.getElem?_take_of_lt hi, h,
      List.getElem?_take_of_lt hi]
  rw [packetSsrc, packetSsrc, hbyte 8 (by decide), hbyte 9 (by decide), hbyte 10 (by decide),
    hbyte 11 (by decide)]

theorem cryptPayload_length (crypto : Crypto) (key : Bytes 16) (salt : Bytes 14)
    (payload : List UInt8) : (cryptPayload crypto key salt payload).2.length = payload.length :=
  ctr_length _ (fun _ => List.length_ofFn) (by omega) (Nat.le_refl _) _

theorem cryptPayload_cryptPayload (crypto : Crypto) (key : Bytes 16) (salt : Bytes 14)
    (payload : List UInt8) :
    (cryptPayload crypto key salt (cryptPayload crypto key salt payload).2).2 = payload := by
  have hlen := cryptPayload_length crypto key salt payload
  rw [cryptPayload, hlen, cryptPayload,
    ctr_ctr _ (fun _ => List.length_ofFn) (by omega) (Nat.le_refl _)]

/-- What `srtp_encrypt_packet` on the sender's side and `srtp_decrypt_packet` on
the receiver's promise about a packet of `len` bytes in a buffer of `maxLen`. The
buffer in which the packet is received may hold anything behind it. -/
def RoundTrips (crypto : Crypto) (sender receiver : SrtpContext) (packet : List UInt8)
    (len maxLen : Nat) : Prop :=
  ∃ sent, srtpEncryptPacket crypto sender packet len maxLen = some sent ∧ sent.error = .ok ∧
    sent.len = len + srtpAuthTagLen ∧ sent.packet.length = packet.length ∧
    sent.packet.take headerLen = packet.take headerLen ∧
    sent.packet.drop (len + srtpAuthTagLen) = packet.drop (len + srtpAuthTagLen) ∧
    ∀ received, received.take (len + srtpAuthTagLen) = sent.packet.take (len + srtpAuthTagLen) →
      (srtpDecryptPacket crypto receiver received (len + srtpAuthTagLen)).error = .ok ∧
        (srtpDecryptPacket crypto receiver received (len + srtpAuthTagLen)).len = len ∧
        (srtpDecryptPacket crypto receiver received (len + srtpAuthTagLen)).packet.take len =
          packet.take len

/-- The receiving half: a protected packet under the same key and salt. -/
theorem srtpDecryptPacket_protected (crypto : Crypto) {sender receiver : SrtpContext}
    (hkey : sender.key = receiver.key) (hsalt : sender.salt = receiver.salt)
    {header : List UInt8} (hheader : header.length = headerLen) (payload received : List UInt8)
    (h : received.take (headerLen + payload.length + srtpAuthTagLen) =
      header ++ (cryptPayload crypto (srtpDeriveKey crypto sender (packetSsrc header)) sender.salt
          payload).2 ++
        srtpGenerateAuth crypto sender (header ++ (cryptPayload crypto
          (srtpDeriveKey crypto sender (packetSsrc header)) sender.salt payload).2)) :
    (srtpDecryptPacket crypto receiver received
        (headerLen + payload.length + srtpAuthTagLen)).error = .ok ∧
      (srtpDecryptPacket crypto receiver received
        (headerLen + payload.length + srtpAuthTagLen)).len = headerLen + payload.length ∧
      (srtpDecryptPacket crypto receiver received
        (headerLen + payload.length + srtpAuthTagLen)).packet.take (headerLen + payload.length) =
          header ++ payload := by
  have hcrypted := cryptPayload_length crypto
    (srtpDeriveKey crypto sender (packetSsrc header)) sender.salt payload
  have hinverse := cryptPayload_cryptPayload crypto
    (srtpDeriveKey crypto sender (packetSsrc header)) sender.salt payload
  generalize hc : (cryptPayload crypto (srtpDeriveKey crypto sender (packetSsrc header))
    sender.salt payload).2 = crypted at h hcrypted hinverse
  have hprotected : (header ++ crypted).length = headerLen + payload.length := by
    rw [List.length_append, hheader, hcrypted]
  -- The buffer starts with the header, the crypted payload and the tag.
  have hsplit : received = (header ++ crypted) ++ (srtpGenerateAuth crypto sender
      (header ++ crypted) ++ received.drop (headerLen + payload.length + srtpAuthTagLen)) := by
    rw [← List.append_assoc, ← h, List.take_append_drop]
  have htake : received.take (headerLen + payload.length) = header ++ crypted := by
    rw [hsplit]
    exact List.take_left' hprotected
  have hdrop : received.drop (headerLen + payload.length) = srtpGenerateAuth crypto sender
      (header ++ crypted) ++ received.drop (headerLen + payload.length + srtpAuthTagLen) := by
    conv_lhs => rw [hsplit]
    exact List.drop_left' hprotected
  have hfront : received.take headerLen = header := by
    rw [hsplit, List.append_assoc]
    exact List.take_left' hheader
  have hssrc : packetSsrc received = packetSsrc header := by
    apply packetSsrc_congr
    rw [hfront, List.take_of_length_le (Nat.le_of_eq hheader)]
  have hdecrypt : srtpDecryptPacket crypto receiver received
      (headerLen + payload.length + srtpAuthTagLen) =
        { error := .ok
          srtp := { receiver with roc := receiver.roc + 1 }
          packet := header ++ payload ++ received.drop (headerLen + payload.length)
          len := headerLen + payload.length
          aesInputs := (cryptPayload crypto (srtpDeriveKey crypto receiver (packetSsrc header))
            receiver.salt crypted).1.map fun block =>
              (srtpDeriveKey crypto receiver (packetSsrc header), block) } := by
    have hnotShort : ¬ headerLen + payload.length + srtpAuthTagLen < headerLen + srtpAuthTagLen := by
      omega
    rw [srtpDecryptPacket, if_neg hnotShort]
    simp only [Nat.add_sub_cancel, htake, hdrop, srtpVerifyAuth_generate hkey, hssrc, hfront,
      List.drop_left' hheader]
    rw [← srtpDeriveKey_congr crypto hkey hsalt, ← hsalt, hinverse]
    rfl
  rw [hdecrypt]
  refine ⟨rfl, rfl, List.take_left' ?_⟩
  rw [List.length_append, hheader]

theorem roundTrips_of_same_keys {crypto : Crypto} {sender receiver : SrtpContext}
    (hkey : sender.key = receiver.key) (hsalt : sender.salt = receiver.salt)
    {packet : List UInt8} {len maxLen : Nat} (hlen : headerLen ≤ len)
    (hmax : len + srtpAuthTagLen ≤ maxLen) (hpacket : maxLen ≤ packet.length) :
    RoundTrips crypto sender receiver packet len maxLen := by
  obtain ⟨sent, hsent, hok, -, hsentLen, hsentPacket⟩ :=
    srtpEncryptPacket_of_fits crypto sender packet hlen hmax
  have hheader : (packet.take headerLen).length = headerLen := by
    rw [List.length_take]
    omega
  have hpayload : ((packet.take len).drop headerLen).length = len - headerLen := by
    rw [List.length_drop, List.length_take]
    omega
  have hwhole : packet.take headerLen ++ (packet.take len).drop headerLen = packet.take len := by
    conv_rhs => rw [← List.take_append_drop headerLen (packet.take len)]
    rw [List.take_take, Nat.min_eq_left hlen]
  have hssrc : packetSsrc packet = packetSsrc (packet.take headerLen) := by
    apply packetSsrc_congr
    rw [List.take_take, Nat.min_self]
  rw [hssrc] at hsentPacket
  generalize hpart : packet.take headerLen ++ (cryptPayload crypto
    (srtpDeriveKey crypto sender (packetSsrc (packet.take headerLen))) sender.salt
      ((packet.take len).drop headerLen)).2 = part at hsentPacket
  have hpartLen : part.length = len := by
    rw [← hpart, List.length_append, cryptPayload_length, hheader, hpayload]
    omega
  have hprotectedLen : (part ++ srtpGenerateAuth crypto sender part).length =
      len + srtpAuthTagLen := by
    rw [List.length_append, hpartLen, srtpGenerateAuth_length]
  refine ⟨sent, hsent, hok, hsentLen, ?_, ?_, ?_, ?_⟩
  · rw [hsentPacket, List.length_append, hprotectedLen, List.length_drop]
    omega
  · rw [hsentPacket, ← hpart, List.append_assoc, List.append_assoc]
    exact List.take_left' hheader
  · rw [hsentPacket]
    exact List.drop_left' hprotectedLen
  · intro received hreceived
    rw [hsentPacket, List.take_left' hprotectedLen] at hreceived
    have hsum : headerLen + ((packet.take len).drop headerLen).length = len := by
      rw [hpayload]
      omega
    have hdecrypted := srtpDecryptPacket_protected crypto hkey hsalt hheader
      ((packet.take len).drop headerLen) received
    rw [hsum, hwhole, hpart] at hdecrypted
    exact hdecrypted hreceived

inductive SrtpCall where
  | encrypt (packet : List UInt8) (len maxLen : Nat)
  | decrypt (packet : List UInt8) (len : Nat)

def srtpCall (crypto : Crypto) (srtp : SrtpContext) : SrtpCall → Option SrtpContext
  | .encrypt packet len maxLen => (srtpEncryptPacket crypto srtp packet len maxLen).map (·.srtp)
  | .decrypt packet len => some (srtpDecryptPacket crypto srtp packet len).srtp

def SrtpStep (crypto : Crypto) (srtp : SrtpContext) (call : SrtpCall) (srtp' : SrtpContext) :
    Prop :=
  srtpCall crypto srtp call = some srtp'

theorem srtpStep_keys {crypto : Crypto} {srtp srtp' : SrtpContext} {call : SrtpCall}
    (h : SrtpStep crypto srtp call srtp') : srtp'.key = srtp.key ∧ srtp'.salt = srtp.salt := by
  cases call with
  | encrypt packet len maxLen =>
      simp only [SrtpStep, srtpCall, Option.map_eq_some_iff] at h
      obtain ⟨result, hresult, rfl⟩ := h
      rw [srtpEncryptPacket] at hresult
      split at hresult
      · cases hresult
        exact ⟨rfl, rfl⟩
      · split at hresult
        · cases hresult
        · cases hresult
          exact ⟨rfl, rfl⟩
  | decrypt packet len =>
      simp only [SrtpStep, srtpCall, Option.some.injEq] at h
      rw [← h, srtpDecryptPacket]
      split
      · exact ⟨rfl, rfl⟩
      · dsimp only
        split <;> exact ⟨rfl, rfl⟩

theorem run_keys {crypto : Crypto} {srtp srtp' : SrtpContext} {calls : List SrtpCall}
    (hrun : Run (SrtpStep crypto) srtp calls srtp') :
    srtp'.key = srtp.key ∧ srtp'.salt = srtp.salt := by
  refine hrun.invariant (I := fun s => s.key = srtp.key ∧ s.salt = srtp.salt) ?_ ⟨rfl, rfl⟩
  intro s call s' hs hstep
  obtain ⟨hkey, hsalt⟩ := srtpStep_keys hstep
  exact ⟨hkey.trans hs.1, hsalt.trans hs.2⟩

section

variable (crypto : Crypto) (hostOrder : UInt32 → List UInt8) {secret : Bytes 48}

/-- A connection whose handshake has captured this master secret. -/
def HasSecret (pc : PeerConnection) (secret : Bytes 48) : Prop :=
  ∃ dtls, pc.dtls = some dtls ∧ dtls.masterSecret = some secret

def setupEnv : SrtpSetupEnv :=
  ⟨true, true, true⟩

theorem pcInitializeSrtpAfterDtls_ok {pc : PeerConnection} (h : HasSecret pc secret) :
    (pcInitializeSrtpAfterDtls crypto hostOrder setupEnv pc).1 = .ok ∧
      (pcInitializeSrtpAfterDtls crypto hostOrder setupEnv pc).2.srtp =
        some (if pc.config.isInitiator then
            srtpInit (srtpKeysOfSecret crypto hostOrder secret).clientKey
              (srtpKeysOfSecret crypto hostOrder secret).clientSalt
          else
            srtpInit (srtpKeysOfSecret crypto hostOrder secret).serverKey
              (srtpKeysOfSecret crypto hostOrder secret).serverSalt) ∧
      (pcInitializeSrtpAfterDtls crypto hostOrder setupEnv pc).2.srtpRx =
        some (if pc.config.isInitiator then
            srtpInit (srtpKeysOfSecret crypto hostOrder secret).serverKey
              (srtpKeysOfSecret crypto hostOrder secret).serverSalt
          else
            srtpInit (srtpKeysOfSecret crypto hostOrder secret).clientKey
              (srtpKeysOfSecret crypto hostOrder secret).clientSalt) := by
  obtain ⟨dtls, hdtls, hsecret⟩ := h
  have hderive : dtlsDeriveSrtpKeys crypto hostOrder true dtls =
      .ok (srtpKeysOfSecret crypto hostOrder secret) := by
    rw [dtlsDeriveSrtpKeys, hsecret]
    rfl
  simp only [pcInitializeSrtpAfterDtls, hdtls, setupEnv, hderive]
  exact ⟨rfl, rfl, rfl⟩

/-- The send context of one peer has the keys of the receive context of the
other. -/
theorem pcInitializeSrtpAfterDtls_peers {a b : PeerConnection} (ha : HasSecret a secret)
    (hb : HasSecret b secret) (hroles : b.config.isInitiator = !a.config.isInitiator) :
    ∃ srtp, (pcInitializeSrtpAfterDtls crypto hostOrder setupEnv a).2.srtp = some srtp ∧
      (pcInitializeSrtpAfterDtls crypto hostOrder setupEnv b).2.srtpRx = some srtp := by
  obtain ⟨-, hsrtp, -⟩ := pcInitializeSrtpAfterDtls_ok crypto hostOrder ha
  obtain ⟨-, -, hsrtpRx⟩ := pcInitializeSrtpAfterDtls_ok crypto hostOrder hb
  refine ⟨_, hsrtp, ?_⟩
  rw [hsrtpRx, hroles]
  cases a.config.isInitiator with
  | true => rfl
  | false => rfl

/-- After the set-up on both sides, every packet of the sender reaches the receiver,
whatever either context has processed before. -/
theorem srtp_endToEnd {a b : PeerConnection} (ha : HasSecret a secret) (hb : HasSecret b secret)
    (hroles : b.config.isInitiator = !a.config.isInitiator) :
    (pcInitializeSrtpAfterDtls crypto hostOrder setupEnv a).1 = .ok ∧
      (pcInitializeSrtpAfterDtls crypto hostOrder setupEnv b).1 = .ok ∧
      ∃ srtp srtpRx, (pcInitializeSrtpAfterDtls crypto hostOrder setupEnv a).2.srtp = some srtp ∧
        (pcInitializeSrtpAfterDtls crypto hostOrder setupEnv b).2.srtpRx = some srtpRx ∧
        ∀ sentBefore receivedBefore sender receiver, Run (SrtpStep crypto) srtp sentBefore sender →
          Run (SrtpStep crypto) srtpRx receivedBefore receiver →
          ∀ packet len maxLen, headerLen ≤ len → len + srtpAuthTagLen ≤ maxLen →
            maxLen ≤ packet.length → RoundTrips crypto sender receiver packet len maxLen := by
  obtain ⟨srtp, hsrtp, hsrtpRx⟩ := pcInitializeSrtpAfterDtls_peers crypto hostOrder ha hb hroles
  refine ⟨(pcInitializeSrtpAfterDtls_ok crypto hostOrder ha).1,
    (pcInitializeSrtpAfterDtls_ok crypto hostOrder hb).1, srtp, srtp, hsrtp, hsrtpRx, ?_⟩
  intro sentBefore receivedBefore sender receiver hsent hreceived packet len maxLen hlen hmax hpacket
  obtain ⟨hsenderKey, hsenderSalt⟩ := run_keys hsent
  obtain ⟨hreceiverKey, hreceiverSalt⟩ := run_keys hreceived
  exact roundTrips_of_same_keys (hsenderKey.trans hreceiverKey.symm)
    (hsenderSalt.trans hreceiverSalt.symm) hlen hmax hpacket

end

/-- A connection that has captured an all-zero master secret. -/
def sampleConnection (isInitiator : Bool) : PeerConnection :=
  { tinyrtcPeerConnectionCreate ⟨none, ⟨false, false, false, false, false⟩, isInitiator⟩ with
    dtls := some
      { role := if isInitiator then .client else .server
        fingerprint := .empty
        transport := none
        isOver := true
        peerCertificate := none
        handshakeComplete := true
        masterSecret := some fun _ => 0 } }

theorem sampleConnection_hasSecret (isInitiator : Bool) :
    HasSecret (sampleConnection isInitiator) fun _ => 0 :=
  ⟨_, rfl, rfl⟩

theorem srtp_endToEnd_sampleConnection :
    ∃ srtp srtpRx,
      (pcInitializeSrtpAfterDtls toyCrypto write32 setupEnv (sampleConnection true)).2.srtp =
        some srtp ∧
      (pcInitializeSrtpAfterDtls toyCrypto write32 setupEnv (sampleConnection false)).2.srtpRx =
        some srtpRx ∧
      RoundTrips toyCrypto srtp srtpRx (List.replicate 23 0x55) 13 23 := by
  obtain ⟨-, -, srtp, srtpRx, hsrtp, hsrtpRx, hroundTrips⟩ := srtp_endToEnd toyCrypto write32
    (sampleConnection_hasSecret true) (sampleConnection_hasSecret false) rfl
  refine ⟨srtp, srtpRx, hsrtp, hsrtpRx, ?_⟩
  exact hroundTrips [] [] srtp srtpRx (.nil srtp) (.nil srtpRx) _ 13 23 (by decide) (by decide)
    (by decide)

end TinyRtc.SrtpRoundTrip
