import Mathlib.Data.FinEnum
import Mathlib.Data.List.Nodup
import TinyRtc.LabelledRuns
import TinyRtc.Srtp

namespace TinyRtc.SrtpKeystream

open TinyRtc.BigEndian
open TinyRtc.Common
open TinyRtc.CounterMode
open TinyRtc.LabelledRuns
open TinyRtc.Srtp

/-- The number in the bytes `8` to `8 + n - 1` of a counter block. -/
def counterValue : (n : Nat) → Bytes 16 → Nat
  | 0, _ => 0
  | n + 1, block => counterValue n block * 256 + (block (Fin.ofNat 16 (8 + n))).toNat

theorem index_ne {m n : Nat} (hm : m < n) (hn : n < 8) :
    Fin.ofNat 16 (8 + m) ≠ Fin.ofNat 16 (8 + n) := by
  intro h
  have hval := congrArg Fin.val h
  simp only [Fin.val_ofNat] at hval
  omega

theorem counterValue_update {m n : Nat} (hm : m ≤ n) (hn : n < 8) (block : Bytes 16)
    (byte : UInt8) :
    counterValue m (Function.update block (Fin.ofNat 16 (8 + n)) byte) = counterValue m block := by
  induction m with
  | zero => rfl
  | succ m ih =>
      rw [counterValue, counterValue, ih (by omega),
        Function.update_of_ne (index_ne (by omega) hn)]

theorem incrementLoop_apply {m n : Nat} (hm : m ≤ n) (hn : n < 8) (block : Bytes 16) :
    incrementLoop m block (Fin.ofNat 16 (8 + n)) = block (Fin.ofNat 16 (8 + n)) := by
  induction m generalizing block with
  | zero => rfl
  | succ m ih =>
      rw [incrementLoop]
      split
      · exact Function.update_of_ne (index_ne (by omega) hn).symm _ _
      · rw [ih (by omega), Function.update_of_ne (index_ne (by omega) hn).symm]

theorem toNat_add_one : ∀ byte : UInt8,
    (byte + 1 ≠ 0 → (byte + 1).toNat = byte.toNat + 1) ∧ (byte + 1 = 0 → byte.toNat = 255) := by
  decide +kernel

theorem counterValue_lt (n : Nat) (block : Bytes 16) : counterValue n block < 256 ^ n := by
  induction n with
  | zero => simp [counterValue]
  | succ n ih =>
      have hbyte := (block (Fin.ofNat 16 (8 + n))).toNat_lt
      rw [counterValue, Nat.pow_succ]
      omega

/-- The increment loop adds one to the number, modulo its range. -/
theorem counterValue_incrementLoop {n : Nat} (hn : n ≤ 8) (block : Bytes 16) :
    counterValue n (incrementLoop n block) = (counterValue n block + 1) % 256 ^ n := by
  induction n generalizing block with
  | zero => simp [counterValue]
  | succ n ih =>
      have hlt := counterValue_lt n block
      obtain ⟨hcarry, hwrap⟩ := toNat_add_one (block (Fin.ofNat 16 (8 + n)))
      rw [incrementLoop]
      simp only [Function.update_self]
      split
      · rename_i hne
        have hbyte := (block (Fin.ofNat 16 (8 + n)) + 1).toNat_lt
        rw [hcarry hne] at hbyte
        rw [counterValue, counterValue_update (Nat.le_refl n) (by omega), Function.update_self,
          hcarry hne, counterValue, Nat.pow_succ, Nat.mod_eq_of_lt (by omega)]
        omega
      · rename_i hzero
        have hzero' : block (Fin.ofNat 16 (8 + n)) + 1 = 0 := by simpa using hzero
        have hdigit : (0 : UInt8).toNat = 0 := rfl
        have hsum : counterValue n block * 256 + 255 + 1 = (counterValue n block + 1) * 256 := by
          omega
        rw [counterValue, ih (by omega), incrementLoop_apply (Nat.le_refl n) (by omega),
          Function.update_self, counterValue_update (Nat.le_refl n) (by omega), hzero', hdigit,
          counterValue, hwrap hzero', hsum, Nat.add_zero, Nat.pow_succ, Nat.mul_mod_mul_right]

theorem counterValue_iterate (block : Bytes 16) (i : Nat) :
    counterValue 8 (incrementCounter^[i] block) = (counterValue 8 block + i) % 256 ^ 8 := by
  induction i with
  | zero =>
      rw [Function.iterate_zero, id, Nat.add_zero, Nat.mod_eq_of_lt (counterValue_lt 8 block)]
  | succ i ih =>
      rw [Function.iterate_succ_apply', incrementCounter,
        counterValue_incrementLoop (Nat.le_refl 8), ih]
      omega

theorem iterate_injOn {block : Bytes 16} {i j : Nat} (hi : i < 2 ^ 64) (hj : j < 2 ^ 64)
    (h : incrementCounter^[i] block = incrementCounter^[j] block) : i = j := by
  have hvalue := congrArg (counterValue 8) h
  rw [counterValue_iterate, counterValue_iterate] at hvalue
  omega

theorem xorSalt_injective (salt : Bytes 14) : Function.Injective (xorSalt salt) := by
  intro first second h
  funext i
  have hi := congrFun h i
  simp only [xorSalt] at hi
  split at hi
  · exact (UInt8.xor_left_inj _).mp hi
  · exact hi

theorem ssrcBlock_injective : Function.Injective ssrcBlock := by
  intro first second h
  have h12 : (first >>> 24).toUInt8 = (second >>> 24).toUInt8 := congrFun h 12
  have h13 : (first >>> 16).toUInt8 = (second >>> 16).toUInt8 := congrFun h 13
  have h14 : (first >>> 8).toUInt8 = (second >>> 8).toUInt8 := congrFun h 14
  have h15 : first.toUInt8 = second.toUInt8 := congrFun h 15
  rw [← read32_write32 first, h12, h13, h14, h15, read32_write32]

/-- A permutation for every key gives every SSRC its own session key. -/
theorem srtpDeriveKey_injective {crypto : Crypto}
    (haes : ∀ key, Function.Injective (crypto.aes key)) (srtp : SrtpContext) :
    Function.Injective (srtpDeriveKey crypto srtp) := by
  intro first second h
  exact ssrcBlock_injective (xorSalt_injective _ (haes _ h))

/-- A call of `srtp_encrypt_packet` on an array in memory. -/
structure EncryptCall where
  packet : List UInt8
  len : Nat
  maxLen : Nat
  len_le : len ≤ packet.length
  maxLen_le : maxLen ≤ packet.length
  size_lt : packet.length < 2 ^ 64

def packetSequence (packet : List UInt8) : UInt16 :=
  read16 (packet.getD 2 0) (packet.getD 3 0)

def EncryptStep (crypto : Crypto) (srtp : SrtpContext) (step : EncryptCall × SrtpResult)
    (srtp' : SrtpContext) : Prop :=
  srtpEncryptPacket crypto srtp step.1.packet step.1.len step.1.maxLen = some step.2 ∧
    step.2.error = .ok ∧ srtp' = step.2.srtp

def keystreamInputs (steps : List (EncryptCall × SrtpResult)) : List (Bytes 16 × Bytes 16) :=
  steps.flatMap fun step => step.2.aesInputs

/-- No two packets of the run have the same SSRC and sequence number. -/
def DistinctPackets (steps : List (EncryptCall × SrtpResult)) : Prop :=
  (steps.map fun step => (packetSsrc step.1.packet, packetSequence step.1.packet)).Nodup

/-- No two packets of the run that have a payload have the same SSRC. -/
def DistinctSsrcs (steps : List (EncryptCall × SrtpResult)) : Prop :=
  ((steps.filter fun step => headerLen < step.1.len).map fun step =>
    packetSsrc step.1.packet).Nodup

/-- The inputs of one call, by the session key and the position of the block. -/
def packetInputs (crypto : Crypto) (srtp : SrtpContext) (call : EncryptCall) :
    List (Bytes 16 × Bytes 16) :=
  (List.range ((call.len - headerLen + 15) / 16)).map fun i =>
    (srtpDeriveKey crypto srtp (packetSsrc call.packet),
      incrementCounter^[i] (firstCounterBlock srtp.salt))

theorem cryptPayload_inputs (crypto : Crypto) (key : Bytes 16) (salt : Bytes 14)
    (payload : List UInt8) :
    (cryptPayload crypto key salt payload).1 =
      (List.range ((payload.length + 15) / 16)).map fun i =>
        incrementCounter^[i] (firstCounterBlock salt) :=
  ctr_inputs incrementCounter (by decide) (Nat.le_refl _) _

theorem encryptStep_spec {crypto : Crypto} {srtp srtp' : SrtpContext}
    {step : EncryptCall × SrtpResult} (h : EncryptStep crypto srtp step srtp') :
    step.2.aesInputs = packetInputs crypto srtp step.1 ∧ srtp'.key = srtp.key ∧
      srtp'.salt = srtp.salt := by
  obtain ⟨call, result⟩ := step
  obtain ⟨hencrypt, hok, rfl⟩ := h
  simp only [srtpEncryptPacket] at hencrypt
  split at hencrypt
  · obtain rfl := Option.some.inj hencrypt
    cases hok
  · split at hencrypt
    · cases hencrypt
    · obtain rfl := Option.some.inj hencrypt
      refine ⟨?_, rfl, rfl⟩
      have hlen : ((call.packet.take call.len).drop headerLen).length = call.len - headerLen := by
        rw [List.length_drop, List.length_take, Nat.min_eq_left call.len_le]
      change List.map _ (cryptPayload _ _ _ _).1 = _
      rw [cryptPayload_inputs, hlen, List.map_map]
      rfl

theorem keystreamInputs_run {crypto : Crypto} {srtp srtp' : SrtpContext}
    {steps : List (EncryptCall × SrtpResult)} (hrun : Run (EncryptStep crypto) srtp steps srtp') :
    keystreamInputs steps = steps.flatMap fun step => packetInputs crypto srtp step.1 := by
  induction hrun with
  | nil srtp => rfl
  | cons hstep _ ih =>
      obtain ⟨hinputs, hkey, hsalt⟩ := encryptStep_spec hstep
      rw [keystreamInputs, List.flatMap_cons, List.flatMap_cons, hinputs]
      rw [keystreamInputs] at ih
      rw [ih]
      simp only [packetInputs, srtpDeriveKey, hkey, hsalt]

theorem packetInputs_nodup (crypto : Crypto) (srtp : SrtpContext) (call : EncryptCall) :
    (packetInputs crypto srtp call).Nodup := by
  have hsize := call.size_lt
  have hlen := call.len_le
  apply List.Nodup.map_on _ List.nodup_range
  intro i hi j hj h
  rw [List.mem_range] at hi hj
  exact iterate_injOn (by omega) (by omega) (Prod.mk.inj h).2

/-- The inputs of two calls meet, on their first block, exactly when both have a
payload and the same SSRC: nothing else about the packets goes into them. -/
theorem packetInputs_disjoint_iff {crypto : Crypto}
    (haes : ∀ key, Function.Injective (crypto.aes key)) (srtp : SrtpContext)
    (first second : EncryptCall) :
    List.Disjoint (packetInputs crypto srtp first) (packetInputs crypto srtp second) ↔
      ¬ (headerLen < first.len ∧ headerLen < second.len ∧
        packetSsrc first.packet = packetSsrc second.packet) := by
  constructor
  · rintro hdisjoint ⟨hfirst, hsecond, hssrc⟩
    have hhead : ∀ call : EncryptCall, headerLen < call.len →
        (srtpDeriveKey crypto srtp (packetSsrc call.packet), firstCounterBlock srtp.salt) ∈
          packetInputs crypto srtp call := by
      intro call hcall
      have hpieces : 0 < (call.len - headerLen + 15) / 16 := by omega
      rw [packetInputs, List.mem_map]
      exact ⟨0, List.mem_range.mpr hpieces, rfl⟩
    have hshared := hhead second hsecond
    rw [← hssrc] at hshared
    exact hdisjoint (hhead first hfirst) hshared
  · intro hno input hfirst hsecond
    obtain ⟨i, hi, rfl⟩ := List.mem_map.mp hfirst
    obtain ⟨j, hj, heq⟩ := List.mem_map.mp hsecond
    have hpos : ∀ call : EncryptCall, ∀ n ∈ List.range ((call.len - headerLen + 15) / 16),
        headerLen < call.len := by
      intro call n hn
      rw [List.mem_range] at hn
      by_contra hle
      rw [Nat.sub_eq_zero_of_le (by omega)] at hn
      omega
    exact hno ⟨hpos first i hi, hpos second j hj,
      (srtpDeriveKey_injective haes srtp (Prod.mk.inj heq).1).symm⟩

/-- The counter blocks depend on the salt alone and the session key on the SSRC
alone, so the keystream is fresh exactly when every SSRC is used for one payload
at most. -/
theorem keystreamInputs_nodup_iff {crypto : Crypto}
    (haes : ∀ key, Function.Injective (crypto.aes key)) {srtp srtp' : SrtpContext}
    {steps : List (EncryptCall × SrtpResult)} (hrun : Run (EncryptStep crypto) srtp steps srtp') :
    (keystreamInputs steps).Nodup ↔ DistinctSsrcs steps := by
  have hssrcs : DistinctSsrcs steps ↔ steps.Pairwise fun first second =>
      headerLen < first.1.len → headerLen < second.1.len →
        packetSsrc first.1.packet ≠ packetSsrc second.1.packet := by
    rw [DistinctSsrcs, List.Nodup, List.pairwise_map, List.pairwise_filter]
    simp only [decide_eq_true_eq]
  rw [keystreamInputs_run hrun, List.nodup_flatMap, hssrcs]
  constructor
  · rintro ⟨-, hpairwise⟩
    refine hpairwise.imp ?_
    intro first second hdisjoint hfirst hsecond hssrc
    exact (packetInputs_disjoint_iff haes srtp first.1 second.1).mp hdisjoint
      ⟨hfirst, hsecond, hssrc⟩
  · intro hpairwise
    refine ⟨fun step _ => packetInputs_nodup crypto srtp step.1, hpairwise.imp ?_⟩
    intro first second h
    apply (packetInputs_disjoint_iff haes srtp first.1 second.1).mpr
    rintro ⟨hfirst, hsecond, hssrc⟩
    exact h hfirst hsecond hssrc

theorem toyCrypto_injective (key : Bytes 16) : Function.Injective (toyCrypto.aes key) := by
  intro first second h
  funext i
  exact (UInt8.add_left_inj (key i)).mp (congrFun h i)

/-- A packet with forty bytes of payload, which take three blocks. -/
def sentPacket (sequence : UInt16) (ssrc : UInt32) : EncryptCall where
  packet := [0x80, 0x60] ++ write16 sequence ++ write32 9000 ++ write32 ssrc ++
    List.replicate 40 0x55 ++ List.replicate 10 0x00
  len := 52
  maxLen := 62
  len_le := by simp
  maxLen_le := by simp
  size_lt := by simp

def zeroContext : SrtpContext :=
  srtpInit (fun _ => 0) (fun _ => 0)

theorem encryptStep_sentPacket (srtp : SrtpContext) (sequence : UInt16) (ssrc : UInt32) :
    ∃ result, EncryptStep toyCrypto srtp (sentPacket sequence ssrc, result)
      { srtp with roc := srtp.roc + 1 } := by
  obtain ⟨result, hencrypt, hok, hsrtp, -⟩ :=
    srtpEncryptPacket_of_fits toyCrypto srtp (sentPacket sequence ssrc).packet
      (by decide : headerLen ≤ 52) (by decide : 52 + srtpAuthTagLen ≤ 62)
  exact ⟨result, hencrypt, hok, hsrtp.symm⟩

theorem run_sentPackets (ssrc ssrc' : UInt32) :
    ∃ first second, Run (EncryptStep toyCrypto) zeroContext
      [(sentPacket 7 ssrc, first), (sentPacket 8 ssrc', second)] { zeroContext with roc := 2 } := by
  obtain ⟨first, hfirst⟩ := encryptStep_sentPacket zeroContext 7 ssrc
  obtain ⟨second, hsecond⟩ := encryptStep_sentPacket { zeroContext with roc := 1 } 8 ssrc'
  exact ⟨first, second, .cons hfirst (.singleton hsecond)⟩

/-- The packets of two streams: all six blocks differ. -/
theorem keystreamInputs_nodup_iff_sentPacket :
    ∃ steps srtp', Run (EncryptStep toyCrypto) zeroContext steps srtp' ∧
      steps.map Prod.fst = [sentPacket 7 1, sentPacket 8 2] ∧
      (keystreamInputs steps).length = 6 ∧ (keystreamInputs steps).Nodup := by
  obtain ⟨first, second, hrun⟩ := run_sentPackets 1 2
  refine ⟨_, _, hrun, rfl, ?_, ?_⟩
  · rw [keystreamInputs_run hrun]
    simp [packetInputs, sentPacket, headerLen]
  · apply (keystreamInputs_nodup_iff toyCrypto_injective hrun).mpr
    change [packetSsrc (sentPacket 7 1).packet, packetSsrc (sentPacket 8 2).packet].Nodup
    decide

/-- Two packets of one stream with consecutive sequence numbers share their
keystream. -/
theorem keystreamInputs_reused :
    ∃ steps srtp', Run (EncryptStep toyCrypto) zeroContext steps srtp' ∧
      DistinctPackets steps ∧ ¬ (keystreamInputs steps).Nodup := by
  obtain ⟨first, second, hrun⟩ := run_sentPackets 0 0
  refine ⟨_, _, hrun, ?_, ?_⟩
  · change [(packetSsrc (sentPacket 7 0).packet, packetSequence (sentPacket 7 0).packet),
      (packetSsrc (sentPacket 8 0).packet, packetSequence (sentPacket 8 0).packet)].Nodup
    decide
  · rw [keystreamInputs_run hrun, List.nodup_flatMap]
    rintro ⟨-, hpairwise⟩
    have hdisjoint := (List.pairwise_cons.mp hpairwise).1 _ List.mem_cons_self
    exact (packetInputs_disjoint_iff toyCrypto_injective zeroContext (sentPacket 7 0)
      (sentPacket 8 0)).mp hdisjoint (by decide)

end TinyRtc.SrtpKeystream
