import TinyRtc.Jitter
import TinyRtc.LabelledRuns
import TinyRtc.SerialNumbers

namespace TinyRtc.JitterRuns

open TinyRtc.Common
open TinyRtc.Jitter
open TinyRtc.LabelledRuns
open TinyRtc.Rtp
open TinyRtc.SerialNumbers

/-- The calls on a jitter buffer. -/
inductive JitterCall where
  | add (mallocOk : Bool) (packet : List UInt8) (timestamp : UInt64)
  | get (maxLen : Nat) (currentTimeMs : UInt64)

inductive JitterResult where
  | added (result : TinyrtcError)
  | got (result : Except TinyrtcError (List UInt8))

/-- `none` for a buffer without slots. -/
def jitterCall (jb : JitterBuffer) : JitterCall → Option (JitterResult × JitterBuffer)
  | .add mallocOk packet timestamp =>
      (tinyrtcJitterBufferAddPacket mallocOk jb packet timestamp).map fun (result, jb) =>
        (.added result, jb)
  | .get maxLen currentTimeMs =>
      let (result, jb) := tinyrtcJitterBufferGetPacket jb maxLen currentTimeMs
      some (.got result, jb)

def JitterStep (jb : JitterBuffer) (label : JitterCall × JitterResult) (jb' : JitterBuffer) :
    Prop :=
  jitterCall jb label.1 = some (label.2, jb')

def held (jb : JitterBuffer) : List (List UInt8) :=
  jb.entries.map JitterEntry.packet

/-- What a call takes in. -/
def acceptedBy : JitterCall × JitterResult → List (List UInt8)
  | (.add _ packet _, .added .ok) => [packet]
  | _ => []

/-- What a call gives out. -/
def returnedBy : JitterCall × JitterResult → List (List UInt8)
  | (_, .got (.ok packet)) => [packet]
  | _ => []

/-- What a call drops: the first packet of a full buffer. -/
def evictedBy (jb : JitterBuffer) : JitterCall → List (List UInt8)
  | .add _ _ _ =>
      if jb.entries.length ≥ jb.config.bufferSize.toNat then (held jb).take 1 else []
  | .get _ _ => []

/-- The sequence number of a packet that has an RTP header. -/
def sequenceOf (packet : List UInt8) : Option UInt16 :=
  (tinyrtcRtpParseHeader packet).map RtpHeader.sequence

/-- What has become of the packets of a run. -/
structure PacketLog where
  accepted : List (List UInt8)
  returned : List (List UInt8)
  evicted : List (List UInt8)

def PacketLog.empty : PacketLog :=
  ⟨[], [], []⟩

def PacketLog.extend (log : PacketLog) (jb : JitterBuffer) (label : JitterCall × JitterResult) :
    PacketLog where
  accepted := log.accepted ++ acceptedBy label
  returned := log.returned ++ returnedBy label
  evicted := log.evicted ++ evictedBy jb label.1

/-- The numbers that are held and the one that comes in are in one window. -/
def WithinWindow (jb : JitterBuffer) : JitterCall → Prop
  | .add _ packet _ => ∃ base, (∀ entry ∈ jb.entries, InWindow base entry.sequence) ∧
      ∀ sequence ∈ sequenceOf packet, InWindow base sequence
  | .get _ _ => True

/-- A call within one window, and the log of the run. -/
def WindowStep (s : JitterBuffer × PacketLog) (label : JitterCall × JitterResult)
    (s' : JitterBuffer × PacketLog) : Prop :=
  JitterStep s.1 label s'.1 ∧ s'.2 = s.2.extend s.1 label ∧ WithinWindow s.1 label.1

/-- Every slot holds the sequence number of its packet. -/
def Labelled (jb : JitterBuffer) : Prop :=
  ∀ entry ∈ jb.entries, sequenceOf entry.packet = some entry.sequence

/-- The held packets are in the order of their numbers. -/
def InOrder (jb : JitterBuffer) : Prop :=
  IsOrdered JitterEntry.sequence jb.entries

theorem insertEntry_eq (entry : JitterEntry) (entries : List JitterEntry) :
    insertEntry entry entries =
      entries.orderedInsert (fun x y => Precedes x.sequence y.sequence) entry := by
  induction entries with
  | nil => rfl
  | cons first rest ih =>
      rw [List.orderedInsert_cons, ← ih]
      simp only [insertEntry, insertPos, List.findIdx_cons]
      by_cases hbefore : Precedes entry.sequence first.sequence
      · have htest : decide ((entry.sequence - first.sequence).toInt16 < 0) = true :=
          decide_eq_true hbefore
        rw [htest, if_pos hbefore]
        rfl
      · have htest : decide ((entry.sequence - first.sequence).toInt16 < 0) = false :=
          decide_eq_false hbefore
        rw [htest, if_neg hbefore]
        rfl

theorem insertEntry_perm (entry : JitterEntry) (entries : List JitterEntry) :
    (insertEntry entry entries).Perm (entry :: entries) := by
  rw [insertEntry_eq]
  exact List.perm_orderedInsert _ _ _

theorem dropOldest_cases (jb : JitterBuffer) (hsize : jb.config.bufferSize ≠ 0) :
    (dropOldest jb = jb ∧ jb.entries.length < jb.config.bufferSize.toNat) ∨
      ∃ entry rest, jb.entries = entry :: rest ∧ (dropOldest jb).entries = rest ∧
        (dropOldest jb).config = jb.config ∧ jb.entries.length = jb.config.bufferSize.toNat := by
  have hpos : 0 < jb.config.bufferSize.toNat := by
    rw [Nat.pos_iff_ne_zero]
    intro hzero
    exact hsize (UInt32.toNat_inj.mp hzero)
  by_cases hfull : jb.entries.length ≥ jb.config.bufferSize.toNat
  · obtain ⟨entry, rest, hentries⟩ := List.exists_cons_of_length_pos (hpos.trans_le hfull)
    refine .inr ⟨entry, rest, hentries, ?_, ?_, Nat.le_antisymm jb.length_le hfull⟩
    · simp only [dropOldest, if_pos hfull]
      rw [hentries]
      rfl
    · simp only [dropOldest, if_pos hfull]
  · exact .inl ⟨by simp only [dropOldest, if_neg hfull], Nat.not_le.mp hfull⟩

theorem addPacket_cases {mallocOk : Bool} {jb jb' : JitterBuffer} {packet : List UInt8}
    {timestamp : UInt64} {result : TinyrtcError}
    (h : tinyrtcJitterBufferAddPacket mallocOk jb packet timestamp = some (result, jb')) :
    jb.config.bufferSize ≠ 0 ∧
      (result = .ok ∧ mallocOk = true ∧ (∃ sequence, sequenceOf packet = some sequence ∧
          jb'.entries = insertEntry ⟨packet, sequence, timestamp⟩ (dropOldest jb).entries ∧
          jb'.nextPlayoutTime =
            if (dropOldest jb).entries = [] then timestamp + jb.config.minDelayMs.toUInt64
            else jb.nextPlayoutTime) ∨
        result ≠ .ok ∧ (mallocOk = false ∨ tinyrtcRtpParseHeader packet = none) ∧
          jb' = dropOldest jb) := by
  rw [tinyrtcJitterBufferAddPacket] at h
  split at h
  · cases h
  · next hsize =>
    refine ⟨hsize, ?_⟩
    dsimp only at h
    split at h
    · next hmalloc =>
      cases h
      exact .inr ⟨by decide, .inl (by simpa using hmalloc), rfl⟩
    · next hmalloc =>
      split at h
      · next hparse =>
        cases h
        exact .inr ⟨by decide, .inr hparse, rfl⟩
      · next header hparse =>
        cases h
        refine .inl ⟨rfl, by simpa using hmalloc, header.sequence, by rw [sequenceOf, hparse]; rfl,
          rfl, ?_⟩
        have hone : (insertEntry ⟨packet, header.sequence, timestamp⟩
            (dropOldest jb).entries).length = 1 ↔ (dropOldest jb).entries = [] := by
          rw [insertEntry_length, Nat.add_eq_right, List.length_eq_zero_iff]
        simp only [hone, dropOldest_config, dropOldest_nextPlayoutTime]

theorem getPacket_cases (jb : JitterBuffer) (maxLen : Nat) (currentTimeMs : UInt64) :
    (∃ err, tinyrtcJitterBufferGetPacket jb maxLen currentTimeMs = (.error err, jb)) ∨
      ∃ entry rest, jb.entries = entry :: rest ∧
        (tinyrtcJitterBufferGetPacket jb maxLen currentTimeMs).1 = .ok entry.packet ∧
        (tinyrtcJitterBufferGetPacket jb maxLen currentTimeMs).2.entries = rest ∧
        (tinyrtcJitterBufferGetPacket jb maxLen currentTimeMs).2.config = jb.config := by
  rw [tinyrtcJitterBufferGetPacket]
  split
  · exact .inl ⟨_, rfl⟩
  · next entry rest hentries =>
    split
    · exact .inl ⟨_, rfl⟩
    · split
      · exact .inl ⟨_, rfl⟩
      · exact .inr ⟨entry, rest, hentries, rfl, rfl, rfl⟩

theorem getStep_eq {jb jb' : JitterBuffer} {maxLen : Nat} {currentTimeMs : UInt64}
    {result : JitterResult} (h : JitterStep jb (.get maxLen currentTimeMs, result) jb') :
    ∃ got, result = .got got ∧
      tinyrtcJitterBufferGetPacket jb maxLen currentTimeMs = (got, jb') := by
  have hget : (JitterResult.got (tinyrtcJitterBufferGetPacket jb maxLen currentTimeMs).1,
      (tinyrtcJitterBufferGetPacket jb maxLen currentTimeMs).2) = (result, jb') :=
    Option.some.inj h
  rw [Prod.mk.injEq] at hget
  obtain ⟨rfl, rfl⟩ := hget
  exact ⟨_, rfl, rfl⟩

/-- What one call does to the slots. -/
inductive CallEffect (jb jb' : JitterBuffer) : JitterCall × JitterResult → Prop
  | inserted (mallocOk : Bool) (packet : List UInt8) (timestamp : UInt64) (sequence : UInt16) :
      sequenceOf packet = some sequence →
        jb'.entries = insertEntry ⟨packet, sequence, timestamp⟩ (dropOldest jb).entries →
          CallEffect jb jb' (.add mallocOk packet timestamp, .added .ok)
  | refused (mallocOk : Bool) (packet : List UInt8) (timestamp : UInt64) (result : TinyrtcError) :
      result ≠ .ok → jb'.entries = (dropOldest jb).entries →
        CallEffect jb jb' (.add mallocOk packet timestamp, .added result)
  | kept (maxLen : Nat) (currentTimeMs : UInt64) (err : TinyrtcError) :
      jb'.entries = jb.entries → CallEffect jb jb' (.get maxLen currentTimeMs, .got (.error err))
  | taken (maxLen : Nat) (currentTimeMs : UInt64) (entry : JitterEntry) :
      jb.entries = entry :: jb'.entries →
        CallEffect jb jb' (.get maxLen currentTimeMs, .got (.ok entry.packet))

theorem callEffect_of_step {jb jb' : JitterBuffer} {label : JitterCall × JitterResult}
    (h : JitterStep jb label jb') : CallEffect jb jb' label ∧ jb'.config = jb.config ∧
      ∀ mallocOk packet timestamp, label.1 = .add mallocOk packet timestamp →
        jb.config.bufferSize ≠ 0 := by
  obtain ⟨call, result⟩ := label
  cases call with
  | add mallocOk packet timestamp =>
      obtain ⟨⟨err, jb''⟩, hadd, heq⟩ := Option.map_eq_some_iff.mp h
      cases heq
      have hconfig := addPacket_config hadd
      obtain ⟨hsize, ⟨rfl, -, sequence, hsequence, hentries, -⟩ | ⟨herr, -, rfl⟩⟩ :=
        addPacket_cases hadd
      · exact ⟨.inserted _ _ _ sequence hsequence hentries, hconfig, fun _ _ _ _ => hsize⟩
      · exact ⟨.refused _ _ _ _ herr rfl, hconfig, fun _ _ _ _ => hsize⟩
  | get maxLen currentTimeMs =>
      obtain ⟨got, rfl, hgot⟩ := getStep_eq h
      rcases getPacket_cases jb maxLen currentTimeMs with
        ⟨err, herr⟩ | ⟨entry, rest, hentries, hresult, hrest, hconfig⟩
      · rw [hgot] at herr
        cases herr
        exact ⟨.kept _ _ err rfl, rfl, fun _ _ _ h => by cases h⟩
      · rw [hgot] at hresult hrest hconfig
        dsimp only at hresult hrest hconfig
        rw [hresult]
        exact ⟨.taken _ _ entry (by rw [hentries, hrest]), hconfig, fun _ _ _ h => by cases h⟩

/-- What is dropped to make room is the front of what was held. -/
theorem evictedBy_append_held {jb : JitterBuffer} (hsize : jb.config.bufferSize ≠ 0)
    (mallocOk : Bool) (packet : List UInt8) (timestamp : UInt64) :
    held jb = evictedBy jb (.add mallocOk packet timestamp) ++ held (dropOldest jb) := by
  rw [evictedBy]
  rcases dropOldest_cases jb hsize with ⟨hsame, hroom⟩ | ⟨entry, rest, hentries, hrest, -, hfull⟩
  · rw [if_neg (Nat.not_le.mpr hroom), hsame, List.nil_append]
  · rw [if_pos hfull.ge, held, held, hrest, hentries]
    rfl

theorem dropOldest_sublist (jb : JitterBuffer) :
    (dropOldest jb).entries.Sublist jb.entries := by
  simp only [dropOldest]
  split
  · exact List.drop_sublist 1 jb.entries
  · exact .refl _

section

variable {jb jb' : JitterBuffer} {label : JitterCall × JitterResult}

theorem inOrder_step (h : JitterStep jb label jb') (hwindow : WithinWindow jb label.1)
    (hjb : InOrder jb) : InOrder jb' := by
  obtain ⟨heffect, -, -⟩ := callEffect_of_step h
  cases heffect with
  | inserted mallocOk packet timestamp sequence hsequence hentries =>
      obtain ⟨base, hheld, hpacket⟩ := hwindow
      rw [InOrder, hentries, insertEntry_eq]
      have hall : ∀ entry ∈ ⟨packet, sequence, timestamp⟩ :: (dropOldest jb).entries,
          InWindow base entry.sequence := by
        intro entry hentry
        rcases List.mem_cons.mp hentry with rfl | hentry
        · exact hpacket sequence hsequence
        · exact hheld entry ((dropOldest_sublist jb).subset hentry)
      exact isOrdered_orderedInsert (hjb.sublist (dropOldest_sublist jb)) hall
  | refused mallocOk packet timestamp result herr hentries =>
      rw [InOrder, hentries]
      exact hjb.sublist (dropOldest_sublist jb)
  | kept maxLen currentTimeMs err hentries =>
      rw [InOrder, hentries]
      exact hjb
  | taken maxLen currentTimeMs entry hentries =>
      rw [InOrder, hentries] at hjb
      exact hjb.of_cons

theorem mem_entries_step (h : JitterStep jb label jb') {entry : JitterEntry}
    (hentry : entry ∈ jb'.entries) :
    entry ∈ jb.entries ∨ sequenceOf entry.packet = some entry.sequence ∧
      ∃ mallocOk, label = (.add mallocOk entry.packet entry.arrivalTime, .added .ok) := by
  obtain ⟨heffect, -, -⟩ := callEffect_of_step h
  cases heffect with
  | inserted mallocOk packet timestamp sequence hsequence hentries =>
      rw [hentries] at hentry
      rcases List.mem_cons.mp ((insertEntry_perm _ _).subset hentry) with rfl | hentry
      · exact .inr ⟨hsequence, mallocOk, rfl⟩
      · exact .inl ((dropOldest_sublist jb).subset hentry)
  | refused mallocOk packet timestamp result herr hentries =>
      rw [hentries] at hentry
      exact .inl ((dropOldest_sublist jb).subset hentry)
  | kept maxLen currentTimeMs err hentries =>
      rw [hentries] at hentry
      exact .inl hentry
  | taken maxLen currentTimeMs taken hentries =>
      left
      rw [hentries]
      exact List.mem_cons_of_mem taken hentry

theorem labelled_step (h : JitterStep jb label jb') (hjb : Labelled jb) : Labelled jb' := by
  intro entry hentry
  rcases mem_entries_step h hentry with hold | ⟨hsequence, -⟩
  · exact hjb entry hold
  · exact hsequence

theorem accounted_step (h : JitterStep jb label jb') {log : PacketLog}
    (hlog : log.accepted.Perm (held jb ++ log.returned ++ log.evicted)) :
    (log.extend jb label).accepted.Perm
      (held jb' ++ (log.extend jb label).returned ++ (log.extend jb label).evicted) := by
  obtain ⟨heffect, -, hsize⟩ := callEffect_of_step h
  apply List.perm_iff_count.mpr
  intro bytes
  have hcount := hlog.count_eq bytes
  simp only [List.count_append] at hcount
  simp only [PacketLog.extend, List.count_append]
  cases heffect with
  | inserted mallocOk packet timestamp sequence hsequence hentries =>
      have hdropped := congrArg (List.count bytes)
        (evictedBy_append_held (hsize _ _ _ rfl) mallocOk packet timestamp)
      have hinserted := ((insertEntry_perm ⟨packet, sequence, timestamp⟩
        (dropOldest jb).entries).map JitterEntry.packet).count_eq bytes
      rw [← hentries, List.map_cons, List.count_cons] at hinserted
      rw [List.count_append] at hdropped
      simp only [held, acceptedBy, returnedBy, List.count_cons, List.count_nil] at *
      omega
  | refused mallocOk packet timestamp result herr hentries =>
      have hdropped := congrArg (List.count bytes)
        (evictedBy_append_held (hsize _ _ _ rfl) mallocOk packet timestamp)
      rw [List.count_append] at hdropped
      have haccepted : acceptedBy (.add mallocOk packet timestamp, .added result) = [] := by
        cases result with
        | ok => exact absurd rfl herr
        | _ => rfl
      simp only [held, haccepted, returnedBy, hentries, List.count_nil] at *
      omega
  | kept maxLen currentTimeMs err hentries =>
      simp only [acceptedBy, returnedBy, evictedBy, held, hentries, List.count_nil] at hcount ⊢
      omega
  | taken maxLen currentTimeMs entry hentries =>
      simp only [acceptedBy, returnedBy, evictedBy, held, hentries, List.map_cons, List.count_cons,
        List.count_nil] at hcount ⊢
      omega

end

/-- The first packet held, which no other one precedes. -/
def IsEarliest (jb : JitterBuffer) (packet : List UInt8) : Prop :=
  ∃ entry rest, jb.entries = entry :: rest ∧ packet = entry.packet ∧
    ∀ other ∈ rest, ¬ Precedes other.sequence entry.sequence

theorem isEarliest_of_cons {jb : JitterBuffer} (hjb : InOrder jb) {entry : JitterEntry}
    {rest : List JitterEntry} (hentries : jb.entries = entry :: rest) :
    IsEarliest jb entry.packet := by
  rw [InOrder, hentries] at hjb
  exact ⟨entry, rest, hentries, rfl, (List.pairwise_cons.mp hjb).1⟩

/-- Packets leave the buffer in the order of their numbers, and are dropped from a full
one only. -/
structure TakesEarliest (jb : JitterBuffer) (label : JitterCall × JitterResult) : Prop where
  returned : ∀ packet ∈ returnedBy label, IsEarliest jb packet
  evicted : ∀ packet ∈ evictedBy jb label.1,
    IsEarliest jb packet ∧ jb.entries.length = jb.config.bufferSize.toNat

theorem takesEarliest_of_step {jb jb' : JitterBuffer} {label : JitterCall × JitterResult}
    (h : JitterStep jb label jb') (hjb : InOrder jb) : TakesEarliest jb label := by
  obtain ⟨heffect, -, hsize⟩ := callEffect_of_step h
  have hevicted : ∀ mallocOk packet timestamp, label.1 = .add mallocOk packet timestamp →
      ∀ bytes ∈ evictedBy jb label.1,
        IsEarliest jb bytes ∧ jb.entries.length = jb.config.bufferSize.toNat := by
    intro mallocOk packet timestamp hadd bytes hbytes
    rw [hadd, evictedBy] at hbytes
    rcases dropOldest_cases jb (hsize _ _ _ hadd) with
      ⟨-, hroom⟩ | ⟨entry, rest, hentries, -, -, hfull⟩
    · rw [if_neg (Nat.not_le.mpr hroom)] at hbytes
      cases hbytes
    · rw [if_pos hfull.ge, held, hentries, List.map_cons, List.take_succ_cons, List.take_zero,
        List.mem_singleton] at hbytes
      rw [hbytes]
      exact ⟨isEarliest_of_cons hjb hentries, hfull⟩
  cases heffect with
  | inserted mallocOk packet timestamp sequence hsequence hentries =>
      exact ⟨fun _ h => absurd h List.not_mem_nil, hevicted _ _ _ rfl⟩
  | refused mallocOk packet timestamp result herr hentries =>
      exact ⟨fun _ h => absurd h List.not_mem_nil, hevicted _ _ _ rfl⟩
  | kept maxLen currentTimeMs err hentries =>
      exact ⟨fun _ h => absurd h List.not_mem_nil, fun _ h => absurd h List.not_mem_nil⟩
  | taken maxLen currentTimeMs entry hentries =>
      refine ⟨?_, fun _ h => absurd h List.not_mem_nil⟩
      intro packet hpacket
      rw [List.mem_singleton.mp hpacket]
      exact isEarliest_of_cons hjb hentries

/-- What holds of a jitter buffer and of the log of its run. -/
structure KeepsPackets (config : JitterConfig) (s : JitterBuffer × PacketLog) : Prop where
  inOrder : InOrder s.1
  labelled : Labelled s.1
  length_le : s.1.entries.length ≤ config.bufferSize.toNat
  accounted : s.2.accepted.Perm (held s.1 ++ s.2.returned ++ s.2.evicted)

theorem keepsPackets_of_run {config : JitterConfig} {labels : List (JitterCall × JitterResult)}
    {s : JitterBuffer × PacketLog}
    (hrun : Run WindowStep (tinyrtcJitterBufferCreate config, .empty) labels s) :
    s.1.config = config ∧ KeepsPackets config s := by
  refine hrun.invariant (I := fun s => s.1.config = config ∧ KeepsPackets config s) ?_ ?_
  · rintro ⟨jb, log⟩ label ⟨jb', log'⟩ ⟨hconfig, hs⟩ ⟨hstep, rfl, hwindow⟩
    have hconfig' : jb'.config = config := (callEffect_of_step hstep).2.1.trans hconfig
    refine ⟨hconfig', inOrder_step hstep hwindow hs.inOrder, labelled_step hstep hs.labelled, ?_,
      accounted_step hstep hs.accounted⟩
    rw [← hconfig']
    exact jb'.length_le
  · exact ⟨rfl, List.Pairwise.nil, fun _ h => absurd h List.not_mem_nil, Nat.zero_le _, .refl _⟩

/-- In every run within windows, a jitter buffer is ordered, bounded and loses nothing,
and every call takes the earliest packet. -/
theorem jitterBuffer_of_run {config : JitterConfig} {labels : List (JitterCall × JitterResult)}
    {s : JitterBuffer × PacketLog}
    (hrun : Run WindowStep (tinyrtcJitterBufferCreate config, .empty) labels s) :
    KeepsPackets config s ∧ ∀ label s', WindowStep s label s' →
      TakesEarliest s.1 label ∧ s.1.config = config ∧ KeepsPackets config s' := by
  obtain ⟨hconfig, hs⟩ := keepsPackets_of_run hrun
  refine ⟨hs, ?_⟩
  intro label s' hstep
  have hnext := keepsPackets_of_run (hrun.append (.singleton hstep))
  exact ⟨takesEarliest_of_step hstep.1 hs.inOrder, hconfig, hnext.2⟩

/-- What a call adds has its number in this window. -/
def AddsInWindow (base : UInt16) : JitterCall → Prop
  | .add _ packet _ => ∀ sequence ∈ sequenceOf packet, InWindow base sequence
  | .get _ _ => True

instance (base : UInt16) : DecidablePred (AddsInWindow base)
  | .add _ packet _ =>
      decidable_of_iff ((sequenceOf packet).all fun sequence => decide (InWindow base sequence))
        (by simp [Option.all_eq_true, AddsInWindow])
  | .get _ _ => isTrue trivial

/-- The slots hold numbers of this window only. -/
def HoldsWindow (base : UInt16) (jb : JitterBuffer) : Prop :=
  ∀ entry ∈ jb.entries, InWindow base entry.sequence

theorem holdsWindow_step {base : UInt16} {jb jb' : JitterBuffer}
    {label : JitterCall × JitterResult} (h : JitterStep jb label jb')
    (hadds : AddsInWindow base label.1) (hjb : HoldsWindow base jb) : HoldsWindow base jb' := by
  intro entry hentry
  rcases mem_entries_step h hentry with hold | ⟨hsequence, mallocOk, rfl⟩
  · exact hjb entry hold
  · exact hadds entry.sequence hsequence

theorem exists_windowRun {base : UInt16} {jb jb' : JitterBuffer}
    {labels : List (JitterCall × JitterResult)} (hrun : Run JitterStep jb labels jb')
    (hadds : ∀ label ∈ labels, AddsInWindow base label.1) (hjb : HoldsWindow base jb)
    (log : PacketLog) : ∃ log', Run WindowStep (jb, log) labels (jb', log') := by
  induction hrun generalizing log with
  | nil jb => exact ⟨log, .nil _⟩
  | @cons jb next last label labels hstep _ ih =>
      have hlabel := hadds label List.mem_cons_self
      obtain ⟨log', hrest⟩ := ih (fun l hl => hadds l (List.mem_cons_of_mem label hl))
        (holdsWindow_step hstep hlabel hjb) (log.extend jb label)
      have hwindow : WithinWindow jb label.1 := by
        obtain ⟨call, result⟩ := label
        cases call with
        | add mallocOk packet timestamp => exact ⟨base, hjb, hlabel⟩
        | get maxLen currentTimeMs => trivial
      exact ⟨log', .cons ⟨hstep, rfl, hwindow⟩ hrest⟩

theorem holdsWindow_of_run {base : UInt16} {jb jb' : JitterBuffer}
    {labels : List (JitterCall × JitterResult)} (hrun : Run JitterStep jb labels jb')
    (hadds : ∀ label ∈ labels, AddsInWindow base label.1) (hjb : HoldsWindow base jb) :
    HoldsWindow base jb' := by
  induction hrun with
  | nil jb => exact hjb
  | @cons jb next last label labels hstep _ ih =>
      exact ih (fun l hl => hadds l (List.mem_cons_of_mem label hl))
        (holdsWindow_step hstep (hadds label List.mem_cons_self) hjb)

/-- In a run whose numbers are all in one window, the slots are ordered and labelled. -/
theorem inOrder_of_run {config : JitterConfig} {base : UInt16} {jb : JitterBuffer}
    {labels : List (JitterCall × JitterResult)}
    (hrun : Run JitterStep (tinyrtcJitterBufferCreate config) labels jb)
    (hadds : ∀ label ∈ labels, AddsInWindow base label.1) :
    InOrder jb ∧ Labelled jb ∧ HoldsWindow base jb := by
  have hempty : HoldsWindow base (tinyrtcJitterBufferCreate config) :=
    fun _ h => absurd h List.not_mem_nil
  obtain ⟨log, hwindow⟩ := exists_windowRun hrun hadds hempty .empty
  obtain ⟨-, hkeeps⟩ := keepsPackets_of_run hwindow
  exact ⟨hkeeps.inOrder, hkeeps.labelled, holdsWindow_of_run hrun hadds hempty⟩

/-- Calls one after the other. -/
def jitterCalls (jb : JitterBuffer) :
    List JitterCall → Option (List (JitterCall × JitterResult) × JitterBuffer)
  | [] => some ([], jb)
  | call :: calls =>
      (jitterCall jb call).bind fun (result, jb) =>
        (jitterCalls jb calls).map fun (labels, jb) => ((call, result) :: labels, jb)

theorem run_jitterCalls {jb jb' : JitterBuffer} {calls : List JitterCall}
    {labels : List (JitterCall × JitterResult)} (h : jitterCalls jb calls = some (labels, jb')) :
    Run JitterStep jb labels jb' := by
  induction calls generalizing jb labels with
  | nil =>
      cases h
      exact .nil _
  | cons call calls ih =>
      obtain ⟨⟨result, next⟩, hcall, hrest⟩ := Option.bind_eq_some_iff.mp h
      obtain ⟨⟨rest, last⟩, hcalls, hresult⟩ := Option.map_eq_some_iff.mp hrest
      cases hresult
      exact .cons hcall (ih hcalls)

theorem exists_run (jb : JitterBuffer) (calls : List JitterCall)
    (p : List (JitterCall × JitterResult) → Bool)
    (h : ((jitterCalls jb calls).any fun reached => p reached.1) = true) :
    ∃ labels jb', Run JitterStep jb labels jb' ∧ p labels = true := by
  rw [Option.any_eq_true] at h
  obtain ⟨⟨labels, jb'⟩, hcalls, hp⟩ := h
  exact ⟨labels, jb', run_jitterCalls hcalls, hp⟩

/-- A packet with a sequence number and no payload. -/
def numberedPacket (sequence : UInt16) : List UInt8 :=
  [0x80, 0x00, (sequence >>> 8).toUInt8, sequence.toUInt8, 0, 0, 0, 0, 0, 0, 0, 0]

/-- In a buffer with one slot, the number behind the wrap drops the one before it. -/
theorem jitterBuffer_sampleRun :
    ∃ labels s, Run WindowStep (tinyrtcJitterBufferCreate ⟨0, 200, 1⟩, .empty) labels s ∧
      labels.flatMap acceptedBy = [numberedPacket 0xFFFF, numberedPacket 0] ∧
      labels.flatMap returnedBy = [numberedPacket 0] ∧ KeepsPackets ⟨0, 200, 1⟩ s := by
  obtain ⟨labels, jb, hrun, hp⟩ := exists_run (tinyrtcJitterBufferCreate ⟨0, 200, 1⟩)
    [.add true (numberedPacket 0xFFFF) 10, .add true (numberedPacket 0) 11, .get 1500 20]
    (fun labels => decide (∀ label ∈ labels, AddsInWindow 0xFFFF label.1) &&
      labels.flatMap acceptedBy == [numberedPacket 0xFFFF, numberedPacket 0] &&
      labels.flatMap returnedBy == [numberedPacket 0])
    (by decide +kernel)
  simp only [Bool.and_eq_true, decide_eq_true_iff, beq_iff_eq] at hp
  obtain ⟨⟨hadds, haccepted⟩, hreturned⟩ := hp
  obtain ⟨log, hwindow⟩ := exists_windowRun hrun hadds
    (fun _ h => absurd h List.not_mem_nil) .empty
  exact ⟨labels, (jb, log), hwindow, haccepted, hreturned, (jitterBuffer_of_run hwindow).1⟩

end TinyRtc.JitterRuns
