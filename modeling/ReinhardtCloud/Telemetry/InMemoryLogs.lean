import Mathlib.Data.List.Perm.Basic
import ReinhardtCloud.Base.Broadcast
import ReinhardtCloud.Base.Run
import ReinhardtCloud.Telemetry.LogPages

/-!
# The in-memory log service

Library `Telemetry`. `InMemoryLogService`
(`crates/reinhardt-cloud-telemetry/src/log_service/in_memory.rs:18–144`). A record is stored under
the lock and broadcast after the lock was released, so concurrent calls of `ingest` may broadcast
in another order than they stored. Times are nanoseconds.
-/

namespace ReinhardtCloud.Telemetry

open ReinhardtCloud.Base

/-- The derived order, `schema.rs:10–18`. -/
def LegacyLogLevel.rank : LegacyLogLevel → Nat
  | .trace => 0
  | .debug => 1
  | .info => 2
  | .warn => 3
  | .error => 4

/-- `LogRecord`, `schema.rs:47–57`, with the fields that a filter reads. -/
structure LogRecord where
  ts : Int
  level : LegacyLogLevel
  msg : String
  reconcileId : Option String
  resourceNamespace : Option String
  deploymentId : Option String

/-- `RetentionPolicy`, `log_service.rs:53–57`. -/
structure RetentionPolicy where
  capacity : Option Nat
  ttl : Nat

/-- `matches`, `in_memory.rs:48–70`. -/
def LogRecord.fits (record : LogRecord) (filter : LegacyLogFilter) : Bool :=
  if filter.reconcileId.any fun id ↦ record.reconcileId ≠ some id then false
  else if filter.namespace'.any fun ns ↦ record.resourceNamespace ≠ some ns then false
  else if filter.deploymentId.any fun id ↦ record.deploymentId ≠ some id then false
  else if filter.minLevel.any fun min ↦ record.level.rank < min.rank then false
  else true

/-- The record has what the filter asks for. -/
structure LogRecord.Matches (record : LogRecord) (filter : LegacyLogFilter) : Prop where
  reconcileId : ∀ id ∈ filter.reconcileId, record.reconcileId = some id
  resourceNamespace : ∀ ns ∈ filter.namespace', record.resourceNamespace = some ns
  deploymentId : ∀ id ∈ filter.deploymentId, record.deploymentId = some id
  level : ∀ min ∈ filter.minLevel, min.rank ≤ record.level.rank

/-- The service tests for nothing else. -/
theorem LogRecord.fits_iff {record : LogRecord} {filter : LegacyLogFilter} :
    record.fits filter = true ↔ record.Matches filter := by
  have hany {α : Type} (o : Option α) (p : α → Bool) :
      o.any p = false ↔ ∀ x ∈ o, p x = false := by
    cases o <;> simp
  rw [LogRecord.fits]
  constructor
  · intro h
    split at h
    · cases h
    · next hid =>
      split at h
      · cases h
      · next hns =>
        split at h
        · cases h
        · next hdeployment =>
          split at h
          · cases h
          · next hlevel =>
            simp only [Bool.not_eq_true, hany, decide_eq_false_iff_not, not_not, Nat.not_lt]
              at hid hns hdeployment hlevel
            exact ⟨hid, hns, hdeployment, hlevel⟩
  · rintro ⟨hid, hns, hdeployment, hlevel⟩
    have hnone {α : Type} {o : Option α} {P : α → Prop} [DecidablePred P]
        (h : ∀ x ∈ o, ¬ P x) : ¬ (o.any fun x ↦ decide (P x)) = true := by
      rw [Bool.not_eq_true, hany]
      exact fun x hx ↦ decide_eq_false (h x hx)
    rw [if_neg (hnone fun id h hne ↦ hne (hid id h)), if_neg (hnone fun ns h hne ↦ hne (hns ns h)),
      if_neg (hnone fun id h hne ↦ hne (hdeployment id h)),
      if_neg (hnone fun min h ↦ Nat.not_lt.mpr (hlevel min h))]

instance (record : LogRecord) (filter : LegacyLogFilter) : Decidable (record.Matches filter) :=
  decidable_of_iff _ LogRecord.fits_iff

/-- The capacity of the channel, `in_memory.rs:29–30`: tokio takes the next power of two. -/
def RetentionPolicy.broadcastCap (policy : RetentionPolicy) : Nat :=
  (policy.capacity.elim 64 (max · 16)).nextPowerOfTwo

/-- `while buf.len() >= cap`, `in_memory.rs:83–85`. -/
def popFront (cap : Nat) : List LogRecord → List LogRecord
  | [] => []
  | record :: rest => if cap ≤ (record :: rest).length then popFront cap rest else record :: rest

/-- What `ingest` does to the buffer, `in_memory.rs:75–94`. -/
def RetentionPolicy.buffered (policy : RetentionPolicy) (buffer : List LogRecord)
    (record : LogRecord) : List LogRecord :=
  match policy.capacity with
  | some 0 => buffer
  | some cap => popFront cap buffer ++ [record]
  | none => buffer ++ [record]

/-- A stream of `tail`, `in_memory.rs:100–117`, with what it has yielded. -/
structure RecordTail where
  filter : LegacyLogFilter
  receiver : Receiver LogRecord
  yielded : List LogRecord

/-- Poll the stream once: a received record is yielded if it fits, a lag is passed over. -/
def RecordTail.poll (tx : Broadcast LogRecord) (tail : RecordTail) : RecordTail :=
  { tail with
    receiver := tail.receiver.advance tx
    yielded := match tx.recv tail.receiver.next with
      | (.value record, _) =>
        if record.fits tail.filter then tail.yielded ++ [record] else tail.yielded
      | _ => tail.yielded }

/-- `InMemoryLogService` with its tails and the calls of `ingest` that have stored their record and
not broadcast it yet. `ingested` and `sent` are the records that came in and that were broadcast:
history only, no step reads them. -/
structure InMemoryLogService where
  policy : RetentionPolicy
  buffer : List LogRecord
  tx : Broadcast LogRecord
  ingests : List LogRecord
  tails : List RecordTail
  ingested : List LogRecord
  sent : List LogRecord

namespace InMemoryLogService

/-- `InMemoryLogService::new`, `in_memory.rs:28–36`. -/
def new (policy : RetentionPolicy) : InMemoryLogService :=
  ⟨policy, [], .new policy.broadcastCap, [], [], [], []⟩

/-- `chrono::Duration::MAX`: `i64::MAX` milliseconds. -/
def chronoDurationMax : Nat := (2 ^ 63 - 1) * 1000000

/-- `DateTime::<Utc>::MIN_UTC`, the first day of the year -262143. -/
def minUtc : Int := -8334601228800 * 1000000000

/-- The cutoff of `list`, `in_memory.rs:127–129`: absent where the subtraction panics. -/
def cutoff (service : InMemoryLogService) (now : Int) : Option Int :=
  let start := now - (min service.policy.ttl chronoDurationMax : Nat)
  if minUtc ≤ start then some start else none

/-- `list`, `in_memory.rs:119–139`. -/
def list (service : InMemoryLogService) (now : Int) (filter : LegacyLogFilter)
    (page : Pagination) : Option (List LogRecord) :=
  (service.cutoff now).map fun cutoff ↦
    ((service.buffer.filter fun record ↦ decide (cutoff ≤ record.ts) && record.fits filter).drop
      page.offset).take page.limit

end InMemoryLogService

/-- The steps of calls of `ingest` and of tails. -/
inductive RecordAction where
  /-- `ingest` up to the release of the lock. -/
  | store (record : LogRecord)
  /-- The broadcast of a call. -/
  | send (i : Nat)
  | tail (filter : LegacyLogFilter)
  | receive (i : Nat)

/-- Execute one step; absent when the step is not enabled. -/
def recordStep (s : InMemoryLogService) : RecordAction → Option InMemoryLogService
  | .store record => some { s with
      buffer := s.policy.buffered s.buffer record
      ingests := s.ingests ++ [record]
      ingested := s.ingested ++ [record] }
  | .send i =>
    (s.ingests[i]?).map fun record ↦ { s with
      tx := s.tx.send record
      ingests := s.ingests.eraseIdx i
      sent := s.sent ++ [record] }
  | .tail filter => some { s with tails := s.tails ++ [⟨filter, .subscribe s.tx, []⟩] }
  | .receive i =>
    (s.tails[i]?).map fun tail ↦ { s with tails := s.tails.set i (tail.poll s.tx) }

/-! ## What a run keeps -/

/-- The records that a policy retains. -/
def RetentionPolicy.retained (policy : RetentionPolicy) (records : List LogRecord) :
    List LogRecord :=
  policy.capacity.elim records records.rtake

theorem popFront_eq (cap : Nat) (buffer : List LogRecord) :
    popFront (cap + 1) buffer = buffer.rtake cap := by
  induction buffer with
  | nil => rw [List.rtake_nil]; rfl
  | cons record rest ih =>
    rw [popFront, ih, List.length_cons]
    by_cases h : cap ≤ rest.length
    · rw [if_pos (by omega), List.rtake, List.rtake, List.length_cons,
        Nat.sub_add_comm h, List.drop_succ_cons]
    · rw [if_neg (by omega), List.rtake, List.length_cons, Nat.sub_eq_zero_of_le (by omega),
        List.drop_zero]

theorem rtake_rtake (l : List LogRecord) (m : Nat) : (l.rtake (m + 1)).rtake m = l.rtake m := by
  rw [List.rtake, List.rtake, List.rtake, List.drop_drop, List.length_drop]
  apply congrArg (l.drop ·)
  omega

/-- The buffer keeps what the policy retains. -/
theorem buffered_retained (policy : RetentionPolicy) (records : List LogRecord)
    (record : LogRecord) :
    policy.buffered (policy.retained records) record = policy.retained (records ++ [record]) := by
  unfold RetentionPolicy.buffered RetentionPolicy.retained
  cases policy.capacity with
  | none => rfl
  | some cap =>
    cases cap with
    | zero =>
      show records.rtake 0 = (records ++ [record]).rtake 0
      rw [List.rtake_zero, List.rtake_zero]
    | succ cap =>
      show popFront (cap + 1) (records.rtake (cap + 1)) ++ [record] =
        (records ++ [record]).rtake (cap + 1)
      rw [popFront_eq, rtake_rtake, List.rtake_concat_succ]

/-- The tail has read the positions of what was sent, and has yielded the matching records there. -/
structure RecordTail.Reads (sent : List LogRecord) (capacity : Nat) (tail : RecordTail)
    (positions : List Nat) : Prop where
  faithful : tail.receiver.Faithful sent capacity positions
  yielded : tail.yielded =
    (positions.filterMap (sent[·]?)).filter fun record ↦ record.Matches tail.filter

/-- Polling a tail reads on. -/
theorem RecordTail.Reads.poll {tx : Broadcast LogRecord} {sent : List LogRecord} {tail : RecordTail}
    {positions : List Nat} (htx : tx.Sent sent) (h : tail.Reads sent tx.capacity positions) :
    ∃ positions', (tail.poll tx).Reads sent tx.capacity positions' := by
  obtain ⟨positions', hfaithful⟩ := h.faithful.advance htx
  refine ⟨positions', hfaithful, ?_⟩
  have hyielded := h.yielded
  rw [← h.faithful.received] at hyielded
  rw [← hfaithful.received]
  show (tail.poll tx).yielded = (tail.receiver.advance tx).received.filter fun record ↦
    record.Matches tail.filter
  simp only [RecordTail.poll, Receiver.advance]
  split
  · next record next hrecv =>
    simp only [hrecv]
    rw [List.filter_append, ← hyielded]
    by_cases hfits : record.Matches tail.filter
    · simp [LogRecord.fits_iff, hfits]
    · simp [LogRecord.fits_iff, hfits]
  · next hrecv =>
    split
    · next record next hrecv' => exact absurd hrecv' (hrecv record next)
    · exact hyielded

/-- The invariant of the service. -/
structure InMemoryLogService.Wf (policy : RetentionPolicy) (s : InMemoryLogService) : Prop where
  policy_eq : s.policy = policy
  buffer : s.buffer = policy.retained s.ingested
  channel_capacity : s.tx.capacity = policy.broadcastCap
  channel : s.tx.Sent s.sent
  ingested : s.ingested.Perm (s.sent ++ s.ingests)
  tails : ∀ tail ∈ s.tails, ∃ positions, tail.Reads s.sent policy.broadcastCap positions

variable {policy : RetentionPolicy} {s t : InMemoryLogService}

theorem InMemoryLogService.wf_new (policy : RetentionPolicy) :
    (InMemoryLogService.new policy).Wf policy where
  policy_eq := rfl
  buffer := by
    show [] = policy.capacity.elim [] List.nil.rtake
    cases policy.capacity with
    | none => rfl
    | some cap => exact (List.rtake_nil cap).symm
  channel_capacity := rfl
  channel := Broadcast.sent_new _
  ingested := .refl _
  tails := fun _ htail ↦ absurd htail List.not_mem_nil

theorem InMemoryLogService.Wf.step {a : RecordAction} (hw : s.Wf policy)
    (h : recordStep s a = some t) : t.Wf policy := by
  cases a with
  | store record =>
    obtain rfl := Option.some.inj h
    refine ⟨hw.policy_eq, ?_, hw.channel_capacity, hw.channel, ?_, hw.tails⟩
    · show s.policy.buffered s.buffer record = _
      rw [hw.policy_eq, hw.buffer, buffered_retained]
    · show (s.ingested ++ [record]).Perm (s.sent ++ (s.ingests ++ [record]))
      rw [← List.append_assoc]
      exact hw.ingested.append_right _
  | send i =>
    obtain ⟨record, hrecord, rfl⟩ := Option.map_eq_some_iff.mp h
    refine ⟨hw.policy_eq, hw.buffer, hw.channel_capacity, hw.channel.send record, ?_, ?_⟩
    · show s.ingested.Perm ((s.sent ++ [record]) ++ s.ingests.eraseIdx i)
      rw [List.append_assoc]
      apply hw.ingested.trans
      apply List.Perm.append_left
      obtain ⟨hi, rfl⟩ := List.getElem?_eq_some_iff.mp hrecord
      exact (List.getElem_cons_eraseIdx_perm hi).symm
    · intro tail htail
      obtain ⟨positions, hreads⟩ := hw.tails tail htail
      have hfaithful := hreads.faithful.append [record]
      exact ⟨positions, hfaithful, by
        rw [hreads.yielded, ← hreads.faithful.received, ← hfaithful.received]⟩
  | tail filter =>
    obtain rfl := Option.some.inj h
    refine ⟨hw.policy_eq, hw.buffer, hw.channel_capacity, hw.channel, hw.ingested, ?_⟩
    intro tail htail
    rcases List.mem_append.mp htail with hold | hnew
    · exact hw.tails tail hold
    · rw [List.mem_singleton.mp hnew, ← hw.channel_capacity]
      exact ⟨[], Receiver.faithful_subscribe hw.channel, rfl⟩
  | receive i =>
    obtain ⟨tail, htail, rfl⟩ := Option.map_eq_some_iff.mp h
    refine ⟨hw.policy_eq, hw.buffer, hw.channel_capacity, hw.channel, hw.ingested, ?_⟩
    intro other hother
    rcases List.mem_or_eq_of_mem_set hother with hold | rfl
    · exact hw.tails other hold
    · obtain ⟨positions, hreads⟩ := hw.tails tail (List.mem_of_getElem? htail)
      rw [← hw.channel_capacity] at hreads ⊢
      exact hreads.poll hw.channel

theorem InMemoryLogService.wf_of_run {tr : List (Transition InMemoryLogService RecordAction)}
    (h : Run recordStep (InMemoryLogService.new policy) tr s) : s.Wf policy :=
  Run.invariant (InMemoryLogService.wf_new policy) (fun _ _ _ hw hstep ↦ hw.step hstep) h

/-! ## The order of broadcasts -/

/-- No call of `ingest` stores its record before the earlier ones have broadcast theirs. -/
def IngestsApart (x : Transition InMemoryLogService RecordAction) : Prop :=
  ∀ record, x.action = .store record → x.before.ingests = []

/-- Without calls that overlap, at most one record is about to be broadcast, and the records are
broadcast as they came in. -/
structure InMemoryLogService.InOrder (s : InMemoryLogService) : Prop where
  single : s.ingests.length ≤ 1
  ordered : s.ingested = s.sent ++ s.ingests

theorem InMemoryLogService.InOrder.step {a : RecordAction} (ho : s.InOrder)
    (h : recordStep s a = some t) (hapart : IngestsApart ⟨s, a, t⟩) : t.InOrder := by
  cases a with
  | store record =>
    obtain rfl := Option.some.inj h
    have hnone : s.ingests = [] := hapart record rfl
    constructor
    · show (s.ingests ++ [record]).length ≤ 1
      rw [hnone]
      exact Nat.le_refl 1
    · show s.ingested ++ [record] = s.sent ++ (s.ingests ++ [record])
      rw [ho.ordered, List.append_assoc]
  | send i =>
    obtain ⟨record, hrecord, rfl⟩ := Option.map_eq_some_iff.mp h
    obtain ⟨hi, hget⟩ := List.getElem?_eq_some_iff.mp hrecord
    have hsingle := ho.single
    have hzero : i = 0 := by omega
    subst hzero
    obtain ⟨x, hone⟩ := List.length_eq_one_iff.mp (show s.ingests.length = 1 by omega)
    have hx : x = record := by
      rw [hone] at hrecord
      exact Option.some.inj hrecord
    subst hx
    constructor
    · show (s.ingests.eraseIdx 0).length ≤ 1
      rw [hone]
      exact Nat.zero_le 1
    · show s.ingested = (s.sent ++ [x]) ++ s.ingests.eraseIdx 0
      rw [ho.ordered, hone]
      exact (List.append_nil _).symm
  | tail filter =>
    obtain rfl := Option.some.inj h
    exact ⟨ho.single, ho.ordered⟩
  | receive i =>
    obtain ⟨tail, htail, rfl⟩ := Option.map_eq_some_iff.mp h
    exact ⟨ho.single, ho.ordered⟩

/-! ## Listings and tails -/

/-- The buffer has the records that came in last, as many as the policy retains; each record that
came in is broadcast once or about to be; a tail reads the broadcasts in their order, none twice,
misses one only behind as many later ones as the channel retains, and yields exactly the matching
ones it reads; and a listing answers exactly where its cutoff is a time. -/
structure InMemoryLogService.Keeps (policy : RetentionPolicy) (s : InMemoryLogService) : Prop where
  buffer : s.buffer = policy.retained s.ingested
  broadcasts : s.ingested.Perm (s.sent ++ s.ingests)
  tails : ∀ tail ∈ s.tails, ∃ positions, tail.Reads s.sent policy.broadcastCap positions
  lists : ∀ now filter page, (s.list now filter page).isSome ↔
    InMemoryLogService.minUtc ≤
      now - (min policy.ttl InMemoryLogService.chronoDurationMax : Nat)

/-- The service keeps its records whatever is ingested, broadcast and received in any order, and
broadcasts them as they came in if no two calls of `ingest` overlap. -/
theorem in_memory_keeps {tr : List (Transition InMemoryLogService RecordAction)}
    (h : Run recordStep (InMemoryLogService.new policy) tr s) :
    s.Keeps policy ∧ ((∀ x ∈ tr, IngestsApart x) → s.ingested = s.sent ++ s.ingests) := by
  have hw := InMemoryLogService.wf_of_run h
  constructor
  · refine ⟨hw.buffer, hw.ingested, hw.tails, ?_⟩
    intro now filter page
    rw [InMemoryLogService.list, Option.isSome_map, InMemoryLogService.cutoff, hw.policy_eq]
    by_cases hmin : InMemoryLogService.minUtc ≤
        now - (min policy.ttl InMemoryLogService.chronoDurationMax : Nat)
    · rw [if_pos hmin]
      exact iff_of_true rfl hmin
    · rw [if_neg hmin]
      exact iff_of_false (by decide) hmin
  · intro hapart
    have hinit : (InMemoryLogService.new policy).InOrder := ⟨Nat.zero_le 1, rfl⟩
    exact (Run.safe_of_condition (C := IngestsApart) (P := fun _ ↦ True) hinit
      (fun _ _ _ ho hstep hc ↦ ⟨ho.step hstep hc, trivial⟩) h hapart).1.ordered

/-- Two records are ingested one after the other, and tailed by a filter that only the second
matches. -/
def ingestsOfTwo : List RecordAction :=
  [.tail { minLevel := some .warn }, .store ⟨0, .info, "listening", none, none, none⟩, .send 0,
    .receive 0, .store ⟨1, .error, "refused", none, none, none⟩, .send 0, .receive 0]

theorem in_memory_keeps_two : ∃ s, execute recordStep (.new ⟨some 1, 60⟩) ingestsOfTwo = some s ∧
    s.tails.map (fun tail ↦ tail.yielded.map LogRecord.msg) = [["refused"]] ∧
    s.Keeps ⟨some 1, 60⟩ ∧ s.ingested = s.sent ++ s.ingests := by
  have hends : (execute recordStep (.new ⟨some 1, 60⟩) ingestsOfTwo).map
      (fun s ↦ s.tails.map fun tail ↦ tail.yielded.map LogRecord.msg) = some [["refused"]] := by
    decide +kernel
  obtain ⟨s, hs, hyielded⟩ := Option.map_eq_some_iff.mp hends
  obtain ⟨hkeeps, hordered⟩ := in_memory_keeps (Run.of_execute _ hs)
  refine ⟨s, hs, hyielded, hkeeps, hordered ?_⟩
  have hother {x : Transition InMemoryLogService RecordAction}
      (hx : ∀ record, x.action ≠ .store record) : IngestsApart x :=
    fun record h ↦ absurd h (hx record)
  refine forall_mem_transitions_cons rfl (hother (by simp)) ?_
  refine forall_mem_transitions_cons rfl (fun _ _ ↦ rfl) ?_
  refine forall_mem_transitions_cons rfl (hother (by simp)) ?_
  refine forall_mem_transitions_cons rfl (hother (by simp)) ?_
  refine forall_mem_transitions_cons rfl (fun _ _ ↦ rfl) ?_
  refine forall_mem_transitions_cons rfl (hother (by simp)) ?_
  refine forall_mem_transitions_cons rfl (hother (by simp)) ?_
  simp [transitions]

end ReinhardtCloud.Telemetry
