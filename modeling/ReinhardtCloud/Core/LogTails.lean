import ReinhardtCloud.Base.Broadcast
import ReinhardtCloud.Base.Run
import ReinhardtCloud.Telemetry.LogBackends

/-!
# Listing and tailing the log buffer

Library `Core`. `LogBuffer` and `LocalLogService`
(`crates/reinhardt-cloud-core/src/services/log/buffer.rs:16–75` and `local.rs:27–58`): pushes that
hold the lock, listings that wait for it, and tails that receive from the broadcast channel while
a push is under way.
-/

namespace ReinhardtCloud.Core

open ReinhardtCloud.Base ReinhardtCloud.Telemetry

/-- A `push` that holds the lock, `buffer.rs:37–48`: the entry that it has broadcast and is about
to store, and the entries that are left. -/
structure Push where
  broadcasted : Option LogEntry
  rest : List LogEntry

/-- A stream of `tail_logs`, `local.rs:33–58`. -/
structure Tail where
  filter : LogFilter
  receiver : Receiver LogEntry

/-- What the stream has yielded. -/
def Tail.yielded (tail : Tail) : List LogEntry :=
  tail.receiver.received.filter (matchesFilter · tail.filter)

/-- The capacity of the channel, `buffer.rs:25`. -/
def broadcastCapacity : Nat := 1024

/-- `LogBuffer`, the push that holds its lock and the tails of it. `sent` is what has been
broadcast so far: history only, no step reads it. -/
structure LogBuffer where
  entries : List LogEntry
  capacity : Nat
  broadcastTx : Broadcast LogEntry
  push : Option Push
  tails : List Tail
  sent : List LogEntry

namespace LogBuffer

/-- `LogBuffer::new`, `buffer.rs:24–31`. -/
def new (capacity : Nat) : LogBuffer := ⟨[], capacity, .new broadcastCapacity, none, [], []⟩

/-- `query`, `buffer.rs:58–64`: absent while a push holds the lock. -/
def query (buffer : LogBuffer) (filter : LogFilter) : Option (List LogEntry) :=
  if buffer.push.isSome then none
  else some (buffer.entries.filter (matchesFilter · filter))

end LogBuffer

/-- The steps of pushes and tails. -/
inductive LogAction where
  /-- A push takes the lock. -/
  | lock (entries : List LogEntry)
  /-- It sends its next entry to the channel. -/
  | broadcast
  /-- It stores that entry, and drops the oldest one from a full buffer. -/
  | store
  /-- It has no more entries. -/
  | unlock
  /-- `tail_logs`. -/
  | tail (filter : LogFilter)
  /-- The stream of a tail receives once. -/
  | receive (i : Nat)

/-- Execute one step; absent when the step is not enabled. -/
def logStep (s : LogBuffer) : LogAction → Option LogBuffer
  | .lock entries =>
    match s.push with
    | none => some { s with push := some ⟨none, entries⟩ }
    | some _ => none
  | .broadcast =>
    match s.push with
    | some ⟨none, entry :: rest⟩ => some { s with
        broadcastTx := s.broadcastTx.send entry
        push := some ⟨some entry, rest⟩
        sent := s.sent ++ [entry] }
    | _ => none
  | .store =>
    match s.push with
    | some ⟨some entry, rest⟩ => some { s with
        entries := pushBounded s.capacity s.entries entry
        push := some ⟨none, rest⟩ }
    | _ => none
  | .unlock =>
    match s.push with
    | some ⟨none, []⟩ => some { s with push := none }
    | _ => none
  | .tail filter =>
    some { s with tails := s.tails ++ [⟨filter, .subscribe s.broadcastTx⟩] }
  | .receive i =>
    (s.tails[i]?).map fun tail ↦ { s with
      tails := s.tails.set i { tail with receiver := tail.receiver.advance s.broadcastTx } }

/-! ## What a run keeps -/

/-- The entries stored so far: all that were broadcast, except one that is about to be. -/
def LogBuffer.Stored (s : LogBuffer) (stored : List LogEntry) : Prop :=
  match s.push with
  | some ⟨some entry, _⟩ => s.sent = stored ++ [entry]
  | _ => s.sent = stored

/-- The invariant of a log buffer. -/
structure LogBuffer.Wf (capacity : Nat) (s : LogBuffer) : Prop where
  capacity_eq : s.capacity = capacity
  channel_capacity : s.broadcastTx.capacity = broadcastCapacity
  channel : s.broadcastTx.Sent s.sent
  entries : ∃ stored, s.Stored stored ∧ s.entries = stored.rtake capacity
  tails : ∀ tail ∈ s.tails, ∃ positions,
    tail.receiver.Faithful s.sent broadcastCapacity positions

variable {capacity : Nat} {s t : LogBuffer}

theorem wf_new (capacity : Nat) : (LogBuffer.new capacity).Wf capacity where
  capacity_eq := rfl
  channel_capacity := rfl
  channel := Broadcast.sent_new _
  entries := ⟨[], rfl, (List.rtake_nil _).symm⟩
  tails := fun _ htail ↦ absurd htail List.not_mem_nil

/-- What each step does to a well-formed buffer. -/
theorem LogBuffer.Wf.step {a : LogAction} (hw : s.Wf capacity) (h : logStep s a = some t) :
    t.Wf capacity := by
  obtain ⟨stored, hstored, hentries⟩ := hw.entries
  rw [LogBuffer.Stored] at hstored
  cases a with
  | lock entries =>
    rw [logStep] at h
    split at h
    · next hpush =>
      obtain rfl := Option.some.inj h
      rw [hpush] at hstored
      exact ⟨hw.capacity_eq, hw.channel_capacity, hw.channel, ⟨stored, hstored, hentries⟩, hw.tails⟩
    · cases h
  | broadcast =>
    rw [logStep] at h
    split at h
    · next entry rest hpush =>
      obtain rfl := Option.some.inj h
      rw [hpush] at hstored
      refine ⟨hw.capacity_eq, hw.channel_capacity, hw.channel.send entry, ⟨stored, ?_, hentries⟩,
        ?_⟩
      · show s.sent ++ [entry] = stored ++ [entry]
        rw [hstored]
      · intro tail htail
        obtain ⟨positions, hfaithful⟩ := hw.tails tail htail
        exact ⟨positions, hfaithful.append [entry]⟩
    · cases h
  | store =>
    rw [logStep] at h
    split at h
    · next entry rest hpush =>
      obtain rfl := Option.some.inj h
      rw [hpush] at hstored
      refine ⟨hw.capacity_eq, hw.channel_capacity, hw.channel, ⟨stored ++ [entry], hstored, ?_⟩,
        hw.tails⟩
      show pushBounded s.capacity s.entries entry = _
      rw [hentries, hw.capacity_eq, pushBounded_rtake]
    · cases h
  | unlock =>
    rw [logStep] at h
    split at h
    · next hpush =>
      obtain rfl := Option.some.inj h
      rw [hpush] at hstored
      exact ⟨hw.capacity_eq, hw.channel_capacity, hw.channel, ⟨stored, hstored, hentries⟩, hw.tails⟩
    · cases h
  | tail filter =>
    obtain rfl := Option.some.inj h
    refine ⟨hw.capacity_eq, hw.channel_capacity, hw.channel, ⟨stored, hstored, hentries⟩, ?_⟩
    intro tail htail
    rcases List.mem_append.mp htail with hold | hnew
    · exact hw.tails tail hold
    · rw [List.mem_singleton.mp hnew, ← hw.channel_capacity]
      exact ⟨[], Receiver.faithful_subscribe hw.channel⟩
  | receive i =>
    obtain ⟨tail, htail, rfl⟩ := Option.map_eq_some_iff.mp h
    refine ⟨hw.capacity_eq, hw.channel_capacity, hw.channel, ⟨stored, hstored, hentries⟩, ?_⟩
    intro other hother
    rcases List.mem_or_eq_of_mem_set hother with hold | rfl
    · exact hw.tails other hold
    · obtain ⟨positions, hfaithful⟩ := hw.tails tail (List.mem_of_getElem? htail)
      rw [← hw.channel_capacity] at hfaithful ⊢
      exact hfaithful.advance hw.channel

theorem wf_of_run {tr : List (Transition LogBuffer LogAction)}
    (h : Run logStep (LogBuffer.new capacity) tr s) : s.Wf capacity :=
  Run.invariant (wf_new capacity) (fun _ _ _ hw hstep ↦ hw.step hstep) h

/-! ## Listings and tails -/

/-- A listing has the matching ones of the last entries that were pushed, as many as the buffer
holds. A tail yields matching entries in the order in which they were pushed, none twice, and
misses one only behind as many later entries as the channel retains. While nothing was dropped, a
listing is what matched before a tail, what the tail has yielded and what it will yield. -/
structure LogBuffer.ListsAndTails (capacity : Nat) (s : LogBuffer) : Prop where
  lists : ∀ filter entries, s.query filter = some entries →
    entries = (s.sent.rtake capacity).filter (matchesFilter · filter)
  tails : ∀ tail ∈ s.tails, ∃ positions,
    tail.receiver.Faithful s.sent broadcastCapacity positions
  together : ∀ tail ∈ s.tails, ∀ entries, s.query tail.filter = some entries →
    s.sent.length ≤ capacity → s.sent.length ≤ tail.receiver.start + broadcastCapacity →
    entries = (s.sent.take tail.receiver.start).filter (matchesFilter · tail.filter) ++
      tail.yielded ++ (s.sent.drop tail.receiver.next).filter (matchesFilter · tail.filter)

/-- Without a push under way everything broadcast is stored. -/
theorem LogBuffer.Wf.query_eq (hw : s.Wf capacity) {filter : LogFilter} {entries : List LogEntry}
    (h : s.query filter = some entries) :
    entries = (s.sent.rtake capacity).filter (matchesFilter · filter) := by
  obtain ⟨stored, hstored, hentries⟩ := hw.entries
  rw [LogBuffer.query] at h
  split at h
  · cases h
  · next hpush =>
    rw [LogBuffer.Stored, Option.not_isSome_iff_eq_none.mp hpush] at hstored
    rw [← Option.some.inj h, hentries, hstored]

/-- The entries before a receiver subscribed, those it has passed and those it has not. -/
theorem split_at_receiver {sent : List LogEntry} {receiver : Receiver LogEntry}
    (h : receiver.start ≤ receiver.next) :
    sent.take receiver.start ++ (sent.take receiver.next).drop receiver.start ++
      sent.drop receiver.next = sent := by
  have htake : sent.take receiver.start = (sent.take receiver.next).take receiver.start := by
    rw [List.take_take, Nat.min_eq_left h]
  rw [htake, List.take_append_drop, List.take_append_drop]

/-- Listings and tails of one log buffer agree, whatever is pushed, listed and received in any
order. -/
theorem lists_and_tails {tr : List (Transition LogBuffer LogAction)}
    (h : Run logStep (LogBuffer.new capacity) tr s) : s.ListsAndTails capacity := by
  have hw := wf_of_run h
  refine ⟨fun filter entries hquery ↦ hw.query_eq hquery, hw.tails, ?_⟩
  intro tail htail entries hquery hcapacity hkept
  obtain ⟨positions, hfaithful⟩ := hw.tails tail htail
  have hall : s.sent.rtake capacity = s.sent := by
    rw [List.rtake, Nat.sub_eq_zero_of_le hcapacity, List.drop_zero]
  rw [hw.query_eq hquery, hall, Tail.yielded, hfaithful.received_eq hkept, ← List.filter_append,
    ← List.filter_append, split_at_receiver hfaithful.bounded.1]

/-- Two entries are pushed into a buffer of one, and tailed. -/
def pushesOfTwo : List LogAction :=
  [.tail {}, .lock [⟨0, .info, "shop", "listening"⟩, ⟨1, .error, "shop", "refused"⟩], .broadcast,
    .store, .broadcast, .receive 0, .store, .unlock, .receive 0]

theorem lists_and_tails_two : ∃ s, execute logStep (.new 1) pushesOfTwo = some s ∧
    s.entries.length = 1 ∧ s.ListsAndTails 1 := by
  have hends : ∃ s, execute logStep (.new 1) pushesOfTwo = some s ∧ s.entries.length = 1 :=
    ⟨_, rfl, rfl⟩
  obtain ⟨s, hs, hentries⟩ := hends
  exact ⟨s, hs, hentries, lists_and_tails (Run.of_execute _ hs)⟩

end ReinhardtCloud.Core
