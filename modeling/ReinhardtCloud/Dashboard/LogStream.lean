import ReinhardtCloud.Base.Run

/-!
# The log stream of a socket

Library `Dashboard`. The messages about application logs that arrive on one notification socket,
and the tasks that they spawn (`utils/realtime/consumer.rs:304–311, 620–784`). Handlers and tasks
go on from one await to the next; what lies between two awaits is one step. Messages of a socket
are handled one after the other, since a handler borrows the socket's context.
-/

namespace ReinhardtCloud.Dashboard

open ReinhardtCloud.Base

/-- Where a log task waits, or that it is over. -/
inductive LogTaskPhase where
  | connect
  | reportUnavailable
  | tailLogs
  | acknowledge
  | receive
  | forward
  | lockHandle
  | clearHandle
  | finished
  | stopped
  deriving DecidableEq

/-- How an await of a task ends: well, badly, or well with a token that is no valid header. -/
inductive AwaitOutcome where
  | ok
  | failed
  | invalidMetadata
  deriving DecidableEq

/-- The next await of a task after one that is not about the handle, `consumer.rs:690–768`. -/
def LogTaskPhase.next : LogTaskPhase → AwaitOutcome → Option LogTaskPhase
  | .connect, .ok => some .tailLogs
  | .connect, _ => some .reportUnavailable
  | .reportUnavailable, _ => some .lockHandle
  | .tailLogs, .ok => some .acknowledge
  | .tailLogs, _ => some .reportUnavailable
  | .acknowledge, _ => some .receive
  | .receive, .ok => some .forward
  | .receive, _ => some .lockHandle
  | .forward, .ok => some .receive
  | .forward, _ => some .lockHandle
  | _, _ => none

/-- A spawned task, and whether its handle has been aborted. -/
structure LogTask where
  phase : LogTaskPhase
  aborted : Bool
  deriving DecidableEq

/-- What the handler does once it has cancelled the stream. -/
inductive AfterCancel where
  | subscribe
  | unsubscribe
  | disconnect
  deriving DecidableEq

/-- Where the handler of the current message waits. -/
inductive HandlerPhase where
  | idle
  | authorize
  | lockToCancel (after : AfterCancel)
  | cancelHandle (after : AfterCancel)
  | lockToStore
  | storeHandle
  | acknowledge
  | closed
  deriving DecidableEq

/-- Who holds the lock of `log_stream_handle`. -/
inductive HandleLock where
  | handler
  | task (i : Nat)
  deriving DecidableEq

/-- One socket: its handler, the tasks spawned so far, the handle slot and its lock. -/
structure LogSocket where
  handler : HandlerPhase
  tasks : List LogTask
  logStreamHandle : Option Nat
  lock : Option HandleLock
  deriving DecidableEq

/-- What happens next at the socket. -/
inductive LogSocketAction where
  | receiveSubscribeAppLogs
  | receiveUnsubscribeLogs
  | receiveDisconnect
  | authorized (granted : Bool)
  | handlerLocks
  | handlerWrites
  | acknowledged
  | taskAwaits (i : Nat) (outcome : AwaitOutcome)
  | taskLocks (i : Nat)
  | taskClears (i : Nat)
  | taskStops (i : Nat)
  deriving DecidableEq

namespace LogSocket

/-- A socket that has just been opened. -/
def init : LogSocket := ⟨.idle, [], none, none⟩

/-- `h.abort()` of the task behind the handle. -/
def abort (tasks : List LogTask) (i : Nat) : List LogTask :=
  match tasks[i]? with
  | some t => tasks.set i { t with aborted := true }
  | none => tasks

/-- `cancel_log_stream` under its lock, `consumer.rs:305–311`, and the next await. -/
def cancelLogStream (s : LogSocket) (after : AfterCancel) : LogSocket where
  handler :=
    match after with
    | .subscribe => .lockToStore
    | .unsubscribe => .acknowledge
    | .disconnect => .closed
  tasks :=
    match s.logStreamHandle with
    | some i => abort s.tasks i
    | none => s.tasks
  logStreamHandle := none
  lock := none

/-- The task is spawned and its handle stored under the lock, `consumer.rs:688, 773–774`. -/
def spawnLogTask (s : LogSocket) : LogSocket where
  handler := .idle
  tasks := s.tasks ++ [⟨.connect, false⟩]
  logStreamHandle := some s.tasks.length
  lock := none

/-- A step of the task, which has not been aborted. -/
def stepTask (s : LogSocket) (i : Nat) (phase : LogTaskPhase) : LogSocket :=
  { s with tasks := s.tasks.set i ⟨phase, false⟩ }

/-- One step. A disconnect drops the handler of a message where it waits; an aborted task takes no
lock and stops where it waits. -/
def step (s : LogSocket) : LogSocketAction → Option LogSocket
  | .receiveSubscribeAppLogs =>
    if s.handler = .idle then some { s with handler := .authorize } else none
  | .receiveUnsubscribeLogs =>
    if s.handler = .idle then some { s with handler := .lockToCancel .unsubscribe } else none
  | .receiveDisconnect =>
    match s.handler with
    | .cancelHandle _ => none
    | .storeHandle => none
    | .closed => none
    | _ => some { s with handler := .lockToCancel .disconnect }
  | .authorized granted =>
    if s.handler = .authorize then
      some { s with handler := if granted then .lockToCancel .subscribe else .idle }
    else none
  | .handlerLocks =>
    if s.lock = none then
      match s.handler with
      | .lockToCancel after => some { s with handler := .cancelHandle after, lock := some .handler }
      | .lockToStore => some { s with handler := .storeHandle, lock := some .handler }
      | _ => none
    else none
  | .handlerWrites =>
    match s.handler with
    | .cancelHandle after => some (s.cancelLogStream after)
    | .storeHandle => some s.spawnLogTask
    | _ => none
  | .acknowledged => if s.handler = .acknowledge then some { s with handler := .idle } else none
  | .taskAwaits i outcome =>
    match s.tasks[i]? with
    | some ⟨phase, false⟩ => (phase.next outcome).map (s.stepTask i)
    | _ => none
  | .taskLocks i =>
    if s.lock = none ∧ s.tasks[i]? = some ⟨.lockHandle, false⟩ then
      some { s.stepTask i .clearHandle with lock := some (.task i) }
    else none
  | .taskClears i =>
    match s.tasks[i]? with
    | some ⟨.clearHandle, aborted⟩ =>
      some { s with
        tasks := s.tasks.set i ⟨.finished, aborted⟩
        logStreamHandle := none
        lock := none }
    | _ => none
  | .taskStops i =>
    match s.tasks[i]? with
    | some ⟨phase, true⟩ =>
      if phase = .clearHandle ∨ phase = .finished then none
      else some { s with tasks := s.tasks.set i ⟨.stopped, true⟩ }
    | _ => none

/-- The task is neither finished nor aborted. -/
def Active (tasks : List LogTask) (i : Nat) : Prop :=
  ∃ phase, tasks[i]? = some ⟨phase, false⟩ ∧ phase ≠ .finished

/-- An active task is the one behind the handle; a task about to clear the handle is active and
holds the lock; after a cancellation nothing is active until the next task is stored. -/
structure Inv (s : LogSocket) : Prop where
  handle : ∀ i, Active s.tasks i → s.logStreamHandle = some i
  clearing : ∀ i aborted, s.tasks[i]? = some ⟨.clearHandle, aborted⟩ →
    aborted = false ∧ s.lock = some (.task i)
  locked : (∃ after, s.handler = .cancelHandle after) ∨ s.handler = .storeHandle →
    s.lock = some .handler
  cancelled : s.handler = .lockToStore ∨ s.handler = .storeHandle ∨ s.handler = .acknowledge ∨
    s.handler = .closed → ∀ i, ¬ Active s.tasks i

variable {s t : LogSocket} {tasks : List LogTask} {task old : LogTask} {i j : Nat}

theorem inv_init : init.Inv := by
  refine ⟨?_, ?_, ?_, ?_⟩
  · rintro i ⟨phase, hi, -⟩
    simp [init] at hi
  · intro i aborted hi
    simp [init] at hi
  · rintro (⟨after, h⟩ | h) <;> cases h
  · rintro (h | h | h | h) <;> cases h

/-! ## Which tasks are active -/

/-- A task of the list after one of them has changed. -/
theorem getElem?_set_task (hi : tasks[i]? = some old) :
    (tasks.set i task)[j]? = if j = i then some task else tasks[j]? := by
  by_cases hj : j = i
  · subst hj
    rw [if_pos rfl, List.getElem?_set_self (List.getElem?_eq_some_iff.mp hi).1]
  · rw [if_neg hj, List.getElem?_set_ne (Ne.symm hj)]

theorem active_set (hi : tasks[i]? = some old) : Active (tasks.set i task) j ↔
    j = i ∧ task.aborted = false ∧ task.phase ≠ .finished ∨ j ≠ i ∧ Active tasks j := by
  simp only [Active, getElem?_set_task hi]
  by_cases hj : j = i
  · subst hj
    constructor
    · rintro ⟨phase, hphase, hne⟩
      obtain rfl : task = ⟨phase, false⟩ := by simpa using hphase
      exact .inl ⟨rfl, rfl, hne⟩
    · rintro (⟨-, hactive, hne⟩ | ⟨hcontra, -⟩)
      · refine ⟨task.phase, ?_, hne⟩
        rw [if_pos rfl, ← hactive]
      · exact absurd rfl hcontra
  · simp [hj]

/-- A task that only waits elsewhere is as active as before. -/
theorem active_set_of_waiting (hi : tasks[i]? = some old) (haborted : task.aborted = old.aborted)
    (hold : old.phase ≠ .finished) (hnew : task.phase ≠ .finished) :
    Active (tasks.set i task) j ↔ Active tasks j := by
  rw [active_set hi]
  by_cases hj : j = i
  · subst hj
    constructor
    · rintro (⟨-, hactive, -⟩ | ⟨hcontra, -⟩)
      · refine ⟨old.phase, ?_, hold⟩
        rw [hi, ← hactive, haborted]
      · exact absurd rfl hcontra
    · rintro ⟨phase, hphase, -⟩
      rw [hi] at hphase
      obtain rfl := Option.some.inj hphase
      exact .inl ⟨rfl, haborted, hnew⟩
  · simp [hj]

/-- Only the task behind an aborted handle stops being active. -/
theorem active_abort : Active (abort tasks i) j ↔ Active tasks j ∧ j ≠ i := by
  rw [abort]
  split
  · next t hi =>
    rw [active_set hi]
    simp only [Bool.true_eq_false, false_and, false_or, and_comm]
  · next hi =>
    constructor
    · rintro ⟨phase, hphase, hne⟩
      refine ⟨⟨phase, hphase, hne⟩, ?_⟩
      rintro rfl
      rw [hi] at hphase
      cases hphase
    · exact fun h ↦ h.1

theorem active_append : Active (tasks ++ [⟨.connect, false⟩]) j ↔
    Active tasks j ∨ j = tasks.length := by
  constructor
  · rintro ⟨phase, hphase, hne⟩
    by_cases hj : j < tasks.length
    · rw [List.getElem?_append_left hj] at hphase
      exact .inl ⟨phase, hphase, hne⟩
    · right
      have hlt := (List.getElem?_eq_some_iff.mp hphase).1
      rw [List.length_append, List.length_singleton] at hlt
      omega
  · rintro (⟨phase, hphase, hne⟩ | rfl)
    · have hlt := (List.getElem?_eq_some_iff.mp hphase).1
      exact ⟨phase, by rwa [List.getElem?_append_left hlt], hne⟩
    · exact ⟨.connect, by simp, by decide⟩

/-- A waiting task is not aborted by looking at it: aborting leaves the phases. -/
theorem clearing_abort {aborted : Bool} (h : (abort tasks i)[j]? = some ⟨.clearHandle, aborted⟩) :
    ∃ b, tasks[j]? = some ⟨.clearHandle, b⟩ := by
  rw [abort] at h
  split at h
  · next t hi =>
    rw [getElem?_set_task hi] at h
    split at h
    · next hj =>
      subst hj
      obtain ⟨hphase, -⟩ := LogTask.mk.inj (Option.some.inj h)
      exact ⟨t.aborted, by rw [hi, ← hphase]⟩
    · exact ⟨aborted, h⟩
  · exact ⟨aborted, h⟩

/-! ## The steps keep the invariant -/

namespace Inv

/-- Every await but the last one leads to an await that is not the last write. -/
private theorem next_phase {phase phase' : LogTaskPhase} {outcome : AwaitOutcome}
    (h : phase.next outcome = some phase') :
    phase ≠ .finished ∧ phase' ≠ .finished ∧ phase' ≠ .clearHandle := by
  cases phase <;> cases outcome <;> simp [LogTaskPhase.next] at h <;> subst h <;> decide

/-- A task waits elsewhere and nothing else happens. -/
theorem stepTask (h : s.Inv) {phase phase' : LogTaskPhase} {b : Bool}
    (hi : s.tasks[i]? = some ⟨phase, b⟩) (hold : phase ≠ .finished) (hnew : phase' ≠ .finished)
    (hclear : phase' ≠ .clearHandle) :
    ({ s with tasks := s.tasks.set i ⟨phase', b⟩ } : LogSocket).Inv := by
  have hactive : ∀ j, Active (s.tasks.set i ⟨phase', b⟩) j ↔ Active s.tasks j :=
    fun j ↦ active_set_of_waiting hi rfl hold hnew
  refine ⟨fun j hj ↦ h.handle j ((hactive j).mp hj), ?_, h.locked, ?_⟩
  · intro j aborted hj
    dsimp only at hj
    rw [getElem?_set_task hi] at hj
    split at hj
    · obtain ⟨hphase, -⟩ := LogTask.mk.inj (Option.some.inj hj)
      exact absurd hphase hclear
    · exact h.clearing j aborted hj
  · exact fun hphase j hj ↦ h.cancelled hphase j ((hactive j).mp hj)

/-- A task that has the lock is the one that clears the handle. -/
theorem taskLocks (h : s.Inv) (hfree : s.lock = none)
    (hi : s.tasks[i]? = some ⟨.lockHandle, false⟩) :
    ({ s.stepTask i .clearHandle with lock := some (.task i) } : LogSocket).Inv := by
  have hactive : ∀ j, Active (s.tasks.set i ⟨.clearHandle, false⟩) j ↔ Active s.tasks j :=
    fun j ↦ active_set_of_waiting hi rfl (by decide) (by decide)
  refine ⟨fun j hj ↦ h.handle j ((hactive j).mp hj), ?_, ?_, ?_⟩
  · intro j aborted hj
    dsimp only [LogSocket.stepTask] at hj ⊢
    rw [getElem?_set_task hi] at hj
    split at hj
    · next hji =>
      subst hji
      obtain ⟨-, rfl⟩ := LogTask.mk.inj (Option.some.inj hj)
      exact ⟨rfl, rfl⟩
    · have hlock := (h.clearing j aborted hj).2
      rw [hfree] at hlock
      cases hlock
  · intro hphase
    have hlock := h.locked hphase
    rw [hfree] at hlock
    cases hlock
  · exact fun hphase j hj ↦ h.cancelled hphase j ((hactive j).mp hj)

/-- The task that clears the handle is the one behind it, so no other task is left without. -/
theorem taskClears (h : s.Inv) {aborted : Bool}
    (hi : s.tasks[i]? = some ⟨.clearHandle, aborted⟩) :
    ({ s with
      tasks := s.tasks.set i ⟨.finished, aborted⟩
      logStreamHandle := none
      lock := none } : LogSocket).Inv := by
  obtain ⟨rfl, hlock⟩ := h.clearing i aborted hi
  have hhandle : s.logStreamHandle = some i := h.handle i ⟨_, hi, by decide⟩
  have hnone : ∀ j, ¬ Active (s.tasks.set i ⟨.finished, false⟩) j := by
    intro j hj
    rcases (active_set hi).mp hj with ⟨-, -, hne⟩ | ⟨hne, hold⟩
    · exact hne rfl
    · have hslot := h.handle j hold
      rw [hhandle] at hslot
      exact hne (Option.some.inj hslot).symm
  refine ⟨fun j hj ↦ absurd hj (hnone j), ?_, ?_, fun _ ↦ hnone⟩
  · intro j aborted hj
    dsimp only at hj
    rw [getElem?_set_task hi] at hj
    split at hj
    · cases Option.some.inj hj
    · next hne =>
      have hother := (h.clearing j aborted hj).2
      rw [hlock] at hother
      cases hother
      exact absurd rfl hne
  · intro hphase
    have hcontra := h.locked hphase
    rw [hlock] at hcontra
    cases hcontra

/-- After a cancellation nothing is active. -/
theorem not_active_cancelLogStream (h : s.Inv) (after : AfterCancel) :
    ∀ j, ¬ Active (s.cancelLogStream after).tasks j := by
  intro j hj
  dsimp only [LogSocket.cancelLogStream] at hj
  cases hhandle : s.logStreamHandle with
  | none =>
    rw [hhandle] at hj
    have hslot := h.handle j hj
    rw [hhandle] at hslot
    cases hslot
  | some i =>
    rw [hhandle] at hj
    obtain ⟨hold, hne⟩ := active_abort.mp hj
    have hslot := h.handle j hold
    rw [hhandle] at hslot
    exact hne (Option.some.inj hslot).symm

theorem cancelLogStream (h : s.Inv) {after : AfterCancel}
    (hphase : s.handler = .cancelHandle after) : (s.cancelLogStream after).Inv := by
  have hnone := h.not_active_cancelLogStream after
  have hlock := h.locked (.inl ⟨after, hphase⟩)
  refine ⟨fun j hj ↦ absurd hj (hnone j), ?_, ?_, fun _ ↦ hnone⟩
  · -- No task clears the handle while the handler holds the lock.
    intro j aborted hj
    have hclearing : ∃ b, s.tasks[j]? = some ⟨.clearHandle, b⟩ := by
      dsimp only [LogSocket.cancelLogStream] at hj
      cases hhandle : s.logStreamHandle with
      | none =>
        rw [hhandle] at hj
        exact ⟨aborted, hj⟩
      | some i =>
        rw [hhandle] at hj
        exact clearing_abort hj
    obtain ⟨b, hb⟩ := hclearing
    have hcontra := (h.clearing j b hb).2
    rw [hlock] at hcontra
    cases hcontra
  · rintro (⟨a, ha⟩ | ha) <;> cases after <;> cases ha

theorem spawnLogTask (h : s.Inv) (hphase : s.handler = .storeHandle) : s.spawnLogTask.Inv := by
  have hnone := h.cancelled (.inr (.inl hphase))
  have hlock := h.locked (.inr hphase)
  refine ⟨?_, ?_, ?_, ?_⟩
  · intro j hj
    rcases active_append.mp hj with hold | rfl
    · exact absurd hold (hnone j)
    · rfl
  · intro j aborted hj
    dsimp only [LogSocket.spawnLogTask] at hj
    by_cases hlt : j < s.tasks.length
    · rw [List.getElem?_append_left hlt] at hj
      have hcontra := (h.clearing j aborted hj).2
      rw [hlock] at hcontra
      cases hcontra
    · rw [List.getElem?_append_right (by omega)] at hj
      have hnew := List.mem_of_getElem? hj
      cases List.mem_singleton.mp hnew
  · rintro (⟨a, ha⟩ | ha) <;> cases ha
  · rintro (ha | ha | ha | ha) <;> cases ha

/-- The handler waits elsewhere, before it has cancelled anything. -/
theorem handler (h : s.Inv) {phase : HandlerPhase}
    (hphase : phase = .idle ∨ phase = .authorize ∨ ∃ after, phase = .lockToCancel after) :
    ({ s with handler := phase } : LogSocket).Inv := by
  refine ⟨h.handle, h.clearing, ?_, ?_⟩
  · rintro (⟨a, rfl⟩ | rfl) <;> rcases hphase with hp | hp | ⟨_, hp⟩ <;> cases hp
  · rintro (rfl | rfl | rfl | rfl) <;> rcases hphase with hp | hp | ⟨_, hp⟩ <;> cases hp

theorem handlerLocks (h : s.Inv) (ht : step s .handlerLocks = some t) : t.Inv := by
  rw [LogSocket.step] at ht
  split at ht
  · next hfree =>
    have hnot : ∀ (j : Nat) (aborted : Bool),
      s.tasks[j]? ≠ some (LogTask.mk .clearHandle aborted) := by
      intro j aborted hj
      have hlock := (h.clearing j aborted hj).2
      rw [hfree] at hlock
      cases hlock
    split at ht
    · obtain rfl := Option.some.inj ht
      refine ⟨h.handle, fun j aborted hj ↦ absurd hj (hnot j aborted), fun _ ↦ rfl, ?_⟩
      rintro (ha | ha | ha | ha) <;> cases ha
    · next hphase =>
      obtain rfl := Option.some.inj ht
      exact ⟨h.handle, fun j aborted hj ↦ absurd hj (hnot j aborted), fun _ ↦ rfl,
        fun _ ↦ h.cancelled (.inl hphase)⟩
    · cases ht
  · cases ht

end Inv

theorem inv_step (h : s.Inv) {a : LogSocketAction} (ht : step s a = some t) : t.Inv := by
  cases a with
  | receiveSubscribeAppLogs =>
    rw [step] at ht
    split at ht
    · obtain rfl := Option.some.inj ht
      exact h.handler (.inr (.inl rfl))
    · cases ht
  | receiveUnsubscribeLogs =>
    rw [step] at ht
    split at ht
    · obtain rfl := Option.some.inj ht
      exact h.handler (.inr (.inr ⟨_, rfl⟩))
    · cases ht
  | receiveDisconnect =>
    rw [step] at ht
    split at ht
    · cases ht
    · cases ht
    · cases ht
    · obtain rfl := Option.some.inj ht
      exact h.handler (.inr (.inr ⟨_, rfl⟩))
  | authorized granted =>
    rw [step] at ht
    split at ht
    · obtain rfl := Option.some.inj ht
      cases granted with
      | true => exact h.handler (.inr (.inr ⟨_, rfl⟩))
      | false => exact h.handler (.inl rfl)
    · cases ht
  | handlerLocks => exact h.handlerLocks ht
  | handlerWrites =>
    rw [step] at ht
    split at ht
    · next after hphase =>
      obtain rfl := Option.some.inj ht
      exact h.cancelLogStream hphase
    · next hphase =>
      obtain rfl := Option.some.inj ht
      exact h.spawnLogTask hphase
    · cases ht
  | acknowledged =>
    rw [step] at ht
    split at ht
    · obtain rfl := Option.some.inj ht
      exact h.handler (.inl rfl)
    · cases ht
  | taskAwaits i outcome =>
    rw [step] at ht
    split at ht
    · next phase hi =>
      obtain ⟨phase', hnext, rfl⟩ := Option.map_eq_some_iff.mp ht
      obtain ⟨hold, hnew, hclear⟩ := Inv.next_phase hnext
      exact h.stepTask hi hold hnew hclear
    · cases ht
  | taskLocks i =>
    rw [step] at ht
    split at ht
    · next hi =>
      obtain rfl := Option.some.inj ht
      exact h.taskLocks hi.1 hi.2
    · cases ht
  | taskClears i =>
    rw [step] at ht
    split at ht
    · next aborted hi =>
      obtain rfl := Option.some.inj ht
      exact h.taskClears hi
    · cases ht
  | taskStops i =>
    rw [step] at ht
    split at ht
    · next phase hi =>
      split at ht
      · cases ht
      · next hphase =>
        obtain rfl := Option.some.inj ht
        exact h.stepTask hi (fun hp ↦ hphase (.inr hp)) (by decide) (by decide)
    · cases ht

/-- Only storing a new task makes anything active. -/
theorem not_active_step (hnone : ∀ j, ¬ Active s.tasks j) {a : LogSocketAction}
    (ht : step s a = some t) (ha : ¬ (a = .handlerWrites ∧ s.handler = .storeHandle)) :
    ∀ j, ¬ Active t.tasks j := by
  cases a with
  | taskAwaits i outcome =>
    rw [step] at ht
    split at ht
    · next phase hi =>
      obtain ⟨phase', hnext, rfl⟩ := Option.map_eq_some_iff.mp ht
      exact absurd ⟨phase, hi, (Inv.next_phase hnext).1⟩ (hnone i)
    · cases ht
  | taskLocks i =>
    rw [step] at ht
    split at ht
    · next hi => exact absurd ⟨_, hi.2, by decide⟩ (hnone i)
    · cases ht
  | taskClears i =>
    rw [step] at ht
    split at ht
    · next aborted hi =>
      obtain rfl := Option.some.inj ht
      intro j hj
      rcases (active_set hi).mp hj with ⟨-, -, hne⟩ | ⟨-, hold⟩
      · exact hne rfl
      · exact hnone j hold
    · cases ht
  | taskStops i =>
    rw [step] at ht
    split at ht
    · next phase hi =>
      split at ht
      · cases ht
      · obtain rfl := Option.some.inj ht
        intro j hj
        rcases (active_set hi).mp hj with ⟨-, hfalse, -⟩ | ⟨-, hold⟩
        · cases hfalse
        · exact hnone j hold
    · cases ht
  | handlerWrites =>
    rw [step] at ht
    split at ht
    · next after hphase =>
      obtain rfl := Option.some.inj ht
      intro j hj
      dsimp only [cancelLogStream] at hj
      split at hj
      · exact hnone j (active_abort.mp hj).1
      · exact hnone j hj
    · next hphase => exact absurd ⟨rfl, hphase⟩ ha
    · cases ht
  | handlerLocks =>
    rw [step] at ht
    split at ht
    · split at ht
      · obtain rfl := Option.some.inj ht
        exact hnone
      · obtain rfl := Option.some.inj ht
        exact hnone
      · cases ht
    · cases ht
  | receiveDisconnect =>
    rw [step] at ht
    split at ht
    · cases ht
    · cases ht
    · cases ht
    · obtain rfl := Option.some.inj ht
      exact hnone
  | _ =>
    rw [step] at ht
    split at ht
    · obtain rfl := Option.some.inj ht
      exact hnone
    · cases ht

/-- The step is the one in which `cancel_log_stream` of such a message aborts the stream. -/
def Cancels (x : Transition LogSocket LogSocketAction) (after : AfterCancel) : Prop :=
  x.action = .handlerWrites ∧ x.before.handler = .cancelHandle after

/-- The step stores the handle of a new task. -/
def Stores (x : Transition LogSocket LogSocketAction) : Prop :=
  x.action = .handlerWrites ∧ x.before.handler = .storeHandle

/-- After a disconnect has cancelled the stream the socket handles nothing any more. -/
theorem closed_step (hclosed : s.handler = .closed) {a : LogSocketAction} (ht : step s a = some t) :
    t.handler = .closed := by
  cases a with
  | taskAwaits i outcome =>
    rw [step] at ht
    split at ht
    · obtain ⟨phase', -, rfl⟩ := Option.map_eq_some_iff.mp ht
      exact hclosed
    · cases ht
  | taskLocks i =>
    rw [step] at ht
    split at ht
    · obtain rfl := Option.some.inj ht
      exact hclosed
    · cases ht
  | taskClears i =>
    rw [step] at ht
    split at ht
    · obtain rfl := Option.some.inj ht
      exact hclosed
    · cases ht
  | taskStops i =>
    rw [step] at ht
    split at ht
    · split at ht
      · cases ht
      · obtain rfl := Option.some.inj ht
        exact hclosed
    · cases ht
  | _ => simp [step, hclosed] at ht

/-- The step of a cancellation leaves nothing active. -/
private theorem Cancels.not_active {x : Transition LogSocket LogSocketAction} {after : AfterCancel}
    (hx : Cancels x after) (h : x.before.Inv) (hstep : step x.before x.action = some x.after) :
    x.after = x.before.cancelLogStream after ∧ ∀ i, ¬ Active x.after.tasks i := by
  rw [hx.1, step, hx.2] at hstep
  have heq : x.before.cancelLogStream after = x.after := Option.some.inj hstep
  rw [← heq]
  exact ⟨rfl, h.not_active_cancelLogStream after⟩

/-- In every run of the socket and its tasks at most one task is neither finished nor aborted and
the slot holds its handle. After the cancellation of an `UnsubscribeLogs` there is none until a
later `SubscribeAppLogs` stores the next, and after that of a disconnect there is none at all. -/
theorem one_log_stream {tr : List (Transition LogSocket LogSocketAction)}
    (h : Run step init tr s) :
    (∀ i j, Active s.tasks i → Active s.tasks j → i = j) ∧
    (∀ i, Active s.tasks i → s.logStreamHandle = some i) ∧
    ∀ tr₁ x tr₂, tr = tr₁ ++ x :: tr₂ →
      (Cancels x .unsubscribe ∧ ∀ y ∈ tr₂, ¬ Stores y) ∨ Cancels x .disconnect →
      ∀ i, ¬ Active s.tasks i := by
  have hinv : s.Inv := h.invariant inv_init fun _ _ _ hs ht ↦ inv_step hs ht
  have hsteps := h.forall_before inv_init fun _ _ _ hs ht ↦ inv_step hs ht
  refine ⟨?_, hinv.handle, ?_⟩
  · intro i j hi hj
    have heq := hinv.handle i hi
    rw [hinv.handle j hj] at heq
    exact (Option.some.inj heq).symm
  · rintro tr₁ x tr₂ rfl hx
    obtain ⟨hbefore, hstep⟩ := hsteps x (by simp)
    rcases hx with ⟨hx, hstores⟩ | hx
    · have hafter := (hx.not_active hbefore hstep).2
      rcases h.lost (Q := fun s ↦ ∀ i, ¬ Active s.tasks i) hafter with hnone | ⟨y, hy, hy₁, hy₂⟩
      · exact hnone
      · exact absurd (not_active_step hy₁ (hsteps y (by simp [hy])).2 (hstores y hy)) hy₂
    · have hafter : x.after.handler = .closed := by
        rw [(hx.not_active hbefore hstep).1]
        rfl
      rcases h.lost (Q := fun s ↦ s.handler = .closed) hafter with hclosed | ⟨y, hy, hy₁, hy₂⟩
      · exact hinv.cancelled (.inr (.inr (.inr hclosed)))
      · exact absurd (closed_step hy₁ (hsteps y (by simp [hy])).2) hy₂

/-- A stream that ends while a second subscription waits for the lock; the second one is cancelled
by the disconnect. -/
private def resubscribed : List LogSocketAction :=
  [.receiveSubscribeAppLogs, .authorized true, .handlerLocks, .handlerWrites, .handlerLocks,
    .handlerWrites, .taskAwaits 0 .ok, .taskAwaits 0 .ok, .taskAwaits 0 .ok, .taskAwaits 0 .failed,
    .receiveSubscribeAppLogs, .authorized true, .taskLocks 0, .taskClears 0, .handlerLocks,
    .handlerWrites, .handlerLocks, .handlerWrites, .taskAwaits 1 .ok, .receiveDisconnect,
    .handlerLocks, .handlerWrites]

theorem one_log_stream_resubscribed :
    ∃ s, execute step init resubscribed = some s ∧ s.tasks.length = 2 ∧
      (∀ i j, Active s.tasks i → Active s.tasks j → i = j) ∧
      (∀ i, Active s.tasks i → s.logStreamHandle = some i) ∧ ∀ i, ¬ Active s.tasks i := by
  have hrun : ∃ s, execute step init resubscribed = some s ∧ s.tasks.length = 2 ∧
      s.handler = .closed := ⟨_, rfl, by decide⟩
  obtain ⟨s, hexec, hlen, hclosed⟩ := hrun
  have hone := one_log_stream (Run.of_execute resubscribed hexec)
  refine ⟨s, hexec, hlen, hone.1, hone.2.1, ?_⟩
  have hsplit := (List.take_append_drop 21 (transitions step init resubscribed)).symm
  exact hone.2.2 _ _ [] hsplit (.inr ⟨rfl, rfl⟩)

end LogSocket

end ReinhardtCloud.Dashboard
