import Mathlib.Data.List.DropRight
import Mathlib.Data.List.Forall2

/-!
# Bounded broadcast channels

Library `Base`. A queue that drops its oldest values, a channel that retains the last values sent
to it, and receivers that read it at their own pace and skip what it no longer has. Values are
counted from zero in the order in which they were sent. Nothing here names a component.
-/

namespace ReinhardtCloud.Base

universe u

variable {α : Type u}

/-! ## The end of a list -/

theorem length_rtake (l : List α) (n : Nat) : (l.rtake n).length = min n l.length := by
  rw [List.rtake, List.length_drop]
  omega

/-- Append a value and drop the oldest one from a queue that became too long. -/
def pushBounded (capacity : Nat) (queue : List α) (x : α) : List α :=
  if capacity < (queue ++ [x]).length then (queue ++ [x]).tail else queue ++ [x]

/-- Such a queue holds the last values that were appended. -/
theorem pushBounded_rtake (capacity : Nat) (l : List α) (x : α) :
    pushBounded capacity (l.rtake capacity) x = (l ++ [x]).rtake capacity := by
  rw [pushBounded, List.length_append, length_rtake, List.length_singleton]
  cases capacity with
  | zero => rw [List.rtake_zero, List.rtake_zero, if_pos (by omega)]; rfl
  | succ n =>
    rw [List.rtake_concat_succ]
    by_cases h : n + 1 ≤ l.length
    · rw [if_pos (by omega), List.rtake, List.rtake, ← List.drop_one, List.drop_append,
        List.drop_drop, List.length_drop]
      have hone : 1 - (l.length - (l.length - (n + 1))) = 0 := by omega
      have hdrop : l.length - (n + 1) + 1 = l.length - n := by omega
      rw [hone, hdrop, List.drop_zero]
    · have hall (m : Nat) (hm : l.length ≤ m) : l.rtake m = l := by
        rw [List.rtake, Nat.sub_eq_zero_of_le hm, List.drop_zero]
      rw [if_neg (by omega), hall n (by omega), hall (n + 1) (by omega)]

/-- The elements at consecutive positions. -/
theorem filterMap_range' (l : List α) (start n : Nat) :
    (List.range' start n).filterMap (l[·]?) = (l.drop start).take n := by
  induction n generalizing start with
  | zero => rfl
  | succ n ih =>
    rw [List.range'_succ]
    by_cases hstart : start < l.length
    · rw [List.filterMap_cons_some (List.getElem?_eq_getElem hstart), ih,
        List.drop_eq_getElem_cons hstart, List.take_succ_cons]
    · rw [List.filterMap_cons_none (List.getElem?_eq_none (by omega)), ih,
        List.drop_eq_nil_of_le (by omega), List.drop_eq_nil_of_le (by omega), List.take_nil,
        List.take_nil]

/-! ## Channels -/

/-- A channel that retains as many of the values sent last as it can. -/
structure Broadcast (α : Type u) where
  capacity : Nat
  /-- How many values were sent. -/
  tail : Nat
  /-- The values retained, oldest first. -/
  retained : List α
  retained_length : retained.length = min capacity tail

namespace Broadcast

/-- A channel before its first value. -/
def new (capacity : Nat) : Broadcast α := ⟨capacity, 0, [], by simp⟩

/-- Send a value. -/
def send (channel : Broadcast α) (x : α) : Broadcast α where
  capacity := channel.capacity
  tail := channel.tail + 1
  retained := (channel.retained ++ [x]).rtake channel.capacity
  retained_length := by
    rw [length_rtake, List.length_append, channel.retained_length, List.length_singleton]
    omega

/-- The number of the oldest value retained. -/
def oldest (channel : Broadcast α) : Nat := channel.tail - channel.retained.length

/-- What a receiver finds. -/
inductive Received (α : Type u) where
  /-- Nothing new. -/
  | empty
  /-- So many values are no longer retained. -/
  | lagged (missed : Nat)
  | value (x : α)

/-- Receive at a position: what is found there, and where to go on. -/
def recv (channel : Broadcast α) (next : Nat) : Received α × Nat :=
  if next < channel.oldest then (.lagged (channel.oldest - next), channel.oldest)
  else
    match channel.retained[next - channel.oldest]? with
    | some x => (.value x, next + 1)
    | none => (.empty, next)

/-- The channel has sent these values. -/
structure Sent (channel : Broadcast α) (sent : List α) : Prop where
  tail : channel.tail = sent.length
  retained : channel.retained = sent.rtake channel.capacity

theorem sent_new (capacity : Nat) : (new capacity : Broadcast α).Sent [] :=
  ⟨rfl, (List.rtake_nil _).symm⟩

theorem Sent.send {channel : Broadcast α} {sent : List α} (h : channel.Sent sent) (x : α) :
    (channel.send x).Sent (sent ++ [x]) where
  tail := by
    show channel.tail + 1 = _
    rw [h.tail, List.length_append, List.length_singleton]
  retained := by
    show (channel.retained ++ [x]).rtake channel.capacity = (sent ++ [x]).rtake channel.capacity
    rw [h.retained]
    cases channel.capacity with
    | zero => rw [List.rtake_zero, List.rtake_zero]
    | succ n =>
      rw [List.rtake_concat_succ, List.rtake_concat_succ]
      apply congrArg (· ++ [x])
      rw [List.rtake, List.rtake, List.rtake, List.drop_drop, List.length_drop]
      apply congrArg (sent.drop ·)
      omega

theorem Sent.oldest {channel : Broadcast α} {sent : List α} (h : channel.Sent sent) :
    channel.oldest = sent.length - channel.capacity := by
  rw [Broadcast.oldest, channel.retained_length, h.tail]
  omega

/-- What a receiver finds at a position, from the values sent. -/
theorem Sent.recv {channel : Broadcast α} {sent : List α} (h : channel.Sent sent) (next : Nat) :
    channel.recv next =
      if next + channel.capacity < sent.length then
        (.lagged (sent.length - channel.capacity - next), sent.length - channel.capacity)
      else
        match sent[next]? with
        | some x => (.value x, next + 1)
        | none => (.empty, next) := by
  rw [Broadcast.recv, h.oldest]
  by_cases hlag : next + channel.capacity < sent.length
  · rw [if_pos (by omega), if_pos hlag]
  · rw [if_neg (by omega), if_neg hlag, h.retained, List.rtake, List.getElem?_drop]
    have hposition : sent.length - channel.capacity + (next - (sent.length - channel.capacity)) =
        next := by
      omega
    rw [hposition]

@[simp] theorem capacity_send (channel : Broadcast α) (x : α) :
    (channel.send x).capacity = channel.capacity := rfl

end Broadcast

/-! ## Receivers -/

/-- A receiver: where it subscribed, where it is, and what it received so far. -/
structure Receiver (α : Type u) where
  start : Nat
  next : Nat
  received : List α

namespace Receiver

/-- Subscribe: only values sent from now on are received. -/
def subscribe (channel : Broadcast α) : Receiver α := ⟨channel.tail, channel.tail, []⟩

/-- Receive once. -/
def advance (channel : Broadcast α) (receiver : Receiver α) : Receiver α :=
  match channel.recv receiver.next with
  | (.value x, next) => { receiver with next, received := receiver.received ++ [x] }
  | (_, next) => { receiver with next }

/-- The receiver got values at growing positions, each at most once, and each value since its
subscription that it passed by was followed by more values than the channel retains. -/
structure Faithful (sent : List α) (capacity : Nat) (receiver : Receiver α)
    (positions : List Nat) : Prop where
  ascending : positions.Pairwise (· < ·)
  within : ∀ p ∈ positions, receiver.start ≤ p ∧ p < receiver.next
  bounded : receiver.start ≤ receiver.next ∧ receiver.next ≤ sent.length
  received : receiver.received = positions.filterMap (sent[·]?)
  missed : ∀ p, receiver.start ≤ p → p < receiver.next → p ∉ positions →
    p + capacity < sent.length

theorem faithful_subscribe {channel : Broadcast α} {sent : List α} (h : channel.Sent sent) :
    Faithful sent channel.capacity (subscribe channel) [] where
  ascending := .nil
  within := fun _ hp ↦ absurd hp List.not_mem_nil
  bounded := ⟨Nat.le_refl _, Nat.le_of_eq h.tail⟩
  received := rfl
  missed := fun _ hstart hnext _ ↦ absurd hnext (Nat.not_lt.mpr hstart)

/-- Another value sent takes nothing from what was received. -/
theorem Faithful.append {sent : List α} {capacity : Nat} {receiver : Receiver α}
    {positions : List Nat} (h : Faithful sent capacity receiver positions) (more : List α) :
    Faithful (sent ++ more) capacity receiver positions where
  ascending := h.ascending
  within := h.within
  bounded := ⟨h.bounded.1, by
    have hbound := h.bounded.2
    rw [List.length_append]
    omega⟩
  received := by
    rw [h.received]
    apply List.filterMap_congr
    intro p hp
    have hlt := (h.within p hp).2
    have hbound := h.bounded.2
    rw [List.getElem?_append_left (by omega)]
  missed := by
    intro p hstart hnext hp
    have hlost := h.missed p hstart hnext hp
    rw [List.length_append]
    omega

theorem Faithful.advance {channel : Broadcast α} {sent : List α} {receiver : Receiver α}
    {positions : List Nat} (hsent : channel.Sent sent)
    (h : Faithful sent channel.capacity receiver positions) :
    ∃ positions', Faithful sent channel.capacity (receiver.advance channel) positions' := by
  rw [Receiver.advance, hsent.recv]
  by_cases hlag : receiver.next + channel.capacity < sent.length
  · rw [if_pos hlag]
    refine ⟨positions, h.ascending, ?_, ?_, h.received, ?_⟩
    · intro p hp
      have hwithin := h.within p hp
      show receiver.start ≤ p ∧ p < sent.length - channel.capacity
      omega
    · have hbound := h.bounded
      show receiver.start ≤ sent.length - channel.capacity ∧
        sent.length - channel.capacity ≤ sent.length
      omega
    · intro p _ hnext _
      have hlt : p < sent.length - channel.capacity := hnext
      omega
  · rw [if_neg hlag]
    cases hx : sent[receiver.next]? with
    | none => exact ⟨positions, h⟩
    | some x =>
      have hlt : receiver.next < sent.length := (List.getElem?_eq_some_iff.mp hx).1
      have hbound := h.bounded
      refine ⟨positions ++ [receiver.next], ?_, ?_, ?_, ?_, ?_⟩
      · rw [List.pairwise_append]
        refine ⟨h.ascending, List.pairwise_singleton _ _, ?_⟩
        intro p hp q hq
        rw [List.mem_singleton.mp hq]
        exact (h.within p hp).2
      · intro p hp
        show receiver.start ≤ p ∧ p < receiver.next + 1
        rcases List.mem_append.mp hp with hp | hp
        · have hwithin := h.within p hp
          omega
        · rw [List.mem_singleton.mp hp]
          omega
      · show receiver.start ≤ receiver.next + 1 ∧ receiver.next + 1 ≤ sent.length
        omega
      · show receiver.received ++ [x] = _
        rw [List.filterMap_append, ← h.received, List.filterMap_cons_some hx, List.filterMap_nil]
      · intro p hstart hnext hp
        have hstep : p < receiver.next + 1 := hnext
        rw [List.mem_append, List.mem_singleton, not_or] at hp
        exact h.missed p hstart (by omega) hp.1

/-- As long as no more values were sent since the subscription than the channel retains, all of
them are received. -/
theorem Faithful.received_eq {sent : List α} {capacity : Nat} {receiver : Receiver α}
    {positions : List Nat} (h : Faithful sent capacity receiver positions)
    (hkept : sent.length ≤ receiver.start + capacity) :
    receiver.received = (sent.take receiver.next).drop receiver.start := by
  have hbound := h.bounded
  have hall : positions = List.range' receiver.start (receiver.next - receiver.start) := by
    have hrange : (List.range' receiver.start (receiver.next - receiver.start)).Pairwise (· < ·) :=
      List.pairwise_lt_range' ..
    refine List.Perm.eq_of_pairwise (fun p q _ _ hpq hqp ↦ ?_) h.ascending hrange ?_
    · omega
    apply (List.perm_ext_iff_of_nodup (h.ascending.imp (fun hlt ↦ Nat.ne_of_lt hlt))
      List.nodup_range').mpr
    intro p
    rw [List.mem_range'_1]
    constructor
    · intro hp
      have hwithin := h.within p hp
      omega
    · intro hp
      by_contra hmissed
      have hlost := h.missed p hp.1 (by omega) hmissed
      omega
  rw [h.received, hall, filterMap_range', List.drop_take]

end Receiver

end ReinhardtCloud.Base
