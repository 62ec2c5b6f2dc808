import ReinhardtCloud.Base.Run

/-!
# Connections retried a bounded number of times

Library `Base`. A client keeps at most one connection. A lost one is retried after a pause, at most
`limit` times in a row; opening one starts the count anew. An attempt may find that no connection
can be made at all. Nothing here names a component.
-/

namespace ReinhardtCloud.Base

/-- Where the connection of the client stands, with the attempts since one was open. -/
inductive Link where
  | off
  | unconnected (attempts : Nat)
  | live (attempts : Nat)
  | waiting (attempts : Nat)
  | exhausted (attempts : Nat)
  deriving DecidableEq

/-- What happens to a connection. The flags say whether a connection can be made. -/
inductive LinkEvent where
  | wanted (connects : Bool)
  | retried (connects : Bool)
  | opened
  | lost
  | left
  deriving DecidableEq

namespace Link

/-- An attempt at a connection. -/
def attempt (attempts : Nat) : Bool → Link
  | true => live attempts
  | false => unconnected attempts

/-- How the client goes on; absent for what cannot happen. -/
def next (limit : Nat) : Link → LinkEvent → Option Link
  | _, .left => some off
  | off, .wanted connects => some (attempt 0 connects)
  | unconnected attempts, .wanted connects => some (attempt attempts connects)
  | link, .wanted _ => some link
  | waiting attempts, .retried connects => some (attempt attempts connects)
  | live _, .opened => some (live 0)
  | live attempts, .lost =>
    if attempts + 1 ≤ limit then some (waiting (attempts + 1)) else some (exhausted (attempts + 1))
  | _, _ => none

/-- The event makes a connection. -/
def connects : Link → LinkEvent → Bool
  | off, .wanted connects => connects
  | unconnected _, .wanted connects => connects
  | waiting _, .retried connects => connects
  | _, _ => false

/-- The attempts are within the limit. -/
def Within (limit : Nat) : Link → Prop
  | off => True
  | unconnected attempts => attempts ≤ limit
  | live attempts => attempts ≤ limit
  | waiting attempts => attempts ≤ limit
  | exhausted attempts => attempts = limit + 1

/-- How many connections can still be made before one opens or the client leaves. -/
def budget (limit : Nat) : Link → Nat
  | off => limit + 1
  | unconnected attempts => limit + 1 - attempts
  | live attempts => limit - attempts
  | waiting attempts => limit + 1 - attempts
  | exhausted _ => 0

variable {limit : Nat} {link link' : Link} {event : LinkEvent}

theorem budget_le (limit : Nat) (link : Link) : link.budget limit ≤ limit + 1 := by
  cases link <;> simp only [budget] <;> omega

theorem within_attempt {attempts : Nat} {connects : Bool} :
    (attempt attempts connects).Within limit ↔ attempts ≤ limit := by
  cases connects <;> exact Iff.rfl

theorem budget_attempt {attempts : Nat} {connects : Bool} (h : attempts ≤ limit) :
    connects.toNat + (attempt attempts connects).budget limit = limit + 1 - attempts := by
  cases connects with
  | false =>
    simp only [attempt, budget, Bool.toNat_false]
    omega
  | true =>
    simp only [attempt, budget, Bool.toNat_true]
    omega

/-- What a lost connection comes to. -/
theorem next_lost {attempts : Nat} (hnext : (live attempts).next limit .lost = some link') :
    attempts + 1 ≤ limit ∧ link' = waiting (attempts + 1) ∨
      ¬ attempts + 1 ≤ limit ∧ link' = exhausted (attempts + 1) := by
  rw [next] at hnext
  split at hnext
  · rename_i hle
    exact .inl ⟨hle, (Option.some.inj hnext).symm⟩
  · rename_i hlt
    exact .inr ⟨hlt, (Option.some.inj hnext).symm⟩

theorem within_next (h : link.Within limit) (hnext : link.next limit event = some link') :
    link'.Within limit := by
  cases event with
  | wanted b =>
    cases link with
    | off =>
      cases hnext
      exact within_attempt.mpr (Nat.zero_le limit)
    | unconnected attempts =>
      cases hnext
      exact within_attempt.mpr h
    | _ =>
      cases hnext
      exact h
  | retried b =>
    cases link with
    | waiting attempts =>
      cases hnext
      exact within_attempt.mpr h
    | _ => cases hnext
  | opened =>
    cases link with
    | live attempts =>
      cases hnext
      exact Nat.zero_le limit
    | _ => cases hnext
  | lost =>
    cases link with
    | live attempts =>
      rcases next_lost hnext with ⟨hle, rfl⟩ | ⟨hlt, rfl⟩
      · exact hle
      · simp only [Within] at h ⊢
        omega
    | _ => cases hnext
  | left =>
    cases hnext
    trivial

/-- Only opening a connection and leaving give the client new attempts. -/
theorem budget_next (h : link.Within limit) (hnext : link.next limit event = some link')
    (hopened : event ≠ .opened) (hleft : event ≠ .left) :
    (link.connects event).toNat + link'.budget limit ≤ link.budget limit := by
  cases event with
  | wanted b =>
    cases link with
    | off =>
      cases hnext
      exact Nat.le_of_eq (budget_attempt (Nat.zero_le limit))
    | unconnected attempts =>
      cases hnext
      exact Nat.le_of_eq (budget_attempt h)
    | _ =>
      cases hnext
      simp [connects]
  | retried b =>
    cases link with
    | waiting attempts =>
      cases hnext
      exact Nat.le_of_eq (budget_attempt h)
    | _ => cases hnext
  | opened => exact absurd rfl hopened
  | lost =>
    cases link with
    | live attempts =>
      rcases next_lost hnext with ⟨-, rfl⟩ | ⟨-, rfl⟩
      · simp only [connects, budget, Bool.toNat_false]
        omega
      · simp [connects, budget]
    | _ => cases hnext
  | left => exact absurd rfl hleft

/-- A client that has given up stays so until it leaves. -/
theorem next_exhausted {attempts : Nat} (hnext : (exhausted attempts).next limit event = some link')
    (hleft : event ≠ .left) : link' = exhausted attempts := by
  cases event with
  | wanted b =>
    cases hnext
    rfl
  | left => exact absurd rfl hleft
  | _ => cases hnext

end Link

end ReinhardtCloud.Base
