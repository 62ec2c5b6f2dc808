import Mathlib.Data.List.Basic
import ReinhardtCloud.Core.PluginRegistry
import ReinhardtCloud.Grpc.Registry

/-!
# Times, errors and streams on the wire

Library `Grpc`. The conversions that the services share
(`crates/reinhardt-cloud-grpc/src/services/{build,log,cluster_agent}.rs`): times as
`google.protobuf.Timestamp`, `ApiError` as a status, and the end of a stream at its first status.
-/

namespace ReinhardtCloud.Grpc

open ReinhardtCloud.Core

/-! ## Times -/

/-- `prost_types::Timestamp`. -/
structure Timestamp where
  seconds : Int
  nanos : Int
  deriving DecidableEq

/-- The first second of a `chrono::DateTime<Utc>`, of the year -262143. -/
def minSecond : Int := -8334601228800

/-- The last one, of the year 262142. -/
def maxSecond : Int := 8210266876799

/-- The times that a `chrono::DateTime<Utc>` can have. -/
def IsDateTime (dt : DateTime) : Prop := minSecond ≤ dt / 1000000000 ∧ dt / 1000000000 ≤ maxSecond

instance (dt : DateTime) : Decidable (IsDateTime dt) := inferInstanceAs (Decidable (_ ∧ _))

/-- `timestamp_from_chrono`, `build.rs:31–36` and `log.rs:31–36`. -/
def timestampFromChrono (dt : DateTime) : Option Timestamp :=
  some ⟨dt / 1000000000, dt % 1000000000⟩

/-- `DateTime::from_timestamp`: a leap second has a thousand million nanoseconds more. -/
def fromTimestamp (seconds : Int) (nanos : Nat) : Option DateTime :=
  if minSecond ≤ seconds ∧ seconds ≤ maxSecond ∧
      (nanos < 1000000000 ∨ nanos < 2000000000 ∧ seconds % 60 = 59) then
    some (seconds * 1000000000 + nanos)
  else none

/-- The time of a timestamp: negative nanoseconds are taken for none. -/
def Timestamp.toChrono (t : Timestamp) : Option DateTime :=
  fromTimestamp t.seconds (if t.nanos < 0 then 0 else t.nanos.toNat)

/-- Every time is read back as it was written. -/
theorem toChrono_timestampFromChrono {dt : DateTime} (h : IsDateTime dt) :
    (timestampFromChrono dt).bind Timestamp.toChrono = some dt := by
  have hnonneg : 0 ≤ dt % 1000000000 := Int.emod_nonneg dt (by decide)
  have hlt : dt % 1000000000 < 1000000000 := Int.emod_lt_of_pos dt (by decide)
  have hnanos : ((dt % 1000000000).toNat : Int) = dt % 1000000000 := Int.toNat_of_nonneg hnonneg
  have hsmall : (dt % 1000000000).toNat < 1000000000 := by omega
  rw [timestampFromChrono, Option.bind_some, Timestamp.toChrono, if_neg (Int.not_lt.mpr hnonneg),
    fromTimestamp, if_pos ⟨h.1, h.2, .inl hsmall⟩, hnanos, Int.ediv_mul_add_emod]

/-! ## Statuses -/

/-- The codes of a `tonic::Status` that are used here. -/
inductive Code where
  | invalidArgument
  | notFound
  | permissionDenied
  | internal
  | unauthenticated
  deriving DecidableEq

/-- `tonic::Status`. -/
structure Status where
  code : Code
  message : String
  deriving DecidableEq

/-- `api_error_to_status`, `build.rs:19–27`, `log.rs:19–27` and `cluster_agent.rs:118–126`. -/
def apiErrorToStatus : ApiError → Status
  | .notFound msg => ⟨.notFound, msg⟩
  | .badRequest msg => ⟨.invalidArgument, msg⟩
  | .unauthorized msg => ⟨.unauthenticated, msg⟩
  | .forbidden msg => ⟨.permissionDenied, msg⟩
  | .internal msg => ⟨.internal, msg⟩

/-- The text of an `ApiError`, `crates/reinhardt-cloud-core/src/error.rs:13–28`. -/
def apiErrorText : ApiError → String
  | .unauthorized msg => "unauthorized: " ++ msg
  | .forbidden msg => "forbidden: " ++ msg
  | .notFound msg => "not found: " ++ msg
  | .badRequest msg => "bad request: " ++ msg
  | .internal msg => "internal error: " ++ msg

/-! ## Streams -/

/-- What arrives of a stream that a server answers with: a status ends it. -/
def throughStatus {α : Type} : List (Except Status α) → List (Except Status α)
  | [] => []
  | .ok x :: rest => .ok x :: throughStatus rest
  | .error status :: _ => [.error status]

/-- A stream without a status arrives whole. -/
theorem throughStatus_ok {α : Type} (items : List α) :
    throughStatus (items.map .ok) = items.map .ok := by
  induction items with
  | nil => rfl
  | cons x rest ih => rw [List.map_cons, throughStatus, ih]

end ReinhardtCloud.Grpc
