import ReinhardtCloud.Core.BuildScripts
import ReinhardtCloud.Grpc.Wire

/-!
# The build service over gRPC

Library `Grpc`. The server that wraps a `BuildService` and the client that is one
(`crates/reinhardt-cloud-grpc/src/services/build.rs`), and what a remote client sees of the local
builds. Messages arrive as they were sent. The text of a build id is its own.
-/

namespace ReinhardtCloud.Grpc

open ReinhardtCloud.Base ReinhardtCloud.Core

/-! ## Messages -/

/-- `EnvVar`, `crates/reinhardt-cloud-types/src/build.rs:24–28`; the message has the same fields. -/
structure BuildEnvVar where
  key : String
  value : String
  deriving DecidableEq

/-- `BuildRequest`, `build.rs:9–21`; the message `StartBuildRequest` has the same fields. -/
structure BuildRequest where
  projectName : String
  image : String
  envVars : List BuildEnvVar
  dockerfile : Option String
  contextPath : Option String
  deriving DecidableEq

/-- The oneof of the message `BuildEvent`, `build.proto:27–60`. -/
inductive PbBuildEvent where
  | log (message : String) (timestamp : Option Timestamp)
  | phaseChange (phase : Int) (timestamp : Option Timestamp)
  | artifactReady (artifactUrl digest : String) (timestamp : Option Timestamp)
  | error (message : String) (timestamp : Option Timestamp)
  | complete (success : Bool) (timestamp : Option Timestamp)
  deriving DecidableEq

/-- The message `BuildStatusResponse`, `build.proto:83–91`. -/
structure PbBuildStatus where
  buildId : String
  projectName : String
  phase : Int
  completed : Bool
  success : Option Bool
  startedAt : Option Timestamp
  completedAt : Option Timestamp
  deriving DecidableEq

/-- `build_phase_to_proto`, `build.rs:38–46`. -/
def buildPhaseToProto : BuildPhase → Int
  | .queued => 1
  | .pulling => 2
  | .building => 3
  | .pushing => 4
  | .finalizing => 5

/-- `proto_phase_to_domain`, `build.rs:336–345`. -/
def protoPhaseToDomain (phase : Int) : BuildPhase :=
  if phase = 1 then .queued
  else if phase = 2 then .pulling
  else if phase = 3 then .building
  else if phase = 4 then .pushing
  else if phase = 5 then .finalizing
  else .queued

/-- `proto_timestamp_to_chrono`, `build.rs:347–350`: the time now where there is none. -/
def protoTimestampToChrono (now : DateTime) (ts : Option Timestamp) : DateTime :=
  (ts.bind Timestamp.toChrono).getD now

/-- `domain_event_to_proto`, `build.rs:48–85`. -/
def domainEventToProto : BuildEvent → Option PbBuildEvent
  | .log message timestamp => some (.log message (timestampFromChrono timestamp))
  | .phaseChange phase timestamp =>
    some (.phaseChange (buildPhaseToProto phase) (timestampFromChrono timestamp))
  | .artifactReady artifactUrl digest timestamp =>
    some (.artifactReady artifactUrl digest (timestampFromChrono timestamp))
  | .error message timestamp => some (.error message (timestampFromChrono timestamp))
  | .complete success timestamp => some (.complete success (timestampFromChrono timestamp))

/-- `proto_event_to_domain`, `build.rs:352–378`. -/
def protoEventToDomain (now : DateTime) : Option PbBuildEvent → Option BuildEvent
  | some (.log message timestamp) => some (.log message (protoTimestampToChrono now timestamp))
  | some (.phaseChange phase timestamp) =>
    some (.phaseChange (protoPhaseToDomain phase) (protoTimestampToChrono now timestamp))
  | some (.artifactReady artifactUrl digest timestamp) =>
    some (.artifactReady artifactUrl digest (protoTimestampToChrono now timestamp))
  | some (.error message timestamp) => some (.error message (protoTimestampToChrono now timestamp))
  | some (.complete success timestamp) =>
    some (.complete success (protoTimestampToChrono now timestamp))
  | none => none

/-! ## Server and client -/

/-- The items of a stream, as far as they were sent. -/
abbrev BuildStream := List (Except ApiError BuildEvent)

/-- The answers of a `BuildService`, `crates/reinhardt-cloud-core/src/traits/build.rs`. -/
structure BuildService where
  startBuild : BuildRequest → Except ApiError BuildStream
  cancelBuild : Core.Uuid → Except ApiError Unit
  getBuildStatus : Core.Uuid → Except ApiError BuildStatus

/-- An item of the stream that `BuildServiceGrpc::start_build` answers with, `build.rs:136–139`. -/
def sentItem : Except ApiError BuildEvent → Except Status (Option PbBuildEvent)
  | .ok event => .ok (domainEventToProto event)
  | .error e => .error ⟨.internal, apiErrorText e⟩

/-- `BuildServiceGrpc::start_build`, `build.rs:124–142`. -/
def grpcStartBuild (service : BuildService) (request : BuildRequest) :
    Except Status (List (Except Status (Option PbBuildEvent))) :=
  match service.startBuild request with
  | .error e => .error (apiErrorToStatus e)
  | .ok stream => .ok (stream.map sentItem)

/-- `BuildServiceGrpc::cancel_build`, `build.rs:144–163`. -/
def grpcCancelBuild (service : BuildService) (buildId : Core.Uuid) : Except Status Unit :=
  (service.cancelBuild buildId).mapError apiErrorToStatus

/-- `BuildServiceGrpc::get_build_status`, `build.rs:165–190`. -/
def grpcGetBuildStatus (service : BuildService) (buildId : Core.Uuid) :
    Except Status PbBuildStatus :=
  match service.getBuildStatus buildId with
  | .error e => .error (apiErrorToStatus e)
  | .ok status => .ok {
      buildId
      projectName := status.projectName
      phase := buildPhaseToProto status.phase
      completed := status.completed
      success := status.success
      startedAt := timestampFromChrono status.startedAt
      completedAt := status.completedAt.bind timestampFromChrono }

/-- The error of a client for a status, whose text the library writes. -/
def clientError (display : Status → String) (status : Status) : ApiError :=
  .internal (display status)

/-- An item of the stream of `GrpcBuildClient::start_build`, `build.rs:282–285`. -/
def receivedItem (display : Status → String) (now : DateTime) :
    Except Status (Option PbBuildEvent) → Option (Except ApiError BuildEvent)
  | .ok event => (protoEventToDomain now event).map .ok
  | .error status => some (.error (clientError display status))

/-- `GrpcBuildClient`, `build.rs:236–334`, connected to the server of a service. -/
def grpcBuildClient (display : Status → String) (now : DateTime) (service : BuildService) :
    BuildService where
  startBuild request :=
    match grpcStartBuild service request with
    | .error status => .error (clientError display status)
    | .ok stream => .ok ((throughStatus stream).filterMap (receivedItem display now))
  cancelBuild buildId := (grpcCancelBuild service buildId).mapError (clientError display)
  getBuildStatus buildId :=
    match grpcGetBuildStatus service buildId with
    | .error status => .error (clientError display status)
    | .ok resp => .ok {
        projectName := resp.projectName
        phase := protoPhaseToDomain resp.phase
        completed := resp.completed
        success := resp.success
        startedAt := protoTimestampToChrono now resp.startedAt
        completedAt := resp.completedAt.map fun t ↦ protoTimestampToChrono now (some t) }

/-! ## Round trips -/

/-- The time of an event. -/
def eventTime : BuildEvent → DateTime
  | .log _ timestamp | .phaseChange _ timestamp | .artifactReady _ _ timestamp
  | .error _ timestamp | .complete _ timestamp => timestamp

@[simp] theorem protoPhaseToDomain_buildPhaseToProto (phase : BuildPhase) :
    protoPhaseToDomain (buildPhaseToProto phase) = phase := by
  cases phase <;> rfl

theorem protoTimestampToChrono_of_isDateTime {dt : DateTime} (h : IsDateTime dt) (now : DateTime) :
    protoTimestampToChrono now (timestampFromChrono dt) = dt := by
  rw [protoTimestampToChrono, toChrono_timestampFromChrono h, Option.getD_some]

/-- An event arrives as it was sent. -/
theorem protoEventToDomain_domainEventToProto {event : BuildEvent}
    (h : IsDateTime (eventTime event)) (now : DateTime) :
    protoEventToDomain now (domainEventToProto event) = some event := by
  have htime := protoTimestampToChrono_of_isDateTime h now
  cases event with
  | phaseChange phase timestamp =>
    show some (BuildEvent.phaseChange _ _) = _
    rw [protoPhaseToDomain_buildPhaseToProto]
    exact congrArg (fun t ↦ some (BuildEvent.phaseChange phase t)) htime
  | log message timestamp => exact congrArg (fun t ↦ some (BuildEvent.log message t)) htime
  | artifactReady artifactUrl digest timestamp =>
    exact congrArg (fun t ↦ some (BuildEvent.artifactReady artifactUrl digest t)) htime
  | error message timestamp => exact congrArg (fun t ↦ some (BuildEvent.error message t)) htime
  | complete success timestamp =>
    exact congrArg (fun t ↦ some (BuildEvent.complete success t)) htime

/-- The times of a status. -/
structure StatusTimes (status : BuildStatus) : Prop where
  started : IsDateTime status.startedAt
  completed : ∀ completedAt ∈ status.completedAt, IsDateTime completedAt

/-- The end of a build is read back as it was written. -/
theorem completedAt_roundTrip {completedAt : Option DateTime}
    (h : ∀ t ∈ completedAt, IsDateTime t) (now : DateTime) :
    (completedAt.bind timestampFromChrono).map (fun t ↦ protoTimestampToChrono now (some t)) =
      completedAt := by
  cases completedAt with
  | none => rfl
  | some t => exact congrArg some (protoTimestampToChrono_of_isDateTime (h t rfl) now)

section Client

variable {display : Status → String} {now : DateTime} {service : BuildService}

/-- The client cancels what the service cancels. -/
theorem cancelBuild_client (buildId : Core.Uuid) :
    (grpcBuildClient display now service).cancelBuild buildId =
      (service.cancelBuild buildId).mapError (clientError display <| apiErrorToStatus ·) := by
  show ((service.cancelBuild buildId).mapError apiErrorToStatus).mapError _ = _
  cases service.cancelBuild buildId with
  | ok u => rfl
  | error e => rfl

/-- The client reads the status of the service. -/
theorem getBuildStatus_client {buildId : Core.Uuid}
    (h : ∀ status, service.getBuildStatus buildId = .ok status → StatusTimes status) :
    (grpcBuildClient display now service).getBuildStatus buildId =
      (service.getBuildStatus buildId).mapError (clientError display <| apiErrorToStatus ·) := by
  simp only [grpcBuildClient, grpcGetBuildStatus]
  cases hstatus : service.getBuildStatus buildId with
  | error e => rfl
  | ok status =>
    have htimes := h status hstatus
    have hstarted := protoTimestampToChrono_of_isDateTime htimes.started now
    have hcompleted := completedAt_roundTrip htimes.completed now
    simp only [Except.mapError, protoPhaseToDomain_buildPhaseToProto, hstarted, hcompleted]

/-- The events of a stream arrive as they were sent. -/
theorem received_sent {events : List BuildEvent}
    (h : ∀ event ∈ events, IsDateTime (eventTime event)) :
    (throughStatus ((events.map Except.ok).map sentItem)).filterMap (receivedItem display now) =
      events.map .ok := by
  have hsent : (events.map Except.ok).map sentItem = (events.map domainEventToProto).map .ok := by
    rw [List.map_map, List.map_map]
    rfl
  rw [hsent, throughStatus_ok, List.filterMap_map, List.filterMap_map]
  clear hsent
  induction events with
  | nil => rfl
  | cons event rest ih =>
    rw [List.forall_mem_cons] at h
    have hevent : ((receivedItem display now ∘ .ok) ∘ domainEventToProto) event =
        some (.ok event) := by
      show receivedItem display now (.ok (domainEventToProto event)) = _
      rw [receivedItem, protoEventToDomain_domainEventToProto h.1, Option.map_some]
    rw [List.filterMap_cons_some hevent, ih h.2, List.map_cons]

/-- The client's stream is that of the service. -/
theorem startBuild_client {request : BuildRequest} {events : List BuildEvent}
    (hservice : service.startBuild request = .ok (events.map .ok))
    (htimes : ∀ event ∈ events, IsDateTime (eventTime event)) :
    (grpcBuildClient display now service).startBuild request = .ok (events.map .ok) := by
  simp only [grpcBuildClient, grpcStartBuild, hservice, received_sent htimes]

end Client

/-! ## Remote builds -/

/-- The `ApiError` of the local service. -/
def apiError : BuildError → ApiError
  | .notFound message => .notFound message
  | .badRequest message => .badRequest message

/-- The local service in a state: its answers, and the stream of a build as far as it was sent. -/
def localBuildService (builds : Builds) (id : Core.Uuid) : BuildService where
  startBuild _ := .ok ((((builds id).map (·.events)).getD []).map .ok)
  cancelBuild buildId := (Core.cancelBuild builds buildId).mapError apiError
  getBuildStatus buildId := (Core.getBuildStatus builds buildId).mapError apiError

/-- The reading of the clock in a step. -/
def clockReading : BuildAction → Option DateTime
  | .startBuild _ _ _ now | .advance _ now _ => some now
  | _ => none

/-- The times that a build keeps and sends. -/
structure Timed (b : Build) : Prop where
  status : StatusTimes b.status
  events : ∀ event ∈ b.events, IsDateTime (eventTime event)

theorem timed_start {now : DateTime} (h : IsDateTime now) (projectName image : String) :
    Timed (.start projectName image now) where
  status := ⟨h, fun _ hnone ↦ absurd hnone (Option.not_mem_none _)⟩
  events := fun _ hnil ↦ absurd hnil List.not_mem_nil

theorem Timed.send {b : Build} (h : Timed b) {event : BuildEvent} {now : DateTime}
    (hnow : IsDateTime now) (htime : eventTime event = now) (next : PipelineTask) :
    Timed (b.send event next) where
  status := h.status
  events := by
    intro e he
    rcases List.mem_append.mp he with he | he
    · exact h.events e he
    · rw [List.mem_singleton.mp he, htime]
      exact hnow

theorem Timed.advance {b b' : Build} {now : DateTime} {uuid : String} (h : Timed b)
    (hnow : IsDateTime now) (hstep : b.advance now uuid = some b') : Timed b' := by
  obtain ⟨status, cancelled, image, task, events⟩ := b
  cases task with
  | nextPhase rest =>
    cases rest with
    | nil =>
      obtain rfl := Option.some.inj hstep
      exact ⟨h.status, h.events⟩
    | cons p rest =>
      obtain rfl := Option.some.inj hstep
      exact ⟨h.status, h.events⟩
  | sendPhaseChange phase message rest =>
    obtain rfl := Option.some.inj hstep
    exact h.send hnow rfl _
  | setPhase phase message rest =>
    obtain rfl := Option.some.inj hstep
    exact ⟨⟨h.status.started, h.status.completed⟩, h.events⟩
  | sendLog message rest =>
    obtain rfl := Option.some.inj hstep
    exact h.send hnow rfl _
  | work rest => cases hstep
  | sendError =>
    obtain rfl := Option.some.inj hstep
    exact h.send hnow rfl _
  | sendArtifact =>
    obtain rfl := Option.some.inj hstep
    exact h.send hnow rfl _
  | sendComplete =>
    obtain rfl := Option.some.inj hstep
    exact h.send hnow rfl _
  | updateCompleted success =>
    obtain rfl := Option.some.inj hstep
    refine ⟨⟨h.status.started, ?_⟩, h.events⟩
    intro completedAt hcompleted
    obtain rfl := Option.some.inj hcompleted
    exact hnow
  | returned => cases hstep

theorem Timed.select {b b' : Build} {branch : SelectBranch} (h : Timed b)
    (hstep : b.select branch = some b') : Timed b' := by
  obtain ⟨task, rfl⟩ : ∃ task, b' = { b with task := task } := by
    unfold Build.select at hstep
    split at hstep
    · cases branch with
      | slept => exact ⟨_, (Option.some.inj hstep).symm⟩
      | cancelled =>
        obtain ⟨-, hb'⟩ := Option.ite_none_right_eq_some.mp hstep
        exact ⟨_, (Option.some.inj hb').symm⟩
    · cases hstep
  exact ⟨h.status, h.events⟩

/-- Writing one entry keeps what all entries have. -/
theorem forall_update {P : Build → Prop} {s : Builds} (h : ∀ id b, s id = some b → P b)
    {k : Core.Uuid} {entry : Option Build} (hentry : ∀ b, entry = some b → P b) :
    ∀ id b, Function.update s k entry id = some b → P b := by
  intro id b hb
  by_cases hid : id = k
  · subst hid
    rw [Function.update_self] at hb
    exact hentry b hb
  · rw [Function.update_of_ne hid] at hb
    exact h id b hb

theorem timed_step {s t : Builds} {a : BuildAction} (h : ∀ id b, s id = some b → Timed b)
    (hstep : buildStep s a = some t) (hclock : ∀ now ∈ clockReading a, IsDateTime now) :
    ∀ id b, t id = some b → Timed b := by
  cases a with
  | startBuild id projectName image now =>
    rw [buildStep] at hstep
    cases hid : s id with
    | some b =>
      rw [hid] at hstep
      cases hstep
    | none =>
      rw [hid] at hstep
      obtain rfl := Option.some.inj hstep
      refine forall_update h fun b hb ↦ ?_
      obtain rfl := Option.some.inj hb
      exact timed_start (hclock now rfl) projectName image
  | cancelBuild id =>
    rw [buildStep] at hstep
    cases hanswer : Core.cancelBuild s id with
    | error e =>
      rw [hanswer] at hstep
      obtain rfl := Option.some.inj hstep
      exact h
    | ok u =>
      rw [hanswer] at hstep
      obtain rfl := Option.some.inj hstep
      refine forall_update h fun b hb ↦ ?_
      obtain ⟨b₀, hb₀, rfl⟩ := Option.map_eq_some_iff.mp hb
      exact ⟨(h id b₀ hb₀).status, (h id b₀ hb₀).events⟩
  | getBuildStatus id =>
    obtain rfl := Option.some.inj hstep
    exact h
  | advance id now uuid =>
    obtain ⟨b', hb', rfl⟩ := Option.map_eq_some_iff.mp hstep
    obtain ⟨b₀, hb₀, hadvance⟩ := Option.bind_eq_some_iff.mp hb'
    refine forall_update h fun b hb ↦ ?_
    obtain rfl := Option.some.inj hb
    exact (h id b₀ hb₀).advance (hclock now rfl) hadvance
  | select id branch =>
    obtain ⟨b', hb', rfl⟩ := Option.map_eq_some_iff.mp hstep
    obtain ⟨b₀, hb₀, hselect⟩ := Option.bind_eq_some_iff.mp hb'
    refine forall_update h fun b hb ↦ ?_
    obtain rfl := Option.some.inj hb
    exact (h id b₀ hb₀).select hselect

/-- After every run, a remote client is told of every build what the local service says of it, its
errors as internal ones, and receives the events of a build that were sent. -/
theorem remote_builds {tr : List BuildTransition} {s : Builds}
    (h : Run buildStep noBuilds tr s)
    (hclock : ∀ x ∈ tr, ∀ now ∈ clockReading x.action, IsDateTime now)
    (display : Status → String) (now : DateTime) (id buildId : Core.Uuid) (request : BuildRequest) :
    (grpcBuildClient display now (localBuildService s id)).getBuildStatus buildId =
        ((localBuildService s id).getBuildStatus buildId).mapError
          (clientError display <| apiErrorToStatus ·) ∧
      (grpcBuildClient display now (localBuildService s id)).cancelBuild buildId =
        ((localBuildService s id).cancelBuild buildId).mapError
          (clientError display <| apiErrorToStatus ·) ∧
      (grpcBuildClient display now (localBuildService s id)).startBuild request =
        (localBuildService s id).startBuild request := by
  have htimed : ∀ id b, s id = some b → Timed b := by
    refine (h.safe_of_condition (I := fun s ↦ ∀ id b, s id = some b → Timed b)
      (C := fun x ↦ ∀ now ∈ clockReading x.action, IsDateTime now) (P := fun _ ↦ True) ?_ ?_
      hclock).1
    · intro id b hb
      cases hb
    · intro u a v hu hstep hnow
      exact ⟨timed_step hu hstep hnow, trivial⟩
  refine ⟨getBuildStatus_client ?_, cancelBuild_client buildId, startBuild_client rfl ?_⟩
  · intro status hstatus
    cases hb : s buildId with
    | none => simp [localBuildService, Core.getBuildStatus, hb, Except.mapError] at hstatus
    | some b =>
      obtain rfl : b.status = status := by
        simpa [localBuildService, Core.getBuildStatus, hb, Except.mapError] using hstatus
      exact (htimed buildId b hb).status
  · cases hb : s id with
    | none => exact fun _ hnil ↦ absurd hnil List.not_mem_nil
    | some b => exact (htimed id b hb).events

/-- Every step at the first second of the epoch. -/
theorem remote_builds_early : ∃ s, execute buildStep noBuilds earlyCancellation = some s ∧
    (grpcBuildClient Status.message 0 (localBuildService s "b")).getBuildStatus "b" =
      ((localBuildService s "b").getBuildStatus "b").mapError
        (clientError Status.message <| apiErrorToStatus ·) := by
  have hends : ∃ s, execute buildStep noBuilds earlyCancellation = some s := ⟨_, rfl⟩
  obtain ⟨s, hs⟩ := hends
  refine ⟨s, hs, (remote_builds (Run.of_execute _ hs) ?_ Status.message 0 "b" "b"
    ⟨"shop", "registry/shop:1", [], none, none⟩).1⟩
  intro x hx now hnow
  have hreading : ∀ a ∈ earlyCancellation, ∀ now ∈ clockReading a, IsDateTime now := by decide
  exact hreading x.action (action_mem_of_mem_transitions hx) now hnow

end ReinhardtCloud.Grpc
