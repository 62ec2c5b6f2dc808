import Mathlib.Algebra.Group.Nat.Defs
import Mathlib.Logic.Function.Basic

/-!
# Agent registry

Library `Grpc`. Model of `crates/reinhardt-cloud-grpc/src/registry.rs:20–360`. The map
is a partial function on agent identifiers; a command channel is named by the connection
that created it, so that replacing an entry cannot confuse two channels. Clock readings
are arguments of the operations that take them.
-/

namespace ReinhardtCloud.Grpc

/-- `uuid::Uuid`: 128 bits, compared for equality only. -/
abbrev Uuid := BitVec 128

/-- `chrono::DateTime<Utc>` as nanoseconds since the epoch. -/
abbrev DateTime := Int

/-- Identity of the `mpsc` channel created by one registration attempt. -/
abbrev ChannelId := Nat

/-- `HEARTBEAT_INTERVAL * MISSED_HEARTBEATS_THRESHOLD` in nanoseconds, `registry.rs:21–24`. -/
def heartbeatTimeout : Nat := 30 * 1000000000 * 3

/-- `Duration::MAX` in nanoseconds. -/
def durationMax : Nat := (2 ^ 64 - 1) * 1000000000 + 999999999

/-- `crates/reinhardt-cloud-types/src/agent.rs:56–68`. -/
structure AgentInfo where
  agentId : Uuid
  clusterName : String
  nodeName : String
  version : String
  lastSeen : DateTime
  deriving DecidableEq

/-- `crates/reinhardt-cloud-types/src/agent.rs:147–161`; the percentages are kept as the bit
patterns of their `f64` values, which the registry only stores. -/
structure AgentHealth where
  agentId : Uuid
  healthy : Bool
  cpuUsagePercent : UInt64
  memoryUsagePercent : UInt64
  podCount : UInt32
  reportedAt : DateTime
  deriving DecidableEq

/-- `crates/reinhardt-cloud-types/src/agent.rs:71–96`. -/
inductive AgentCommand where
  | deploy (projectName image : String) (replicas : UInt32)
  | rollback (projectName : String) (revision : UInt32)
  | scale (projectName : String) (replicas : UInt32)
  | restart (projectName : String)
  | applyProject (projectName yaml : String)
  | applyGitCredentialsSecret (projectName namespace_ secretName gitToken : String)
  deriving DecidableEq

/-- Why a cluster-scoped operation refused an agent identity, `registry.rs:31–38`. -/
inductive ClusterBindingError where
  | notRegistered
  | clusterMismatch
  deriving DecidableEq

/-- State of a connected agent, `registry.rs:70–82`. -/
structure AgentConnection where
  generation : UInt64
  info : AgentInfo
  health : Option AgentHealth
  commandTx : ChannelId
  lastHeartbeat : DateTime
  clusterId : Option Uuid
  deriving DecidableEq

/-- `registry.rs:88–92`. -/
structure AgentRegistry where
  agents : Uuid → Option AgentConnection
  nextGeneration : UInt64

namespace AgentRegistry

/-- `registry.rs:101–106`. -/
def new : AgentRegistry := ⟨fun _ ↦ none, 0⟩

/-- `next_generation.fetch_add(1)`: the value handed out, and the counter wrapped at `2^64`. -/
def fetchGeneration (r : AgentRegistry) : UInt64 × AgentRegistry :=
  (r.nextGeneration, { r with nextGeneration := r.nextGeneration + 1 })

/-- Replace or remove the entry of one agent. -/
def setAgent (r : AgentRegistry) (id : Uuid) (entry : Option AgentConnection) : AgentRegistry :=
  { r with agents := Function.update r.agents id entry }

/-- The value `register_with_cluster` builds before it touches the map, `registry.rs:155–166`. -/
def clusterConnection (info : AgentInfo) (clusterId : Uuid) (generation : UInt64)
    (tx : ChannelId) (now : DateTime) : AgentConnection :=
  { generation, info, health := none, commandTx := tx, lastHeartbeat := now,
    clusterId := some clusterId }

/-- The atomic entry operation of `register_with_cluster`, `registry.rs:168–183`. -/
def insertWithCluster (r : AgentRegistry) (connection : AgentConnection) (clusterId : Uuid) :
    Except ClusterBindingError AgentRegistry :=
  match r.agents connection.info.agentId with
  | some occupied =>
    if occupied.clusterId ≠ some clusterId then .error .clusterMismatch
    else .ok (r.setAgent connection.info.agentId (some connection))
  | none => .ok (r.setAgent connection.info.agentId (some connection))

/-- `registry.rs:241–250`. -/
def unregisterIf (r : AgentRegistry) (agentId : Uuid) (generation : UInt64) :
    Bool × AgentRegistry :=
  match r.agents agentId with
  | some conn =>
    if conn.generation = generation then (true, r.setAgent agentId none) else (false, r)
  | none => (false, r)

/-- `registry.rs:253–257`. -/
def heartbeat (r : AgentRegistry) (agentId : Uuid) (now : DateTime) : AgentRegistry :=
  match r.agents agentId with
  | some conn => r.setAgent agentId (some { conn with lastHeartbeat := now })
  | none => r

/-- `registry.rs:274–289`. -/
def updateHealthForCluster (r : AgentRegistry) (clusterId : Uuid) (health : AgentHealth)
    (now : DateTime) : Except ClusterBindingError AgentRegistry :=
  match r.agents health.agentId with
  | none => .error .notRegistered
  | some conn =>
    if conn.clusterId ≠ some clusterId then .error .clusterMismatch
    else .ok (r.setAgent health.agentId
      (some { conn with health := some health, lastHeartbeat := now }))

/-- `signed_duration_since(..).to_std().unwrap_or(Duration::MAX)`: a heartbeat stamped in the
future counts as infinitely old. -/
def elapsed (now last : DateTime) : Nat :=
  if now - last < 0 then durationMax else (now - last).toNat

/-- `registry.rs:310–318`. -/
def isHealthy (r : AgentRegistry) (agentId : Uuid) (now : DateTime) : Bool :=
  match r.agents agentId with
  | some conn => decide (elapsed now conn.lastHeartbeat < heartbeatTimeout)
  | none => false

/-- `registry.rs:340–359`; `retain` reads the clock once for each entry. -/
def evictStaleAgents (r : AgentRegistry) (now : Uuid → DateTime) : AgentRegistry :=
  { r with agents := fun id ↦ (r.agents id).filter fun conn ↦
      decide (elapsed (now id) conn.lastHeartbeat < heartbeatTimeout) }

/-! ### What each operation does to one entry -/

@[simp] theorem agents_setAgent (r : AgentRegistry) (id id' : Uuid)
    (entry : Option AgentConnection) :
    (r.setAgent id entry).agents id' = if id' = id then entry else r.agents id' := by
  simp [setAgent, Function.update_apply]

@[simp] theorem nextGeneration_setAgent (r : AgentRegistry) (id : Uuid)
    (entry : Option AgentConnection) :
    (r.setAgent id entry).nextGeneration = r.nextGeneration := rfl

/-- The entry operation refuses exactly an identity that is present under another binding. -/
theorem insertWithCluster_error_iff (r : AgentRegistry) (connection : AgentConnection)
    (clusterId : Uuid) (e : ClusterBindingError) :
    r.insertWithCluster connection clusterId = .error e ↔
      e = .clusterMismatch ∧ ∃ occupied, r.agents connection.info.agentId = some occupied ∧
        occupied.clusterId ≠ some clusterId := by
  unfold insertWithCluster
  cases h : r.agents connection.info.agentId with
  | none => simp
  | some occupied =>
    by_cases hb : occupied.clusterId = some clusterId
    · simp [hb]
    · simp [hb, eq_comm]

/-- A successful registration stores its connection, and found the identity free or bound to
the same cluster. -/
theorem insertWithCluster_ok (r r' : AgentRegistry) (connection : AgentConnection)
    (clusterId : Uuid) (h : r.insertWithCluster connection clusterId = .ok r') :
    r' = r.setAgent connection.info.agentId (some connection) ∧
      ∀ occupied, r.agents connection.info.agentId = some occupied →
        occupied.clusterId = some clusterId := by
  unfold insertWithCluster at h
  cases ho : r.agents connection.info.agentId with
  | none =>
    rw [ho] at h
    exact ⟨(Except.ok.inj h).symm, by simp⟩
  | some occupied =>
    rw [ho] at h
    by_cases hb : occupied.clusterId = some clusterId
    · have hr : r.setAgent connection.info.agentId (some connection) = r' := by
        simpa [hb] using h
      exact ⟨hr.symm, by simp [hb]⟩
    · simp [hb] at h

/-- Clean-up removes the entry of its agent exactly when the generations agree. -/
theorem agents_unregisterIf (r : AgentRegistry) (agentId id : Uuid) (generation : UInt64) :
    (r.unregisterIf agentId generation).2.agents id =
      if id = agentId ∧ (r.agents agentId).any (fun conn ↦ conn.generation = generation)
      then none else r.agents id := by
  unfold unregisterIf
  cases h : r.agents agentId with
  | none => simp
  | some conn =>
    by_cases hg : conn.generation = generation
    · simp [hg]
    · simp [hg]

/-- A heartbeat only restamps the entry of its agent. -/
theorem agents_heartbeat (r : AgentRegistry) (agentId id : Uuid) (now : DateTime) :
    (r.heartbeat agentId now).agents id =
      if id = agentId then (r.agents id).map (fun conn ↦ { conn with lastHeartbeat := now })
      else r.agents id := by
  unfold heartbeat
  cases h : r.agents agentId with
  | none =>
    by_cases hi : id = agentId
    · subst hi
      simp [h]
    · simp [hi]
  | some conn =>
    by_cases hi : id = agentId
    · subst hi
      simp [h]
    · simp [hi]

/-- A health report is applied only to an entry bound to the reporting cluster. -/
theorem updateHealthForCluster_ok (r r' : AgentRegistry) (clusterId : Uuid)
    (health : AgentHealth) (now : DateTime)
    (h : r.updateHealthForCluster clusterId health now = .ok r') :
    ∃ conn, r.agents health.agentId = some conn ∧ conn.clusterId = some clusterId ∧
      r' = r.setAgent health.agentId
        (some { conn with health := some health, lastHeartbeat := now }) := by
  unfold updateHealthForCluster at h
  cases hc : r.agents health.agentId with
  | none =>
    rw [hc] at h
    cases h
  | some conn =>
    rw [hc] at h
    by_cases hb : conn.clusterId = some clusterId
    · refine ⟨conn, rfl, hb, ?_⟩
      simpa [hb] using h.symm
    · simp [hb] at h

/-- Eviction keeps exactly the healthy entries, unchanged. -/
theorem agents_evictStaleAgents (r : AgentRegistry) (now : Uuid → DateTime) (id : Uuid)
    (conn : AgentConnection) :
    (r.evictStaleAgents now).agents id = some conn ↔
      r.agents id = some conn ∧ r.isHealthy id (now id) = true := by
  cases h : r.agents id with
  | none => simp [evictStaleAgents, h]
  | some entry =>
    simp only [evictStaleAgents, isHealthy, h, Option.filter_eq_some_iff, Option.some.injEq]
    constructor
    · rintro ⟨rfl, hf⟩
      exact ⟨rfl, hf⟩
    · rintro ⟨rfl, hf⟩
      exact ⟨rfl, hf⟩

end AgentRegistry

end ReinhardtCloud.Grpc
