import ReinhardtCloud.Base.Run
import ReinhardtCloud.Grpc.Registry

/-!
# Agent streams and command routing as interleaved steps

Library `Grpc`. Model of `RegistryBackedAgentService`
(`crates/reinhardt-cloud-grpc/src/services/cluster_agent.rs:283–430`) and of the two
map accesses of `send_command_to_cluster` (`registry.rs:203–217,292–302`). One step is one
atomic access: fetching a generation, the entry operation, one event of a stream, one
clean-up, one eviction pass, the lookup and the delivery of a command.
-/

namespace ReinhardtCloud.Grpc

open ReinhardtCloud.Base

/-- Progress of one `agent_stream_authenticated` call through its registration. -/
inductive ConnectionPhase where
  | announced
  | registered
  | refused (error : ClusterBindingError)
  deriving DecidableEq

/-- One `agent_stream_authenticated` call: the entry value it built, the authenticated cluster,
and the `mpsc` channel (buffered commands, receiver dropped) it created. -/
structure Connection where
  entry : AgentConnection
  clusterId : Uuid
  phase : ConnectionPhase
  queue : List AgentCommand
  closed : Bool
  deriving DecidableEq

/-- A `send_command_to_cluster` call between its lookup and its delivery. `mark` is the number
of registrations accepted before the lookup: history only, no step reads it. -/
structure PendingCommand where
  clusterId : Uuid
  command : AgentCommand
  agentId : Uuid
  mark : Nat
  deriving DecidableEq

/-- A command that `send_command_to_cluster` enqueued. -/
structure Delivery where
  clusterId : Uuid
  command : AgentCommand
  channel : ChannelId
  deriving DecidableEq

/-- The registry with every connection ever started, the registrations accepted so far (newest
first), and the commands in flight and enqueued. -/
structure ControlPlane where
  registry : AgentRegistry
  connections : ChannelId → Option Connection
  nextChannel : ChannelId
  accepted : List ChannelId
  pending : List PendingCommand
  delivered : List Delivery

namespace ControlPlane

/-- No connection, no entry and no command. -/
def init : ControlPlane :=
  { registry := .new, connections := fun _ ↦ none, nextChannel := 0, accepted := [],
    pending := [], delivered := [] }

/-- Overwrite one connection. -/
def setConnection (s : ControlPlane) (c : ChannelId) (conn : Connection) : ControlPlane :=
  { s with connections := Function.update s.connections c (some conn) }

@[simp] theorem connections_setConnection (s : ControlPlane) (c c' : ChannelId)
    (conn : Connection) :
    (s.setConnection c conn).connections c' = if c' = c then some conn else s.connections c' := by
  simp [setConnection, Function.update_apply]

end ControlPlane

/-- The atomic steps of agent streams, health reports, eviction and command routing. -/
inductive Action where
  /-- `register_with_cluster` up to its map access: channel, generation, clock. -/
  | announce (clusterId : Uuid) (info : AgentInfo) (now : DateTime)
  /-- The entry operation of `register_with_cluster`. -/
  | insert (c : ChannelId)
  | heartbeatEvent (c : ChannelId) (agentId : Uuid) (now : DateTime)
  | otherEvent (c : ChannelId)
  | cleanup (c : ChannelId)
  | receive (c : ChannelId)
  | dropReceiver (c : ChannelId)
  | reportHealth (clusterId : Uuid) (health : AgentHealth) (now : DateTime)
  | evictStaleAgents (now : Uuid → DateTime)
  | lookup (clusterId : Uuid) (command : AgentCommand) (agentId : Uuid)
  | deliver (i : Nat)

/-- Capacity given to `mpsc::channel`, `registry.rs:155`. -/
def channelCapacity : Nat := 64

/-- Execute one step; absent when the step is not enabled. -/
def step (s : ControlPlane) : Action → Option ControlPlane
  | .announce clusterId info now =>
    let fetched := s.registry.fetchGeneration
    let entry := AgentRegistry.clusterConnection info clusterId fetched.1 s.nextChannel now
    some { (s.setConnection s.nextChannel ⟨entry, clusterId, .announced, [], false⟩) with
      registry := fetched.2, nextChannel := s.nextChannel + 1 }
  | .insert c =>
    match s.connections c with
    | some conn =>
      if conn.phase = .announced then
        match s.registry.insertWithCluster conn.entry conn.clusterId with
        | .ok r => some { (s.setConnection c { conn with phase := .registered }) with
            registry := r, accepted := c :: s.accepted }
        | .error e => some (s.setConnection c { conn with phase := .refused e })
      else none
    | none => none
  | .heartbeatEvent c agentId now =>
    match s.connections c with
    | some conn =>
      if conn.phase = .registered then
        -- a heartbeat naming another agent is ignored (`cluster_agent.rs:376–386`)
        if agentId = conn.entry.info.agentId then
          some { s with registry := s.registry.heartbeat agentId now }
        else some s
      else none
    | none => none
  | .otherEvent c =>
    match s.connections c with
    | some conn => if conn.phase = .registered then some s else none
    | none => none
  | .cleanup c =>
    match s.connections c with
    | some conn =>
      if conn.phase = .registered then
        some { s with registry :=
          (s.registry.unregisterIf conn.entry.info.agentId conn.entry.generation).2 }
      else none
    | none => none
  | .receive c =>
    match s.connections c with
    | some conn => if conn.closed then none else
        some (s.setConnection c { conn with queue := conn.queue.tail })
    | none => none
  | .dropReceiver c =>
    match s.connections c with
    | some conn => some (s.setConnection c { conn with closed := true })
    | none => none
  | .reportHealth clusterId health now =>
    match s.registry.updateHealthForCluster clusterId health now with
    | .ok r => some { s with registry := r }
    | .error _ => some s
  | .evictStaleAgents now => some { s with registry := s.registry.evictStaleAgents now }
  | .lookup clusterId command agentId =>
    -- `find` may yield any entry bound to the cluster; with none the call returns its error
    if (s.registry.agents agentId).any (fun conn ↦ conn.clusterId = some clusterId) then
      some { s with pending := s.pending ++ [⟨clusterId, command, agentId, s.accepted.length⟩] }
    else none
  | .deliver i =>
    match s.pending[i]? with
    | none => none
    | some p =>
      let rest := { s with pending := s.pending.eraseIdx i }
      match s.registry.agents p.agentId with
      | none => some rest
      | some entry =>
        match s.connections entry.commandTx with
        | none => none
        | some conn =>
          if conn.closed then some rest
          else if conn.queue.length < channelCapacity then
            some { (rest.setConnection entry.commandTx
                { conn with queue := conn.queue ++ [p.command] }) with
              delivered := ⟨p.clusterId, p.command, entry.commandTx⟩ :: s.delivered }
          else none

/-- What each step can do, with the guards it passed. -/
inductive Step (s : ControlPlane) : Action → ControlPlane → Prop
  | announce (clusterId : Uuid) (info : AgentInfo) (now : DateTime) :
      Step s (.announce clusterId info now)
        { (s.setConnection s.nextChannel
            ⟨AgentRegistry.clusterConnection info clusterId s.registry.nextGeneration
              s.nextChannel now, clusterId, .announced, [], false⟩) with
          registry := { s.registry with nextGeneration := s.registry.nextGeneration + 1 },
          nextChannel := s.nextChannel + 1 }
  | accept (c : ChannelId) (conn : Connection) (r : AgentRegistry)
      (hc : s.connections c = some conn) (hp : conn.phase = .announced)
      (hr : s.registry.insertWithCluster conn.entry conn.clusterId = .ok r) :
      Step s (.insert c) { (s.setConnection c { conn with phase := .registered }) with
        registry := r, accepted := c :: s.accepted }
  | refuse (c : ChannelId) (conn : Connection) (e : ClusterBindingError)
      (hc : s.connections c = some conn) (hp : conn.phase = .announced)
      (hr : s.registry.insertWithCluster conn.entry conn.clusterId = .error e) :
      Step s (.insert c) (s.setConnection c { conn with phase := .refused e })
  | heartbeat (c : ChannelId) (conn : Connection) (now : DateTime)
      (hc : s.connections c = some conn) (hp : conn.phase = .registered) :
      Step s (.heartbeatEvent c conn.entry.info.agentId now)
        { s with registry := s.registry.heartbeat conn.entry.info.agentId now }
  | ignore (c : ChannelId) (conn : Connection) (agentId : Uuid) (now : DateTime)
      (hc : s.connections c = some conn) (ha : agentId ≠ conn.entry.info.agentId) :
      Step s (.heartbeatEvent c agentId now) s
  | other (c : ChannelId) : Step s (.otherEvent c) s
  | cleanup (c : ChannelId) (conn : Connection)
      (hc : s.connections c = some conn) (hp : conn.phase = .registered) :
      Step s (.cleanup c) { s with registry :=
        (s.registry.unregisterIf conn.entry.info.agentId conn.entry.generation).2 }
  | receive (c : ChannelId) (conn : Connection) (hc : s.connections c = some conn) :
      Step s (.receive c) (s.setConnection c { conn with queue := conn.queue.tail })
  | dropReceiver (c : ChannelId) (conn : Connection) (hc : s.connections c = some conn) :
      Step s (.dropReceiver c) (s.setConnection c { conn with closed := true })
  | report (clusterId : Uuid) (health : AgentHealth) (now : DateTime) (r : AgentRegistry)
      (hr : s.registry.updateHealthForCluster clusterId health now = .ok r) :
      Step s (.reportHealth clusterId health now) { s with registry := r }
  | reportRefused (clusterId : Uuid) (health : AgentHealth) (now : DateTime) :
      Step s (.reportHealth clusterId health now) s
  | evict (now : Uuid → DateTime) :
      Step s (.evictStaleAgents now) { s with registry := s.registry.evictStaleAgents now }
  | lookup (clusterId : Uuid) (command : AgentCommand) (agentId : Uuid) (entry : AgentConnection)
      (he : s.registry.agents agentId = some entry) (hb : entry.clusterId = some clusterId) :
      Step s (.lookup clusterId command agentId)
        { s with pending := s.pending ++ [⟨clusterId, command, agentId, s.accepted.length⟩] }
  | undelivered (i : Nat)
      (hn : ∀ p entry conn, s.pending[i]? = some p → s.registry.agents p.agentId = some entry →
        s.connections entry.commandTx = some conn → conn.closed = true) :
      Step s (.deliver i) { s with pending := s.pending.eraseIdx i }
  | deliver (i : Nat) (p : PendingCommand) (entry : AgentConnection) (conn : Connection)
      (hi : s.pending[i]? = some p) (he : s.registry.agents p.agentId = some entry)
      (hc : s.connections entry.commandTx = some conn) (ho : conn.closed = false) :
      Step s (.deliver i)
        { (s.setConnection entry.commandTx { conn with queue := conn.queue ++ [p.command] }) with
          pending := s.pending.eraseIdx i,
          delivered := ⟨p.clusterId, p.command, entry.commandTx⟩ :: s.delivered }

/-- Inversion of `step`: the guards and the resulting state of every enabled action. -/
theorem step_cases {s t : ControlPlane} {a : Action} (h : step s a = some t) : Step s a t := by
  cases a with
  | announce clusterId info now =>
    simp only [step, Option.some.injEq] at h
    subst h
    exact .announce clusterId info now
  | insert c =>
    simp only [step] at h
    split at h
    · next conn hc =>
      split at h
      · next hp =>
        split at h
        · next r hr => exact Option.some.inj h ▸ .accept c conn r hc hp hr
        · next e hr => exact Option.some.inj h ▸ .refuse c conn e hc hp hr
      · cases h
    · cases h
  | heartbeatEvent c agentId now =>
    simp only [step] at h
    split at h
    · next conn hc =>
      split at h
      · next hp =>
        split at h
        · next ha =>
          subst ha
          exact Option.some.inj h ▸ .heartbeat c conn now hc hp
        · next ha => exact Option.some.inj h ▸ .ignore c conn agentId now hc ha
      · cases h
    · cases h
  | otherEvent c =>
    simp only [step] at h
    split at h
    · split at h
      · exact Option.some.inj h ▸ .other c
      · cases h
    · cases h
  | cleanup c =>
    simp only [step] at h
    split at h
    · next conn hc =>
      split at h
      · next hp => exact Option.some.inj h ▸ .cleanup c conn hc hp
      · cases h
    · cases h
  | receive c =>
    simp only [step] at h
    split at h
    · next conn hc =>
      split at h
      · cases h
      · exact Option.some.inj h ▸ .receive c conn hc
    · cases h
  | dropReceiver c =>
    simp only [step] at h
    split at h
    · next conn hc => exact Option.some.inj h ▸ .dropReceiver c conn hc
    · cases h
  | reportHealth clusterId health now =>
    simp only [step] at h
    split at h
    · next r hr => exact Option.some.inj h ▸ .report clusterId health now r hr
    · exact Option.some.inj h ▸ .reportRefused clusterId health now
  | evictStaleAgents now =>
    simp only [step, Option.some.injEq] at h
    subst h
    exact .evict now
  | lookup clusterId command agentId =>
    simp only [step] at h
    split at h
    · next hb =>
      obtain ⟨entry, he, hb⟩ := (Option.any_eq_true _ _).mp hb
      exact Option.some.inj h ▸ .lookup clusterId command agentId entry he (by simpa using hb)
    · cases h
  | deliver i =>
    simp only [step] at h
    split at h
    · cases h
    · next p hi =>
      split at h
      · next hn => exact Option.some.inj h ▸ .undelivered i (by grind)
      · next entry he =>
        split at h
        · cases h
        · next conn hc =>
          split at h
          · next ho => exact Option.some.inj h ▸ .undelivered i (by grind)
          · next ho =>
            split at h
            · exact Option.some.inj h ▸ .deliver i p entry conn hi he hc (by simpa using ho)
            · cases h

end ReinhardtCloud.Grpc
