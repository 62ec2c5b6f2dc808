import ReinhardtCloud.Grpc.Reconnect

/-!
# What a stream may change

Library `Grpc`. The event pump of `agent_stream_authenticated` outlives the entry it was
started for (`cluster_agent.rs:370–396`) and `heartbeat` is keyed by the agent identifier
alone (`registry.rs:253–257`). Health reports and clean-ups check the binding or the
generation themselves.
-/

namespace ReinhardtCloud.Grpc

open ReinhardtCloud.Base ControlPlane

/-- The cluster a step is authenticated under; eviction, lookups and deliveries have none. -/
def Action.authenticatedAs (s : ControlPlane) : Action → Option Uuid
  | .announce clusterId _ _ => some clusterId
  | .insert c | .heartbeatEvent c _ _ | .otherEvent c | .cleanup c | .receive c
  | .dropReceiver c => (s.connections c).map fun conn ↦ conn.clusterId
  | .reportHealth clusterId _ _ => some clusterId
  | .evictStaleAgents _ | .lookup _ _ _ | .deliver _ => none

/-- A step authenticated under a cluster leaves every entry of another binding as it was. -/
def OtherClustersUntouched (x : Transition ControlPlane Action) : Prop :=
  ∀ clusterId, x.action.authenticatedAs x.before = some clusterId →
    ∀ id e, x.before.registry.agents id = some e → e.clusterId ≠ some clusterId →
      x.after.registry.agents id = some e

/-- A heartbeat of a stream restamps only an entry of the stream's own generation. -/
def HeartbeatOwnGeneration (x : Transition ControlPlane Action) : Prop :=
  ∀ c agentId now conn, x.action = .heartbeatEvent c agentId now →
    x.before.connections c = some conn →
    ∀ id e, x.before.registry.agents id = some e → e.generation ≠ conn.entry.generation →
      (x.after.registry.agents id).map (fun e' ↦ e'.lastHeartbeat) = some e.lastHeartbeat

/-- A heartbeat naming the stream's agent arrives while that agent is unregistered or held by the
stream's own registration, and a registration fetches one of the first `2^64` generations. -/
def StreamHoldsItsAgent (x : Transition ControlPlane Action) : Prop :=
  (∀ c now conn e, x.action = .heartbeatEvent c conn.entry.info.agentId now →
    x.before.connections c = some conn →
    x.before.registry.agents conn.entry.info.agentId = some e → e.commandTx = c) ∧
  (∀ clusterId info now, x.action = .announce clusterId info now → x.before.nextChannel < 2 ^ 64)

variable {s t : ControlPlane} {a : Action}

/-- An entry named by a connection's channel carries the connection's generation and binding. -/
theorem owned_entry (hw : s.Wf) {id : Uuid} {e : AgentConnection} {c : ChannelId}
    {conn : Connection} (he : s.registry.agents id = some e) (hc : s.connections c = some conn)
    (htx : e.commandTx = c) :
    e.generation = conn.entry.generation ∧ e.clusterId = some conn.clusterId := by
  obtain ⟨-, owner, ho, -, -, hg, hb⟩ := hw.owner id e he
  rw [htx, hc] at ho
  obtain rfl := Option.some.inj ho
  exact ⟨hg.symm, hb ▸ (hw.connection c conn hc).2.2⟩

/-- Fetching at most `2^64` generations is kept by every step that meets the condition. -/
theorem Step.bound_kept (h : Step s a t) (hb : s.nextChannel ≤ 2 ^ 64)
    (hcond : StreamHoldsItsAgent ⟨s, a, t⟩) : t.nextChannel ≤ 2 ^ 64 := by
  rcases h.counter_cases with ⟨hn, -⟩ | ⟨hn, -⟩
  · rwa [hn]
  · cases h with
    | announce clusterId info now => exact hcond.2 clusterId info now rfl
    | _ => exact absurd hn (Nat.ne_of_lt (Nat.lt_succ_self _))

/-- A step that meets the condition touches no entry of another cluster. -/
theorem Step.otherClustersUntouched (h : Step s a t) (hw : s.Wf) (hb : s.nextChannel ≤ 2 ^ 64)
    (hcond : StreamHoldsItsAgent ⟨s, a, t⟩) : OtherClustersUntouched ⟨s, a, t⟩ := by
  intro clusterId hauth id e he hne
  change s.registry.agents id = some e at he
  cases h with
  | accept c conn r hc hp hr =>
    obtain ⟨rfl, hocc⟩ := AgentRegistry.insertWithCluster_ok _ _ _ _ hr
    have hcl : conn.clusterId = clusterId := by
      simpa [Action.authenticatedAs, hc] using hauth
    have hi : id ≠ conn.entry.info.agentId := by
      rintro rfl
      exact hne (hcl ▸ hocc e he)
    simp [hi, he]
  | heartbeat c conn now hc hp =>
    have hcl : conn.clusterId = clusterId := by
      simpa [Action.authenticatedAs, hc] using hauth
    have hi : id ≠ conn.entry.info.agentId := by
      rintro rfl
      have hown := hcond.1 c now conn e rfl hc he
      exact hne (hcl ▸ (owned_entry hw he hc hown).2)
    simp [AgentRegistry.agents_heartbeat, hi, he]
  | cleanup c conn hc hp =>
    have hcl : conn.clusterId = clusterId := by
      simpa [Action.authenticatedAs, hc] using hauth
    have hg : id = conn.entry.info.agentId → ¬ e.generation = conn.entry.generation := by
      intro _ hg
      exact hne (hcl ▸ (owned_entry hw he hc (cleanup_own hw hb hc he hg)).2)
    by_cases hi : id = conn.entry.info.agentId
    · simp [AgentRegistry.agents_unregisterIf, ← hi, he, hg hi]
    · simp [AgentRegistry.agents_unregisterIf, hi, he]
  | report clusterId' health now r hr =>
    obtain ⟨e', hs, hb', rfl⟩ := AgentRegistry.updateHealthForCluster_ok _ _ _ _ _ hr
    have hcl : clusterId' = clusterId := by simpa [Action.authenticatedAs] using hauth
    have hi : id ≠ health.agentId := by
      rintro rfl
      obtain rfl := Option.some.inj (hs.symm.trans he)
      exact hne (hcl ▸ hb')
    simp [hi, he]
  | evict now => cases hauth
  | _ => exact he

/-- A heartbeat that meets the condition restamps only the stream's own entry. -/
theorem Step.heartbeatOwnGeneration (h : Step s a t) (hw : s.Wf)
    (hcond : StreamHoldsItsAgent ⟨s, a, t⟩) : HeartbeatOwnGeneration ⟨s, a, t⟩ := by
  intro c agentId now conn ha hc id e he hg
  change s.registry.agents id = some e at he
  change s.connections c = some conn at hc
  cases h with
  | heartbeat c' conn' now' hc' hp =>
    cases ha
    obtain rfl := Option.some.inj (hc'.symm.trans hc)
    have hi : id ≠ conn'.entry.info.agentId := by
      rintro rfl
      have hown := hcond.1 c now conn' e rfl hc he
      exact hg (owned_entry hw he hc hown).1
    simp [AgentRegistry.agents_heartbeat, hi, he]
  | ignore c' conn' agentId' now' hc' hne => simp [he]
  | _ => cases ha

/-- In every run whose heartbeats find their stream still holding its agent and whose generations
do not wrap, no stream changes another cluster's entry or another registration's heartbeat. -/
theorem streams_keep_to_their_entries {tr : List (Transition ControlPlane Action)}
    (h : Run step init tr s) (hc : ∀ x ∈ tr, StreamHoldsItsAgent x) :
    ∀ x ∈ tr, OtherClustersUntouched x ∧ HeartbeatOwnGeneration x := by
  have hsafe := h.safe_of_condition (C := StreamHoldsItsAgent)
    (P := fun x ↦ OtherClustersUntouched x ∧ HeartbeatOwnGeneration x)
    (I := fun s ↦ s.Wf ∧ s.nextChannel ≤ 2 ^ 64) ⟨wf_init, Nat.zero_le _⟩ ?_ hc
  · exact fun x hx ↦ (hsafe.2 x hx).2
  · rintro s a t ⟨hw, hb⟩ ht hcond
    have hstep := step_cases ht
    exact ⟨⟨hstep.wf hw, hstep.bound_kept hb hcond⟩,
      hstep.otherClustersUntouched hw hb hcond, hstep.heartbeatOwnGeneration hw hcond⟩

/-- One stream registers and sends a heartbeat for its own agent. -/
def ownHeartbeat : List Action :=
  [.announce 1 ⟨7, "one", "", "", 0⟩ 0, .insert 0, .heartbeatEvent 0 7 30000000000]

/-- The single stream's heartbeat meets the condition and restamps the entry it holds. -/
theorem streams_keep_to_their_entries_ownHeartbeat : ∃ s,
    execute step init ownHeartbeat = some s ∧
    (s.registry.agents 7).map (fun e ↦ e.lastHeartbeat) = some 30000000000 ∧
    ∀ x ∈ transitions step init ownHeartbeat,
      OtherClustersUntouched x ∧ HeartbeatOwnGeneration x := by
  have hex : ∃ s x y z, execute step init ownHeartbeat = some s ∧
      (s.registry.agents 7).map (fun e ↦ e.lastHeartbeat) = some 30000000000 ∧
      transitions step init ownHeartbeat = [x, y, z] ∧ x.before.nextChannel = 0 ∧
      x.action = .announce 1 ⟨7, "one", "", "", 0⟩ 0 ∧ y.action = .insert 0 ∧
      z.action = .heartbeatEvent 0 7 30000000000 ∧
      (z.before.connections 0).map (fun conn ↦ conn.entry.info.agentId) = some 7 ∧
      (z.before.registry.agents 7).map (fun e ↦ e.commandTx) = some 0 :=
    ⟨_, _, _, _, rfl, rfl, rfl, rfl, rfl, rfl, rfl, rfl, rfl⟩
  obtain ⟨s, x, y, z, he, ht, htr, hn, hx, hy, hz, hconn, hentry⟩ := hex
  refine ⟨s, he, ht, streams_keep_to_their_entries (Run.of_execute _ he) ?_⟩
  rw [htr]
  simp only [List.forall_mem_cons]
  refine ⟨⟨?_, ?_⟩, ⟨?_, ?_⟩, ⟨?_, ?_⟩, by simp⟩
  · intro c now conn e ha
    cases hx.symm.trans ha
  · intro clusterId info now _
    exact hn ▸ Nat.two_pow_pos 64
  · intro c now conn e ha
    cases hy.symm.trans ha
  · intro clusterId info now ha
    cases hy.symm.trans ha
  · intro c now conn e ha hc he
    obtain ⟨rfl, hagent, -⟩ := Action.heartbeatEvent.inj (hz.symm.trans ha)
    rw [← hagent] at he
    rw [he] at hentry
    exact Option.some.inj hentry
  · intro clusterId info now ha
    cases hz.symm.trans ha

/-- Agent 7 of cluster 1 is evicted and registered again by cluster 2; the old stream of cluster 1
then sends a heartbeat. -/
def staleHeartbeat : List Action :=
  [.announce 1 ⟨7, "one", "", "", 0⟩ 0, .insert 0, .evictStaleAgents fun _ ↦ 100000000000,
    .announce 2 ⟨7, "two", "", "", 0⟩ 100000000000, .insert 1, .heartbeatEvent 0 7 150000000000]

/-- Not every run keeps its streams to their own entries: the stale heartbeat postpones the
eviction of the entry that cluster 2 holds. -/
theorem stale_heartbeat_restamps_other_cluster :
    ¬ ∀ (tr : List (Transition ControlPlane Action)) (s : ControlPlane),
      Run step init tr s → ∀ x ∈ tr, OtherClustersUntouched x ∧ HeartbeatOwnGeneration x := by
  intro hall
  have hex : ∃ s x, execute step init staleHeartbeat = some s ∧
      (transitions step init staleHeartbeat)[5]? = some x ∧
      x.action.authenticatedAs x.before = some 1 ∧
      x.before.registry.agents 7 = some ⟨1, ⟨7, "two", "", "", 0⟩, none, 1, 100000000000, some 2⟩ ∧
      (x.after.registry.agents 7).map (fun e ↦ e.lastHeartbeat) = some 150000000000 :=
    ⟨_, _, rfl, rfl, rfl, rfl, rfl⟩
  obtain ⟨s, x, he, hx, hauth, hb, hafter⟩ := hex
  have hkeep := (hall _ s (Run.of_execute _ he) x (List.mem_of_getElem? hx)).1 1 hauth 7 _ hb
    (by decide)
  rw [hkeep] at hafter
  exact absurd hafter (by decide)

end ReinhardtCloud.Grpc
