import ReinhardtCloud.Grpc.AgentStream

/-!
# Which connection owns which registry entry

Library `Grpc`. The structural invariant of the control plane: connection values never
change once announced, the `c`-th connection holds the generation `c mod 2^64`, every
registry entry was inserted by one registered connection, and it is the newest accepted
registration of its agent identifier.
-/

namespace ReinhardtCloud.Grpc

open ReinhardtCloud.Base

namespace ControlPlane

/-- The agent identifier that connection `c` announced. -/
def agentIdOf (s : ControlPlane) (c : ChannelId) : Option Uuid :=
  (s.connections c).map fun conn ↦ conn.entry.info.agentId

/-- The cluster binding of the registration that created channel `c`. -/
def clusterOf (s : ControlPlane) (c : ChannelId) : Option Uuid :=
  (s.connections c).bind fun conn ↦ conn.entry.clusterId

/-- Connection `c` is registered and built the immutable part of the entry `e`. -/
def Owns (s : ControlPlane) (c : ChannelId) (e : AgentConnection) : Prop :=
  ∃ conn, s.connections c = some conn ∧ conn.phase = .registered ∧ conn.entry.info = e.info ∧
    conn.entry.generation = e.generation ∧ conn.entry.clusterId = e.clusterId

/-- The two entry values come from one registration: only health and heartbeat may differ. -/
def SameRegistration (e e' : AgentConnection) : Prop :=
  e.info = e'.info ∧ e.generation = e'.generation ∧ e.commandTx = e'.commandTx ∧
    e.clusterId = e'.clusterId

/-- The structural invariant of the control plane. -/
structure Wf (s : ControlPlane) : Prop where
  fresh : ∀ c, s.nextChannel ≤ c → s.connections c = none
  counter : s.registry.nextGeneration = UInt64.ofNat s.nextChannel
  connection : ∀ c conn, s.connections c = some conn → conn.entry.commandTx = c ∧
    conn.entry.generation = UInt64.ofNat c ∧ conn.entry.clusterId = some conn.clusterId
  owner : ∀ id e, s.registry.agents id = some e → e.info.agentId = id ∧ s.Owns e.commandTx e
  accepted : ∀ c ∈ s.accepted, ∃ conn, s.connections c = some conn ∧ conn.phase = .registered
  newest : ∀ id e, s.registry.agents id = some e →
    s.accepted.find? (fun c ↦ decide (s.agentIdOf c = some id)) = some e.commandTx

/-- No connection, entry or registration satisfies the invariant. -/
theorem wf_init : Wf init := by
  constructor <;> simp [init, AgentRegistry.new]

end ControlPlane

open ControlPlane

variable {s t : ControlPlane} {a : Action}

/-- A connection keeps its value, and a registered one stays registered. -/
theorem Step.connection_kept (h : Step s a t) (hw : s.Wf) (c : ChannelId) (conn : Connection)
    (hc : s.connections c = some conn) :
    ∃ conn', t.connections c = some conn' ∧ conn'.entry = conn.entry ∧
      conn'.clusterId = conn.clusterId ∧
        (conn.phase = .registered → conn'.phase = .registered) := by
  have hlt : c ≠ s.nextChannel := by
    intro he
    have hn := hw.fresh c (Nat.le_of_eq he.symm)
    simp [hc] at hn
  cases h with
  | announce clusterId info now => exact ⟨conn, by simp [hlt, hc], rfl, rfl, id⟩
  | accept c' conn' r hc' hp hr => by_cases hcc : c = c' <;> grind [connections_setConnection]
  | refuse c' conn' e hc' hp hr => by_cases hcc : c = c' <;> grind [connections_setConnection]
  | receive c' conn' hc' => by_cases hcc : c = c' <;> grind [connections_setConnection]
  | dropReceiver c' conn' hc' => by_cases hcc : c = c' <;> grind [connections_setConnection]
  | deliver i p entry conn' hi he hc' ho =>
    by_cases hcc : c = entry.commandTx <;> grind [connections_setConnection]
  | _ => exact ⟨conn, hc, rfl, rfl, id⟩

/-- The announced agent identifier of a connection never changes. -/
theorem Step.agentIdOf_kept (h : Step s a t) (hw : s.Wf) (c : ChannelId)
    (hc : (s.connections c).isSome) : t.agentIdOf c = s.agentIdOf c := by
  obtain ⟨conn, hc⟩ := Option.isSome_iff_exists.mp hc
  obtain ⟨conn', hc', he, -⟩ := h.connection_kept hw c conn hc
  simp [agentIdOf, hc, hc', he]

/-- The cluster binding of a channel's registration never changes. -/
theorem Step.clusterOf_kept (h : Step s a t) (hw : s.Wf) (c : ChannelId)
    (hc : (s.connections c).isSome) : t.clusterOf c = s.clusterOf c := by
  obtain ⟨conn, hc⟩ := Option.isSome_iff_exists.mp hc
  obtain ⟨conn', hc', he, -⟩ := h.connection_kept hw c conn hc
  simp [clusterOf, hc, hc', he]

/-- Ownership of an entry survives every step. -/
theorem Step.owns_kept (h : Step s a t) (hw : s.Wf) (c : ChannelId) (e : AgentConnection)
    (ho : s.Owns c e) : t.Owns c e := by
  obtain ⟨conn, hc, hp, hi, hg, hb⟩ := ho
  obtain ⟨conn', hc', he, -, hp'⟩ := h.connection_kept hw c conn hc
  exact ⟨conn', hc', hp' hp, by rw [he, hi], by rw [he, hg], by rw [he, hb]⟩

/-- Every entry after a step was there before it, up to health and heartbeat, or was inserted by
the step for the connection that it names. -/
theorem Step.entry_cases (h : Step s a t) (id : Uuid) (e' : AgentConnection)
    (he : t.registry.agents id = some e') :
    (∃ e, s.registry.agents id = some e ∧ SameRegistration e e') ∨
      ∃ c conn, a = .insert c ∧ s.connections c = some conn ∧ e' = conn.entry ∧
        conn.entry.info.agentId = id ∧ t.accepted = c :: s.accepted ∧
        t.connections c = some { conn with phase := .registered } := by
  have same (hr : s.registry.agents id = some e') :
      ∃ e, s.registry.agents id = some e ∧ SameRegistration e e' :=
    ⟨e', hr, rfl, rfl, rfl, rfl⟩
  cases h with
  | accept c conn r hc hp hr =>
    obtain ⟨rfl, -⟩ := AgentRegistry.insertWithCluster_ok _ _ _ _ hr
    by_cases hi : id = conn.entry.info.agentId
    · refine .inr ⟨c, conn, rfl, hc, ?_, hi.symm, rfl, by simp⟩
      simpa [hi, eq_comm] using he
    · exact .inl (same (by simpa [hi] using he))
  | heartbeat c conn now hc hp =>
    simp only [AgentRegistry.agents_heartbeat] at he
    split at he
    · obtain ⟨e, hr, rfl⟩ := Option.map_eq_some_iff.mp he
      exact .inl ⟨e, hr, rfl, rfl, rfl, rfl⟩
    · exact .inl (same he)
  | cleanup c conn hc hp =>
    simp only [AgentRegistry.agents_unregisterIf] at he
    split at he
    · cases he
    · exact .inl (same he)
  | report clusterId health now r hr =>
    obtain ⟨e, hs, -, rfl⟩ := AgentRegistry.updateHealthForCluster_ok _ _ _ _ _ hr
    by_cases hi : id = health.agentId
    · subst hi
      have hv : { e with health := some health, lastHeartbeat := now } = e' := by
        simpa using he
      subst hv
      exact .inl ⟨e, hs, rfl, rfl, rfl, rfl⟩
    · exact .inl (same (by simpa [hi] using he))
  | evict now => exact .inl (same ((AgentRegistry.agents_evictStaleAgents _ _ _ _).mp he).1)
  | _ => exact .inl (same he)

/-- A step accepts at most the connection it inserts. -/
theorem Step.accepted_cases (h : Step s a t) :
    t.accepted = s.accepted ∨ ∃ c conn, a = .insert c ∧ s.connections c = some conn ∧
      t.accepted = c :: s.accepted ∧
      t.connections c = some { conn with phase := .registered } ∧
      t.registry.agents conn.entry.info.agentId = some conn.entry := by
  cases h with
  | accept c conn r hc hp hr =>
    obtain ⟨rfl, -⟩ := AgentRegistry.insertWithCluster_ok _ _ _ _ hr
    exact .inr ⟨c, conn, rfl, hc, rfl, by simp, by simp⟩
  | _ => exact .inl rfl

/-- Searching the accepted registrations is stable under every step. -/
theorem Step.find_accepted (h : Step s a t) (hw : s.Wf) (id : Uuid) (l : List ChannelId)
    (hl : ∀ c ∈ l, c ∈ s.accepted) :
    l.find? (fun c ↦ decide (t.agentIdOf c = some id)) =
      l.find? (fun c ↦ decide (s.agentIdOf c = some id)) := by
  induction l with
  | nil => rfl
  | cons c rest ih =>
    obtain ⟨conn, hc, -⟩ := hw.accepted c (hl c (by simp))
    have hk := h.agentIdOf_kept hw c (by simp [hc])
    have hr := ih fun c' hc' ↦ hl c' (by simp [hc'])
    simp only [List.find?_cons, hk, hr]

/-- Only `announce` moves the counter and the channel supply, together. -/
theorem Step.counter_cases (h : Step s a t) :
    (t.nextChannel = s.nextChannel ∧ t.registry.nextGeneration = s.registry.nextGeneration) ∨
      (t.nextChannel = s.nextChannel + 1 ∧
        t.registry.nextGeneration = s.registry.nextGeneration + 1) := by
  cases h with
  | announce clusterId info now => exact .inr ⟨rfl, rfl⟩
  | accept c conn r hc hp hr =>
    obtain ⟨rfl, -⟩ := AgentRegistry.insertWithCluster_ok _ _ _ _ hr
    exact .inl ⟨rfl, rfl⟩
  | heartbeat c conn now hc hp =>
    refine .inl ⟨rfl, ?_⟩
    simp only [AgentRegistry.heartbeat]
    split <;> rfl
  | cleanup c conn hc hp =>
    refine .inl ⟨rfl, ?_⟩
    simp only [AgentRegistry.unregisterIf]
    split
    · split <;> rfl
    · rfl
  | report clusterId health now r hr =>
    obtain ⟨e, -, -, rfl⟩ := AgentRegistry.updateHealthForCluster_ok _ _ _ _ _ hr
    exact .inl ⟨rfl, rfl⟩
  | _ => exact .inl ⟨rfl, rfl⟩

/-- A connection after a step was there before it, with the same value, or is the one announced
under the next channel. -/
theorem Step.connection_cases (h : Step s a t) (c : ChannelId) (conn' : Connection)
    (hc : t.connections c = some conn') :
    (∃ conn, s.connections c = some conn ∧ conn'.entry = conn.entry ∧
        conn'.clusterId = conn.clusterId) ∨
      (c = s.nextChannel ∧ t.nextChannel = s.nextChannel + 1 ∧ conn'.entry.commandTx = c ∧
        conn'.entry.generation = s.registry.nextGeneration ∧
        conn'.entry.clusterId = some conn'.clusterId) := by
  cases h with
  | announce clusterId info now =>
    by_cases hn : c = s.nextChannel
    · have hv := hc
      simp only [connections_setConnection, if_pos hn, Option.some.injEq] at hv
      subst hv
      exact .inr ⟨hn, rfl, hn.symm, rfl, rfl⟩
    · exact .inl ⟨conn', by simpa [hn] using hc, rfl, rfl⟩
  | accept c' conn r hc' hp hr => grind [connections_setConnection]
  | refuse c' conn e hc' hp hr => grind [connections_setConnection]
  | receive c' conn hc' => grind [connections_setConnection]
  | dropReceiver c' conn hc' => grind [connections_setConnection]
  | deliver i p entry conn hi he hc' ho => grind [connections_setConnection]
  | _ => exact .inl ⟨conn', hc, rfl, rfl⟩

/-- A channel that has not been given out stays free. -/
private theorem Step.fresh_kept (h : Step s a t) (hw : s.Wf) (c : ChannelId)
    (hle : t.nextChannel ≤ c) : t.connections c = none := by
  cases hc : t.connections c with
  | none => rfl
  | some conn' =>
    rcases h.connection_cases c conn' hc with ⟨conn, hs, -⟩ | ⟨rfl, hn, -⟩
    · have hlt : s.nextChannel ≤ c := by
        rcases h.counter_cases with ⟨hn, -⟩ | ⟨hn, -⟩
        · rwa [hn] at hle
        · rw [hn] at hle
          exact Nat.le_of_succ_le hle
      rw [hw.fresh c hlt] at hs
      cases hs
    · exact absurd (hn ▸ hle) (Nat.not_succ_le_self _)

/-- An entry is still owned by the connection that announced it. -/
private theorem Step.owner_kept (h : Step s a t) (hw : s.Wf) (id : Uuid) (e' : AgentConnection)
    (he : t.registry.agents id = some e') : e'.info.agentId = id ∧ t.Owns e'.commandTx e' := by
  rcases h.entry_cases id e' he with ⟨e, hs, hi, hg, htx, hb⟩ | ⟨c, conn, -, hc, rfl, hid, -, ht⟩
  · obtain ⟨hid, conn, hc, hp, hci, hcg, hcb⟩ := hw.owner id e hs
    refine ⟨hi ▸ hid, h.owns_kept hw _ _ ?_⟩
    rw [← htx]
    exact ⟨conn, hc, hp, hci.trans hi, hcg.trans hg, hcb.trans hb⟩
  · obtain ⟨htx, -⟩ := hw.connection c conn hc
    refine ⟨hid, ?_⟩
    rw [htx]
    exact ⟨_, ht, rfl, rfl, rfl, rfl⟩

/-- An accepted channel still has its registered connection. -/
private theorem Step.accepted_kept (h : Step s a t) (hw : s.Wf) (c : ChannelId)
    (hc : c ∈ t.accepted) : ∃ conn, t.connections c = some conn ∧ conn.phase = .registered := by
  have hold : ∀ c ∈ s.accepted, ∃ conn, t.connections c = some conn ∧ conn.phase = .registered := by
    intro c hc
    obtain ⟨conn, hconn, hp⟩ := hw.accepted c hc
    obtain ⟨conn', hconn', -, -, hp'⟩ := h.connection_kept hw c conn hconn
    exact ⟨conn', hconn', hp' hp⟩
  rcases h.accepted_cases with hs | ⟨c', conn, -, hc', hs, ht, -⟩
  · exact hold c (hs ▸ hc)
  · rcases List.mem_cons.mp (hs ▸ hc) with rfl | hc
    · exact ⟨_, ht, rfl⟩
    · exact hold c hc

/-- The newest accepted channel of an agent is still the one its entry sends to. -/
private theorem Step.newest_kept (h : Step s a t) (hw : s.Wf) (id : Uuid) (e' : AgentConnection)
    (he : t.registry.agents id = some e') :
    t.accepted.find? (fun c ↦ decide (t.agentIdOf c = some id)) = some e'.commandTx := by
  have hfind := h.find_accepted hw id s.accepted (fun _ hc ↦ hc)
  rcases h.entry_cases id e' he with ⟨e, hs, hi, hg, htx, hb⟩ | ⟨c, conn, -, hc, rfl, hid, ha, ht⟩
  · rcases h.accepted_cases with ha | ⟨c, conn, -, hc, ha, ht, hin⟩
    · rw [ha, hfind, hw.newest id e hs, htx]
    · obtain ⟨htx', -⟩ := hw.connection c conn hc
      by_cases hid : conn.entry.info.agentId = id
      · have hv : conn.entry = e' := by simpa [← hid, hin] using he
        subst hv
        simp [ha, agentIdOf, ht, hid, htx']
      · have hnew := hfind.trans (hw.newest id e hs)
        rw [ha, List.find?_cons_of_neg (by simp [agentIdOf, ht, hid]), hnew, htx]
  · obtain ⟨htx', -⟩ := hw.connection c conn hc
    simp [ha, agentIdOf, ht, hid, htx']

/-- Every step keeps the structural invariant. -/
theorem Step.wf (h : Step s a t) (hw : s.Wf) : t.Wf where
  fresh := h.fresh_kept hw
  counter := by
    rcases h.counter_cases with ⟨hn, hg⟩ | ⟨hn, hg⟩
    · rw [hn, hg, hw.counter]
    · rw [hn, hg, hw.counter, UInt64.ofNat_add]
      rfl
  connection := by
    intro c conn' hc
    rcases h.connection_cases c conn' hc with ⟨conn, hs, he, hb⟩ | ⟨rfl, -, htx, hg, hb⟩
    · rw [he, hb]
      exact hw.connection c conn hs
    · exact ⟨htx, by rw [hg, hw.counter], hb⟩
  owner := h.owner_kept hw
  accepted := h.accepted_kept hw
  newest := h.newest_kept hw

/-- The structural invariant holds after every run. -/
theorem wf_of_run {tr : List (Transition ControlPlane Action)} (h : Run step init tr s) : s.Wf :=
  h.invariant wf_init fun _ _ _ hw ht ↦ (step_cases ht).wf hw

/-! ## Streams that commands can still reach -/

namespace ControlPlane

/-- The stream of channel `c` was announced by the agent, is open, and is the one its registry entry
names or has still to be inserted. -/
def Reachable (s : ControlPlane) (c : ChannelId) (agentId : Uuid) : Prop :=
  ∃ conn, s.connections c = some conn ∧ conn.entry.info.agentId = agentId ∧ conn.closed = false ∧
    (conn.phase = .announced ∨ ∃ e, s.registry.agents agentId = some e ∧ e.commandTx = c)

end ControlPlane

/-- `conn'` comes after `conn` in the life of one stream. -/
private def Follows (conn conn' : Connection) : Prop :=
  conn'.entry = conn.entry ∧ (conn'.closed = false → conn.closed = false) ∧
    (conn'.phase = .announced → conn.phase = .announced)

private theorem follows_setConnection {c c' : ChannelId} {conn new conn' : Connection}
    (hs : s.connections c' = some conn) (hc : (s.setConnection c' new).connections c = some conn')
    (hnew : Follows conn new) :
    ∃ conn, s.connections c = some conn ∧ Follows conn conn' := by
  rw [connections_setConnection] at hc
  split at hc
  · next heq =>
    obtain rfl := Option.some.inj hc
    exact ⟨conn, heq ▸ hs, hnew⟩
  · exact ⟨conn', hc, rfl, id, id⟩

/-- A step never opens a stream again, and never makes one announced again. -/
private theorem Step.stream_progress (h : Step s a t) (c : ChannelId) (conn' : Connection)
    (hc : t.connections c = some conn') :
    c = s.nextChannel ∨ ∃ conn, s.connections c = some conn ∧ Follows conn conn' := by
  cases h with
  | announce clusterId info now =>
    by_cases hn : c = s.nextChannel
    · exact .inl hn
    · exact .inr ⟨conn', by simpa [hn] using hc, rfl, id, id⟩
  | accept c' conn r hc' hp hr =>
    exact .inr (follows_setConnection hc' hc ⟨rfl, id, by simp⟩)
  | refuse c' conn e hc' hp hr =>
    exact .inr (follows_setConnection hc' hc ⟨rfl, id, by simp⟩)
  | receive c' conn hc' => exact .inr (follows_setConnection hc' hc ⟨rfl, id, id⟩)
  | dropReceiver c' conn hc' => exact .inr (follows_setConnection hc' hc ⟨rfl, by simp, id⟩)
  | deliver i p entry conn hi he hc' ho =>
    exact .inr (follows_setConnection hc' hc ⟨rfl, id, id⟩)
  | _ => exact .inr ⟨conn', hc, rfl, id, id⟩

/-- An insertion is of an announced stream. -/
private theorem Step.announced_of_insert {c : ChannelId} (h : Step s (.insert c) t) :
    ∃ conn, s.connections c = some conn ∧ conn.phase = .announced := by
  cases h with
  | accept c conn r hc hp hr => exact ⟨conn, hc, hp⟩
  | refuse c conn e hc hp hr => exact ⟨conn, hc, hp⟩

/-- A step makes at most the stream it announces reachable. -/
theorem Step.reachable_cases (h : Step s a t) (hw : s.Wf) {c : ChannelId} {agentId : Uuid}
    (hc : t.Reachable c agentId) :
    s.Reachable c agentId ∨ c = s.nextChannel ∧ ∃ clusterId info now,
      a = .announce clusterId info now ∧ info.agentId = agentId := by
  obtain ⟨conn', hconn', hid, hopen, hlive⟩ := hc
  by_cases hn : c = s.nextChannel
  · rcases h.connection_cases c conn' hconn' with ⟨conn, hs, -⟩ | ⟨-, hnext, -⟩
    · rw [hw.fresh c (Nat.le_of_eq hn.symm)] at hs
      cases hs
    · cases h with
      | announce clusterId info now =>
        rw [connections_setConnection, if_pos hn] at hconn'
        obtain rfl := Option.some.inj hconn'
        exact .inr ⟨hn, clusterId, info, now, rfl, hid⟩
      | _ => exact absurd hnext (Nat.succ_ne_self s.nextChannel).symm
  · obtain ⟨conn, hs, he, hclosed, hphase⟩ := (h.stream_progress c conn' hconn').resolve_left hn
    refine .inl ⟨conn, hs, he ▸ hid, hclosed hopen, ?_⟩
    rcases hlive with hp | ⟨e', hentry, htx⟩
    · exact .inl (hphase hp)
    · rcases h.entry_cases agentId e' hentry with
        ⟨e, hold, -, -, hsame, -⟩ | ⟨c', conn₁, rfl, hc', rfl, -⟩
      · exact .inr ⟨e, hold, hsame.trans htx⟩
      · obtain rfl : c' = c := ((hw.connection c' conn₁ hc').1).symm.trans htx
        obtain ⟨conn₂, hc₂, hp⟩ := h.announced_of_insert
        obtain rfl := Option.some.inj (hs.symm.trans hc₂)
        exact .inl hp

/-- Commands are looked up and delivered; no other step touches those in flight. -/
theorem Step.pending_kept (h : Step s a t) (hl : ∀ clusterId command agentId,
    a ≠ .lookup clusterId command agentId) (hd : ∀ i, a ≠ .deliver i) : t.pending = s.pending := by
  cases h with
  | lookup clusterId command agentId entry he hb => exact absurd rfl (hl clusterId command agentId)
  | undelivered i hn => exact absurd rfl (hd i)
  | deliver i p entry conn hi he hc ho => exact absurd rfl (hd i)
  | _ => rfl

end ReinhardtCloud.Grpc
