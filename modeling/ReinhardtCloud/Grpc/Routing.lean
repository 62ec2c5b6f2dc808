import ReinhardtCloud.Grpc.Ownership

/-!
# Cluster-addressed command routing

Library `Grpc`. `send_command_to_cluster` (`registry.rs:203–217`) finds an agent bound to
the cluster and then looks that agent up again (`registry.rs:292–302`). Whether the second
look-up can reach another cluster is decided by the registrations accepted between the two.
-/

namespace ReinhardtCloud.Grpc

open ReinhardtCloud.Base ControlPlane

namespace ControlPlane

/-- The newest registration of the command's agent identifier accepted since its lookup. -/
def takenOverBy (s : ControlPlane) (p : PendingCommand) : Option ChannelId :=
  (s.accepted.take (s.accepted.length - p.mark)).find?
    fun c ↦ decide (s.agentIdOf c = some p.agentId)

/-- Every command in flight was looked up in the past, and unless its agent identifier was
registered again since, that identifier is still bound to the addressed cluster. -/
def LookupsCurrent (s : ControlPlane) : Prop :=
  ∀ p ∈ s.pending, p.mark ≤ s.accepted.length ∧
    (s.takenOverBy p = none → ∀ e, s.registry.agents p.agentId = some e →
      e.clusterId = some p.clusterId)

/-- Every enqueued command sits on the channel of a registration bound to its cluster. -/
def RoutedWithinCluster (s : ControlPlane) : Prop :=
  ∀ d ∈ s.delivered, s.clusterOf d.channel = some d.clusterId

end ControlPlane

/-- A delivery that reaches an open channel does so with the agent identifier not registered
again since the lookup, or registered again last under the addressed cluster. -/
def NoForeignTakeover (x : Transition ControlPlane Action) : Prop :=
  ∀ i p entry conn, x.action = .deliver i → x.before.pending[i]? = some p →
    x.before.registry.agents p.agentId = some entry →
    x.before.connections entry.commandTx = some conn → conn.closed = false →
    ∀ c, x.before.takenOverBy p = some c → x.before.clusterOf c = some p.clusterId

variable {s t : ControlPlane} {a : Action}

/-- A step leaves a command in flight, or looks it up. -/
theorem Step.pending_cases (h : Step s a t) (p : PendingCommand) (hp : p ∈ t.pending) :
    p ∈ s.pending ∨ (p.mark = s.accepted.length ∧ t.accepted = s.accepted ∧
      t.registry = s.registry ∧
      ∀ e, s.registry.agents p.agentId = some e → e.clusterId = some p.clusterId) := by
  cases h with
  | lookup clusterId command agentId entry he hb =>
    rcases List.mem_append.mp hp with hp | hp
    · exact .inl hp
    · have hv := List.mem_singleton.mp hp
      subst hv
      exact .inr ⟨rfl, rfl, rfl, by simp [he, hb]⟩
  | undelivered i hn => exact .inl (List.mem_of_mem_eraseIdx hp)
  | deliver i p' entry conn hi he hc ho => exact .inl (List.mem_of_mem_eraseIdx hp)
  | _ => exact .inl hp

/-- The registrations accepted since a lookup grow by the one a step accepts. -/
theorem Step.takenOverBy_eq (h : Step s a t) (hw : s.Wf) (p : PendingCommand)
    (hm : p.mark ≤ s.accepted.length) :
    t.takenOverBy p = match a with
      | .insert c => if t.accepted = c :: s.accepted ∧ t.agentIdOf c = some p.agentId then some c
          else s.takenOverBy p
      | _ => s.takenOverBy p := by
  have hstable := h.find_accepted hw p.agentId (s.accepted.take (s.accepted.length - p.mark))
    fun c hc ↦ List.mem_of_mem_take hc
  rcases h.accepted_cases with ha | ⟨c, conn, rfl, -, ha, -, -⟩
  · have hk : t.takenOverBy p = s.takenOverBy p := by
      simp only [takenOverBy, ha, hstable]
    rw [hk]
    split
    · simp [ha]
    · rfl
  · have hlen : (c :: s.accepted).length - p.mark = s.accepted.length - p.mark + 1 := by
      rw [List.length_cons]
      omega
    simp only [takenOverBy, ha, hlen, List.take_succ_cons, List.find?_cons, hstable, true_and]
    by_cases hc : t.agentIdOf c = some p.agentId <;> simp [hc]

/-- Every step keeps the lookups in flight current. -/
theorem Step.lookupsCurrent (h : Step s a t) (hw : s.Wf) (hl : s.LookupsCurrent) :
    t.LookupsCurrent := by
  intro p hp
  rcases h.pending_cases p hp with hp | ⟨hm, ha, hr, hb⟩
  · obtain ⟨hm, hcur⟩ := hl p hp
    have hgrow : s.accepted.length ≤ t.accepted.length := by
      rcases h.accepted_cases with ha | ⟨c, conn, -, -, ha, -, -⟩
      · exact Nat.le_of_eq (congrArg List.length ha.symm)
      · rw [ha, List.length_cons]
        exact Nat.le_succ _
    refine ⟨Nat.le_trans hm hgrow, ?_⟩
    intro hnone e' he
    rcases h.entry_cases p.agentId e' he with
      ⟨e, hs, -, -, -, hb⟩ | ⟨c, conn, rfl, hc, rfl, hid, ha, ht⟩
    · have hbefore : s.takenOverBy p = none := by
        rw [h.takenOverBy_eq hw p hm] at hnone
        split at hnone
        · split at hnone
          · cases hnone
          · exact hnone
        · exact hnone
      exact hb ▸ hcur hbefore e hs
    · rw [h.takenOverBy_eq hw p hm] at hnone
      simp [ha, agentIdOf, ht, hid] at hnone
  · refine ⟨by simp [ha, hm], ?_⟩
    intro _ e he
    exact hb e (by rwa [hr] at he)

/-- The entry a delivery finds is bound to the addressed cluster exactly when its agent was not
taken over by another cluster since the lookup. -/
theorem bound_iff_not_takenOver (hw : s.Wf) (hl : s.LookupsCurrent) (p : PendingCommand)
    (hp : p ∈ s.pending) (e : AgentConnection) (he : s.registry.agents p.agentId = some e) :
    s.clusterOf e.commandTx = some p.clusterId ↔
      ∀ c, s.takenOverBy p = some c → s.clusterOf c = some p.clusterId := by
  obtain ⟨hm, hcur⟩ := hl p hp
  obtain ⟨-, conn, hc, -, -, -, hb⟩ := hw.owner _ e he
  cases ht : s.takenOverBy p with
  | none => simp [clusterOf, hc, hb, hcur ht e he]
  | some c =>
    have hnew := hw.newest _ e he
    rw [← List.take_append_drop (s.accepted.length - p.mark) s.accepted, List.find?_append] at hnew
    have hce : c = e.commandTx := by
      simpa [show (s.accepted.take (s.accepted.length - p.mark)).find?
        (fun c ↦ decide (s.agentIdOf c = some p.agentId)) = some c from ht] using hnew
    simp [hce]

/-- The channels that received commands belong to announced connections. -/
def DeliveredKnown (s : ControlPlane) : Prop :=
  ∀ d ∈ s.delivered, (s.connections d.channel).isSome

/-- A step enqueues nothing, or delivers one command in flight on the channel of the entry that
its agent identifier names now. -/
theorem Step.delivered_cases (h : Step s a t) :
    (t.delivered = s.delivered ∧ NoForeignTakeover ⟨s, a, t⟩) ∨
      ∃ i p entry conn, a = .deliver i ∧ s.pending[i]? = some p ∧
        s.registry.agents p.agentId = some entry ∧
        s.connections entry.commandTx = some conn ∧ conn.closed = false ∧
        t.delivered = ⟨p.clusterId, p.command, entry.commandTx⟩ :: s.delivered := by
  cases h with
  | undelivered i hclosed =>
    refine .inl ⟨rfl, ?_⟩
    intro j p entry conn hj hp he hc ho
    have hij := Action.deliver.inj hj
    subst hij
    simp [hclosed p entry conn hp he hc] at ho
  | deliver i p entry conn hi he hc ho => exact .inr ⟨i, p, entry, conn, rfl, hi, he, hc, ho, rfl⟩
  | _ => exact .inl ⟨rfl, fun j p entry conn hj ↦ by cases hj⟩

/-- One step extends the enqueued commands by at most one, and that one stays within its cluster
exactly when the step meets `NoForeignTakeover`. -/
theorem Step.routed_iff (h : Step s a t) (hw : s.Wf) (hl : s.LookupsCurrent)
    (hk : DeliveredKnown s) : DeliveredKnown t ∧
      (t.RoutedWithinCluster ↔ s.RoutedWithinCluster ∧ NoForeignTakeover ⟨s, a, t⟩) := by
  have hsame : ∀ d ∈ s.delivered, t.clusterOf d.channel = s.clusterOf d.channel :=
    fun d hd ↦ h.clusterOf_kept hw d.channel (hk d hd)
  have hkept (c : ChannelId) (hc : (s.connections c).isSome) : (t.connections c).isSome := by
    obtain ⟨conn, hc⟩ := Option.isSome_iff_exists.mp hc
    obtain ⟨conn', hc', -⟩ := h.connection_kept hw _ conn hc
    simp [hc']
  have hold : (∀ d ∈ s.delivered, t.clusterOf d.channel = some d.clusterId) ↔
      s.RoutedWithinCluster := forall₂_congr fun d hd ↦ by rw [hsame d hd]
  rcases h.delivered_cases with ⟨hd, hn⟩ | ⟨i, p, entry, conn, rfl, hi, he, hc, ho, hd⟩
  · refine ⟨fun d hmem ↦ hkept _ (hk d (hd ▸ hmem)), ?_⟩
    rw [← hold]
    simp only [RoutedWithinCluster, hd, hn, and_true]
  · have hcs : (s.connections entry.commandTx).isSome := by simp [hc]
    have hcond : NoForeignTakeover ⟨s, .deliver i, t⟩ ↔
        t.clusterOf entry.commandTx = some p.clusterId := by
      rw [h.clusterOf_kept hw _ hcs,
        bound_iff_not_takenOver hw hl p (List.mem_of_getElem? hi) entry he]
      constructor
      · intro hn c htk
        exact hn i p entry conn rfl hi he hc ho c htk
      · intro hb j p' entry' conn' hj hp' _ _ _
        have hij := Action.deliver.inj hj
        subst hij
        have hpp : p' = p := Option.some.inj (hp'.symm.trans hi)
        subst hpp
        exact hb
    refine ⟨?_, ?_⟩
    · intro d hmem
      rcases List.mem_cons.mp (hd ▸ hmem) with rfl | hmem
      · exact hkept _ hcs
      · exact hkept _ (hk d hmem)
    · rw [hcond, ← hold]
      simp only [RoutedWithinCluster, hd, List.forall_mem_cons]
      exact and_comm

/-- In every run, the commands of `send_command_to_cluster` stay within the addressed cluster
exactly when no delivery finds its agent identifier taken over by another cluster. -/
theorem sendCommandToCluster_routed_iff {tr : List (Transition ControlPlane Action)}
    (h : Run step init tr s) :
    s.RoutedWithinCluster ↔ ∀ x ∈ tr, NoForeignTakeover x := by
  have hall : s.Wf ∧ s.LookupsCurrent ∧ DeliveredKnown s ∧
      (s.RoutedWithinCluster ↔ ∀ x ∈ tr, NoForeignTakeover x) := by
    induction h with
    | nil =>
      exact ⟨wf_init, by simp [LookupsCurrent, init], by simp [DeliveredKnown, init],
        by simp [RoutedWithinCluster, init]⟩
    | @snoc tr s t a _ ht ih =>
      obtain ⟨hw, hl, hk, hr⟩ := ih
      have hstep := step_cases ht
      obtain ⟨hk', hr'⟩ := hstep.routed_iff hw hl hk
      refine ⟨hstep.wf hw, hstep.lookupsCurrent hw hl, hk', ?_⟩
      rw [hr', hr, List.forall_mem_append]
      simp
  exact hall.2.2.2

/-- A send to cluster 1 looks up agent 7, the agent is evicted, cluster 2 registers the same
agent identifier, and the send is delivered. -/
def takeoverSchedule : List Action :=
  [.announce 1 ⟨7, "one", "", "", 0⟩ 0, .insert 0, .lookup 1 (.restart "web") 7,
    .evictStaleAgents fun _ ↦ 100000000000, .announce 2 ⟨7, "two", "", "", 0⟩ 100000000000,
    .insert 1, .deliver 0]

/-- The schedule is enabled and enqueues cluster 1's command on cluster 2's channel. -/
theorem execute_takeoverSchedule : ∃ s, execute step init takeoverSchedule = some s ∧
    s.delivered = [⟨1, .restart "web", 1⟩] ∧ s.clusterOf 1 = some 2 :=
  ⟨_, rfl, by decide, by decide⟩

/-- Not every run keeps the commands within the addressed cluster. -/
theorem sendCommandToCluster_not_confined :
    ¬ ∀ (tr : List (Transition ControlPlane Action)) (s : ControlPlane),
      Run step init tr s → s.RoutedWithinCluster := by
  intro hall
  obtain ⟨s, he, hd, hc⟩ := execute_takeoverSchedule
  have hr := hall _ s (Run.of_execute _ he) ⟨1, .restart "web", 1⟩ (by simp [hd])
  simp [hc] at hr

/-- The equivalence at the take-over schedule: its delivery meets a foreign registration. -/
theorem sendCommandToCluster_routed_iff_takeover :
    ∃ s, execute step init takeoverSchedule = some s ∧
      (s.RoutedWithinCluster ↔
        ∀ x ∈ transitions step init takeoverSchedule, NoForeignTakeover x) := by
  obtain ⟨s, he, -⟩ := execute_takeoverSchedule
  exact ⟨s, he, sendCommandToCluster_routed_iff (Run.of_execute _ he)⟩

end ReinhardtCloud.Grpc
