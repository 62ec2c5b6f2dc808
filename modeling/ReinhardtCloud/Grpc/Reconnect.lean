import ReinhardtCloud.Grpc.Ownership
import Mathlib.Data.List.Nodup

/-!
# Reconnects told apart by generations

Library `Grpc`. Every connection cleans up with its own generation
(`registry.rs:235–250`), so a clean-up removes the entry of another connection only if two
registrations of one agent carry the same generation. The counter is an `AtomicU64`
bumped outside the map: it repeats after `2^64` registrations and not before.
-/

namespace ReinhardtCloud.Grpc

open ReinhardtCloud.Base ControlPlane

namespace ControlPlane

/-- The generation carried by connection `c`. -/
def generationOf (s : ControlPlane) (c : ChannelId) : Option UInt64 :=
  (s.connections c).map fun conn ↦ conn.entry.generation

/-- No two entries ever inserted share a generation. -/
def GenerationsDistinct (s : ControlPlane) : Prop :=
  (s.accepted.map s.generationOf).Nodup

end ControlPlane

/-- The entry of `id` is still the one that `e`'s registration inserted. -/
def StillRegistered (s : ControlPlane) (id : Uuid) (e : AgentConnection) : Prop :=
  ∃ e', s.registry.agents id = some e' ∧ SameRegistration e e'

/-- An entry leaves the map only by a clean-up of its own connection, by a re-registration under
its cluster that replaces it, or by eviction. -/
def LeavesOnlyByOwnStep (x : Transition ControlPlane Action) : Prop :=
  ∀ id e, x.before.registry.agents id = some e → ¬ StillRegistered x.after id e →
    x.action = .cleanup e.commandTx ∨
      (∃ c conn, x.action = .insert c ∧ x.before.connections c = some conn ∧
        conn.entry.info.agentId = id ∧ e.clusterId = some conn.clusterId ∧
        x.after.registry.agents id = some conn.entry) ∨
      ∃ now, x.action = .evictStaleAgents now

/-- Registering an agent identifier that is present under another binding is refused with
`ClusterMismatch` and leaves the whole registry as it was. -/
def ForeignRegistrationRefused (x : Transition ControlPlane Action) : Prop :=
  ∀ c conn occupied, x.action = .insert c → x.before.connections c = some conn →
    x.before.registry.agents conn.entry.info.agentId = some occupied →
    occupied.clusterId ≠ some conn.clusterId →
    x.after = x.before.setConnection c { conn with phase := .refused .clusterMismatch }

variable {s t : ControlPlane} {a : Action}

/-- Generations tell two channels below `2^64` apart. -/
theorem generation_injective (hw : s.Wf) (hb : s.nextChannel ≤ 2 ^ 64) {c c' : ChannelId}
    {conn conn' : Connection} (hc : s.connections c = some conn)
    (hc' : s.connections c' = some conn')
    (hg : conn.entry.generation = conn'.entry.generation) : c = c' := by
  have below (k : ChannelId) (kconn : Connection) (hk : s.connections k = some kconn) :
      k < 2 ^ 64 := by
    by_contra hge
    have hn := hw.fresh k (Nat.le_trans hb (Nat.le_of_not_lt hge))
    simp [hk] at hn
  rw [(hw.connection c conn hc).2.1, (hw.connection c' conn' hc').2.1] at hg
  have hn := congrArg UInt64.toNat hg
  rw [UInt64.toNat_ofNat', UInt64.toNat_ofNat',
    Nat.mod_eq_of_lt (below c conn hc), Nat.mod_eq_of_lt (below c' conn' hc')] at hn
  exact hn

/-- A connection is accepted at most once. -/
theorem Step.accepted_nodup (h : Step s a t) (hw : s.Wf) (hn : s.accepted.Nodup) :
    t.accepted.Nodup := by
  cases h with
  | accept c conn r hc hp hr =>
    refine List.nodup_cons.mpr ⟨?_, hn⟩
    intro hmem
    obtain ⟨conn', hc', hp'⟩ := hw.accepted c hmem
    rw [hc] at hc'
    obtain rfl := Option.some.inj hc'
    rw [hp] at hp'
    cases hp'
  | _ => exact hn

/-- While at most `2^64` generations are out, the accepted ones are pairwise distinct. -/
theorem generationsDistinct_of_bound (hw : s.Wf) (hn : s.accepted.Nodup)
    (hb : s.nextChannel ≤ 2 ^ 64) : s.GenerationsDistinct := by
  refine List.Nodup.map_on ?_ hn
  intro c hc c' hc' hg
  obtain ⟨conn, hconn, -⟩ := hw.accepted c hc
  obtain ⟨conn', hconn', -⟩ := hw.accepted c' hc'
  refine generation_injective hw hb hconn hconn' ?_
  simpa [generationOf, hconn, hconn'] using hg

/-- An entry that a clean-up removes is the one of the connection that cleans up. -/
theorem cleanup_own (hw : s.Wf) (hb : s.nextChannel ≤ 2 ^ 64) {c : ChannelId}
    {conn : Connection} {id : Uuid} {e : AgentConnection} (hc : s.connections c = some conn)
    (he : s.registry.agents id = some e) (hg : e.generation = conn.entry.generation) :
    e.commandTx = c := by
  obtain ⟨-, owner, ho, -, -, hog, -⟩ := hw.owner id e he
  exact generation_injective hw hb ho hc (hog.trans hg)

/-- How an entry can leave the map in one step. -/
theorem Step.leavesOnlyByOwnStep (h : Step s a t) (hw : s.Wf) (hb : s.nextChannel ≤ 2 ^ 64) :
    LeavesOnlyByOwnStep ⟨s, a, t⟩ := by
  intro id e he hgone
  change s.registry.agents id = some e at he
  have stays (hr : t.registry.agents id = some e) : False :=
    hgone ⟨e, hr, rfl, rfl, rfl, rfl⟩
  cases h with
  | accept c conn r hc hp hr =>
    obtain ⟨rfl, hocc⟩ := AgentRegistry.insertWithCluster_ok _ _ _ _ hr
    by_cases hi : id = conn.entry.info.agentId
    · subst hi
      exact .inr (.inl ⟨c, conn, rfl, hc, rfl, hocc e he, by simp⟩)
    · exact (stays (by simp [hi, he])).elim
  | heartbeat c conn now hc hp =>
    refine (hgone ?_).elim
    simp only [StillRegistered, AgentRegistry.agents_heartbeat]
    by_cases hi : id = conn.entry.info.agentId
    · subst hi
      exact ⟨{ e with lastHeartbeat := now }, by simp [he], rfl, rfl, rfl, rfl⟩
    · exact ⟨e, by simp [hi, he], rfl, rfl, rfl, rfl⟩
  | cleanup c conn hc hp =>
    by_cases hr : id = conn.entry.info.agentId ∧ e.generation = conn.entry.generation
    · exact .inl (congrArg Action.cleanup (cleanup_own hw hb hc he hr.2).symm)
    · refine (stays ?_).elim
      rw [AgentRegistry.agents_unregisterIf]
      by_cases hi : id = conn.entry.info.agentId
      · have hg : ¬ e.generation = conn.entry.generation := fun hg ↦ hr ⟨hi, hg⟩
        simp [← hi, he, hg]
      · simp [hi, he]
  | report clusterId health now r hr =>
    obtain ⟨e', hs, -, rfl⟩ := AgentRegistry.updateHealthForCluster_ok _ _ _ _ _ hr
    refine (hgone ?_).elim
    by_cases hi : id = health.agentId
    · subst hi
      have hee : e' = e := Option.some.inj (hs.symm.trans he)
      subst hee
      exact ⟨{ e' with health := some health, lastHeartbeat := now }, by simp,
        rfl, rfl, rfl, rfl⟩
    · exact ⟨e, by simp [hi, he], rfl, rfl, rfl, rfl⟩
  | evict now => exact .inr (.inr ⟨now, rfl⟩)
  | _ => exact (stays he).elim

/-- A refused registration answers `ClusterMismatch` and changes no entry. -/
theorem Step.foreignRegistrationRefused (h : Step s a t) :
    ForeignRegistrationRefused ⟨s, a, t⟩ := by
  intro c conn occupied ha hc ho hb
  change a = .insert c at ha
  subst ha
  have herr : s.registry.insertWithCluster conn.entry conn.clusterId = .error .clusterMismatch :=
    (AgentRegistry.insertWithCluster_error_iff _ _ _ _).mpr ⟨rfl, occupied, ho, hb⟩
  cases h with
  | accept c conn' r hc' hp hr =>
    obtain rfl := Option.some.inj (hc'.symm.trans hc)
    rw [herr] at hr
    cases hr
  | refuse c conn' e hc' hp hr =>
    obtain rfl := Option.some.inj (hc'.symm.trans hc)
    rw [herr] at hr
    cases hr
    rfl

/-- The channel supply never shrinks along a run. -/
theorem nextChannel_le_of_mem {tr : List (Transition ControlPlane Action)}
    (h : Run step init tr s) : ∀ x ∈ tr, x.before.nextChannel ≤ s.nextChannel := by
  induction h with
  | nil => simp
  | @snoc tr s t a _ ht ih =>
    have hle : s.nextChannel ≤ t.nextChannel := by
      rcases (step_cases ht).counter_cases with ⟨hn, -⟩ | ⟨hn, -⟩
      · exact Nat.le_of_eq hn.symm
      · rw [hn]
        exact Nat.le_succ _
    intro x hx
    rcases List.mem_append.mp hx with hx | hx
    · exact Nat.le_trans (ih x hx) hle
    · have he : x = ⟨s, a, t⟩ := by simpa using hx
      subst he
      exact hle

/-- Reconnects are safe in every run: foreign registrations are refused, and as long as at most
`2^64` generations are fetched, accepted generations are distinct and an entry leaves the map
only by a step of its own connection, a same-cluster replacement or eviction. -/
theorem reconnect_safe {tr : List (Transition ControlPlane Action)} (h : Run step init tr s) :
    (s.nextChannel ≤ 2 ^ 64 → s.GenerationsDistinct ∧ ∀ x ∈ tr, LeavesOnlyByOwnStep x) ∧
      ∀ x ∈ tr, ForeignRegistrationRefused x := by
  have hinv := h.forall_before (I := fun s ↦ s.Wf ∧ s.accepted.Nodup)
    ⟨wf_init, List.nodup_nil⟩
    fun s a t hs ht ↦ ⟨(step_cases ht).wf hs.1, (step_cases ht).accepted_nodup hs.1 hs.2⟩
  have hend := h.invariant (I := fun s ↦ s.Wf ∧ s.accepted.Nodup)
    ⟨wf_init, List.nodup_nil⟩
    fun s a t hs ht ↦ ⟨(step_cases ht).wf hs.1, (step_cases ht).accepted_nodup hs.1 hs.2⟩
  refine ⟨fun hb ↦ ⟨generationsDistinct_of_bound hend.1 hend.2 hb, ?_⟩, ?_⟩
  · intro x hx
    obtain ⟨⟨hw, -⟩, ht⟩ := hinv x hx
    exact (step_cases ht).leavesOnlyByOwnStep hw
      (Nat.le_trans (nextChannel_le_of_mem h x hx) hb)
  · intro x hx
    exact (step_cases (hinv x hx).2).foreignRegistrationRefused

/-- One accepted registration; further connections may fetch any number of generations. -/
private theorem run_announced (n : Nat) : ∃ tr s, Run step init tr s ∧ s.accepted = [0] ∧
    s.nextChannel = n + 1 ∧ s.registry.agents 8 = none := by
  induction n with
  | zero =>
    have he : ∃ s, execute step init [.announce 1 ⟨7, "one", "", "", 0⟩ 0, .insert 0] = some s ∧
        s.accepted = [0] ∧ s.nextChannel = 1 ∧ s.registry.agents 8 = none :=
      ⟨_, rfl, rfl, rfl, rfl⟩
    obtain ⟨s, he, hs⟩ := he
    exact ⟨_, s, Run.of_execute _ he, hs⟩
  | succ n ih =>
    obtain ⟨tr, s, h, ha, hn, hr⟩ := ih
    have ht : step s (.announce 1 ⟨7, "one", "", "", 0⟩ 0) = some _ := rfl
    exact ⟨_, _, h.snoc ht, ha, congrArg (· + 1) hn, hr⟩

/-- Any number of fetched generations can lie between two accepted registrations. -/
private theorem run_two_accepted (n : Nat) :
    ∃ tr s, Run step init tr s ∧ s.accepted = [n + 1, 0] := by
  obtain ⟨tr, s, h, ha, hn, hr⟩ := run_announced n
  have ht : step s (.announce 1 ⟨8, "one", "", "", 0⟩ 0) = some _ := rfl
  have hrun := h.snoc ht
  refine ⟨_, _, hrun.snoc (a := .insert (n + 1)) (t := ?_) ?_, ?_⟩
  case refine_2 =>
    simp only [step, connections_setConnection, hn, if_true, AgentRegistry.insertWithCluster,
      AgentRegistry.fetchGeneration, AgentRegistry.clusterConnection, hr]
    rfl
  case refine_3 => simp [setConnection, ha]

/-- After `2^64` fetched generations the next registration repeats the first one's. -/
theorem generations_repeat_after_wrap :
    ¬ ∀ (tr : List (Transition ControlPlane Action)) (s : ControlPlane),
      Run step init tr s → s.GenerationsDistinct := by
  intro hall
  obtain ⟨tr, s, h, ha⟩ := run_two_accepted (2 ^ 64 - 1)
  have hw := wf_of_run h
  obtain ⟨conn, hc, -⟩ := hw.accepted (2 ^ 64 - 1 + 1) (by simp [ha])
  obtain ⟨conn', hc', -⟩ := hw.accepted 0 (by simp [ha])
  have hg := (hw.connection _ conn hc).2.1
  have hg' := (hw.connection _ conn' hc').2.1
  have hd := hall tr s h
  simp only [GenerationsDistinct, ha, List.map_cons, List.map_nil, generationOf, hc, hc',
    Option.map_some, hg, hg'] at hd
  exact absurd hd (by decide)

/-- An agent reconnects, and the replaced connection cleans up late. -/
def lateCleanup : List Action :=
  [.announce 1 ⟨7, "one", "", "", 0⟩ 0, .insert 0, .announce 1 ⟨7, "one", "", "", 0⟩ 0,
    .insert 1, .cleanup 0]

/-- After the late clean-up the reconnected entry is still registered, with its own generation. -/
theorem reconnect_safe_lateCleanup : ∃ s, execute step init lateCleanup = some s ∧
    (s.registry.agents 7).map (fun e ↦ e.commandTx) = some 1 ∧ s.GenerationsDistinct := by
  have he : ∃ s, execute step init lateCleanup = some s ∧
      (s.registry.agents 7).map (fun e ↦ e.commandTx) = some 1 ∧ s.nextChannel ≤ 2 ^ 64 :=
    ⟨_, rfl, rfl, by decide⟩
  obtain ⟨s, he, ht, hb⟩ := he
  exact ⟨s, he, ht, ((reconnect_safe (Run.of_execute _ he)).1 hb).1⟩

end ReinhardtCloud.Grpc
