import ReinhardtCloud.Operator.RedisReconcile
import ReinhardtCloud.Operator.Rollout

/-!
# Regenerated Redis credentials over runs

Library `Operator`. Applies of a Project that needs Redis, one after the other, stopped or failed
anywhere, with tenants, the Job controller and removals in between
(`reconciler.rs:476–498,1368–1438,2065–2115,2149–2211`). An `apply` that returns `Ok` leaves no
Deployment of its Project on older credentials; a revision that names the live Secret stays; and a
failed migration of other credentials is removed, while no other Job is.
-/

namespace ReinhardtCloud.Operator

open ReinhardtCloud.Base

/-! ## UIDs of the Secret -/

namespace RedisStore

/-- The live Secret is the latest that was created, and versions are kept under their UIDs. -/
structure LatestUid (s : RedisStore) : Prop where
  latest : ∀ u, s.live = some u → u + 1 = s.nextUid
  named : ∀ u, ∀ secret ∈ s.secretVersions u, secret.uid = some u

/-- UIDs go on. -/
structure Later (s t : RedisStore) : Prop where
  latest : t.LatestUid
  uids : s.nextUid ≤ t.nextUid

variable {s t : RedisStore}

theorem Later.refl (h : s.LatestUid) : s.Later s := ⟨h, Nat.le_refl _⟩

theorem Later.trans {u : RedisStore} (h : s.Later t) (h' : t.Later u) : s.Later u :=
  ⟨h'.latest, h.uids.trans h'.uids⟩

theorem later_pushSecret (h : s.LatestUid) (u : Uid) (secret : Secret) :
    s.Later (s.pushSecret u secret) := by
  refine ⟨⟨h.latest, fun v version hversion ↦ ?_⟩, Nat.le_refl _⟩
  by_cases hv : v = u
  · subst hv
    simp only [pushSecret, Function.update_self] at hversion
    rcases List.mem_cons.mp hversion with rfl | hold
    · rfl
    · exact h.named v version hold
  · simp only [pushSecret, Function.update_of_ne hv] at hversion
    exact h.named v version hversion

theorem later_addSecret (h : s.LatestUid) (secret : Secret) : s.Later (s.addSecret secret) := by
  refine ⟨⟨fun u hu ↦ ?_, (later_pushSecret h s.nextUid secret).latest.named⟩, Nat.le_succ _⟩
  obtain rfl := Option.some.inj hu
  rfl

theorem later_patchStatus (h : s.LatestUid) (f : ProjectStatus → ProjectStatus) :
    s.Later (s.patchStatus f) := by
  unfold patchStatus
  split
  · exact .refl h
  · exact ⟨⟨h.latest, h.named⟩, Nat.le_refl _⟩

theorem later_removeSecret (h : s.LatestUid) : s.Later { s with live := none } := by
  refine ⟨⟨fun u hu ↦ ?_, h.named⟩, Nat.le_refl _⟩
  cases hu

/-- Every request lets the UIDs go on. -/
theorem later_serve (h : s.LatestUid) (fault : Bool) (c : RedisCall) :
    s.Later (s.serve fault c).1 := by
  have hsame := Later.refl h
  cases c with
  | generatePassword => exact ⟨⟨h.latest, h.named⟩, Nat.le_refl _⟩
  | getSecret =>
    simp only [serve]
    split <;> exact hsame
  | createSecret secret =>
    simp only [serve]
    split
    · exact hsame
    · split
      · exact hsame
      · exact later_addSecret h secret
  | patchSecretMetadata uid resourceVersion ownerReferences labels =>
    simp only [serve]
    split
    · exact hsame
    · split
      · split
        · exact later_pushSecret h _ _
        · exact hsame
      · exact hsame
  | deleteSecret uid =>
    simp only [serve]
    split
    · exact hsame
    · split
      · exact hsame
      · split
        · exact later_removeSecret h
        · exact hsame
  | patchProvenance uid digest resourceVersion =>
    simp only [serve]
    split
    · exact hsame
    · split
      · dsimp only
        exact later_patchStatus h _
      · exact hsame
  | mergeStatus uid digest =>
    simp only [serve]
    split
    · exact hsame
    · dsimp only
      exact later_patchStatus h _

/-- So does every action of a tenant. -/
theorem later_tenantStep {a : TenantAction} (h : s.LatestUid) (ht : tenantStep s a = some t) :
    s.Later t := by
  cases a with
  | createSecret secret =>
    simp only [tenantStep] at ht
    split at ht
    · obtain rfl := Option.some.inj ht
      exact later_addSecret h secret
    · cases ht
  | deleteSecret =>
    simp only [tenantStep] at ht
    split at ht
    · obtain rfl := Option.some.inj ht
      exact later_removeSecret h
    · cases ht
  | updateSecret secret =>
    simp only [tenantStep] at ht
    split at ht
    · split at ht
      · cases ht
      · obtain rfl := Option.some.inj ht
        exact later_pushSecret h _ _
    · cases ht
  | editProject annotations spec =>
    simp only [tenantStep] at ht
    split at ht
    · cases ht
    · obtain rfl := Option.some.inj ht
      exact ⟨⟨h.latest, h.named⟩, Nat.le_refl _⟩

/-- The live Secret carries the live UID. -/
theorem uid_liveSecret (h : s.LatestUid) {secret : Secret} (hl : s.liveSecret = some secret) :
    ∃ u, secret.uid = some u ∧ u + 1 = s.nextUid := by
  obtain ⟨u, hu, hhead⟩ := Option.bind_eq_some_iff.mp hl
  exact ⟨u, h.named u secret (List.mem_of_head? hhead), h.latest u hu⟩

end RedisStore

/-- A client of the Redis flow under other writers. -/
abbrev FlowYields {α : Type} (p : RedisProgram α) (s : RedisStore)
    (P : RedisStore → α → Prop) : Prop :=
  p.Yields RedisStore.serve RedisStore.Later (fun s _ t ↦ s.Later t) s P

section Flow

open RedisStore

variable {sha256 : List UInt8 → List UInt8} {s : RedisStore} {app : Project}

/-- A request whose answer is `P`. -/
theorem flow_redisApi {c : RedisCall} {P : RedisStore → c.Result → Prop}
    (h : ∀ t fault r, s.Later t → (t.serve fault c).2 = .ok r → t.Later (t.serve fault c).1 →
      P (t.serve fault c).1 r) : FlowYields (redisApi c) s P := by
  intro t ht _ fault
  have hlater := later_serve ht.latest fault c
  refine ⟨hlater, ?_⟩
  cases hr : (t.serve fault c).2 with
  | ok r => exact Program.yields_pure (h t fault r ht hr hlater)
  | error e => exact Program.yields_fail

/-- A request of which only the UIDs matter. -/
theorem flow_redisApi_later (c : RedisCall) :
    FlowYields (redisApi c) s fun t _ ↦ s.Later t :=
  flow_redisApi fun _ _ _ ht _ hlater ↦ ht.trans hlater

theorem provenance_uid {secret : Secret} {provenance : RedisCredentialsProvenance}
    (h : redisCredentialsSecretProvenance sha256 secret app = some provenance) :
    secret.uid = some provenance.uid := by
  unfold redisCredentialsSecretProvenance at h
  obtain ⟨uid, huid, h⟩ := Option.bind_eq_some_iff.mp h
  obtain ⟨status, -, h⟩ := Option.bind_eq_some_iff.mp h
  obtain ⟨-, h⟩ := Option.ite_none_right_eq_some.mp h
  obtain rfl := Option.some.inj h
  exact huid

/-- The labels and owners are put right by calls of which only the UIDs matter. -/
theorem flow_enforceMetadata (hs : s.LatestUid) (secret : Secret) :
    FlowYields (enforceRedisCredentialsMetadata sha256 app secret) s fun t _ ↦ s.Later t := by
  unfold enforceRedisCredentialsMetadata
  split
  · exact Program.yields_pure (.refl hs)
  · split
    · exact Program.yields_pure (.refl hs)
    · split
      · exact Program.yields_fail
      · exact flow_redisApi_later _

/-- The Secret that was read is the latest. -/
theorem flow_getSecret {P : RedisStore → Option Secret → Prop}
    (h : ∀ t, s.Later t → P t t.liveSecret) : FlowYields (redisApi .getSecret) s P := by
  apply flow_redisApi
  intro t fault r ht hr _
  cases fault with
  | true => cases hr
  | false =>
    obtain rfl := Except.ok.inj hr
    exact h t ht

/-- The Secret that was created is the latest. -/
theorem flow_createSecret (secret : Secret) :
    FlowYields (redisApi (.createSecret secret)) s fun t created ↦
      s.Later t ∧ ∃ u, created.uid = some u ∧ s.nextUid ≤ u ∧ u < t.nextUid := by
  apply flow_redisApi
  intro t fault created ht hr hlater
  refine ⟨ht.trans hlater, ?_⟩
  cases fault with
  | true => cases hr
  | false =>
    simp only [serve, Bool.false_eq_true, ↓reduceIte] at hr ⊢
    split at hr
    · cases hr
    · next hlive =>
      obtain rfl := Except.ok.inj hr
      exact ⟨t.nextUid, rfl, ht.uids, Nat.lt_succ_self _⟩

/-- The flow returns the UID of a Secret that was the latest meanwhile. -/
theorem flow_reconcile (ns : String) :
    FlowYields (reconcileRedisCredentialsSecret sha256 app ns) s fun t provenance ↦
      s.nextUid ≤ provenance.uid + 1 ∧ provenance.uid < t.nextUid := by
  refine Program.yields_bind (flow_getSecret fun t ht ↦ ?_)
  cases hl : t.liveSecret with
  | some existing =>
    obtain ⟨u, hu, hlatest⟩ := uid_liveSecret ht.latest hl
    dsimp only
    cases hp : redisCredentialsSecretProvenance sha256 existing app with
    | none => exact Program.yields_fail
    | some provenance =>
      obtain rfl := Option.some.inj (hu.symm.trans (provenance_uid hp))
      have hsince := ht.uids
      refine Program.yields_bind ((flow_enforceMetadata ht.latest existing).mono fun v _ hv ↦ ?_)
      have hbelow : provenance.uid < v.nextUid := hlatest.le.trans hv.uids
      split
      · exact Program.yields_fail
      · split
        · refine Program.yields_bind ((flow_redisApi_later _).mono fun w _ hw ↦ ?_)
          exact Program.yields_pure ⟨hsince.trans hlatest.ge, hbelow.trans_le hw.uids⟩
        · exact Program.yields_pure ⟨hsince.trans hlatest.ge, hbelow⟩
  | none =>
    refine Program.yields_bind (Program.yields_bind (Program.yields_bind
      ((flow_redisApi_later _).mono fun v _ hv ↦ ?_)))
    refine Program.yields_pure (Program.yields_pure ?_)
    refine Program.yields_bind ((flow_redisApi_later _).mono fun w _ hw ↦ ?_)
    refine Program.yields_bind ((flow_createSecret _).mono fun x created hx ↦ ?_)
    obtain ⟨-, u, hu, hsince, hbelow⟩ := hx
    simp only [hu]
    refine Program.yields_bind ((flow_redisApi_later _).mono fun y _ hy ↦ ?_)
    have hstart := ht.uids.trans (hv.uids.trans hw.uids)
    exact Program.yields_pure ⟨Nat.le_succ_of_le (hstart.trans hsince), hbelow.trans_le hy.uids⟩

end Flow

/-! ## The namespace -/

namespace RolloutStore

/-- Every UID was given by the API server: those Deployments are stamped with by the counter of the
Secret, those of Jobs by their own. -/
structure Wf (s : RolloutStore) : Prop where
  latest : s.redis.LatestUid
  stamps : ∀ name d w, s.deployments name = some d → d.stamp = some w → w < s.redis.nextUid
  jobUids : ∀ name u job, s.jobs name = some (u, job) → u < s.nextJobUid

/-- What changes while only the revisions in `written` are written: a Deployment that changes and a
Job that is new carry one, and a Job that has finished stays as it is. -/
structure Evolves (written : Set Uid) (s t : RolloutStore) : Prop where
  secrets : s.redis.Later t.redis
  deployments : ∀ name d, t.deployments name = some d →
    s.deployments name = some d ∨ ∃ w ∈ written, d.stamp = some w
  jobs : ∀ name u job', t.jobs name = some (u, job') →
    (∃ job, s.jobs name = some (u, job) ∧ job'.redisCredentialsUid = job.redisCredentialsUid ∧
      (job.finished = true → job' = job)) ∨
    s.nextJobUid ≤ u ∧ u < t.nextJobUid ∧ ∃ w ∈ written, job'.redisCredentialsUid = some w
  nextJobUid : s.nextJobUid ≤ t.nextJobUid

variable {written : Set Uid} {s t : RolloutStore}

/-- Nothing but the credentials flow has acted. -/
theorem Evolves.of_redis {redis : RedisStore} (h : s.redis.Later redis) :
    s.Evolves written { s with redis := redis } :=
  ⟨h, fun _ _ hd ↦ .inl hd, fun _ _ job hj ↦ .inl ⟨job, hj, rfl, fun _ ↦ rfl⟩, Nat.le_refl _⟩

theorem Evolves.refl (h : s.Wf) : s.Evolves written s := .of_redis (.refl h.latest)

theorem Evolves.trans {u : RolloutStore} (h : s.Evolves written t) (h' : t.Evolves written u) :
    s.Evolves written u := by
  refine ⟨h.secrets.trans h'.secrets, fun name d hd ↦ ?_, fun name v job'' hj ↦ ?_,
    h.nextJobUid.trans h'.nextJobUid⟩
  · rcases h'.deployments name d hd with hd | hw
    · exact h.deployments name d hd
    · exact .inr hw
  · rcases h'.jobs name v job'' hj with ⟨job', hj', hstamp', hkeep'⟩ | ⟨hfrom, hto, hw⟩
    · rcases h.jobs name v job' hj' with ⟨job, hj, hstamp, hkeep⟩ | ⟨hfrom, hto, hw⟩
      · refine .inl ⟨job, hj, hstamp'.trans hstamp, fun hfinished ↦ ?_⟩
        obtain rfl := hkeep hfinished
        exact hkeep' hfinished
      · exact .inr ⟨hfrom, hto.trans_le h'.nextJobUid, hstamp' ▸ hw⟩
    · exact .inr ⟨h.nextJobUid.trans hfrom, hto, hw⟩

theorem Evolves.mono {more : Set Uid} (h : s.Evolves written t) (hsub : written ⊆ more) :
    s.Evolves more t := by
  refine ⟨h.secrets, fun name d hd ↦ ?_, fun name u job hj ↦ ?_, h.nextJobUid⟩
  · exact (h.deployments name d hd).imp id fun ⟨w, hw, hstamp⟩ ↦ ⟨w, hsub hw, hstamp⟩
  · exact (h.jobs name u job hj).imp id
      fun ⟨hfrom, hto, w, hw, hstamp⟩ ↦ ⟨hfrom, hto, w, hsub hw, hstamp⟩

/-- UIDs stay given when those that are written are. -/
theorem Evolves.wf (h : s.Evolves written t) (hs : s.Wf) (hw : ∀ w ∈ written, w < t.redis.nextUid) :
    t.Wf := by
  refine ⟨h.secrets.latest, fun name d w hd hstamp ↦ ?_, fun name u job hj ↦ ?_⟩
  · rcases h.deployments name d hd with hold | ⟨v, hv, hnew⟩
    · exact (hs.stamps name d w hold hstamp).trans_le h.secrets.uids
    · obtain rfl := Option.some.inj (hnew.symm.trans hstamp)
      exact hw v hv
  · rcases h.jobs name u job hj with ⟨old, hold, -⟩ | ⟨-, hto, -⟩
    · exact (hs.jobUids name u old hold).trans_le h.nextJobUid
    · exact hto

/-- What others do: nothing is written. -/
theorem Evolves.wf_of_empty (h : s.Evolves ∅ t) (hs : s.Wf) : t.Wf :=
  h.wf hs fun _ hw ↦ (Set.notMem_empty _ hw).elim

/-- A revision that names the live Secret stays on its Deployment as long as that exists. -/
def KeepsLiveStamps (s t : RolloutStore) : Prop :=
  ∀ name d d' u, s.redis.live = some u → s.deployments name = some d → d.stamp = some u →
    t.deployments name = some d' → d'.stamp = some u

/-- A Job that has not failed stays as it is. -/
def KeepsUnfailedJobs (s t : RolloutStore) : Prop :=
  ∀ name u job, s.jobs name = some (u, job) → job.failed = false → t.jobs name = some (u, job)

/-- Writing the latest revision, or an older one while no Deployment carries a later one. -/
theorem Evolves.keepsLiveStamps (h : s.Evolves written t) (hs : s.Wf)
    (hw : ∀ w ∈ written, w < s.redis.nextUid ∧
      ∀ name d v, s.deployments name = some d → d.stamp = some v → v ≤ w) :
    s.KeepsLiveStamps t := by
  intro name d d' u hlive hd hstamp hd'
  have hlatest := hs.latest.latest u hlive
  rcases h.deployments name d' hd' with hold | ⟨w, hmem, hnew⟩
  · obtain rfl := Option.some.inj (hd.symm.trans hold)
    exact hstamp
  · obtain ⟨hlt, hbound⟩ := hw w hmem
    have hle := hbound name d u hd hstamp
    have hwu : w ≤ u := Nat.le_of_lt_succ (hlt.trans_eq hlatest.symm)
    rw [hnew, Nat.le_antisymm hwu hle]

/-- What happens beside `apply` writes nothing. -/
theorem evolves_rolloutEvent {e : RolloutEvent} (hs : s.Wf) (ht : rolloutEvent s e = some t) :
    s.Evolves ∅ t := by
  cases e with
  | tenant action =>
    obtain ⟨redis, hredis, rfl⟩ := Option.map_eq_some_iff.mp ht
    exact .of_redis (RedisStore.later_tenantStep hs.latest hredis)
  | observe version =>
    obtain ⟨app, -, rfl⟩ := Option.map_eq_some_iff.mp ht
    exact ⟨.refl hs.latest, fun _ _ hd ↦ .inl hd,
      fun _ _ job hj ↦ .inl ⟨job, hj, rfl, fun _ ↦ rfl⟩, Nat.le_refl _⟩
  | report jobName status =>
    simp only [rolloutEvent] at ht
    split at ht
    · next uid job hjob =>
      split at ht
      · cases ht
      · next hfinished =>
        obtain rfl := Option.some.inj ht
        refine ⟨.refl hs.latest, fun _ _ hd ↦ .inl hd, fun name u job' hj ↦ .inl ?_, Nat.le_refl _⟩
        by_cases hname : name = jobName
        · subst hname
          simp only [setJob, Function.update_self, Option.some.injEq, Prod.mk.injEq] at hj
          obtain ⟨rfl, rfl⟩ := hj
          exact ⟨job, hjob, rfl, fun h ↦ absurd h hfinished⟩
        · simp only [setJob, Function.update_of_ne hname] at hj
          exact ⟨job', hj, rfl, fun _ ↦ rfl⟩
    · cases ht
  | removeJob jobName =>
    obtain rfl := Option.some.inj ht
    refine ⟨.refl hs.latest, fun _ _ hd ↦ .inl hd, fun name u job' hj ↦ .inl ?_, Nat.le_refl _⟩
    by_cases hname : name = jobName
    · subst hname
      simp only [setJob, Function.update_self] at hj
      cases hj
    · simp only [setJob, Function.update_of_ne hname] at hj
      exact ⟨job', hj, rfl, fun _ ↦ rfl⟩
  | removeDeployment removed =>
    obtain rfl := Option.some.inj ht
    refine ⟨.refl hs.latest, fun name d hd ↦ .inl ?_,
      fun _ _ job hj ↦ .inl ⟨job, hj, rfl, fun _ ↦ rfl⟩, Nat.le_refl _⟩
    by_cases hname : name = removed
    · subst hname
      simp only [setDeployment, Function.update_self] at hd
      cases hd
    · simp only [setDeployment, Function.update_of_ne hname] at hd
      exact hd

/-! ## The requests of `apply` -/

/-- A request that writes no other revision than `w` and deletes no Job. -/
def Writes (w : Uid) : RolloutCall → Prop
  | .patchRevision _ uid => uid = w
  | .applyDeployment _ _ revision => revision = some w
  | .createJob job => job.redisCredentialsUid = some w
  | .deleteJob _ _ => False
  | .redis _ | .getDeployment _ | .getJob _ | .step _ => True

/-- A Deployment that is written is stamped. -/
theorem evolves_setDeployment {w : Uid} {name : String} {d : RolloutDeployment} (hs : s.Wf)
    (hd : d.stamp = some w) : s.Evolves {w} (s.setDeployment name (some d)) := by
  refine ⟨.refl hs.latest, fun name' d' hd' ↦ ?_,
    fun _ _ job hj ↦ .inl ⟨job, hj, rfl, fun _ ↦ rfl⟩, Nat.le_refl _⟩
  by_cases hname : name' = name
  · subst hname
    simp only [setDeployment, Function.update_self, Option.some.injEq] at hd'
    subst hd'
    exact .inr ⟨w, rfl, hd⟩
  · simp only [setDeployment, Function.update_of_ne hname] at hd'
    exact .inl hd'

/-- A Job that is removed leaves the others as they are. -/
theorem evolves_removeJob {name : String} (hs : s.Wf) : s.Evolves written (s.setJob name none) := by
  have hevent : rolloutEvent s (.removeJob name) = some (s.setJob name none) := rfl
  exact (evolves_rolloutEvent hs hevent).mono (Set.empty_subset _)

theorem stamp_applied {d : RolloutDeployment} {owner w : Uid} :
    (d.applied owner (some w)).stamp = some w := by
  show (d.revision.apply RevisionWriter.apply fun _ ↦ some w).value () = some w
  exact Managed.apply_value_of_sent rfl

theorem stamp_patched {d : RolloutDeployment} {w : Uid} :
    RolloutDeployment.stamp
      { d with revision := d.revision.patch .mergePatch fun _ ↦ some (some w) } = some w := by
  show (d.revision.patch RevisionWriter.mergePatch fun _ ↦ some (some w)).value () = some w
  exact Managed.patch_value_of_named rfl

/-- What a request of `apply` does, unless it deletes a Job. -/
theorem evolves_serve {w : Uid} {o : RolloutOutcome} {c : RolloutCall} (hs : s.Wf)
    (hc : Writes w c) : s.Evolves {w} (s.serve o c).1 ∧ s.KeepsUnfailedJobs (s.serve o c).1 := by
  have hsame : s.Evolves {w} s ∧ s.KeepsUnfailedJobs s := ⟨.refl hs, fun _ _ _ hj _ ↦ hj⟩
  cases c with
  | redis c =>
    exact ⟨.of_redis (RedisStore.later_serve hs.latest o.fault c), fun _ _ _ hj _ ↦ hj⟩
  | step => exact hsame
  | getDeployment name =>
    simp only [serve]
    split <;> exact hsame
  | getJob name =>
    simp only [serve]
    split <;> exact hsame
  | patchRevision name uid =>
    obtain rfl : uid = w := hc
    simp only [serve]
    split
    · exact hsame
    · split
      · exact hsame
      · exact ⟨evolves_setDeployment hs stamp_patched, fun _ _ _ hj _ ↦ hj⟩
  | applyDeployment name owner revision =>
    obtain rfl : revision = some w := hc
    simp only [serve]
    split
    · exact hsame
    · split
      · exact hsame
      · exact ⟨evolves_setDeployment hs stamp_applied, fun _ _ _ hj _ ↦ hj⟩
  | deleteJob name uid => exact hc.elim
  | createJob job =>
    simp only [serve]
    split
    · exact hsame
    · split
      · exact hsame
      · next hfree =>
        split
        · refine ⟨⟨.refl hs.latest, fun _ _ hd ↦ .inl hd, fun name u job' hj ↦ ?_,
            Nat.le_succ _⟩, fun name u job' hj _ ↦ ?_⟩
          · by_cases hname : name = job.name
            · subst hname
              simp only [setJob, Function.update_self, Option.some.injEq, Prod.mk.injEq] at hj
              obtain ⟨rfl, rfl⟩ := hj
              exact .inr ⟨Nat.le_refl _, Nat.lt_succ_self _, w, rfl, hc⟩
            · simp only [setJob, Function.update_of_ne hname] at hj
              exact .inl ⟨job', hj, rfl, fun _ ↦ rfl⟩
          · have hname : name ≠ job.name := by
              rintro rfl
              rw [hfree] at hj
              cases hj
            simp only [setJob, Function.update_of_ne hname]
            exact hj
        · exact hsame

end RolloutStore

/-! ## One `apply` -/

section Apply

open RolloutStore

variable {checks : PodChecks} {sha256 : List UInt8 → List UInt8} {app : Project} {ns : String}
variable {p : RedisCredentialsProvenance} {before s t : RolloutStore} {done : List String}

/-- What others may do meanwhile. -/
def rolloutRely (s t : RolloutStore) : Prop := s.Wf → s.Evolves ∅ t

/-- What every served request does. -/
def rolloutGuarantee (s : RolloutStore) (_ : RolloutCall) (t : RolloutStore) : Prop :=
  t.Wf ∧ s.KeepsLiveStamps t ∧ s.KeepsUnfailedJobs t

/-- A part of `apply` under others. -/
abbrev Rolls {α : Type} (q : RolloutProgram α) (s : RolloutStore)
    (P : RolloutStore → α → Prop) : Prop :=
  q.Yields RolloutStore.serve rolloutRely rolloutGuarantee s P

/-- The Job ran with the credentials of `p`, or before credentials were stamped. -/
def MigrationJob.StampedWith (job : MigrationJob) (p : RedisCredentialsProvenance) : Prop :=
  job.redisCredentialsUid = none ∨ job.redisCredentialsUid = some p.uid

/-- What an `apply` that started at `before` and works with the credentials of `p` knows once the
Deployments in `done` have been rolled. -/
structure Rolled (app : Project) (p : RedisCredentialsProvenance) (before : RolloutStore)
    (done : List String) (s : RolloutStore) : Prop where
  wf : s.Wf
  start : before.Wf
  since : before.Evolves {p.uid} s
  uid : p.uid < s.redis.nextUid
  stamps : ∀ name d w, s.deployments name = some d → d.stamp = some w → w ≤ p.uid
  rolled : ∀ name ∈ done, ∀ d, s.deployments name = some d → d.controlledBy app = true →
    d.stamp = some p.uid

theorem Rolled.mono (h : Rolled app p before done s) (ht : s.Evolves {p.uid} t) :
    Rolled app p before done t := by
  have huid := h.uid.trans_le ht.secrets.uids
  refine ⟨ht.wf h.wf ?_, h.start, h.since.trans ht, huid, fun name d w hd hstamp ↦ ?_,
    fun name hname d hd hcontrolled ↦ ?_⟩
  · rintro w rfl
    exact huid
  · rcases ht.deployments name d hd with hold | ⟨v, rfl, hnew⟩
    · exact h.stamps name d w hold hstamp
    · obtain rfl := Option.some.inj (hnew.symm.trans hstamp)
      exact Nat.le_refl _
  · rcases ht.deployments name d hd with hold | ⟨v, rfl, hnew⟩
    · exact h.rolled name hname d hold hcontrolled
    · exact hnew

/-- One more Deployment has been rolled. -/
theorem Rolled.add {name : String} (h : Rolled app p before done s)
    (hname : ∀ d, s.deployments name = some d → d.controlledBy app = true →
      d.stamp = some p.uid) : Rolled app p before (name :: done) s := by
  refine ⟨h.wf, h.start, h.since, h.uid, h.stamps, fun other hother ↦ ?_⟩
  rcases List.mem_cons.mp hother with rfl | hother
  · exact hname
  · exact h.rolled other hother

theorem Rolled.subset {fewer : List String} (h : Rolled app p before done s)
    (hsub : fewer ⊆ done) : Rolled app p before fewer s :=
  ⟨h.wf, h.start, h.since, h.uid, h.stamps, fun name hname ↦ h.rolled name (hsub hname)⟩

/-- Others leave what is known. -/
theorem Rolled.rely (h : Rolled app p before done s) (ht : rolloutRely s t) :
    Rolled app p before done t :=
  h.mono ((ht h.wf).mono (Set.empty_subset _))

/-- Writing the credentials it works with is what `apply` guarantees. -/
theorem Rolled.guarantee {c : RolloutCall} (h : Rolled app p before done s)
    (ht : s.Evolves {p.uid} t) (hjobs : s.KeepsUnfailedJobs t) : rolloutGuarantee s c t := by
  refine ⟨(h.mono ht).wf, ht.keepsLiveStamps h.wf ?_, hjobs⟩
  rintro w rfl
  exact ⟨h.uid, fun name d v hd hv ↦ h.stamps name d v hd hv⟩

/-- A request that writes the credentials it works with. -/
theorem Rolled.serve {c : RolloutCall} {o : RolloutOutcome} (h : Rolled app p before done s)
    (hc : Writes p.uid c) : rolloutGuarantee s c (s.serve o c).1 ∧
      s.Evolves {p.uid} (s.serve o c).1 := by
  obtain ⟨hevolves, hjobs⟩ := evolves_serve (o := o) h.wf hc
  exact ⟨h.guarantee hevolves hjobs, hevolves⟩

/-- Reading a Deployment. -/
theorem rolls_getDeployment {name : String} (h : Rolled app p before done s) :
    Rolls (.call (.getDeployment name) kube) s fun t existing ↦
      Rolled app p before done t ∧ t.deployments name = existing := by
  intro t ht _ o
  have hk := h.rely ht
  refine ⟨(hk.serve (c := .getDeployment name) trivial).1, ?_⟩
  simp only [RolloutStore.serve]
  split
  · exact Program.yields_fail
  · exact Program.yields_pure ⟨hk, rfl⟩

/-- Writing the revision of a Deployment rolls it. -/
theorem rolls_patchRevision {name : String} (h : Rolled app p before done s) :
    Rolls (.call (.patchRevision name p.uid) kube) s fun t _ ↦
      Rolled app p before (name :: done) t := by
  intro t ht _ o
  have hk := h.rely ht
  obtain ⟨hg, hevolves⟩ := hk.serve (c := .patchRevision name p.uid) (o := o) rfl
  refine ⟨hg, ?_⟩
  simp only [RolloutStore.serve] at hevolves ⊢
  split
  · exact Program.yields_fail
  · next hfault =>
    rw [if_neg hfault] at hevolves
    split
    · exact Program.yields_fail
    · next d hd =>
      rw [hd] at hevolves
      refine Program.yields_pure ((hk.mono hevolves).add fun d' hd' _ ↦ ?_)
      simp only [setDeployment, Function.update_self, Option.some.injEq] at hd'
      subst hd'
      exact stamp_patched

/-- One round leaves no Deployment of the Project on older credentials under that name. -/
theorem rolls_consumer (h : Rolled app p before done s) (name : String) :
    Rolls (rollRedisCredentialConsumer app p name) s fun t _ ↦
      Rolled app p before (name :: done) t := by
  refine Program.yields_bind ((rolls_getDeployment h).mono fun t existing ht ↦ ?_)
  obtain ⟨hk, hexisting⟩ := ht
  cases existing with
  | none =>
    refine Program.yields_pure (hk.add fun d hd _ ↦ ?_)
    cases hexisting.symm.trans hd
  | some existing =>
    dsimp only
    split
    · next hforeign =>
      refine Program.yields_pure (hk.add fun d hd hcontrolled ↦ ?_)
      obtain rfl := Option.some.inj (hexisting.symm.trans hd)
      cases hforeign.symm.trans hcontrolled
    · split
      · next hstamp =>
        refine Program.yields_pure (hk.add fun d hd _ ↦ ?_)
        obtain rfl := Option.some.inj (hexisting.symm.trans hd)
        exact hstamp
      · exact rolls_patchRevision hk

/-- The loop rolls all of them. -/
theorem rolls_consumers (names : List String) (h : Rolled app p before done s) :
    Rolls (rollRedisCredentialConsumers app p names) s fun t _ ↦
      Rolled app p before (names ++ done) t := by
  induction names generalizing s done with
  | nil => exact Program.yields_pure h
  | cons name rest ih =>
    refine Program.yields_bind ((rolls_consumer h name).mono fun t _ ht ↦ ?_)
    refine Program.Yields.mono (ih ht) fun u _ hu ↦ hu.subset ?_
    intro other hother
    rcases List.mem_cons.mp hother with rfl | hother
    · exact List.mem_append_right _ List.mem_cons_self
    · rcases List.mem_append.mp hother with hrest | hdone
      · exact List.mem_append_left _ hrest
      · exact List.mem_append_right _ (List.mem_cons_of_mem _ hdone)

/-! ### The migration gate -/

/-- What the migration gate with outcome `m` leaves of the Job of the Project's revision: a Job that
had failed before is there only if it ran with the credentials of `p` or was never stamped, and so
is the Job that makes the gate fail. -/
structure GateSettled (app : Project) (p : RedisCredentialsProvenance) (before : RolloutStore)
    (m : MigrationGateState) (s : RolloutStore) : Prop where
  retained : ∀ u job job', before.jobs (migrationJobName app (migrationRevisionKey app)) =
      some (u, job) → job.failed = true →
    s.jobs (migrationJobName app (migrationRevisionKey app)) = some (u, job') → job.StampedWith p
  failed : m = .failed → ∀ u job,
    s.jobs (migrationJobName app (migrationRevisionKey app)) = some (u, job) → job.StampedWith p

theorem GateSettled.mono {m : MigrationGateState} (h : GateSettled app p before m s)
    (hk : Rolled app p before done s) (ht : s.Evolves {p.uid} t) :
    GateSettled app p before m t := by
  refine ⟨fun u job job'' hbefore hfailed hj ↦ ?_, fun hm u job' hj ↦ ?_⟩
  · rcases ht.jobs _ u job'' hj with ⟨job', hj', -⟩ | ⟨hfrom, -⟩
    · exact h.retained u job job' hbefore hfailed hj'
    · have hlt := (hk.start.jobUids _ u job hbefore).trans_le hk.since.nextJobUid
      exact absurd hlt (Nat.not_lt.mpr hfrom)
  · rcases ht.jobs _ u job' hj with ⟨job, hj', hstamp, -⟩ | ⟨-, -, w, rfl, hstamp⟩
    · unfold MigrationJob.StampedWith
      rw [hstamp]
      exact h.failed hm u job hj'
    · exact .inr hstamp

/-- A Job is kept when its credentials are not stale. -/
theorem MigrationJob.stampedWith_of_not_stale {job : MigrationJob}
    (h : hasStaleRedisCredentials (.migration job) (some p.uid) ≠ true) : job.StampedWith p := by
  unfold MigrationJob.StampedWith
  cases hstamp : job.redisCredentialsUid with
  | none => exact .inl rfl
  | some stamped =>
    by_cases heq : stamped = p.uid
    · exact .inr (congrArg some heq)
    · refine absurd ?_ h
      simp only [hasStaleRedisCredentials, NamespaceJob.redisCredentialsUid, hstamp,
        Option.any_some, decide_eq_true_eq]
      exact heq

theorem MigrationJob.finished_of_failed {job : MigrationJob} (h : job.failed = true) :
    job.finished = true := by
  unfold failed at h
  rw [Bool.and_eq_true] at h
  rw [finished, h.2, Bool.or_true]

/-- Reading a Job. -/
theorem rolls_getJob {name : String} (h : Rolled app p before done s) :
    Rolls (.call (.getJob name) kube) s fun t existing ↦
      Rolled app p before done t ∧ t.jobs name = existing := by
  intro t ht _ o
  have hk := h.rely ht
  refine ⟨(hk.serve (c := .getJob name) trivial).1, ?_⟩
  simp only [RolloutStore.serve]
  split
  · exact Program.yields_fail
  · exact Program.yields_pure ⟨hk, rfl⟩

/-- Deleting a failed Job by its UID. -/
theorem rolls_deleteJob {name : String} {u : Uid} {job : MigrationJob}
    (h : Rolled app p before done s) (hjob : s.jobs name = some (u, job))
    (hfailed : job.failed = true) :
    Rolls (.call (.deleteJob name u) kube) s fun t _ ↦
      Rolled app p before done t ∧ t.jobs name = none := by
  intro t ht _ o
  have hk := h.rely ht
  have hevolves := ht h.wf
  -- while the Job is there it is the one that was read, since it has finished
  have hsame : ∀ job', t.jobs name = some (u, job') → job' = job := by
    intro job' hjob'
    rcases hevolves.jobs name u job' hjob' with ⟨old, hold, -, hkeep⟩ | ⟨-, -, w, hw, -⟩
    · cases hjob.symm.trans hold
      exact hkeep (MigrationJob.finished_of_failed hfailed)
    · exact (Set.notMem_empty w hw).elim
  have hidle : rolloutGuarantee t (.deleteJob name u) t :=
    hk.guarantee (.refl hk.wf) fun _ _ _ hj _ ↦ hj
  simp only [RolloutStore.serve]
  split
  · exact ⟨hidle, Program.yields_fail⟩
  · split
    · exact ⟨hidle, Program.yields_fail⟩
    · next v job' hjob' =>
      split
      · next heq =>
        subst heq
        have hremoved : t.Evolves {p.uid} (t.setJob name none) := evolves_removeJob hk.wf
        refine ⟨hk.guarantee hremoved fun other w kept hkept hunfailed ↦ ?_, ?_⟩
        · have hother : other ≠ name := by
            rintro rfl
            cases hjob'.symm.trans hkept
            rw [hsame _ hjob'] at hunfailed
            cases hfailed.symm.trans hunfailed
          simp only [setJob, Function.update_of_ne hother]
          exact hkept
        · exact Program.yields_pure ⟨hk.mono hremoved, Function.update_self _ _ _⟩
      · exact ⟨hidle, Program.yields_fail⟩

/-- Creating a Job that is stamped with the credentials it works with. -/
theorem rolls_createJob {job : MigrationJob} (h : Rolled app p before done s)
    (hjob : job.redisCredentialsUid = some p.uid) :
    Rolls (.call (.createJob job) kube) s fun t _ ↦
      Rolled app p before done t ∧ ∀ u job', t.jobs job.name = some (u, job') →
        before.nextJobUid ≤ u := by
  intro t ht _ o
  have hk := h.rely ht
  obtain ⟨hg, hevolves⟩ := hk.serve (c := .createJob job) (o := o) hjob
  refine ⟨hg, ?_⟩
  simp only [RolloutStore.serve] at hevolves ⊢
  split
  · exact Program.yields_fail
  · next hfault =>
    rw [if_neg hfault] at hevolves
    split
    · exact Program.yields_fail
    · next hfree =>
      rw [hfree] at hevolves
      split
      · next hadmitted =>
        simp only [hadmitted, if_true] at hevolves
        refine Program.yields_pure ⟨hk.mono hevolves, fun u job' hj ↦ ?_⟩
        simp only [setJob, Function.update_self, Option.some.injEq, Prod.mk.injEq] at hj
        rw [← hj.1]
        exact hk.since.nextJobUid
      · exact Program.yields_fail

/-- A Job that had failed before and is still there is the one that is found. -/
theorem Rolled.eq_of_failed {name : String} {u v : Uid} {job existing job' : MigrationJob}
    (h : Rolled app p before done s) (hfound : s.jobs name = some (v, existing))
    (hbefore : before.jobs name = some (u, job)) (hfailed : job.failed = true)
    (hj : s.jobs name = some (u, job')) : existing = job := by
  cases hfound.symm.trans hj
  rcases h.since.jobs name u existing hfound with ⟨old, hold, -, hkeep⟩ | ⟨hfrom, -⟩
  · cases hbefore.symm.trans hold
    exact hkeep (MigrationJob.finished_of_failed hfailed)
  · exact absurd (h.start.jobUids name u job hbefore) (Nat.not_lt.mpr hfrom)

/-- The gate. -/
theorem rolls_migrationJob (h : Rolled app p before done s) :
    Rolls (reconcileMigrationJob checks app (some p)) s fun t m ↦
      Rolled app p before done t ∧ GateSettled app p before m t := by
  refine Program.yields_bind ((rolls_getJob h).mono fun t existing ht ↦ ?_)
  obtain ⟨hk, hexisting⟩ := ht
  cases existing with
  | none =>
    dsimp only
    cases hdesired : buildMigrationJob checks app (migrationRevisionKey app) with
    | error e => exact Program.yields_fail
    | ok desired =>
      refine Program.yields_bind (Program.yields_pure ?_)
      refine Program.yields_bind ((rolls_createJob hk rfl).mono fun u _ hu ↦ ?_)
      obtain ⟨hku, hnew⟩ := hu
      refine Program.yields_pure ⟨hku, fun v job job' hbefore _ hj ↦ ?_, fun hm ↦ nomatch hm⟩
      rw [← (buildMigrationJob_ok hdesired).1] at hbefore hj
      have hlt := hku.start.jobUids _ v job hbefore
      exact absurd hlt (Nat.not_lt.mpr (hnew v job' hj))
  | some found =>
    obtain ⟨v, existing⟩ := found
    have hfound {u : Uid} {job job' : MigrationJob} (hbefore : before.jobs _ = some (u, job))
        (hfailed : job.failed = true) (hj : t.jobs _ = some (u, job')) : existing = job :=
      hk.eq_of_failed hexisting hbefore hfailed hj
    dsimp only
    split
    · next hcompleted =>
      refine Program.yields_pure ⟨hk, fun u job job' hbefore hfailed hj ↦ ?_, fun hm ↦ nomatch hm⟩
      rw [← hfound hbefore hfailed hj, MigrationJob.failed, hcompleted] at hfailed
      cases hfailed
    · next hcompleted =>
      split
      · next hcondition =>
        have hfailed : existing.failed = true := by
          rw [MigrationJob.failed, Bool.eq_false_iff.mpr hcompleted, hcondition]
          rfl
        split
        · refine Program.yields_bind ((rolls_deleteJob hk hexisting hfailed).mono fun u _ hu ↦ ?_)
          obtain ⟨hku, hgone⟩ := hu
          refine Program.yields_pure ⟨hku, fun w job job' _ _ hj ↦ ?_, fun hm ↦ nomatch hm⟩
          cases hgone.symm.trans hj
        · next hstale =>
          have hstamped := MigrationJob.stampedWith_of_not_stale hstale
          refine Program.yields_pure ⟨hk, fun u job job' hbefore hfailed hj ↦ ?_,
            fun _ u job hj ↦ ?_⟩
          · rw [← hfound hbefore hfailed hj]
            exact hstamped
          · cases hexisting.symm.trans hj
            exact hstamped
      · next hcondition =>
        refine Program.yields_pure ⟨hk, fun u job job' hbefore hfailed hj ↦ ?_,
          fun hm ↦ nomatch hm⟩
        rw [← hfound hbefore hfailed hj, MigrationJob.failed, Bool.and_eq_true] at hfailed
        exact absurd hfailed.2 hcondition

/-! ### From the start to the end -/

/-- The credentials flow as a part of `apply`. -/
theorem rolls_liftRedis {α : Type} {q : RedisProgram α} {P : RedisStore → α → Prop} (hs : s.Wf)
    (h : FlowYields q s.redis P) :
    Rolls (liftRedis q) s fun t a ↦ s.Evolves ∅ t ∧ P t.redis a := by
  induction q generalizing s with
  | done r => exact fun a ha ↦ ⟨.refl hs, h a ha⟩
  | call c next ih =>
    intro t ht _ o
    have hevolves := ht hs
    have hwf := hevolves.wf_of_empty hs
    obtain ⟨hlater, hnext⟩ := h t.redis hevolves.secrets trivial o.fault
    have hserved : t.Evolves ∅ (t.serve o (.redis c)).1 := .of_redis hlater
    have hwf' := hserved.wf_of_empty hwf
    refine ⟨⟨hwf', hserved.keepsLiveStamps hwf ?_, fun _ _ _ hj _ ↦ hj⟩, ?_⟩
    · exact fun w hw ↦ (Set.notMem_empty w hw).elim
    · refine Program.Yields.mono (ih _ hwf' hnext) fun u a hu ↦ ⟨?_, hu.2⟩
      exact hevolves.trans (hserved.trans hu.1)

/-- With the credentials of the flow, the consumers are rolled. -/
theorem rolls_redisProvenance (hs : s.Wf) (hstart : before.Wf) (hsince : before.Evolves ∅ s)
    (hneeds : needsRedis app = true) :
    Rolls (redisProvenance sha256 app ns) s fun t provenance ↦
      ∃ p, provenance = some p ∧ Rolled app p before (consumers app) t := by
  unfold redisProvenance
  rw [if_pos hneeds]
  refine Program.yields_bind ((rolls_liftRedis hs (flow_reconcile ns)).mono fun t p ht ↦ ?_)
  obtain ⟨hevolves, hlatest, hgiven⟩ := ht
  have hrolled : Rolled app p before [] t := by
    refine ⟨hevolves.wf_of_empty hs, hstart, (hsince.trans hevolves).mono (Set.empty_subset _),
      hgiven, fun name d w hd hstamp ↦ ?_, fun _ hname ↦ nomatch hname⟩
    rcases hevolves.deployments name d hd with hold | ⟨v, hv, -⟩
    · exact Nat.le_of_lt_succ ((hs.stamps name d w hold hstamp).trans_le hlatest)
    · exact (Set.notMem_empty v hv).elim
  refine Program.yields_bind ((rolls_consumers (consumers app) hrolled).mono fun u _ hu ↦ ?_)
  exact Program.yields_pure ⟨p, rfl, hu.subset (List.subset_append_left _ _)⟩

/-- Requests that write the credentials `apply` works with keep what only grows with them. -/
theorem rolls_only {α : Type} {q : RolloutProgram α} {K : RolloutStore → Prop}
    (hq : q.Only (Writes p.uid)) (h : Rolled app p before done s) (hK : K s)
    (hmono : ∀ t u, Rolled app p before done t → K t → t.Evolves {p.uid} u → K u) :
    Rolls q s fun t _ ↦ Rolled app p before done t ∧ K t := by
  refine Program.Only.yields (K := fun t ↦ Rolled app p before done t ∧ K t) hq ?_ ?_ ⟨h, hK⟩
  · rintro t u ⟨hk, hK⟩ hu
    exact ⟨hk.rely hu, hmono t u hk hK ((hu hk.wf).mono (Set.empty_subset _))⟩
  · rintro t o c ⟨hk, hK⟩ hc
    obtain ⟨hg, hevolves⟩ := hk.serve (o := o) hc
    exact ⟨hg, hk.mono hevolves, hmono t _ hk hK hevolves⟩

theorem only_applyStep {w : Uid} (step : ApplyStep) : (applyStep step).Only (Writes w) :=
  ⟨trivial, fun _ ↦ trivial⟩

/-- A step, of which nothing but its end matters. -/
theorem rolls_applyStep {step : ApplyStep} (h : Rolled app p before done s) :
    Rolls (applyStep step) s fun t _ ↦ Rolled app p before done t :=
  (rolls_only (only_applyStep step) h trivial fun _ _ _ _ _ ↦ trivial).mono fun _ _ ht ↦ ht.1

theorem only_kube {α : Type} {A : RolloutCall → Prop} (r : Except ApiError α) :
    (kube r).Only A := by
  cases r <;> trivial

theorem only_liftRedis {α : Type} {w : Uid} (q : RedisProgram α) :
    (liftRedis q).Only (Writes w) := by
  refine Program.only_handle (fun c _ ↦ ?_) q.only_true
  exact ⟨trivial, fun _ ↦ trivial⟩

theorem only_runIf {A : RolloutCall → Prop} {q : RolloutProgram Unit} (c : Bool) (hq : q.Only A) :
    (runIf c q).Only A := by
  cases c with
  | true => exact hq
  | false => trivial

theorem only_applyConsumer (name : String) :
    (applyConsumer app (some p) name).Only (Writes p.uid) := by
  refine Program.only_bind (only_applyStep _) fun _ ↦ Program.only_bind trivial fun _ ↦ ?_
  exact ⟨rfl, only_kube⟩

theorem only_applyCache : (applyCache app (some p)).Only (Writes p.uid) := by
  refine Program.only_bind (only_applyConsumer _) fun _ ↦ ?_
  exact Program.only_bind (only_applyStep _) fun _ ↦ trivial

theorem only_ensureOwned (name : String) :
    (ensureDeploymentApplyTargetIsOwned app ns name).Only (Writes p.uid) := by
  refine Program.only_bind ⟨trivial, only_kube⟩ fun existing ↦ ?_
  cases existing with
  | none => trivial
  | some existing =>
    dsimp only
    split <;> trivial

/-- Behind the gates no other credentials are written. -/
theorem only_applyWorkloads : (applyWorkloads app ns (some p)).Only (Writes p.uid) := by
  refine Program.only_bind (only_ensureOwned _) fun _ ↦ ?_
  refine Program.only_bind (only_applyConsumer _) fun _ ↦ ?_
  refine Program.only_bind (only_applyStep _) fun _ ↦ ?_
  refine Program.only_bind (only_runIf _ only_applyCache) fun _ ↦ ?_
  refine Program.only_bind (only_runIf _ (only_applyConsumer _)) fun _ ↦ ?_
  refine Program.only_bind (only_applyStep _) fun _ ↦ ?_
  refine Program.only_bind (only_runIf _ only_applyCache) fun _ ↦ ?_
  refine Program.only_bind (only_applyStep _) fun _ ↦ ?_
  refine Program.only_bind (only_applyStep _) fun _ ↦ ?_
  refine Program.only_bind (only_liftRedis _) fun _ ↦ ?_
  exact Program.only_bind (only_applyStep _) fun _ ↦ trivial

/-- What is known behind the migration gate with outcome `m`. -/
def Gated (app : Project) (p : RedisCredentialsProvenance) (before : RolloutStore)
    (done : List String) (m : MigrationGateState) (s : RolloutStore) : Prop :=
  Rolled app p before done s ∧
    (shouldProvisionPostgresql app = true → GateSettled app p before m s)

theorem Gated.mono {m : MigrationGateState} (h : Gated app p before done m s)
    (ht : s.Evolves {p.uid} t) : Gated app p before done m t :=
  ⟨h.1.mono ht, fun hsome ↦ (h.2 hsome).mono h.1 ht⟩

/-- What the gate has settled stays settled, whichever way `apply` goes on. -/
theorem rolls_gated {α : Type} {q : RolloutProgram α} {m : MigrationGateState}
    (hq : q.Only (Writes p.uid)) (h : Gated app p before done m s) :
    Rolls q s fun t _ ↦ Gated app p before done m t :=
  (rolls_only (K := Gated app p before done m) hq h.1 h fun _ _ _ hK hu ↦ hK.mono hu).mono
    fun _ _ ht ↦ ht.2

/-- The gate and what is behind it. -/
theorem rolls_applyGated (h : Rolled app p before done s) :
    Rolls (applyGated checks app ns (some p)) s fun t m ↦ Gated app p before done m t := by
  have hgate : Rolls (if shouldProvisionPostgresql app then
      reconcileMigrationJob checks app (some p) else pure .notRequired) s fun t m ↦
        Gated app p before done m t := by
    split
    · exact (rolls_migrationJob h).mono fun t m ht ↦ ⟨ht.1, fun _ ↦ ht.2⟩
    · next hnone => exact Program.yields_pure ⟨h, fun hsome ↦ absurd hsome hnone⟩
  refine Program.yields_bind (hgate.mono fun t m ht ↦ ?_)
  split
  · refine Program.yields_bind ((rolls_gated only_applyWorkloads ht).mono fun u _ hu ↦ ?_)
    exact Program.yields_pure hu
  · refine Program.yields_bind ((rolls_gated (only_applyStep _) ht).mono fun u _ hu ↦ ?_)
    refine Program.yields_bind ((rolls_gated (only_liftRedis _) hu).mono fun v _ hv ↦ ?_)
    exact Program.yields_pure hv

/-- What an `apply` that has returned `Ok` has seen to. -/
def Finished (app : Project) (before s : RolloutStore) (result : ApplyResult) : Prop :=
  ∃ p, result.provenance = some p ∧ Rolled app p before (consumers app) s ∧
    ∀ m, result.migration = some m → Gated app p before (consumers app) m s

theorem Finished.mono {result : ApplyResult} (h : Finished app before s result)
    (ht : s.Evolves ∅ t) : Finished app before t result := by
  obtain ⟨p, hp, hrolled, hgated⟩ := h
  have hmore := ht.mono (Set.empty_subset {p.uid})
  exact ⟨p, hp, hrolled.mono hmore, fun m hm ↦ (hgated m hm).mono hmore⟩

/-- `apply` after the Redis provenance. -/
theorem rolls_applyRest (h : Rolled app p before (consumers app) s) :
    Rolls (applyRest checks app ns (some p)) s fun t result ↦ Finished app before t result := by
  refine Program.yields_bind ((rolls_applyStep h).mono fun t goesOn ht ↦ ?_)
  split
  · refine Program.yields_bind ((rolls_applyStep ht).mono fun u goesOn hu ↦ ?_)
    split
    · refine Program.yields_bind ((rolls_applyStep hu).mono fun v _ hv ↦ ?_)
      refine Program.yields_bind ((rolls_applyGated hv).mono fun w m hw ↦ ?_)
      refine Program.yields_pure ⟨p, rfl, hw.1, fun m' hm' ↦ ?_⟩
      cases hm'
      exact hw
    · exact Program.yields_pure ⟨p, rfl, hu, fun _ hm ↦ nomatch hm⟩
  · exact Program.yields_pure ⟨p, rfl, ht, fun _ hm ↦ nomatch hm⟩

/-- A whole `apply`. -/
theorem rolls_reconcileApply (hs : s.Wf) (hneeds : needsRedis app = true) :
    Rolls (reconcileApply checks sha256 app ns) s fun t result ↦ Finished app s t result := by
  refine Program.yields_bind ?_
  have htenant : Rolls (applyStep .tenant) s fun t _ ↦ t.Wf ∧ s.Evolves ∅ t := by
    intro t ht _ o
    have hevolves := ht hs
    have hwf := hevolves.wf_of_empty hs
    have hnothing : t.Evolves ∅ t := .refl hwf
    have hidle := hnothing.keepsLiveStamps hwf fun w hw ↦ (Set.notMem_empty w hw).elim
    refine ⟨⟨hwf, hidle, fun _ _ _ hj _ ↦ hj⟩, fun _ _ ↦ ⟨hwf, hevolves⟩⟩
  refine htenant.mono fun t _ ht ↦ ?_
  refine Program.yields_bind ((rolls_redisProvenance ht.1 hs ht.2 hneeds).mono fun u _ hu ↦ ?_)
  obtain ⟨p, rfl, hrolled⟩ := hu
  exact rolls_applyRest hrolled

end Apply

/-! ## Every run -/

section Runs

open RolloutStore

variable {checks : PodChecks} {sha256 : List UInt8 → List UInt8} {ns : String}

/-- What an `apply` of a version of the Project keeps to. -/
abbrev rolloutContract (read : Project × RolloutStore) :
    Contract RolloutStore RolloutCall Error ApplyResult :=
  Program.yielding rolloutRely rolloutGuarantee fun s result ↦
    s.Wf ∧ Finished read.1 read.2 s result

/-- The versions that need Redis, read while UIDs were given. -/
def Admitted (read : Project × RolloutStore) : Prop := needsRedis read.1 = true ∧ read.2.Wf

/-- Others and every `apply` keep to it. -/
theorem rollout_disciplined :
    Solo.Disciplined RolloutStore.serve rolloutEvent (fun s ↦ (s.observed, s))
      (fun read ↦ reconcileApply checks sha256 read.1 ns) rolloutContract Admitted where
  refl _ _ hs := .refl hs
  trans _ _ _ _ h h' hs := (h hs).trans (h' ((h hs).wf_of_empty hs))
  pre _ _ _ := trivial
  interfere _ _ _ _ ht hs := evolves_rolloutEvent hs ht
  start s h := (rolls_reconcileApply h.2 h.1).mono fun t result ht ↦ by
    obtain ⟨p, hp, hrolled, hgated⟩ := ht
    exact ⟨hrolled.wf, p, hp, hrolled, hgated⟩

/-- The namespace between steps: UIDs are given, and `apply` keeps to its contract. -/
def RolloutInv (s : Solo RolloutStore (Project × RolloutStore) (RolloutProgram ApplyResult)) :
    Prop :=
  s.store.Wf ∧ s.Sound RolloutStore.serve rolloutContract Admitted

/-- What a step keeps of the stamps and of the Jobs. -/
def KeepsRollout
    (x : Transition (Solo RolloutStore (Project × RolloutStore) (RolloutProgram ApplyResult))
      (Turn RolloutEvent RolloutOutcome)) : Prop :=
  x.before.store.KeepsLiveStamps x.after.store ∧
    ∀ o, x.action = .serve o → x.before.store.KeepsUnfailedJobs x.after.store

/-- One step, when an `apply` that starts finds a Project that needs Redis. -/
theorem rollout_step
    {s t : Solo RolloutStore (Project × RolloutStore) (RolloutProgram ApplyResult)}
    {a : Turn RolloutEvent RolloutOutcome} (hs : RolloutInv s)
    (ht : rolloutStep checks sha256 ns s a = some t)
    (hneeds : a = .start → needsRedis s.store.observed = true) :
    RolloutInv t ∧ KeepsRollout ⟨s, a, t⟩ := by
  obtain ⟨hwf, hsound⟩ := hs
  obtain ⟨hsound', haccounted⟩ := rollout_disciplined.step hsound ht
    fun ha ↦ ⟨hneeds ha, hwf⟩
  have hquiet {u : RolloutStore} (hu : s.store.Evolves ∅ u) : s.store.KeepsLiveStamps u :=
    hu.keepsLiveStamps hwf fun w hw ↦ (Set.notMem_empty w hw).elim
  cases a with
  | interfere e =>
    have hevolves := evolves_rolloutEvent hwf haccounted
    exact ⟨⟨hevolves.wf_of_empty hwf, hsound'⟩, hquiet hevolves, fun _ ha ↦ nomatch ha⟩
  | start =>
    have hsame : t.store = s.store := haccounted
    refine ⟨⟨hsame ▸ hwf, hsound'⟩, ?_, fun _ ha ↦ nomatch ha⟩
    show s.store.KeepsLiveStamps t.store
    rw [hsame]
    exact hquiet (.refl hwf)
  | serve o =>
    obtain ⟨_, _, _, -, -, -, hwf', hlive, hjobs⟩ := haccounted
    exact ⟨⟨hwf', hsound'⟩, hlive, fun _ _ ↦ hjobs⟩

/-- What is found once an `apply` has returned `Ok`: every Deployment of
the Project that holds them carries the revision it worked with, and a failed migration is there
only if it ran with these credentials or was never stamped. -/
def RolledOut (app : Project) (before s : RolloutStore) (result : ApplyResult) : Prop :=
  ∃ p, result.provenance = some p ∧
    (∀ name ∈ consumers app, ∀ d, s.deployments name = some d → d.controlledBy app = true →
      d.stamp = some p.uid) ∧
    ∀ m, result.migration = some m → shouldProvisionPostgresql app = true →
      GateSettled app p before m s

/-- In every run of applies of a Project that needs Redis, each stopped, failed or ended early
anywhere, with any Secrets, versions of the Project, Job reports and removals in between: what has
returned `Ok` has rolled the credentials out, a revision that names the live Secret stays on its
Deployment, and no request touches a Job that has not failed. -/
theorem redis_credentials_rollout (checks : PodChecks) (sha256 : List UInt8 → List UInt8)
    (ns : String) {init : RolloutStore} (hinit : init.Wf)
    {tr : List (Transition (Solo RolloutStore (Project × RolloutStore) (RolloutProgram ApplyResult))
      (Turn RolloutEvent RolloutOutcome))}
    {s : Solo RolloutStore (Project × RolloutStore) (RolloutProgram ApplyResult)}
    (h : Run (rolloutStep checks sha256 ns) ⟨init, none⟩ tr s)
    (hneeds : ∀ x ∈ tr, x.action = .start → needsRedis x.before.store.observed = true) :
    (∀ app before result, s.current = some ((app, before), .done (.ok result)) →
      RolledOut app before s.store result) ∧
    ∀ x ∈ tr, x.before.store.KeepsLiveStamps x.after.store ∧
      ∀ o, x.action = .serve o → x.before.store.KeepsUnfailedJobs x.after.store := by
  have hstart : RolloutInv ⟨init, none⟩ := ⟨hinit, fun _ _ hcurrent ↦ nomatch hcurrent⟩
  obtain ⟨⟨-, hsound⟩, htr⟩ := h.safe_of_condition
    (C := fun x ↦ x.action = .start → needsRedis x.before.store.observed = true)
    (P := KeepsRollout) hstart (fun _ _ _ hs ht hc ↦ rollout_step hs ht hc) hneeds
  refine ⟨fun app before result hcurrent ↦ ?_, fun x hx ↦ (htr x hx).2⟩
  obtain ⟨-, t, hmeets, hrely⟩ := hsound _ _ hcurrent
  obtain ⟨hwf, hfinished⟩ := hmeets result rfl
  obtain ⟨p, hp, hrolled, hgated⟩ := hfinished.mono (hrely hwf)
  exact ⟨p, hp, hrolled.rolled, fun m hm hsome ↦ (hgated m hm).2 hsome⟩

end Runs

/-- A Project with a cache. -/
def cachedProject : Project where
  name := "shop"
  ns := some "team"
  uid := some 7
  resourceVersion := some 1
  annotations := ⟨none, none, none, none⟩
  spec := { image := "shop:1", cache := true }
  status := none

/-- Its Deployment from before credentials were stamped. -/
def unstampedNamespace : RolloutStore where
  redis := .init cachedProject constantPasswords
  observed := cachedProject
  deployments := fun name ↦
    if name = "shop" then some { RolloutDeployment.blank with
      ownerReferences := [⟨"Project", 7, some true⟩] } else none
  jobs := fun _ ↦ none
  nextJobUid := 0

theorem wf_unstampedNamespace : unstampedNamespace.Wf := by
  refine ⟨⟨fun _ hu ↦ (nomatch hu), fun _ _ hm ↦ (nomatch hm)⟩, fun name d w hd hstamp ↦ ?_,
    fun _ _ _ hj ↦ nomatch hj⟩
  simp only [unstampedNamespace] at hd
  split at hd
  · obtain rfl := Option.some.inj hd
    cases hstamp
  · cases hd

/-- A first `apply`, which the preview gate ends. -/
def firstApply : List (Turn RolloutEvent RolloutOutcome) :=
  .start :: (List.replicate 10 (.serve .success) ++ [.serve ⟨false, .ok false⟩])

/-- The Deployment is rolled onto the Secret that was created. -/
theorem redis_credentials_rollout_firstApply :
    ∃ s d, execute (rolloutStep passingChecks id "team") ⟨unstampedNamespace, none⟩ firstApply =
        some s ∧ s.store.deployments "shop" = some d ∧ d.stamp = some 0 := by
  have he : ∃ s before d,
      execute (rolloutStep passingChecks id "team") ⟨unstampedNamespace, none⟩ firstApply =
        some s ∧
      s.current = some ((cachedProject, before), .done (.ok ⟨some ⟨0⟩, none⟩)) ∧
      s.store.deployments "shop" = some d ∧ d.controlledBy cachedProject = true :=
    ⟨_, _, _, rfl, rfl, rfl, by decide⟩
  obtain ⟨s, before, d, he, hcurrent, hd, hcontrolled⟩ := he
  have hneeds : ∀ x ∈ transitions (rolloutStep passingChecks id "team") ⟨unstampedNamespace, none⟩
      firstApply, x.action = .start → needsRedis x.before.store.observed = true := by
    refine forall_mem_transitions_cons (rfl : _ = some _) (fun _ ↦ rfl) fun x hx hstart ↦ ?_
    rcases List.mem_append.mp (action_mem_of_mem_transitions hx) with hserve | hserve
    · cases hstart.symm.trans (List.eq_of_mem_replicate hserve)
    · cases hstart.symm.trans (List.mem_singleton.mp hserve)
  obtain ⟨p, hp, hrolled, -⟩ := (redis_credentials_rollout passingChecks id "team"
    wf_unstampedNamespace (Run.of_execute _ he) hneeds).1 _ _ _ hcurrent
  cases hp
  exact ⟨s, d, he, hd, hrolled "shop" List.mem_cons_self d hd hcontrolled⟩

end ReinhardtCloud.Operator
