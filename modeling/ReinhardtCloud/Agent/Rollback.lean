import ReinhardtCloud.Base.StrategicMerge
import ReinhardtCloud.Operator.ServiceNames

/-!
# Rollback

Library `Agent`. `execute_rollback` (`crates/reinhardt-cloud-agent/src/main.rs:413–483`) beside the
Deployments that the operator builds (`resources/{deployment,worker,cache,labels}.rs`). The
ReplicaSet is picked by a label that all Deployments of a Project share, and its template is merged
onto the current one; the API server refuses a template that leaves the selector, so the template is
restored exactly when the current one sets nothing that the target leaves out. Of a Deployment only
what the patch touches and its checks read is kept.
-/

namespace ReinhardtCloud.Agent

open ReinhardtCloud.Base ReinhardtCloud.Operator

/-! ## The namespace -/

/-- `kube::Error`: a request that fails, or a status. -/
inductive KubeError where
  | request (message : String)
  | status (message reason : String)
  deriving DecidableEq

/-- A ReplicaSet; its owner is the name of the controlling Deployment. -/
structure ReplicaSet where
  owner : String
  labels : StringMap
  annotations : StringMap
  template : Option (Doc String)

/-- A Deployment. -/
structure DeploymentObject where
  name : String
  selector : StringMap
  template : Doc String

/-- The namespace of the agent. -/
structure Cluster where
  deployments : List DeploymentObject
  replicaSets : List ReplicaSet

/-- The Deployment of the name. -/
def Cluster.deployment (s : Cluster) (name : String) : Option DeploymentObject :=
  s.deployments.find? fun d ↦ d.name = name

/-- Store a Deployment under its name. -/
def Cluster.store (s : Cluster) (stored : DeploymentObject) : Cluster where
  deployments := s.deployments.map fun d ↦ if d.name = stored.name then stored else d
  replicaSets := s.replicaSets

/-- What the API server answers: the error for an absent Deployment, and why it refuses to store
one. -/
structure ApiServer where
  missing : String → KubeError
  refuse : DeploymentObject → Option KubeError

/-- The label under the key that a pod template sets. -/
def podLabel (template : Doc String) (key : String) : Option (Doc String) :=
  template.find ["metadata", "labels", key]

/-- A stored Deployment selects its own pods. -/
def ApiServer.ChecksSelector (api : ApiServer) : Prop :=
  ∀ d, api.refuse d = none → ∀ l ∈ d.selector, podLabel d.template l.1 = some (.value l.2)

/-- A strategic merge patch of `spec.template`. -/
def ApiServer.patchTemplate (api : ApiServer) (s : Cluster) (name : String)
    (template : Doc String) : Except KubeError Cluster :=
  match s.deployment name with
  | none => .error (api.missing name)
  | some d =>
    let merged := { d with template := d.template.merge template }
    match api.refuse merged with
    | some e => .error e
    | none => .ok (s.store merged)

/-! ## `execute_rollback` -/

/-- How the client and the two requests fail, if they do. -/
structure RollbackCalls where
  connect : Option String
  list : Option String
  patch : Option String
  deriving DecidableEq

/-- A request. -/
def request : Option String → Except KubeError Unit
  | some message => .error (.request message)
  | none => .ok ()

/-- The ReplicaSet carries the revision. -/
def ReplicaSet.hasRevision (rs : ReplicaSet) (revision : UInt32) : Bool :=
  rs.annotations.lookup "deployment.kubernetes.io/revision" = some (toString revision)

/-- The ReplicaSets of the list whose label names the Project. -/
def Cluster.listReplicaSets (s : Cluster) (projectName : String) : List ReplicaSet :=
  s.replicaSets.filter fun rs ↦ rs.labels.lookup "app.kubernetes.io/name" = some projectName

/-- The target ReplicaSet: the first of the list with the revision, `main.rs:433–451`. -/
def targetReplicaSet (rsList : List ReplicaSet) (revision : UInt32) : Except KubeError ReplicaSet :=
  match rsList.find? fun rs ↦ rs.hasRevision revision with
  | some rs => .ok rs
  | none => .error (.status s!"ReplicaSet with revision {revision} not found" "NotFound")

/-- The pod template in its spec, `main.rs:455–466`. -/
def targetTemplate (targetRs : ReplicaSet) (revision : UInt32) : Except KubeError (Doc String) :=
  match targetRs.template with
  | some template => .ok template
  | none => .error (.status
      s!"ReplicaSet revision {revision} has no pod template in its spec" "InvalidSpec")

/-- `execute_rollback`, `main.rs:418–483`. -/
def executeRollback (api : ApiServer) (calls : RollbackCalls) (s : Cluster) (projectName : String)
    (revision : UInt32) : Except KubeError Cluster := do
  request calls.connect
  request calls.list
  let targetRs ← targetReplicaSet (s.listReplicaSets projectName) revision
  let template ← targetTemplate targetRs revision
  request calls.patch
  api.patchTemplate s projectName template

/-! ## The Deployments of a Project -/

/-- The Deployments that the operator builds for a Project, `deployment.rs:311`, `worker.rs:34`,
`cache.rs:26`. -/
def projectDeployments (app : Project) : List (Component × String) :=
  [(.web, app.name), (.worker, app.name ++ "-worker"), (.cache, app.name ++ "-redis")]

/-- Their selectors, `deployment.rs:319–328`, `worker.rs:52–60`, `cache.rs:38–46`. -/
def componentSelector (app : Project) (component : Component) : StringMap :=
  [("app.kubernetes.io/name", app.name), ("app.kubernetes.io/component", component.asStr)]

/-- The operator has built the Deployments of the Project, and their ReplicaSets carry the labels of
the pod templates and a revision that each Deployment counts by itself. -/
structure BuiltByOperator (s : Cluster) (app : Project) : Prop where
  selector : ∀ d ∈ s.deployments, ∀ component, (component, d.name) ∈ projectDeployments app →
    d.selector = componentSelector app component
  owned : ∀ rs ∈ s.listReplicaSets app.name, ∃ component,
    (component, rs.owner) ∈ projectDeployments app ∧ ∃ template, rs.template = some template ∧
      ∀ l ∈ standardLabels app component, podLabel template l.1 = some (.value l.2)
  counted : ∀ rs ∈ s.replicaSets, ∀ rs' ∈ s.replicaSets, rs.owner = rs'.owner → ∀ revision,
    rs.hasRevision revision = true → rs'.hasRevision revision = true → rs = rs'

/-! ## What a rollback restores -/

/-- A pod template without the label that the Deployment controller adds. -/
def withoutHash (template : Doc String) : Doc String :=
  template.erase ["metadata", "labels"] "pod-template-hash"

/-- The template of a Deployment's own ReplicaSet of the revision. -/
def OwnTemplate (s : Cluster) (name : String) (revision : UInt32) (template : Doc String) : Prop :=
  ∃ rs ∈ s.replicaSets, rs.owner = name ∧ rs.hasRevision revision = true ∧
    rs.template = some template

/-- The Deployment has the template of its own ReplicaSet of the revision again, and the other
Deployments are as they were. -/
def RestoresRevision (s t : Cluster) (name : String) (revision : UInt32) : Prop :=
  (∃ d template, t.deployment name = some d ∧ OwnTemplate s name revision template ∧
    withoutHash d.template = withoutHash template) ∧
  ∀ other, other ≠ name → t.deployment other = s.deployment other

/-- What the current template of the Deployment sets, the target sets too. -/
def TargetCovers (s : Cluster) (name : String) (revision : UInt32) : Prop :=
  ∃ d template, s.deployment name = some d ∧ OwnTemplate s name revision template ∧
    (withoutHash template).covers (withoutHash d.template) = true

section Rollback

variable {api : ApiServer} {calls : RollbackCalls} {s t : Cluster} {app : Project} {name : String}
  {revision : UInt32}

theorem deployment_name {d : DeploymentObject} (h : s.deployment name = some d) : d.name = name :=
  of_decide_eq_true (List.find?_some (p := fun d : DeploymentObject ↦ d.name = name) h)

theorem deployment_mem {d : DeploymentObject} (h : s.deployment name = some d) :
    d ∈ s.deployments := List.mem_of_find?_eq_some h

/-- Only the Deployment of the name is replaced. -/
theorem deployment_store (stored : DeploymentObject) (other : String) :
    (s.store stored).deployment other =
      (s.deployment other).map fun d ↦ if d.name = stored.name then stored else d := by
  have hname (d : DeploymentObject) :
      (if d.name = stored.name then stored else d).name = d.name := by
    split
    · next h => exact h.symm
    · rfl
  unfold Cluster.deployment Cluster.store
  rw [List.find?_map]
  congr 2
  funext d
  rw [Function.comp_apply, hname]

theorem executeRollback_eq_ok (h : executeRollback api calls s name revision = .ok t) :
    ∃ rs ∈ s.listReplicaSets name, rs.hasRevision revision = true ∧
      ∃ template, rs.template = some template ∧ ∃ d, s.deployment name = some d ∧
        api.refuse { d with template := d.template.merge template } = none ∧
        t = s.store { d with template := d.template.merge template } := by
  unfold executeRollback at h
  obtain ⟨-, -, h⟩ := bind_eq_ok.mp h
  obtain ⟨-, -, h⟩ := bind_eq_ok.mp h
  obtain ⟨rs, hrs, h⟩ := bind_eq_ok.mp h
  obtain ⟨template, htemplate, h⟩ := bind_eq_ok.mp h
  obtain ⟨-, -, h⟩ := bind_eq_ok.mp h
  unfold targetReplicaSet at hrs
  split at hrs
  · next hfind =>
    cases hrs
    unfold targetTemplate at htemplate
    split at htemplate
    · next hspec =>
      cases htemplate
      unfold ApiServer.patchTemplate at h
      split at h
      · cases h
      · next d hd =>
        dsimp only at h
        split at h
        · cases h
        · next hadmitted =>
          cases h
          have hrevision : rs.hasRevision revision = true :=
            List.find?_some (p := fun rs : ReplicaSet ↦ rs.hasRevision revision) hfind
          exact ⟨rs, List.mem_of_find?_eq_some hfind, hrevision, template, hspec, d, hd, hadmitted,
            rfl⟩
    · cases htemplate
  · cases hrs

/-- A template that the API server admits on the web Deployment comes from its own ReplicaSet: the
label of another component does not meet the selector. -/
theorem owner_of_admitted (hapi : api.ChecksSelector) (hbuilt : BuiltByOperator s app)
    {rs : ReplicaSet} (hrs : rs ∈ s.listReplicaSets app.name) {template : Doc String}
    (htemplate : rs.template = some template) {d : DeploymentObject}
    (hd : s.deployment app.name = some d)
    (hadmitted : api.refuse { d with template := d.template.merge template } = none) :
    rs.owner = app.name := by
  obtain ⟨component, howner, template', htemplate', hlabels⟩ := hbuilt.owned rs hrs
  obtain rfl := Option.some.inj (htemplate.symm.trans htemplate')
  have hselector : d.selector = componentSelector app .web := by
    apply hbuilt.selector d (deployment_mem hd)
    rw [deployment_name hd]
    exact List.mem_cons_self
  have hselects := hapi _ hadmitted ("app.kubernetes.io/component", "web")
    (by rw [hselector]; exact List.mem_cons_of_mem _ List.mem_cons_self)
  have hlabel : podLabel (d.template.merge template) "app.kubernetes.io/component" =
      some (.value component.asStr) :=
    Doc.find_merge_value (hlabels ("app.kubernetes.io/component", component.asStr)
      (by simp [standardLabels]))
  have hcomponent : component.asStr = "web" :=
    Doc.value.inj (Option.some.inj (hlabel.symm.trans hselects))
  simp only [projectDeployments, List.mem_cons, List.not_mem_nil, or_false, Prod.mk.injEq] at howner
  rcases howner with ⟨-, howner⟩ | ⟨rfl, -⟩ | ⟨rfl, -⟩
  · exact howner
  · exact absurd hcomponent (by decide)
  · exact absurd hcomponent (by decide)

/-- A Deployment has one template of a revision. -/
theorem ownTemplate_unique (hbuilt : BuiltByOperator s app) {template template' : Doc String}
    (h : OwnTemplate s name revision template) (h' : OwnTemplate s name revision template') :
    template = template' := by
  obtain ⟨rs, hrs, howner, hrevision, htemplate⟩ := h
  obtain ⟨rs', hrs', howner', hrevision', htemplate'⟩ := h'
  obtain rfl := hbuilt.counted rs hrs rs' hrs' (howner.trans howner'.symm) revision hrevision
    hrevision'
  exact Option.some.inj (htemplate.symm.trans htemplate')

/-- The merged template is the target when the target sets everything that the current one sets. -/
theorem restored_iff (current template : Doc String) :
    withoutHash (current.merge template) = withoutHash template ↔
      (withoutHash template).covers (withoutHash current) = true := by
  rw [withoutHash, Doc.merge_erase]
  exact Doc.merge_eq_iff _ _

/-- A rollback that succeeds restores the revision exactly when the target sets everything that the
current template sets. -/
theorem rollback_restores_iff (hapi : api.ChecksSelector) (hbuilt : BuiltByOperator s app)
    (h : executeRollback api calls s app.name revision = .ok t) :
    RestoresRevision s t app.name revision ↔ TargetCovers s app.name revision := by
  obtain ⟨rs, hrs, hrevision, template, htemplate, d, hd, hadmitted, rfl⟩ :=
    executeRollback_eq_ok h
  have hname : d.name = app.name := deployment_name hd
  have hown : OwnTemplate s app.name revision template :=
    ⟨rs, (List.mem_filter.mp hrs).1, owner_of_admitted hapi hbuilt hrs htemplate hd hadmitted,
      hrevision, htemplate⟩
  have hstored : (s.store { d with template := d.template.merge template }).deployment app.name =
      some { d with template := d.template.merge template } := by
    rw [deployment_store, hd, Option.map_some, if_pos rfl]
  constructor
  · rintro ⟨⟨d', template', hd', hown', hsame⟩, -⟩
    obtain rfl := ownTemplate_unique hbuilt hown hown'
    obtain rfl := Option.some.inj (hstored.symm.trans hd')
    exact ⟨d, template, hd, hown, (restored_iff d.template template).mp hsame⟩
  · rintro ⟨d', template', hd', hown', hcovers⟩
    obtain rfl := ownTemplate_unique hbuilt hown hown'
    obtain rfl := Option.some.inj (hd.symm.trans hd')
    refine ⟨⟨_, template, hstored, hown, (restored_iff d.template template).mpr hcovers⟩,
      fun other hother ↦ ?_⟩
    rw [deployment_store]
    cases hd' : s.deployment other with
    | none => rfl
    | some d' =>
      have hne : d'.name ≠ d.name := by
        rw [deployment_name hd', hname]
        exact hother
      rw [Option.map_some, if_neg hne]

end Rollback

/-! ## A fixed namespace -/

/-- The Deployment selects the pods of its template. -/
def DeploymentObject.selectsTemplate (d : DeploymentObject) : Bool :=
  d.selector.all fun l ↦ match podLabel d.template l.1 with
    | some (.value v) => v = l.2
    | _ => false

/-- An API server that checks the selector only. -/
def selectorServer : ApiServer where
  missing name := .status s!"deployments.apps {name} not found" "NotFound"
  refuse d :=
    if d.selectsTemplate then none
    else some (.status "selector does not match template labels" "Invalid")

theorem selectorServer_checks : selectorServer.ChecksSelector := by
  intro d hadmitted l hl
  simp only [selectorServer] at hadmitted
  split at hadmitted
  · next hselects =>
    have hmatch := List.all_eq_true.mp hselects l hl
    split at hmatch
    · next v hv =>
      rw [hv, of_decide_eq_true hmatch]
    · cases hmatch
  · cases hadmitted

/-- A Project with its worker. -/
def rolledProject : Project :=
  ⟨"shop", some "default", some 0, some 1, .cleared, { image := "registry/shop:1" }, none, none⟩

/-- The pod template of one of its Deployments, with one container. -/
def podTemplate (component : Component) (hash : Option String) (container : String)
    (env : StringMap) : Doc String :=
  let labels := standardLabels rolledProject component ++
    (hash.map fun h ↦ ("pod-template-hash", h)).toList
  .object [
    ("metadata", .object [("labels", .object (labels.map fun l ↦ (l.1, .value l.2)))]),
    ("spec", .object [("containers", .items [(container, .object [
      ("name", .value container), ("image", .value "registry/shop:1"),
      ("env", .items (env.map fun e ↦
        (e.1, .object [("name", .value e.1), ("value", .value e.2)])))])])])]

/-- A ReplicaSet of one of its Deployments. -/
def rolledReplicaSet (component : Component) (owner revision hash : String) (env : StringMap) :
    ReplicaSet where
  owner := owner
  labels := standardLabels rolledProject component ++ [("pod-template-hash", hash)]
  annotations := [("deployment.kubernetes.io/revision", revision)]
  template := some (podTemplate component (some hash) owner env)

/-- The worker at its first revision, and the web Deployment, whose second revision adds an
environment variable. -/
def rolledCluster (current : StringMap) : Cluster where
  deployments := [
    ⟨"shop", componentSelector rolledProject .web, podTemplate .web none "shop" current⟩,
    ⟨"shop-worker", componentSelector rolledProject .worker,
      podTemplate .worker none "shop-worker" []⟩]
  replicaSets := [
    rolledReplicaSet .web "shop" "1" "5d9c" [("RUST_LOG", "info")],
    rolledReplicaSet .web "shop" "2" "7f6b" [("RUST_LOG", "info"), ("FEATURE", "on")],
    rolledReplicaSet .worker "shop-worker" "1" "66cd" []]

theorem podLabel_podTemplate (component : Component) (hash container : String) (env : StringMap) :
    ∀ l ∈ standardLabels rolledProject component,
      podLabel (podTemplate component (some hash) container env) l.1 = some (.value l.2) := by
  intro l hl
  simp only [standardLabels, List.mem_cons, List.not_mem_nil, or_false] at hl
  rcases hl with rfl | rfl | rfl | rfl | rfl <;> rfl

theorem rolledCluster_built (current : StringMap) :
    BuiltByOperator (rolledCluster current) rolledProject where
  selector := by
    intro d hd component hcomponent
    simp only [rolledCluster, List.mem_cons, List.not_mem_nil, or_false] at hd
    simp only [projectDeployments, rolledProject, List.mem_cons, List.not_mem_nil, or_false,
      Prod.mk.injEq] at hcomponent
    rcases hd with rfl | rfl
    · rcases hcomponent with ⟨rfl, -⟩ | ⟨-, hname⟩ | ⟨-, hname⟩
      · rfl
      · exact absurd (show "shop" = "shop" ++ "-worker" from hname) (by decide)
      · exact absurd (show "shop" = "shop" ++ "-redis" from hname) (by decide)
    · rcases hcomponent with ⟨-, hname⟩ | ⟨rfl, -⟩ | ⟨-, hname⟩
      · exact absurd (show "shop-worker" = "shop" from hname) (by decide)
      · rfl
      · exact absurd (show "shop-worker" = "shop" ++ "-redis" from hname) (by decide)
  owned := by
    intro rs hrs
    have hmem := (List.mem_filter.mp hrs).1
    simp only [rolledCluster, List.mem_cons, List.not_mem_nil, or_false] at hmem
    rcases hmem with rfl | rfl | rfl
    · exact ⟨.web, by decide, _, rfl, podLabel_podTemplate .web _ _ _⟩
    · exact ⟨.web, by decide, _, rfl, podLabel_podTemplate .web _ _ _⟩
    · exact ⟨.worker, by decide, _, rfl, podLabel_podTemplate .worker _ _ _⟩
  counted := by
    intro rs hrs rs' hrs' howner revision hrevision hrevision'
    simp only [rolledCluster, List.mem_cons, List.not_mem_nil, or_false] at hrs hrs'
    have hfirst {e : String} (h : (some "1" : Option String) = some e) (h' : some "2" = some e) :
        False := absurd (h.trans h'.symm) (by decide)
    rcases hrs with rfl | rfl | rfl <;> rcases hrs' with rfl | rfl | rfl
    · rfl
    · exact (hfirst (of_decide_eq_true hrevision) (of_decide_eq_true hrevision')).elim
    · exact absurd (show "shop" = "shop-worker" from howner) (by decide)
    · exact (hfirst (of_decide_eq_true hrevision') (of_decide_eq_true hrevision)).elim
    · rfl
    · exact absurd (show "shop" = "shop-worker" from howner) (by decide)
    · exact absurd (show "shop-worker" = "shop" from howner) (by decide)
    · exact absurd (show "shop-worker" = "shop" from howner) (by decide)
    · rfl

/-- Rolled back to the first revision, the web Deployment keeps the variable of the second. -/
theorem rollback_keeps_variable : selectorServer.ChecksSelector ∧
    BuiltByOperator (rolledCluster [("RUST_LOG", "info"), ("FEATURE", "on")]) rolledProject ∧
    ∃ t, executeRollback selectorServer ⟨none, none, none⟩
        (rolledCluster [("RUST_LOG", "info"), ("FEATURE", "on")]) "shop" 1 = .ok t ∧
      ¬ RestoresRevision (rolledCluster [("RUST_LOG", "info"), ("FEATURE", "on")]) t "shop" 1 := by
  refine ⟨selectorServer_checks, rolledCluster_built _, _, rfl, ?_⟩
  rintro ⟨⟨d, template, hd, hown, hsame⟩, -⟩
  have hfirst : OwnTemplate (rolledCluster [("RUST_LOG", "info"), ("FEATURE", "on")]) "shop" 1
      (podTemplate .web (some "5d9c") "shop" [("RUST_LOG", "info")]) :=
    ⟨_, List.mem_cons_self, rfl, rfl, rfl⟩
  obtain rfl := ownTemplate_unique (rolledCluster_built _) hown hfirst
  obtain rfl := Option.some.inj hd
  exact absurd ((restored_iff _ _).mp hsame) (by decide)

/-- Rolled forward to the second revision, it has exactly its template. -/
theorem rollback_restores_second : ∃ t,
    executeRollback selectorServer ⟨none, none, none⟩ (rolledCluster [("RUST_LOG", "info")])
        "shop" 2 =
      .ok t ∧ RestoresRevision (rolledCluster [("RUST_LOG", "info")]) t "shop" 2 := by
  have hok : ∃ t, executeRollback selectorServer ⟨none, none, none⟩
      (rolledCluster [("RUST_LOG", "info")]) rolledProject.name 2 = .ok t := ⟨_, rfl⟩
  obtain ⟨t, ht⟩ := hok
  refine ⟨t, ht, (rollback_restores_iff selectorServer_checks (rolledCluster_built _) ht).mpr ?_⟩
  exact ⟨_, _, rfl, ⟨_, List.mem_cons_of_mem _ List.mem_cons_self, rfl, rfl, rfl⟩, rfl⟩

end ReinhardtCloud.Agent
