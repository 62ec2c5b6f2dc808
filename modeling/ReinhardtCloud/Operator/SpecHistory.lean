import Mathlib.Data.Finset.Basic
import Mathlib.Data.Finset.Dedup
import Mathlib.Logic.Function.Basic
import ReinhardtCloud.Operator.Tenants

/-!
# The live objects of a Project across spec edits

Library `Operator`. The objects a Project owns after a history of edits, with what is in them:
`apply` runs once to its end after each edit, after any number of passes that a gate or a failed
call ends early (`crates/reinhardt-cloud-operator/src/reconciler.rs:429–927`). Every object is one
this Project owns, so the ownership checks of the passes go through. The builders are functions of
the Project's identity, which no edit changes, and of its spec.
-/

namespace ReinhardtCloud.Operator

/-- An object by its kind and its name relative to the Project's. -/
abbrev OwnedObject := ObjectKind × ObjectName

/-- The live objects, each with the spec that its content was built from. -/
abbrev LiveObjects := OwnedObject → Option ProjectSpec

/-- The object an operation addresses. -/
def Operation.object (op : Operation) : OwnedObject := (op.kind, op.name)

/-- What an operation for a spec makes of what it finds under its name. -/
def Access.leaves (spec : ProjectSpec) (found : Option ProjectSpec) : Access → Option ProjectSpec
  -- a forced apply by the only manager replaces the content
  | .forceApply | .applyIfControlled | .applyServiceAccount => some spec
  | .createIfAbsent | .redisProvenance => found.or (some spec)
  | .rollIfControlled | .redisImmutable => found
  | .deleteIfExists | .delete | .deleteServiceAccount | .deleteRedisIfManaged
  | .deleteGitIfManaged => none

/-- The live objects after one issued operation. -/
def Operation.act (spec : ProjectSpec) (live : LiveObjects) (op : Operation) : LiveObjects :=
  Function.update live op.object (op.access.leaves spec (live op.object))

/-- A pass of `apply` or of `cleanup` over the live objects. -/
def pass (spec : ProjectSpec) (ops : List Operation) (live : LiveObjects) : LiveObjects :=
  ops.foldl (Operation.act spec) live

/-- The kinds under consideration, without the tenant's policies and the database Services. -/
def accounted : OwnedObject → Bool
  | (.ingress, .suffixed _) | (.horizontalPodAutoscaler, .suffixed _) | (.deployment, .suffixed _)
  | (.networkPolicy, .suffixed _) | (.limitRange, .suffixed _) => true
  | (.service, .suffixed suffix) => suffix ≠ "-db" && suffix ≠ "-postgresql"
  | _ => false

/-- A spec edit with the passes that follow it: how many operations each pass that was cut short
issued, before the one that completes. A refused tenant lets no pass complete. -/
structure Edit (ns : String) where
  project : Project
  cuts : List Nat
  accepted : ∃ expected, validateTenantNamespace project ns = .ok expected

variable {ns : String}

theorem Edit.goesOn (e : Edit ns) : tenantAccepted e.project ns = true :=
  tenantAccepted_iff.mpr e.accepted

/-- The live objects once `apply` has completed after an edit. -/
def Edit.settle (platform : Platform) (live : LiveObjects) (e : Edit ns) : LiveObjects :=
  let ops := applyOperations platform e.project ns
  pass e.project.spec ops (e.cuts.foldl (fun l n ↦ pass e.project.spec (ops.take n) l) live)

/-- The accounted live objects after a history of edits, from a cluster without any. -/
def liveAfter (platform : Platform) (history : List (Edit ns)) : LiveObjects := fun o ↦
  if accounted o then history.foldl (Edit.settle platform) (fun _ ↦ none) o else none

/-- The accounted objects that one uninterrupted pass creates on a fresh cluster. -/
def freshObjects (platform : Platform) (ns : String) (app : Project) : LiveObjects := fun o ↦
  if accounted o then pass app.spec (applyOperations platform app ns) (fun _ ↦ none) o else none

/-! ## What a spec asks for -/

/-- `requires_grpc` of the introspected signals. -/
def needsGrpc (app : Project) : Bool := app.spec.introspect.any fun i ↦ i.signals.grpc

/-- Each conditional object with the reason the spec gives for it. -/
def conditionalObjects : List ((Project → Bool) × OwnedObject) :=
  [(fun app ↦ app.spec.isolation, .networkPolicy, .suffixed "-deny-all"),
    (fun app ↦ app.spec.isolation, .networkPolicy, .suffixed "-allow-ingress"),
    (fun app ↦ app.spec.isolation, .networkPolicy, .suffixed "-allow-egress"),
    (fun app ↦ app.spec.isolation, .limitRange, .suffixed "-limits"),
    (reconcilesIngress, .ingress, .suffixed ""),
    (plansAutoscaler, .horizontalPodAutoscaler, .suffixed ""),
    (fun app ↦ shouldProvisionCache app || needsRedisSessions app, .deployment, .suffixed "-redis"),
    (fun app ↦ shouldProvisionCache app || needsRedisSessions app, .service, .suffixed "-redis"),
    (shouldProvisionWorker, .deployment, .suffixed "-worker"),
    (needsGrpc, .service, .suffixed "-grpc")]

/-- The objects a spec asks for: the web Deployment and Service, and the conditional ones whose
reason it gives. -/
def desired (app : Project) : Finset OwnedObject :=
  {(.deployment, .suffixed ""), (.service, .suffixed "")} ∪
    ((conditionalObjects.filter fun c ↦ c.1 app).map Prod.snd).toFinset

/-- Every reason the first spec gives for an object, the second gives too. -/
def Retains (earlier later : Project) : Prop :=
  ∀ c ∈ conditionalObjects, c.1 earlier = true → c.1 later = true

instance (earlier later : Project) : Decidable (Retains earlier later) :=
  inferInstanceAs (Decidable (∀ c ∈ conditionalObjects, _))

/-! ## What passes of `apply` leave -/

/-- The access writes its object whole or leaves it as it is. -/
def Access.replaces : Access → Bool
  | .forceApply | .applyIfControlled | .applyServiceAccount | .rollIfControlled
  | .redisImmutable => true
  | _ => false

private theorem leaves_of_replaces {access : Access} (h : access.replaces = true)
    (spec : ProjectSpec) (found : Option ProjectSpec) :
    access.leaves spec found = if access.creates then some spec else found := by
  cases access <;> first | rfl | cases h

/-- Where the operations on an object replace it, a pass that creates it leaves what the pass wrote,
and any other pass what was there. -/
private theorem pass_eq {spec : ProjectSpec} {ops : List Operation} {live : LiveObjects}
    {o : OwnedObject} (h : ∀ op ∈ ops, op.object = o → op.access.replaces = true) :
    pass spec ops live o =
      if ∃ op ∈ ops, op.access.creates = true ∧ op.object = o then some spec else live o := by
  induction ops generalizing live with
  | nil => simp [pass]
  | cons op rest ih =>
    have hrest := @ih (op.act spec live) fun q hq ↦ h q (List.mem_cons_of_mem op hq)
    have hact : op.act spec live o =
        if op.access.creates = true ∧ op.object = o then some spec else live o := by
      by_cases hobject : op.object = o
      · subst hobject
        simp only [Operation.act, Function.update_self, and_true,
          leaves_of_replaces (h op List.mem_cons_self rfl)]
      · simp only [Operation.act, Function.update_of_ne (Ne.symm hobject), hobject, and_false,
          if_false]
    rw [pass, List.foldl_cons]
    rw [pass] at hrest
    rw [hrest, hact]
    simp only [List.exists_mem_cons_iff]
    by_cases hcreated : ∃ op ∈ rest, op.access.creates = true ∧ op.object = o
    · simp only [hcreated, or_true, if_true]
    · simp only [hcreated, or_false, if_false]

/-- The accounted objects a list of operations creates. -/
def contributed (ops : List Operation) : List OwnedObject :=
  ((ops.filter fun op ↦ op.access.creates).map Operation.object).filter fun o ↦ accounted o

@[simp] private theorem contributed_append (l₁ l₂ : List Operation) :
    contributed (l₁ ++ l₂) = contributed l₁ ++ contributed l₂ := by
  simp [contributed]

private theorem mem_contributed_onlyIf {c : Bool} {ops : List Operation} {o : OwnedObject} :
    o ∈ contributed (onlyIf c ops) ↔ c = true ∧ o ∈ contributed ops := by
  cases c <;> simp [onlyIf, contributed]

private theorem mem_contributed {ops : List Operation} {o : OwnedObject} :
    o ∈ contributed ops ↔
      accounted o = true ∧ ∃ op ∈ ops, op.access.creates = true ∧ op.object = o := by
  simp only [contributed, List.mem_filter, List.mem_map]
  constructor
  · rintro ⟨⟨op, ⟨hop, hc⟩, ho⟩, ha⟩
    exact ⟨ha, op, hop, hc, ho⟩
  · rintro ⟨ha, op, hop, hc, ho⟩
    exact ⟨⟨op, ⟨hop, hc⟩, ho⟩, ha⟩

private theorem contributed_serviceAccount (name : ObjectName) :
    contributed [⟨.serviceAccount, name, .applyServiceAccount⟩] = [] := rfl

private theorem contributed_database (platform : Platform) (app : Project) :
    contributed (databaseOperations platform app) = [] := by
  unfold databaseOperations
  split
  · next engine _ => cases platform <;> cases engine <;> rfl
  · cases shouldProvisionPostgresql app <;> rfl

/-- The operations on accounted objects replace them. -/
private def ReplacesAccounted (op : Operation) : Prop :=
  accounted op.object = true → op.access.replaces = true

private instance (op : Operation) : Decidable (ReplacesAccounted op) :=
  inferInstanceAs (Decidable (_ = true → _ = true))

private theorem databaseOperations_replace (platform : Platform) (app : Project) :
    ∀ op ∈ databaseOperations platform app, ReplacesAccounted op := by
  unfold databaseOperations
  split
  · next engine _ => cases platform <;> cases engine <;> decide
  · cases shouldProvisionPostgresql app <;> decide

private theorem forall_mem_onlyIf {c : Bool} {ops : List Operation} {P : Operation → Prop}
    (h : ∀ op ∈ ops, P op) : ∀ op ∈ onlyIf c ops, P op := by
  cases c
  · simp [onlyIf]
  · simpa [onlyIf] using h

/-- `apply` neither deletes an accounted object nor keeps its old content. -/
theorem applyOperations_replace (platform : Platform) (app : Project) (ns : String) :
    ∀ op ∈ applyOperations platform app ns, accounted op.object = true →
      op.access.replaces = true := by
  suffices h : ∀ op ∈ applyOperations platform app ns, ReplacesAccounted op from h
  unfold applyOperations
  refine forall_mem_onlyIf ?_
  rw [List.forall_mem_append]
  constructor
  · exact forall_mem_onlyIf (by decide)
  · have hdatabase := databaseOperations_replace platform app
    have hserviceAccount (name : ObjectName) :
        ∀ op ∈ [Operation.mk .serviceAccount name .applyServiceAccount], ReplacesAccounted op := by
      intro op hop
      rw [List.mem_singleton.mp hop]
      exact fun _ ↦ rfl
    unfold projectOperations
    simp only [List.forall_mem_append]
    repeat' apply And.intro
    all_goals
      first
      | exact hdatabase
      | exact forall_mem_onlyIf (hserviceAccount _)
      | exact forall_mem_onlyIf (by decide)
      | decide

theorem mem_desired {app : Project} {o : OwnedObject} :
    o ∈ desired app ↔ (o = (.deployment, .suffixed "") ∨ o = (.service, .suffixed "")) ∨
      ∃ c ∈ conditionalObjects, c.1 app = true ∧ c.2 = o := by
  simp only [desired, Finset.mem_union, Finset.mem_insert, Finset.mem_singleton,
    List.mem_toFinset, List.mem_map, List.mem_filter, and_assoc]

/-- The accounted objects among those of `apply` are the ones the spec asks for. -/
theorem mem_contributed_applyOperations (platform : Platform) {app : Project} {ns : String}
    (haccepted : tenantAccepted app ns = true) {o : OwnedObject} :
    o ∈ contributed (applyOperations platform app ns) ↔ o ∈ desired app := by
  have hredis : contributed redisOperations = [] := rfl
  have htenant : contributed tenantOperations = [] := rfl
  have hsecret (suffix : String) (access : Access) :
      contributed [named .secret suffix access] = [] := by
    cases access <;> rfl
  have hconfig (suffix : String) (access : Access) :
      contributed [named .configMap suffix access] = [] := by
    cases access <;> rfl
  have hcache : contributed cacheOperations =
      [(.deployment, .suffixed "-redis"), (.service, .suffixed "-redis")] := by decide
  have hworkload : contributed [named .deployment "" .applyIfControlled,
      named .service "" .applyIfControlled] =
      [(.deployment, .suffixed ""), (.service, .suffixed "")] := by decide
  have hisolation : contributed [named .networkPolicy "-deny-all" .forceApply,
      named .networkPolicy "-allow-ingress" .forceApply,
      named .networkPolicy "-allow-egress" .forceApply,
      named .limitRange "-limits" .forceApply] =
      [(.networkPolicy, .suffixed "-deny-all"), (.networkPolicy, .suffixed "-allow-ingress"),
        (.networkPolicy, .suffixed "-allow-egress"), (.limitRange, .suffixed "-limits")] := by
    decide
  have hingress : contributed [named .ingress "" .forceApply] =
      [(.ingress, .suffixed "")] := by decide
  have hautoscaler : contributed [named .horizontalPodAutoscaler "" .forceApply] =
      [(.horizontalPodAutoscaler, .suffixed "")] := by decide
  have hworker : contributed [named .deployment "-worker" .forceApply] =
      [(.deployment, .suffixed "-worker")] := by decide
  have hgrpc : contributed [named .service "-grpc" .forceApply] =
      [(.service, .suffixed "-grpc")] := by decide
  simp only [applyOperations, projectOperations, mem_contributed_onlyIf, contributed_append,
    List.mem_append, hredis, htenant, hsecret, hconfig, hcache, hworkload, hisolation, hingress,
    hautoscaler, hworker, hgrpc, contributed_serviceAccount, contributed_database,
    haccepted, List.not_mem_nil, and_false, false_or, or_false, true_and]
  rw [mem_desired, conditionalObjects]
  simp only [List.exists_mem_cons_iff, List.not_mem_nil, false_and, exists_false, or_false,
    needsGrpc, Bool.or_eq_true]
  -- the Redis objects come from the cache or, without one, from the session backend
  cases shouldProvisionCache app
  · grind
  · grind

/-- A complete pass writes the accounted objects its spec asks for, and no others. -/
theorem pass_apply (platform : Platform) {app : Project} (live : LiveObjects) {o : OwnedObject}
    (haccepted : tenantAccepted app ns = true) (ho : accounted o = true) :
    pass app.spec (applyOperations platform app ns) live o =
      if o ∈ desired app then some app.spec else live o := by
  have hcreated := mem_contributed_applyOperations platform haccepted (o := o)
  rw [mem_contributed] at hcreated
  rw [pass_eq fun op hop hobject ↦ applyOperations_replace platform app ns op hop (hobject ▸ ho)]
  simp only [← hcreated, ho, true_and]

/-- So a pass that is cut short leaves what it found or what the complete one writes. -/
private theorem pass_cut (platform : Platform) {app : Project} (live : LiveObjects) (n : Nat)
    {o : OwnedObject} (haccepted : tenantAccepted app ns = true) (ho : accounted o = true)
    (h : o ∉ desired app) :
    pass app.spec ((applyOperations platform app ns).take n) live o = live o := by
  have hnone : ¬ ∃ op ∈ (applyOperations platform app ns).take n,
      op.access.creates = true ∧ op.object = o := by
    rintro ⟨op, hop, hcreates, hobject⟩
    refine h ((mem_contributed_applyOperations platform haccepted).mp ?_)
    exact mem_contributed.mpr ⟨ho, op, List.mem_of_mem_take hop, hcreates, hobject⟩
  rw [pass_eq fun op hop hobject ↦ applyOperations_replace platform app ns op
    (List.mem_of_mem_take hop) (hobject ▸ ho), if_neg hnone]

/-- After an edit an accounted object has the content the new spec asks for, or the one it had. -/
theorem settle_eq (platform : Platform) (live : LiveObjects) (e : Edit ns) {o : OwnedObject}
    (ho : accounted o = true) :
    e.settle platform live o = if o ∈ desired e.project then some e.project.spec else live o := by
  simp only [Edit.settle]
  rw [pass_apply platform _ e.goesOn ho]
  split
  · rfl
  · next hnot =>
    -- the passes that were cut short write nothing the complete one does not
    induction e.cuts generalizing live with
    | nil => rfl
    | cons n rest ih => rw [List.foldl_cons, ih, pass_cut platform live n e.goesOn ho hnot]

private theorem accounted_of_mem_desired {app : Project} {o : OwnedObject} (h : o ∈ desired app) :
    accounted o = true := by
  rcases mem_desired.mp h with (rfl | rfl) | ⟨c, hc, -, rfl⟩
  · rfl
  · rfl
  · exact (by decide : ∀ c ∈ conditionalObjects.map Prod.snd, accounted c = true) _
      (List.mem_map_of_mem hc)

/-- One more edit writes the objects its spec asks for and leaves the others. -/
theorem liveAfter_concat (platform : Platform) (history : List (Edit ns)) (e : Edit ns)
    (o : OwnedObject) :
    liveAfter platform (history ++ [e]) o =
      if o ∈ desired e.project then some e.project.spec else liveAfter platform history o := by
  by_cases ho : accounted o = true
  · simp only [liveAfter, ho, if_true, List.foldl_append, List.foldl_cons, List.foldl_nil,
      settle_eq platform _ e ho]
  · have hnot : o ∉ desired e.project := fun h ↦ ho (accounted_of_mem_desired h)
    simp only [liveAfter, ho, Bool.false_eq_true, if_false, hnot]

/-- After a history exactly the objects some spec of it asked for are live, each with the content
of the last one that did. -/
theorem liveAfter_eq (platform : Platform) (history : List (Edit ns)) (o : OwnedObject) :
    liveAfter platform history o =
      (history.reverse.find? fun e ↦ o ∈ desired e.project).map fun e ↦ e.project.spec := by
  induction history using List.reverseRecOn with
  | nil => simp [liveAfter]
  | append_singleton history e ih =>
    rw [liveAfter_concat, List.reverse_append, List.reverse_singleton, List.singleton_append,
      List.find?_cons, ih]
    by_cases ho : o ∈ desired e.project
    · simp [ho]
    · simp [ho]

/-- On a fresh cluster `apply` creates the objects the spec asks for. -/
theorem freshObjects_eq (platform : Platform) {app : Project}
    (haccepted : tenantAccepted app ns = true) (o : OwnedObject) :
    freshObjects platform ns app o = if o ∈ desired app then some app.spec else none := by
  by_cases ho : accounted o = true
  · simp only [freshObjects, ho, if_true, pass_apply platform _ haccepted ho]
  · have hnot : o ∉ desired app := fun h ↦ ho (accounted_of_mem_desired h)
    simp only [freshObjects, ho, Bool.false_eq_true, if_false, hnot]

private theorem conditional_mem_desired {app : Project} {c : (Project → Bool) × OwnedObject}
    (hc : c ∈ conditionalObjects) : c.2 ∈ desired app ↔ c.1 app = true := by
  have hnodup : (conditionalObjects.map Prod.snd).Nodup := by decide
  have hbase : ∀ o ∈ conditionalObjects.map Prod.snd,
      ¬(o = (.deployment, .suffixed "") ∨ o = (.service, .suffixed "")) := by decide
  rw [mem_desired]
  constructor
  · rintro (h | ⟨d, hd, hreason, hobject⟩)
    · exact absurd h (hbase c.2 (List.mem_map_of_mem hc))
    · have hdc : d = c := List.inj_on_of_nodup_map hnodup hd hc hobject
      rwa [hdc] at hreason
  · intro h
    exact .inr ⟨c, hc, h, rfl⟩

/-- One spec asks for all another asks for exactly when it keeps every reason. -/
theorem desired_subset_iff (earlier later : Project) :
    desired earlier ⊆ desired later ↔ Retains earlier later := by
  constructor
  · intro h c hc hreason
    exact (conditional_mem_desired hc).mp (h ((conditional_mem_desired hc).mpr hreason))
  · intro h o ho
    rw [mem_desired] at ho ⊢
    rcases ho with hbase | ⟨c, hc, hreason, hobject⟩
    · exact .inl hbase
    · exact .inr ⟨c, hc, h c hc hreason, hobject⟩

/-! ## Histories that end in one spec -/

private theorem liveAfter_eq_fresh_iff (platform : Platform) (history : List (Edit ns))
    (last : Edit ns) :
    liveAfter platform (history ++ [last]) = freshObjects platform ns last.project ↔
      ∀ e ∈ history, Retains e.project last.project := by
  have hobject (o : OwnedObject) :
      liveAfter platform (history ++ [last]) o = freshObjects platform ns last.project o ↔
        (o ∉ desired last.project → ∀ e ∈ history, o ∉ desired e.project) := by
    rw [liveAfter_concat, freshObjects_eq platform last.goesOn]
    by_cases ho : o ∈ desired last.project
    · simp only [ho, if_true, not_true_eq_false, false_implies]
    · simp [ho, liveAfter_eq]
  simp only [funext_iff, hobject, ← desired_subset_iff, Finset.subset_iff]
  constructor
  · intro h e he o ho
    by_contra hnot
    exact h o hnot e he ho
  · intro h o hnot e he ho
    exact hnot (h e he ho)

/-- Two histories that end in one spec, whatever passes were cut short, both leave the objects
`apply` creates for it on a fresh cluster, with the same content, exactly when that spec keeps every
reason that an earlier one gave. -/
theorem historyIndependent_iff_retains (platform : Platform) (history₁ history₂ : List (Edit ns))
    (last : Edit ns) (cuts : List Nat) :
    (liveAfter platform (history₁ ++ [last]) = freshObjects platform ns last.project ∧
        liveAfter platform (history₂ ++ [{ last with cuts }]) =
          freshObjects platform ns last.project) ↔
      ∀ e ∈ history₁ ++ history₂, Retains e.project last.project := by
  rw [liveAfter_eq_fresh_iff platform history₁ last,
    liveAfter_eq_fresh_iff platform history₂ { last with cuts }, List.forall_mem_append]

/-- A Project with an Ingress host. -/
def expose : Edit "prod" where
  project := ⟨"web", some "prod", some 1, some 1, ⟨none, none, none, none⟩,
    { image := "web:1", ingressHost := some "web.example.com" }, none, none⟩
  cuts := []
  accepted := ⟨none, rfl⟩

/-- The same Project once the host has been removed. -/
def hide : Edit "prod" where
  project := { expose.project with spec := { expose.project.spec with ingressHost := none } }
  cuts := []
  accepted := ⟨none, rfl⟩

/-- The Ingress stays as it was after the host is removed; a fresh cluster has none. -/
theorem ingress_outlives_host :
    liveAfter .onpremise [expose, hide] (.ingress, .suffixed "") = some expose.project.spec ∧
      freshObjects .onpremise "prod" hide.project (.ingress, .suffixed "") = none ∧
      liveAfter .onpremise [expose, hide] ≠ liveAfter .onpremise [hide] := by
  have hexposed : (.ingress, .suffixed "") ∈ desired expose.project := by decide
  have hhidden : (.ingress, .suffixed "") ∉ desired hide.project := by decide
  have hstays : liveAfter .onpremise [expose, hide] (.ingress, .suffixed "") =
      some expose.project.spec := by
    simp [liveAfter_eq, hexposed, hhidden]
  refine ⟨hstays, ?_, ?_⟩
  · rw [freshObjects_eq .onpremise hide.goesOn, if_neg hhidden]
  · intro heq
    rw [heq] at hstays
    simp [liveAfter_eq, hhidden] at hstays

end ReinhardtCloud.Operator
