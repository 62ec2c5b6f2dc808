import Mathlib.Logic.Function.Basic
import ReinhardtCloud.Operator.Databases

/-!
# Repeated database reconciles

Library `Operator`. The explicit database branch of `apply` over many reconciles
(`crates/reinhardt-cloud-operator/src/reconciler.rs:663–700,1453–1585`): every resource but the
Secret is force-applied, the Secret is created when it is absent. Each reconcile draws a password
of its own, and another party may create the Secret between the look-up and the creation.
-/

namespace ReinhardtCloud.Operator.Database

/-- The database objects of one namespace by name, as the operator applied them. -/
structure Objects where
  statefulSet : String → Option StatefulSet
  pvc : String → Option PersistentVolumeClaim
  service : String → Option DbService
  configMap : String → Option ConfigMap
  secret : String → Option DbSecret
  dynamic : String → String → Option DynamicObject

/-- What one reconcile draws, and the Secret that someone else creates just before it does. -/
structure Round where
  draw : String
  racer : Option DbSecret

/-- The `apply_*` call for a resource, `reconciler.rs:674–693`. -/
def applyResource (racer : Option DbSecret) (objects : Objects) : Resource → Objects
  | .statefulSet o =>
    { objects with statefulSet := Function.update objects.statefulSet o.name (some o) }
  | .pvc o => { objects with pvc := Function.update objects.pvc o.name (some o) }
  | .service o => { objects with service := Function.update objects.service o.name (some o) }
  | .configMap o => { objects with configMap := Function.update objects.configMap o.name (some o) }
  | .dynamic o => { objects with
      dynamic := Function.update objects.dynamic o.spec.kind
        (Function.update (objects.dynamic o.spec.kind) o.name (some o)) }
  -- `apply_db_secret_if_absent`: a conflict on creation counts as success.
  | .secret o =>
    match objects.secret o.name with
    | some _ => objects
    | none => { objects with secret := Function.update objects.secret o.name (some (racer.getD o)) }

/-- The database step of `apply`: nothing is applied when the inference fails. -/
def reconcileDatabase (config : PlatformConfig) (app : Project) (objects : Objects)
    (round : Round) : Except Error Objects := do
  let resources ← inferDatabaseResources app config round.draw
  return resources.foldl (applyResource round.racer) objects

/-- The objects after one reconcile. -/
def reconciled (config : PlatformConfig) (app : Project) (objects : Objects) (round : Round) :
    Objects :=
  match reconcileDatabase config app objects round with
  | .ok objects => objects
  | .error _ => objects

/-- The objects after several reconciles. -/
def reconciles (config : PlatformConfig) (app : Project) (objects : Objects)
    (rounds : List Round) : Objects :=
  rounds.foldl (reconciled config app) objects

/-- The password a Secret stores. -/
def DbSecret.password (secret : DbSecret) : Option String := secret.data.lookup "password"

/-- The credentials Secret stores the password that `init.sql` sets. -/
def PasswordsAgree (app : Project) (objects : Objects) : Prop :=
  ∃ secret configMap password, objects.secret s!"{app.name}-db-credentials" = some secret ∧
    secret.password = some password ∧
    objects.configMap s!"{app.name}-db-init" = some configMap ∧
    configMap.data.lookup "init.sql" =
      some (initSql (onpremDatabase app.name) (onpremUser app.name) password)

/-- After every reconcile the passwords agree, and none but the first changes an object. -/
def Stable (config : PlatformConfig) (app : Project) (objects : Objects) (rounds : List Round) :
    Prop :=
  ∀ earlier round later, rounds = earlier ++ round :: later →
    PasswordsAgree app (reconciles config app objects (earlier ++ [round])) ∧
      (earlier ≠ [] → reconciles config app objects (earlier ++ [round]) =
        reconciles config app objects earlier)

/-- The password stored once the first reconcile is through: that of the Secret that is there, else
of the one that wins the race, else the drawn one. -/
def storedPassword (app : Project) (objects : Objects) (first : Round) : Option String :=
  match objects.secret s!"{app.name}-db-credentials", first.racer with
  | some secret, _ => secret.password
  | none, some secret => secret.password
  | none, none => some first.draw

/-- Fresh randomness: no password is drawn twice, and none that is drawn is in a Secret that was
there before or that another party creates. -/
structure FreshDraws (app : Project) (objects : Objects) (rounds : List Round) : Prop where
  draws : (rounds.map Round.draw).Nodup
  stored : ∀ secret, objects.secret s!"{app.name}-db-credentials" = some secret →
    ∀ round ∈ rounds, secret.password ≠ some round.draw
  raced : ∀ other ∈ rounds, ∀ secret, other.racer = some secret →
    ∀ round ∈ rounds, secret.password ≠ some round.draw

/-! ## Applying twice -/

/-- The resource is there as it is applied; of a Secret, that there is one. -/
def Applied (objects : Objects) : Resource → Prop
  | .statefulSet o => objects.statefulSet o.name = some o
  | .pvc o => objects.pvc o.name = some o
  | .service o => objects.service o.name = some o
  | .configMap o => objects.configMap o.name = some o
  | .dynamic o => objects.dynamic o.spec.kind o.name = some o
  | .secret o => (objects.secret o.name).isSome

section

variable {racer : Option DbSecret} {objects : Objects} {r r' : Resource}

private theorem applied_applyResource : Applied (applyResource racer objects r) r := by
  cases r with
  | statefulSet o => exact Function.update_self ..
  | pvc o => exact Function.update_self ..
  | service o => exact Function.update_self ..
  | configMap o => exact Function.update_self ..
  | dynamic o => simp only [Applied, applyResource, Function.update_self]
  | secret o =>
    cases h : objects.secret o.name with
    | some secret => simp only [Applied, applyResource, h, Option.isSome_some]
    | none => simp only [Applied, applyResource, h, Function.update_self, Option.isSome_some]

private theorem applied_applyResource_of_ne (h : Applied objects r) (hne : r'.kind ≠ r.kind) :
    Applied (applyResource racer objects r') r := by
  cases r' with
  | secret o' =>
    simp only [applyResource]
    split
    · exact h
    · cases r with
      | secret o => exact absurd rfl hne
      | _ => exact h
  | dynamic o' =>
    cases r with
    | dynamic o =>
      have hkind : o.spec.kind ≠ o'.spec.kind := fun he ↦ hne (congrArg ObjectKind.dynamic he.symm)
      simp only [Applied, applyResource, Function.update_of_ne hkind]
      exact h
    | _ => exact h
  | statefulSet o' => cases r with
    | statefulSet o => exact absurd rfl hne
    | _ => exact h
  | pvc o' => cases r with
    | pvc o => exact absurd rfl hne
    | _ => exact h
  | service o' => cases r with
    | service o => exact absurd rfl hne
    | _ => exact h
  | configMap o' => cases r with
    | configMap o => exact absurd rfl hne
    | _ => exact h

/-- Applying what is applied changes nothing. -/
theorem applyResource_of_applied (h : Applied objects r) :
    applyResource racer objects r = objects := by
  cases r with
  | statefulSet o => simp only [applyResource, ← show _ = some o from h, Function.update_eq_self]
  | pvc o => simp only [applyResource, ← show _ = some o from h, Function.update_eq_self]
  | service o => simp only [applyResource, ← show _ = some o from h, Function.update_eq_self]
  | configMap o => simp only [applyResource, ← show _ = some o from h, Function.update_eq_self]
  | dynamic o => simp only [applyResource, ← show _ = some o from h, Function.update_eq_self]
  | secret o =>
    obtain ⟨secret, hsecret⟩ := Option.isSome_iff_exists.mp h
    simp only [applyResource, hsecret]

private theorem applied_foldl_of_ne {resources : List Resource} (h : Applied objects r)
    (hne : ∀ r' ∈ resources, r'.kind ≠ r.kind) :
    Applied (resources.foldl (applyResource racer) objects) r := by
  induction resources generalizing objects with
  | nil => exact h
  | cons r' rest ih =>
    exact ih (applied_applyResource_of_ne h (hne r' List.mem_cons_self))
      fun q hq ↦ hne q (List.mem_cons_of_mem _ hq)

/-- Resources of different kinds are all there once they are applied in turn. -/
theorem applied_foldl {resources : List Resource} (hkinds : (resources.map Resource.kind).Nodup) :
    ∀ r ∈ resources, Applied (resources.foldl (applyResource racer) objects) r := by
  induction resources generalizing objects with
  | nil => simp
  | cons r rest ih =>
    rw [List.map_cons, List.nodup_cons] at hkinds
    intro q hq
    rcases List.mem_cons.mp hq with rfl | hq
    · apply applied_foldl_of_ne applied_applyResource
      intro r' hr' he
      exact hkinds.1 (List.mem_map.mpr ⟨r', hr', he⟩)
    · exact ih hkinds.2 q hq

theorem foldl_of_applied {resources : List Resource} (h : ∀ r ∈ resources, Applied objects r) :
    resources.foldl (applyResource racer) objects = objects := by
  induction resources with
  | nil => rfl
  | cons r rest ih =>
    rw [List.foldl_cons, applyResource_of_applied (h r List.mem_cons_self)]
    exact ih fun q hq ↦ h q (List.mem_cons_of_mem _ hq)

end

/-! ## One reconcile -/

private theorem eq_of_enclosed {before after p q : String}
    (h : before ++ p ++ after = before ++ q ++ after) : p = q := by
  have hchars := congrArg String.toList h
  rw [String.toList_append, String.toList_append, String.toList_append,
    String.toList_append] at hchars
  exact String.toList_injective (List.append_cancel_left (List.append_cancel_right hchars))

/-- The password can be read off `init.sql`. -/
theorem initSql_injective {dbName dbUser : String} :
    Function.Injective (initSql dbName dbUser) :=
  fun _ _ h ↦ eq_of_enclosed h

section

variable {config : PlatformConfig} {app : Project} {ns : String} {engine : DatabaseEngine}

/-- What an on-premise Project with an accepted database has. -/
structure Accepted (config : PlatformConfig) (app : Project) (ns : String)
    (engine : DatabaseEngine) : Prop where
  platform : config.platform = .onpremise
  database : app.spec.database = some engine
  ns : app.ns = some ns
  valid : validateDatabaseForPlatform app.spec .onpremise = .ok ()

private theorem reconciled_eq (h : Accepted config app ns engine) (objects : Objects)
    (round : Round) : reconciled config app objects round =
    (buildOnpremPostgres app.name ns app.spec.databaseVersion
      (app.spec.databaseStorageGb.getD config.storageGb) round.draw).foldl
        (applyResource round.racer) objects := by
  unfold reconciled reconcileDatabase inferDatabaseResources
  rw [h.database, h.ns, h.platform]
  simp only [h.valid]
  rfl

/-- A reconcile rewrites `init.sql` with its own draw. -/
theorem configMap_reconciled (h : Accepted config app ns engine) (objects : Objects)
    (round : Round) :
    ∃ configMap, (reconciled config app objects round).configMap s!"{app.name}-db-init" =
      some configMap ∧ configMap.data.lookup "init.sql" =
        some (initSql (onpremDatabase app.name) (onpremUser app.name) round.draw) := by
  rw [reconciled_eq h]
  simp only [buildOnpremPostgres, List.foldl_cons, List.foldl_nil, applyResource]
  split <;> exact ⟨_, Function.update_self .., rfl⟩

/-- A reconcile keeps the Secret that is there; else the one that wins the race is there after it,
else one with its own draw. -/
theorem secret_reconciled (h : Accepted config app ns engine) (objects : Objects)
    (round : Round) :
    ∃ secret, (reconciled config app objects round).secret s!"{app.name}-db-credentials" =
      some secret ∧ secret.password = storedPassword app objects round ∧
        (objects.secret s!"{app.name}-db-credentials" = some secret ∨
          objects.secret s!"{app.name}-db-credentials" = none) := by
  rw [reconciled_eq h]
  simp only [buildOnpremPostgres, List.foldl_cons, List.foldl_nil, applyResource,
    buildDbCredentialsSecret, storedPassword]
  cases hsecret : objects.secret s!"{app.name}-db-credentials" with
  | some secret => exact ⟨secret, hsecret, rfl, Or.inl rfl⟩
  | none =>
    cases round.racer with
    | some racer => exact ⟨racer, Function.update_self .., rfl, Or.inr rfl⟩
    | none => exact ⟨_, Function.update_self .., rfl, Or.inr rfl⟩

/-- A second reconcile with the same draw changes nothing. -/
theorem reconciled_reconciled (h : Accepted config app ns engine) (objects : Objects)
    {first second : Round} (hdraw : second.draw = first.draw) :
    reconciled config app (reconciled config app objects first) second =
      reconciled config app objects first := by
  rw [reconciled_eq h (reconciled config app objects first), reconciled_eq h objects, hdraw]
  apply foldl_of_applied
  apply applied_foldl
  show [ObjectKind.statefulSet, .persistentVolumeClaim, .service, .configMap, .secret].Nodup
  decide

/-! ## Every reconcile -/

private theorem reconciles_concat (objects : Objects) (earlier : List Round) (round : Round) :
    reconciles config app objects (earlier ++ [round]) =
      reconciled config app (reconciles config app objects earlier) round := by
  rw [reconciles, List.foldl_append]
  rfl

/-- The Secret of the first reconcile stays. -/
theorem storedPassword_reconciles (h : Accepted config app ns engine) (objects : Objects)
    (first : Round) (later : List Round) :
    ∃ secret, (reconciles config app objects (first :: later)).secret
      s!"{app.name}-db-credentials" = some secret ∧
        secret.password = storedPassword app objects first := by
  induction later using List.reverseRecOn with
  | nil =>
    obtain ⟨secret, hsecret, hpassword, -⟩ := secret_reconciled h objects first
    exact ⟨secret, hsecret, hpassword⟩
  | append_singleton later round ih =>
    obtain ⟨secret, hsecret, hpassword⟩ := ih
    rw [← List.cons_append, reconciles_concat]
    obtain ⟨after, hafter, -, hkept | habsent⟩ :=
      secret_reconciled h (reconciles config app objects (first :: later)) round
    · obtain rfl := Option.some.inj (hsecret.symm.trans hkept)
      exact ⟨secret, hafter, hpassword⟩
    · rw [hsecret] at habsent
      cases habsent

/-- After a reconcile the passwords agree exactly when it drew the stored one. -/
private theorem passwordsAgree_iff (h : Accepted config app ns engine) (objects : Objects)
    {first round : Round} {earlier rest : List Round}
    (hfirst : earlier ++ [round] = first :: rest) :
    PasswordsAgree app (reconciles config app objects (earlier ++ [round])) ↔
      storedPassword app objects first = some round.draw := by
  obtain ⟨secret, hsecret, hpassword⟩ := storedPassword_reconciles h objects first rest
  obtain ⟨configMap, hconfigMap, hsql⟩ :=
    configMap_reconciled h (reconciles config app objects earlier) round
  rw [← hfirst] at hsecret
  rw [← reconciles_concat] at hconfigMap
  rw [← hpassword]
  constructor
  · rintro ⟨secret', configMap', password, hsecret', hpassword', hconfigMap', hsql'⟩
    obtain rfl := Option.some.inj (hsecret.symm.trans hsecret')
    obtain rfl := Option.some.inj (hconfigMap.symm.trans hconfigMap')
    rw [hpassword', initSql_injective (Option.some.inj (hsql.symm.trans hsql'))]
  · intro hdraw
    exact ⟨secret, configMap, round.draw, hsecret, hdraw, hconfigMap, hsql⟩

/-- Reconciles that all draw one password leave what the first one left. -/
private theorem reconciles_of_draw (h : Accepted config app ns engine) (objects : Objects)
    {first : Round} {later : List Round} (hdraw : ∀ round ∈ later, round.draw = first.draw) :
    reconciles config app objects (first :: later) = reconciled config app objects first := by
  induction later using List.reverseRecOn with
  | nil => rfl
  | append_singleton later round ih =>
    rw [← List.cons_append, reconciles_concat,
      ih fun r hr ↦ hdraw r (List.mem_append_left _ hr)]
    exact reconciled_reconciled h objects (hdraw round (by simp))

/-- The database is stable exactly when every reconcile draws the password that is stored. -/
theorem stable_iff_stored (h : Accepted config app ns engine) (objects : Objects)
    (first : Round) (later : List Round) :
    Stable config app objects (first :: later) ↔
      ∀ round ∈ first :: later, storedPassword app objects first = some round.draw := by
  constructor
  · intro hstable round hround
    obtain ⟨earlier, rest, hsplit⟩ := List.append_of_mem hround
    obtain ⟨rest', hfirst⟩ : ∃ rest', earlier ++ [round] = first :: rest' := by
      cases earlier with
      | nil =>
        obtain ⟨rfl, -⟩ := List.cons.inj hsplit
        exact ⟨[], rfl⟩
      | cons e earlier =>
        obtain ⟨rfl, -⟩ := List.cons.inj hsplit
        exact ⟨_, rfl⟩
    exact (passwordsAgree_iff h objects hfirst).mp (hstable _ _ _ hsplit).1
  · intro hdraw earlier round rest hsplit
    have hround : storedPassword app objects first = some round.draw := by
      apply hdraw
      rw [hsplit]
      simp
    cases earlier with
    | nil =>
      obtain ⟨rfl, -⟩ := List.cons.inj hsplit
      have hfirst : [] ++ [first] = first :: [] := rfl
      exact ⟨(passwordsAgree_iff h objects hfirst).mpr hround, fun hne ↦ absurd rfl hne⟩
    | cons e earlier =>
      obtain ⟨rfl, hlater⟩ := List.cons.inj hsplit
      refine ⟨(passwordsAgree_iff h objects rfl).mpr hround, fun _ ↦ ?_⟩
      have hsame : ∀ r ∈ first :: later, r.draw = first.draw := fun r hr ↦
        Option.some.inj ((hdraw r hr).symm.trans (hdraw first List.mem_cons_self))
      rw [reconciles_concat, reconciles_of_draw h objects fun r hr ↦ hsame r (by
        rw [hlater]
        exact List.mem_cons_of_mem _ (List.mem_append_left _ hr))]
      exact reconciled_reconciled h objects (hsame round (by rw [hlater]; simp))

/-- A first draw that nobody else has drawn is stored exactly when no Secret is there before it and
none wins the race. -/
theorem storedPassword_eq_draw_iff {objects : Objects} {first : Round} {later : List Round}
    (hfresh : FreshDraws app objects (first :: later)) :
    storedPassword app objects first = some first.draw ↔
      objects.secret s!"{app.name}-db-credentials" = none ∧ first.racer = none := by
  unfold storedPassword
  cases hsecret : objects.secret s!"{app.name}-db-credentials" with
  | some secret =>
    have hne := hfresh.stored secret hsecret first List.mem_cons_self
    simp only [hne, reduceCtorEq, false_and]
  | none =>
    cases hracer : first.racer with
    | some secret =>
      have hne := hfresh.raced first List.mem_cons_self secret hracer first List.mem_cons_self
      simp only [hne, reduceCtorEq, and_false]
    | none => simp only [and_self]

/-- With fresh draws the database of an on-premise Project is stable exactly when it is reconciled
once, no Secret is there before and no other party creates one meanwhile. -/
theorem database_stable_iff (h : Accepted config app ns engine) (objects : Objects)
    (first : Round) (later : List Round) (hfresh : FreshDraws app objects (first :: later)) :
    Stable config app objects (first :: later) ↔
      later = [] ∧ objects.secret s!"{app.name}-db-credentials" = none ∧ first.racer = none := by
  rw [stable_iff_stored h objects first later, ← storedPassword_eq_draw_iff hfresh]
  constructor
  · intro hdraw
    have hfirst := hdraw first List.mem_cons_self
    refine ⟨?_, hfirst⟩
    cases later with
    | nil => rfl
    | cons second rest =>
      -- the second draw would have to be the first one
      have hsecond := hdraw second (List.mem_cons_of_mem _ List.mem_cons_self)
      have hdraws := hfresh.draws
      rw [List.map_cons, List.map_cons, List.nodup_cons] at hdraws
      have hsame : first.draw = second.draw := Option.some.inj (hfirst.symm.trans hsecond)
      exact absurd (hsame ▸ List.mem_cons_self) hdraws.1
  · rintro ⟨rfl, hfirst⟩ round hround
    rwa [List.mem_singleton.mp hround]

end

/-! ## Two draws -/

/-- An on-premise Project with a database. -/
def shopWithDatabase : Project :=
  ⟨"shop", some "team", some 7, none, ⟨none, none, none, none⟩,
    { image := "registry.example/shop:1", database := some .postgresql }, none, none⟩

/-- A namespace without database objects. -/
def noObjects : Objects where
  statefulSet _ := none
  pvc _ := none
  service _ := none
  configMap _ := none
  secret _ := none
  dynamic _ _ := none

private theorem accepted_shop :
    Accepted .onpremDefaults shopWithDatabase "team" .postgresql := ⟨rfl, rfl, rfl, rfl⟩

private theorem freshDraws_shop {rounds : List Round} (hdraws : (rounds.map Round.draw).Nodup)
    (hracer : ∀ round ∈ rounds, round.racer = none) :
    FreshDraws shopWithDatabase noObjects rounds where
  draws := hdraws
  stored _ h := nomatch h
  raced other hother _ h := nomatch (hracer other hother).symm.trans h

/-- One reconcile of an empty namespace is stable, two are not. -/
theorem database_stable_iff_shop :
    Accepted .onpremDefaults shopWithDatabase "team" .postgresql ∧
      Stable .onpremDefaults shopWithDatabase noObjects [⟨"p1", none⟩] ∧
      ¬ Stable .onpremDefaults shopWithDatabase noObjects [⟨"p1", none⟩, ⟨"p2", none⟩] := by
  have hone := database_stable_iff accepted_shop noObjects ⟨"p1", none⟩ []
    (freshDraws_shop (by decide) (by decide))
  have htwo := database_stable_iff accepted_shop noObjects ⟨"p1", none⟩ [⟨"p2", none⟩]
    (freshDraws_shop (by decide) (by decide))
  exact ⟨accepted_shop, hone.mpr ⟨rfl, rfl, rfl⟩, fun h ↦ nomatch (htwo.mp h).1⟩

/-- Two reconciles with two draws leave an `init.sql` without the stored password. -/
theorem database_not_stable :
    ¬ ∀ (config : PlatformConfig) (app : Project) (ns : String) (engine : DatabaseEngine)
      (objects : Objects) (first : Round) (later : List Round),
      Accepted config app ns engine → FreshDraws app objects (first :: later) →
        Stable config app objects (first :: later) := by
  intro h
  have hstable := h .onpremDefaults shopWithDatabase "team" .postgresql noObjects ⟨"p1", none⟩
    [⟨"p2", none⟩] accepted_shop (freshDraws_shop (by decide) (by decide))
  have hagree := (hstable [⟨"p1", none⟩] ⟨"p2", none⟩ [] rfl).1
  exact absurd ((passwordsAgree_iff accepted_shop noObjects rfl).mp hagree) (by decide)

end ReinhardtCloud.Operator.Database
