import Mathlib.Data.List.Nodup
import ReinhardtCloud.Cli.TerraformDocuments

/-!
# Which infrastructures Terraform accepts

Library `Cli`. What a generated document is to declare, and when it does: a module's label is made
of the kind and the name of its resource, and a name may be declared more than once.
-/

namespace ReinhardtCloud.Cli

open ReinhardtCloud.Base

/-! ## What a document is to declare -/

/-- The values that a resource's module is to have: its source and name prefix and what is declared.
The version of a Cloud SQL database goes by its name there. -/
def Resource.declared (app namePrefix : String) (provider : Provider) (resource : Resource) :
    List (String × HclValue) :=
  [("source", .string (resource.source provider)),
    ("name_prefix", .string (namePrefix ++ "-" ++ app))] ++
  match provider, resource with
  | .gcp, .postgres spec =>
    (spec.tier.map fun tier ↦ ("tier", .string tier)).toList ++
      (spec.version.map fun version ↦
        ("database_version", .string (cloudSqlVersion version))).toList ++
      (spec.backupRetentionDays.map fun days ↦
        ("backup_retention_days", .number days.toNat)).toList
  | .aws, .postgres spec =>
    (spec.tier.map fun tier ↦ ("instance_class", .string tier)).toList ++
      (spec.version.map fun version ↦ ("engine_version", .string version)).toList ++
      (spec.backupRetentionDays.map fun days ↦
        ("backup_retention_days", .number days.toNat)).toList
  | _, .bucket spec => [("bucket_name", .string spec.name), ("public", .bool spec.isPublic)]
  | _, .dns spec => [("host", .string spec.host), ("record_type", .string spec.recordType)]
  | _, .secret spec =>
    ("secret_name", .string spec.name) ::
      (spec.description.map fun description ↦ ("description", .string description)).toList

/-- The blocks of a kind. -/
def blocksOf (kind : String) (blocks : List HclBlock) : List HclBlock :=
  blocks.filter fun block ↦ block.kind = kind

/-- Labels are not used twice, and for each resource there is one module with its values. -/
structure Declares (app : String) (provider : Provider) (infra : InfrastructureSpec)
    (blocks : List HclBlock) : Prop where
  moduleLabels : ((blocksOf "module" blocks).map HclBlock.label).Nodup
  variableLabels : ((blocksOf "variable" blocks).map HclBlock.label).Nodup
  resources : List.Forall₂ (fun resource block ↦ ∀ vars namePrefix,
    vars "name_prefix" = some (.string namePrefix) →
      ∀ entry ∈ Resource.declared app namePrefix provider resource,
        (block.attributes.lookup entry.1).bind (HclExpr.evaluate vars) = some entry.2)
    infra.resources (blocksOf "module" blocks)

/-- The rendered document is HCL and declares the infrastructure. -/
def RendersExactly (app : String) (provider : Provider) (infra : InfrastructureSpec) : Prop :=
  ∃ blocks, readHcl (renderHcl app provider infra) = some blocks ∧
    Declares app provider infra blocks

/-- No bucket, host or secret is declared twice. -/
structure DistinctResources (infra : InfrastructureSpec) : Prop where
  buckets : ((infra.buckets.getD []).map BucketSpec.name).Nodup
  dns : ((infra.dns.getD []).map DnsRecordSpec.host).Nodup
  secrets : ((infra.secrets.getD []).map SecretSpec.name).Nodup

/-! ## Values -/

variable {app namePrefix : String} {vars : String → Option HclValue}

theorem evaluate_namePrefix (hvars : vars "name_prefix" = some (.string namePrefix)) :
    (namePrefixExpr app).evaluate vars = some (.string (namePrefix ++ "-" ++ app)) := by
  have hfirst : TemplatePart.evaluate vars (.interpolation ["var", "name_prefix"]) =
      some namePrefix.toList := by
    rw [TemplatePart.evaluate, hvars]
  have hparts : (TemplatePart.interpolation ["var", "name_prefix"] :: .literal '-' ::
      app.toList.map .literal).mapM (TemplatePart.evaluate vars) =
        some (namePrefix.toList :: ['-'] :: app.toList.map fun c ↦ [c]) := by
    rw [List.mapM_cons, List.mapM_cons, hfirst, mapM_evaluate_literal]
    rfl
  rw [namePrefixExpr, HclExpr.evaluate, hparts, Option.map_some, List.flatten_cons,
    List.flatten_cons, ← List.flatMap_def, List.flatMap_singleton', String.ofList_append,
    String.ofList_append, String.ofList_toList, String.ofList_toList, String.append_assoc]

theorem evaluate_declared (hvars : vars "name_prefix" = some (.string namePrefix))
    (provider : Provider) (resource : Resource) :
    ∀ entry ∈ resource.declared app namePrefix provider,
      ((resource.module app provider).attributes.lookup entry.1).bind (HclExpr.evaluate vars) =
        some entry.2 := by
  intro entry hentry
  rcases List.mem_append.mp hentry with hentry | hentry
  · simp only [List.mem_cons, List.not_mem_nil, or_false] at hentry
    rcases hentry with rfl | rfl
    · exact evaluate_text vars _
    · exact evaluate_namePrefix hvars
  · cases resource with
    | postgres spec =>
      cases provider <;>
        (simp only [List.mem_append, Option.mem_toList, Option.map_eq_some_iff] at hentry
         rcases hentry with (⟨tier, htier, rfl⟩ | ⟨version, hversion, rfl⟩) | ⟨days, hdays, rfl⟩
         · simp [Resource.module, Resource.attributes, List.lookup_cons, htier, evaluate_text]
         · simp [Resource.module, Resource.attributes, List.lookup_cons, hversion, evaluate_text]
         · simp [Resource.module, Resource.attributes, List.lookup_cons, hdays, HclExpr.evaluate])
    | bucket spec =>
      have hpublic : HclExpr.evaluate vars (.path [if spec.isPublic then "true" else "false"]) =
          some (.bool spec.isPublic) := by
        cases spec.isPublic <;> rfl
      cases provider <;>
        (simp only [List.mem_cons, List.not_mem_nil, or_false] at hentry
         rcases hentry with rfl | rfl
         · exact evaluate_text vars spec.name
         · exact hpublic)
    | dns spec =>
      cases provider <;>
        (simp only [List.mem_cons, List.not_mem_nil, or_false] at hentry
         rcases hentry with rfl | rfl
         · exact evaluate_text vars spec.host
         · exact evaluate_text vars spec.recordType)
    | secret spec =>
      cases provider <;>
        (simp only [List.mem_cons, Option.mem_toList, Option.map_eq_some_iff] at hentry
         rcases hentry with rfl | ⟨description, hdescription, rfl⟩
         · exact evaluate_text vars spec.name
         · simp [Resource.module, Resource.attributes, List.lookup_cons, hdescription,
             evaluate_text])

/-! ## The modules and variables of a document -/

/-- The variables that a resource needs for itself. -/
def Resource.ownVariables (app : String) (provider : Provider) (resource : Resource) :
    List HclBlock := (resource.blocks app provider).tail

theorem blocksOf_append (kind : String) (l m : List HclBlock) :
    blocksOf kind (l ++ m) = blocksOf kind l ++ blocksOf kind m := List.filter_append l m

theorem blocksOf_resource (app : String) (provider : Provider) (resource : Resource) :
    blocksOf "module" (resource.blocks app provider) = [resource.module app provider] ∧
      blocksOf "variable" (resource.blocks app provider) = resource.ownVariables app provider := by
  cases provider <;> cases resource <;> exact ⟨rfl, rfl⟩

theorem blocksOf_sharedVariables (provider : Provider) :
    blocksOf "module" (sharedVariables provider) = [] ∧
      blocksOf "variable" (sharedVariables provider) = sharedVariables provider := by
  cases provider <;> exact ⟨rfl, rfl⟩

/-- One module for each resource, in their order. -/
theorem blocksOf_module (app : String) (provider : Provider) (resources : List Resource) :
    blocksOf "module" (sharedVariables provider ++ resources.flatMap
      (Resource.blocks app provider)) =
      resources.map (Resource.module app provider) := by
  rw [blocksOf_append, (blocksOf_sharedVariables provider).1, List.nil_append]
  induction resources with
  | nil => rfl
  | cons resource rest ih =>
    rw [List.flatMap_cons, blocksOf_append, (blocksOf_resource app provider resource).1, ih,
      List.map_cons, List.singleton_append]

theorem blocksOf_variable (app : String) (provider : Provider) (resources : List Resource) :
    blocksOf "variable"
        (sharedVariables provider ++ resources.flatMap (Resource.blocks app provider)) =
      sharedVariables provider ++ resources.flatMap (Resource.ownVariables app provider) := by
  rw [blocksOf_append, (blocksOf_sharedVariables provider).2]
  congr 1
  induction resources with
  | nil => rfl
  | cons resource rest ih =>
    rw [List.flatMap_cons, blocksOf_append, (blocksOf_resource app provider resource).2, ih,
      List.flatMap_cons]

/-- The variables never share a label: there is one password at most, under a longer name than
the others. -/
theorem nodup_variableLabels (app : String) (provider : Provider) (infra : InfrastructureSpec) :
    ((sharedVariables provider ++
      infra.resources.flatMap (Resource.ownVariables app provider)).map HclBlock.label).Nodup := by
  have hshared : ((sharedVariables provider).map HclBlock.label).Nodup := by
    cases provider
    · exact (by decide : ["project_id", "region", "network_id", "name_prefix"].Nodup)
    · exact (by decide : ["vpc_id", "subnet_ids", "name_prefix"].Nodup)
  have hown : infra.resources.flatMap (Resource.ownVariables app provider) =
      ((infra.postgres.map Resource.postgres).toList).flatMap
        (Resource.ownVariables app provider) := by
    have hnil {α : Type} (f : α → Resource) (l : List α)
        (h : ∀ a, (f a).ownVariables app provider = []) :
        (l.map f).flatMap (Resource.ownVariables app provider) = [] := by
      rw [List.flatMap_eq_nil_iff]
      intro resource hresource
      obtain ⟨a, -, rfl⟩ := List.mem_map.mp hresource
      exact h a
    rw [InfrastructureSpec.resources, List.flatMap_append, List.flatMap_append,
      List.flatMap_append, hnil .bucket _ fun _ ↦ by cases provider <;> rfl,
      hnil .dns _ fun _ ↦ by cases provider <;> rfl,
      hnil .secret _ fun _ ↦ by cases provider <;> rfl, List.append_nil, List.append_nil,
      List.append_nil]
  rw [hown]
  cases hpostgres : infra.postgres with
  | none =>
    rw [Option.map_none, Option.toList_none, List.flatMap_nil, List.append_nil]
    exact hshared
  | some pg =>
    rw [Option.map_some, Option.toList_some, List.flatMap_singleton]
    cases provider with
    | gcp => exact hshared
    | aws =>
      have hnew : app ++ "_db_password" ∉ (sharedVariables .aws).map HclBlock.label := by
        intro hmem
        have hlength : ∀ label ∈ ["vpc_id", "subnet_ids", "name_prefix"], label.length ≤ 11 := by
          decide
        have hle := hlength _ hmem
        rw [String.length_append] at hle
        have htwelve : "_db_password".length = 12 := rfl
        omega
      rw [List.map_append, List.nodup_append]
      refine ⟨hshared, List.nodup_singleton _, ?_⟩
      intro label hlabel other hother
      rw [List.mem_singleton.mp hother]
      rintro rfl
      exact hnew hlabel

/-! ## Labels -/

theorem nodup_moduleLabels_iff (app : String) (provider : Provider) (resources : List Resource) :
    ((resources.map (Resource.module app provider)).map HclBlock.label).Nodup ↔
      (resources.map (Resource.label provider)).Nodup := by
  have hlabels : (resources.map (Resource.module app provider)).map HclBlock.label =
      (resources.map (Resource.label provider)).map (app ++ "_" ++ ·) := by
    rw [List.map_map, List.map_map]
    exact List.map_congr_left fun _ _ ↦ rfl
  rw [hlabels, List.nodup_map_iff]
  intro label label' h
  exact (String.append_right_inj _).mp h

/-- The labels of different kinds begin with different letters. -/
def Resource.initial (provider : Provider) : Resource → Char
  | .postgres _ =>
    match provider with
    | .gcp => 'p'
    | .aws => 'r'
  | .bucket _ => 'b'
  | .dns _ => 'd'
  | .secret _ => 's'

theorem head?_label (provider : Provider) (resource : Resource) :
    (resource.label provider).toList.head? = some (resource.initial provider) := by
  cases resource with
  | postgres spec =>
    cases provider
    · exact (by decide : "postgres".toList.head? = some 'p')
    · exact (by decide : "rds".toList.head? = some 'r')
  | bucket spec =>
    rw [Resource.label, String.toList_append]
    rfl
  | dns spec =>
    rw [Resource.label, String.toList_append]
    rfl
  | secret spec =>
    rw [Resource.label, String.toList_append]
    rfl

theorem label_ne_of_initial_ne {provider : Provider} {resource other : Resource}
    (h : resource.initial provider ≠ other.initial provider) :
    resource.label provider ≠ other.label provider := by
  intro hlabel
  have hhead := head?_label provider resource
  rw [hlabel, head?_label] at hhead
  exact h (Option.some.inj hhead).symm

/-- Underscores for dots tell hosts apart that have no underscores. -/
theorem dotsToUnderscores_injOn {host other : String} (hhost : '_' ∉ host.toList)
    (hother : '_' ∉ other.toList) (h : dotsToUnderscores host = dotsToUnderscores other) :
    host = other := by
  have hmap (l m : List Char) (hl : '_' ∉ l) (hm : '_' ∉ m)
      (hlm : l.map (fun c ↦ if c = '.' then '_' else c) =
        m.map fun c ↦ if c = '.' then '_' else c) : l = m := by
    induction l generalizing m with
    | nil =>
      cases m with
      | nil => rfl
      | cons d m => cases hlm
    | cons c l ih =>
      cases m with
      | nil => cases hlm
      | cons d m =>
        obtain ⟨hc, hrest⟩ := List.cons.inj hlm
        rw [List.mem_cons, not_or] at hl hm
        obtain ⟨hcne, hl⟩ := hl
        obtain ⟨hdne, hm⟩ := hm
        rw [ih m hl hm hrest]
        congr 1
        dsimp only at hc
        split at hc
        · next hcdot =>
          split at hc
          · next hddot => rw [hcdot, hddot]
          · exact absurd hc hdne
        · split at hc
          · exact absurd hc.symm hcne
          · exact hc
  exact String.toList_inj.mp (hmap _ _ hhost hother (String.ofList_injective h))

theorem not_mem_of_isSafeDnsHost {host : String} (h : isSafeDnsHost host = true) :
    '_' ∉ host.toList := by
  intro hmem
  rw [isSafeDnsHost, isSafeText, Bool.and_eq_true, List.all_eq_true] at h
  exact absurd (h.2 _ hmem) (by decide)

/-- Within a kind the labels differ as the names do, for hosts without underscores. -/
theorem nodup_labels_iff (provider : Provider) {infra : InfrastructureSpec}
    (hhosts : ∀ record ∈ infra.dns.getD [], '_' ∉ record.host.toList) :
    (infra.resources.map (Resource.label provider)).Nodup ↔ DistinctResources infra := by
  have hmap {α : Type} (l : List α) (make : α → Resource) (start : String) (name : α → String)
      (hlabel : ∀ a, (make a).label provider = start ++ name a) :
      ((l.map make).map (Resource.label provider)).Nodup ↔ (l.map name).Nodup := by
    have hnames : (l.map make).map (Resource.label provider) = (l.map name).map (start ++ ·) := by
      rw [List.map_map, List.map_map]
      exact List.map_congr_left fun a _ ↦ hlabel a
    rw [hnames, List.nodup_map_iff]
    intro n n' h
    exact (String.append_right_inj _).mp h
  have hdns : ((infra.dns.getD []).map fun record ↦ dotsToUnderscores record.host).Nodup ↔
      ((infra.dns.getD []).map DnsRecordSpec.host).Nodup := by
    have hcompose : ((infra.dns.getD []).map fun record ↦ dotsToUnderscores record.host) =
        ((infra.dns.getD []).map DnsRecordSpec.host).map dotsToUnderscores := by
      rw [List.map_map]
      exact List.map_congr_left fun _ _ ↦ rfl
    rw [hcompose]
    refine ⟨List.Nodup.of_map _, fun h ↦ List.Nodup.map_on ?_ h⟩
    intro host hhost other hother hsame
    obtain ⟨record, hrecord, rfl⟩ := List.mem_map.mp hhost
    obtain ⟨record', hrecord', rfl⟩ := List.mem_map.mp hother
    exact dotsToUnderscores_injOn (hhosts record hrecord) (hhosts record' hrecord') hsame
  -- Labels of different kinds never meet.
  have hapart {l m : List Resource}
      (h : ∀ r ∈ l, ∀ r' ∈ m, r.initial provider ≠ r'.initial provider) :
      ∀ a ∈ l.map (Resource.label provider), ∀ b ∈ m.map (Resource.label provider), a ≠ b := by
    intro a ha b hb
    obtain ⟨r, hr, rfl⟩ := List.mem_map.mp ha
    obtain ⟨r', hr', rfl⟩ := List.mem_map.mp hb
    exact label_ne_of_initial_ne (h r hr r' hr')
  rw [InfrastructureSpec.resources, List.map_append, List.map_append, List.map_append,
    List.nodup_append, List.nodup_append, List.nodup_append,
    hmap _ .bucket "bucket_" _ fun _ ↦ rfl, hmap _ .dns "dns_" _ fun _ ↦ rfl, hdns,
    hmap _ .secret "secret_" _ fun _ ↦ rfl]
  constructor
  · rintro ⟨⟨⟨-, hbuckets, -⟩, hhosts, -⟩, hsecrets, -⟩
    exact ⟨hbuckets, hhosts, hsecrets⟩
  · rintro ⟨hbuckets, hhosts, hsecrets⟩
    have hpostgres : ((infra.postgres.map Resource.postgres).toList.map
        (Resource.label provider)).Nodup := by
      cases infra.postgres with
      | none => exact .nil
      | some pg => exact List.nodup_singleton _
    have hpg : ∀ r ∈ (infra.postgres.map Resource.postgres).toList, ∃ spec, r = .postgres spec := by
      intro r hr
      obtain ⟨spec, -, rfl⟩ := Option.map_eq_some_iff.mp (Option.mem_toList.mp hr)
      exact ⟨spec, rfl⟩
    have hof {α : Type} {make : α → Resource} {l : List α} : ∀ r ∈ l.map make, ∃ a, r = make a := by
      intro r hr
      obtain ⟨a, -, rfl⟩ := List.mem_map.mp hr
      exact ⟨a, rfl⟩
    refine ⟨⟨⟨hpostgres, hbuckets, hapart ?_⟩, hhosts, ?_⟩, hsecrets, ?_⟩
    · intro r hr r' hr'
      obtain ⟨spec, rfl⟩ := hpg r hr
      obtain ⟨bucket, rfl⟩ := hof r' hr'
      cases provider
      · exact (by decide : 'p' ≠ 'b')
      · exact (by decide : 'r' ≠ 'b')
    · rw [← List.map_append]
      apply hapart
      intro r hr r' hr'
      obtain ⟨record, rfl⟩ := hof r' hr'
      rcases List.mem_append.mp hr with hr | hr
      · obtain ⟨spec, rfl⟩ := hpg r hr
        cases provider
        · exact (by decide : 'p' ≠ 'd')
        · exact (by decide : 'r' ≠ 'd')
      · obtain ⟨bucket, rfl⟩ := hof r hr
        exact (by decide : 'b' ≠ 'd')
    · rw [← List.map_append, ← List.map_append]
      apply hapart
      intro r hr r' hr'
      obtain ⟨secret, rfl⟩ := hof r' hr'
      rcases List.mem_append.mp hr with hr | hr
      · rcases List.mem_append.mp hr with hr | hr
        · obtain ⟨spec, rfl⟩ := hpg r hr
          cases provider
          · exact (by decide : 'p' ≠ 's')
          · exact (by decide : 'r' ≠ 's')
        · obtain ⟨bucket, rfl⟩ := hof r hr
          exact (by decide : 'b' ≠ 's')
      · obtain ⟨record, rfl⟩ := hof r hr
        exact (by decide : 'd' ≠ 's')

/-! ## Exactness -/

/-- For an app name and an infrastructure that are accepted, the rendered document is HCL that
declares the infrastructure exactly when no bucket, host or secret is declared twice. -/
theorem renderHcl_exact_iff (happ : isSafeTerraformIdentifier app = true) (provider : Provider)
    {infra : InfrastructureSpec} (hvalid : infra.validate = .ok ()) :
    RendersExactly app provider infra ↔ DistinctResources infra := by
  have hread := readHcl_renderHcl happ provider hvalid
  have hhosts : ∀ record ∈ infra.dns.getD [], '_' ∉ record.host.toList := by
    intro record hrecord
    have hmem : Resource.dns record ∈ infra.resources :=
      List.mem_append_left _ (List.mem_append_right _ (List.mem_map_of_mem hrecord))
    have herrors : record.errors = [] := resource_errors hvalid _ hmem
    rw [DnsRecordSpec.errors, List.append_eq_nil_iff, messageUnless_eq_nil_iff] at herrors
    exact not_mem_of_isSafeDnsHost herrors.1
  rw [← nodup_labels_iff provider hhosts, ← nodup_moduleLabels_iff app provider]
  constructor
  · rintro ⟨blocks, hblocks, hdeclares⟩
    rw [hread] at hblocks
    obtain rfl := Option.some.inj hblocks
    have hlabels := hdeclares.moduleLabels
    rw [blocksOf_module] at hlabels
    exact hlabels
  · intro hlabels
    refine ⟨_, hread, ?_, ?_, ?_⟩
    · rw [blocksOf_module]
      exact hlabels
    · rw [blocksOf_variable]
      exact nodup_variableLabels app provider infra
    · rw [blocksOf_module, List.forall₂_map_right_iff, List.forall₂_same]
      intro resource _ vars namePrefix hvars
      exact evaluate_declared hvars provider resource

/-- An infrastructure with one resource of each kind. -/
def shopInfrastructure : InfrastructureSpec where
  postgres := some ⟨some "db-g1-small", some "16", some 14⟩
  buckets := some [⟨"uploads", false⟩]
  dns := some [⟨"shop.example.com", "A"⟩, ⟨"api.shop.example.com", "CNAME"⟩]
  secrets := some [⟨"stripe-key", some "Key of the payment provider."⟩]

/-- Its documents declare it. -/
theorem renderHcl_exact_shop :
    RendersExactly "shop" .gcp shopInfrastructure ∧
      RendersExactly "shop" .aws shopInfrastructure := by
  have hdistinct : DistinctResources shopInfrastructure := ⟨by decide, by decide, by decide⟩
  exact ⟨(renderHcl_exact_iff (by decide) .gcp rfl).mpr hdistinct,
    (renderHcl_exact_iff (by decide) .aws rfl).mpr hdistinct⟩

/-- Two records of one host are accepted, and their modules have one label. -/
theorem renderHcl_not_exact :
    ¬ ∀ app provider infra, isSafeTerraformIdentifier app = true →
      InfrastructureSpec.validate infra = .ok () → RendersExactly app provider infra := by
  intro h
  let infra : InfrastructureSpec :=
    { dns := some [⟨"shop.example.com", "A"⟩, ⟨"shop.example.com", "TXT"⟩] }
  have happ : isSafeTerraformIdentifier "shop" = true := by decide
  have hvalid : infra.validate = .ok () := rfl
  obtain ⟨blocks, hblocks, hdeclares⟩ := h "shop" .gcp infra happ hvalid
  rw [readHcl_renderHcl happ .gcp hvalid] at hblocks
  obtain rfl := Option.some.inj hblocks
  have hlabels := hdeclares.moduleLabels
  rw [blocksOf_module, nodup_moduleLabels_iff] at hlabels
  exact absurd hlabels (by decide)

end ReinhardtCloud.Cli
