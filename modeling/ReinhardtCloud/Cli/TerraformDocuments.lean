import ReinhardtCloud.Cli.Terraform

/-!
# What generated Terraform declares

Library `Cli`. The documents of `render_hcl` are read back block by block; a module stands for each
declared resource, with its declared values. Which resources can be declared beside each other is
left to the labels, which come from the names of the resources.
-/

namespace ReinhardtCloud.Cli

open ReinhardtCloud.Base

/-! ## The blocks of a document -/

/-- The label of a resource's module behind the app's name. -/
def Resource.label (provider : Provider) : Resource → String
  | .postgres _ =>
    match provider with
    | .gcp => "postgres"
    | .aws => "rds"
  | .bucket spec => "bucket_" ++ spec.name
  | .dns spec => "dns_" ++ dotsToUnderscores spec.host
  | .secret spec => "secret_" ++ spec.name

/-- The module that a resource is made with. -/
def Resource.source (provider : Provider) (resource : Resource) : String :=
  match provider, resource with
  | .gcp, .postgres _ => "../../modules/gcp/per-app/cloudsql"
  | .gcp, .bucket _ => "../../modules/gcp/per-app/gcs"
  | .gcp, .dns _ => "../../modules/gcp/per-app/dns"
  | .gcp, .secret _ => "../../modules/gcp/per-app/secrets"
  | .aws, .postgres _ => "../../modules/aws/per-app/rds"
  | .aws, .bucket _ => "../../modules/aws/per-app/s3"
  | .aws, .dns _ => "../../modules/aws/per-app/route53"
  | .aws, .secret _ => "../../modules/aws/per-app/secretsmanager"

/-- A variable. -/
def variable_ (name : String) : HclExpr := .path ["var", name]

/-- The attributes of a resource's module behind its source and name prefix. -/
def Resource.attributes (app : String) (provider : Provider) (resource : Resource) :
    List (String × HclExpr) :=
  (match provider, resource with
  | .gcp, .postgres _ => [("project_id", variable_ "project_id"), ("region", variable_ "region"),
      ("network_id", variable_ "network_id")]
  | .gcp, _ => [("project_id", variable_ "project_id")]
  | .aws, .postgres _ => [("vpc_id", variable_ "vpc_id"), ("subnet_ids", variable_ "subnet_ids")]
  | .aws, _ => []) ++
  match provider, resource with
  | .gcp, .postgres spec => [("tier", .text (spec.tier.getD "db-f1-micro")),
      ("database_version", .text ((spec.version.map cloudSqlVersion).getD "POSTGRES_16")),
      ("backup_retention_days", .number (spec.backupRetentionDays.getD 7).toNat)]
  | .aws, .postgres spec => [("instance_class", .text (spec.tier.getD "db.t3.micro")),
      ("engine_version", .text (spec.version.getD "16.3")),
      ("backup_retention_days", .number (spec.backupRetentionDays.getD 7).toNat),
      ("db_password", variable_ (app ++ "_db_password"))]
  | _, .bucket spec => [("bucket_name", .text spec.name),
      ("public", .path [if spec.isPublic then "true" else "false"])]
  | _, .dns spec => [("host", .text spec.host), ("record_type", .text spec.recordType)]
  | _, .secret spec => [("secret_name", .text spec.name),
      ("description", .text (spec.description.getD "Application secret"))]

/-- The name prefix of all modules of an app. -/
def namePrefixExpr (app : String) : HclExpr :=
  .template (.interpolation ["var", "name_prefix"] :: .literal '-' :: app.toList.map .literal)

/-- The module block of a resource. -/
def Resource.module (app : String) (provider : Provider) (resource : Resource) : HclBlock where
  kind := "module"
  label := app ++ "_" ++ resource.label provider
  attributes := ("source", .text (resource.source provider)) ::
    ("name_prefix", namePrefixExpr app) :: resource.attributes app provider

/-- The variable of the RDS password. -/
def passwordVariable (app : String) : HclBlock where
  kind := "variable"
  label := app ++ "_db_password"
  attributes := [("description", .text ("Master password for the " ++ app ++ " RDS instance.")),
    ("type", .path ["string"]), ("sensitive", .path ["true"])]

/-- The blocks of a resource. -/
def Resource.blocks (app : String) (provider : Provider) (resource : Resource) : List HclBlock :=
  resource.module app provider ::
    match provider, resource with
    | .aws, .postgres _ => [passwordVariable app]
    | _, _ => []

/-- The variables of the first block. -/
def sharedVariables : Provider → List HclBlock
  | .gcp =>
    [⟨"variable", "project_id", [("description", .text "GCP project ID."),
        ("type", .path ["string"])]⟩,
      ⟨"variable", "region", [("description", .text "GCP region."), ("type", .path ["string"]),
        ("default", .text "us-central1")]⟩,
      ⟨"variable", "network_id",
        [("description", .text "Self-link of the VPC network (from bootstrap outputs)."),
          ("type", .path ["string"])]⟩,
      ⟨"variable", "name_prefix",
        [("description", .text "Bootstrap name prefix (e.g., reinhardt-prod)."),
          ("type", .path ["string"])]⟩]
  | .aws =>
    [⟨"variable", "vpc_id", [("description", .text "VPC ID (from bootstrap outputs)."),
        ("type", .path ["string"])]⟩,
      ⟨"variable", "subnet_ids",
        [("description", .text "Private subnet IDs (from bootstrap outputs)."),
          ("type", .call ["list"] ["string"])]⟩,
      ⟨"variable", "name_prefix",
        [("description", .text "Bootstrap name prefix (e.g., reinhardt-prod)."),
          ("type", .path ["string"])]⟩]

/-! ## Safe texts -/

theorem plain_of_isAlphanum {c : Char} (h : c.isAlphanum = true) : isHclPlain c = true := by
  simp only [isHclPlain, Bool.and_eq_true, decide_eq_true_eq]
  refine ⟨⟨⟨?_, ?_⟩, ?_⟩, ?_⟩ <;> rintro rfl <;> cases h

theorem plain_of_isSafeText {others : List Char} (hothers : others.all isHclPlain = true)
    {value : String} (h : isSafeText others value = true) :
    ∀ c ∈ value.toList, isHclPlain c = true := by
  intro c hc
  rw [isSafeText, Bool.and_eq_true, List.all_eq_true] at h
  rcases Bool.or_eq_true_iff.mp (h.2 c hc) with halnum | hother
  · exact plain_of_isAlphanum halnum
  · exact List.all_eq_true.mp hothers c (List.contains_iff_mem.mp hother)

theorem plain_of_isSafeHclString {value : String} (h : isSafeHclString value = true) :
    ∀ c ∈ value.toList, isHclPlain c = true := by
  intro c hc
  rw [isSafeHclString, Bool.not_eq_true', List.any_eq_false] at h
  have hsafe := h c hc
  simp only [isHclPlain, Bool.and_eq_true, decide_eq_true_eq]
  refine ⟨⟨⟨?_, ?_⟩, ?_⟩, ?_⟩ <;> rintro rfl <;> exact hsafe (by decide)

/-- An app's name: the start of an identifier, and the rest of one. -/
theorem isHclIdentifier_of_isSafe {app : String} (h : isSafeTerraformIdentifier app = true) :
    app.toList.head?.any isHclIdStart = true ∧ ∀ c ∈ app.toList, (c.isAlphanum || c = '_') =
      true := by
  rw [isSafeTerraformIdentifier] at h
  cases happ : app.toList with
  | nil =>
    rw [happ] at h
    cases h
  | cons first rest =>
    rw [happ] at h
    dsimp only at h
    rw [Bool.and_eq_true, List.all_eq_true] at h
    refine ⟨h.1, ?_⟩
    intro c hc
    rcases List.mem_cons.mp hc with rfl | hc
    · rw [Char.isAlphanum, Bool.or_right_comm, h.1, Bool.true_or]
    · exact h.2 c hc

theorem plain_of_isSafeTerraformIdentifier {app : String}
    (h : isSafeTerraformIdentifier app = true) : ∀ c ∈ app.toList, isHclPlain c = true := by
  intro c hc
  rcases Bool.or_eq_true_iff.mp ((isHclIdentifier_of_isSafe h).2 c hc) with halnum | hunder
  · exact plain_of_isAlphanum halnum
  · rw [of_decide_eq_true hunder]
    decide

theorem plain_dotsToUnderscores {s : String} (h : ∀ c ∈ s.toList, isHclPlain c = true) :
    ∀ c ∈ (dotsToUnderscores s).toList, isHclPlain c = true := by
  intro c hc
  rw [dotsToUnderscores, String.toList_ofList] at hc
  obtain ⟨d, hd, rfl⟩ := List.mem_map.mp hc
  split
  · decide
  · exact h d hd

theorem plain_append {s t : String} (hs : ∀ c ∈ s.toList, isHclPlain c = true)
    (ht : ∀ c ∈ t.toList, isHclPlain c = true) :
    ∀ c ∈ (s ++ t).toList, isHclPlain c = true := by
  intro c hc
  rw [String.toList_append] at hc
  exact (List.mem_append.mp hc).elim (hs c) (ht c)

/-- A fixed text. -/
theorem plain_of_all {s : String} (h : s.toList.all isHclPlain = true) :
    ∀ c ∈ s.toList, isHclPlain c = true := List.all_eq_true.mp h

/-! ## Reading the blocks -/

variable {app : String}

theorem reads_namePrefix (happ : isSafeTerraformIdentifier app = true) :
    HclReadsLine ("  name_prefix = \"$\x7bvar.name_prefix\x7d-" ++ app ++ "\"")
      (.attribute "name_prefix" (namePrefixExpr app)) := by
  have hplain := plain_of_isSafeTerraformIdentifier happ
  have hline : ("  name_prefix = \"$\x7bvar.name_prefix\x7d-" ++ app ++ "\"").toList =
      "  name_prefix = \"$\x7bvar.name_prefix\x7d-".toList ++ (app.toList ++ ['"']) := by
    rw [String.toList_append, String.toList_append, List.append_assoc]
    rfl
  have hstart (rest : List Char) :
      readHclLine ("  name_prefix = \"$\x7bvar.name_prefix\x7d-".toList ++ rest) =
        ((((readTemplate 0 rest).map (Prod.map (.literal '-' :: ·) id)).map
          (Prod.map (.interpolation ["var", "name_prefix"] :: ·) id)).map
            (Prod.map HclExpr.template id)).bind fun read ↦
              if isHclSpaces read.2 then some (.attribute "name_prefix" read.1) else none := rfl
  constructor
  · rw [hline, List.mem_append, List.mem_append]
    rintro (hmem | hmem | hmem)
    · exact absurd hmem (by decide)
    · exact absurd (hplain _ hmem) (by decide)
    · exact absurd hmem (by decide)
  · rw [hline, hstart, readTemplate_plain hplain]
    rfl

/-- A module block with the attributes behind its source and name prefix. -/
theorem reads_renderModule (happ : isSafeTerraformIdentifier app = true) {label source : String}
    (hlabel : ∀ c ∈ label.toList, isHclPlain c = true)
    (hsource : ∀ c ∈ source.toList, isHclPlain c = true) {lines : List String}
    {attributes : List (String × HclExpr)}
    (hlines : List.Forall₂ (fun line entry ↦ HclReadsLine line (.attribute entry.1 entry.2)) lines
      attributes)
    (hnames : ("source" :: "name_prefix" :: attributes.map Prod.fst).Nodup) :
    HclReads (renderModule app label source lines)
      [⟨"module", app ++ "_" ++ label,
        ("source", .text source) :: ("name_prefix", namePrefixExpr app) :: attributes⟩] := by
  have happPlain := plain_of_isSafeTerraformIdentifier happ
  have hheader : HclReadsLine ("module \"" ++ (app ++ "_" ++ label) ++ "\" \x7b")
      (.opening "module" (app ++ "_" ++ label)) := by
    apply HclReadsLine.header (fun _ ↦ rfl) (by decide)
    exact plain_append (plain_append happPlain (plain_of_all (by decide))) hlabel
  have hfirst : HclReadsLine ("  source      = \"" ++ source ++ "\"")
      (.attribute "source" (.text source)) :=
    HclReadsLine.quoted (fun _ ↦ rfl) (by decide) hsource
  exact HclReads.block hheader (.cons hfirst (.cons (reads_namePrefix happ) hlines)) hnames

theorem reads_renderVariable {label : String} (hlabel : ∀ c ∈ label.toList, isHclPlain c = true)
    {lines : List String} {attributes : List (String × HclExpr)}
    (hlines : List.Forall₂ (fun line entry ↦ HclReadsLine line (.attribute entry.1 entry.2)) lines
      attributes)
    (hnames : (attributes.map Prod.fst).Nodup) :
    HclReads (renderVariable label lines) [⟨"variable", label, attributes⟩] := by
  have hheader : HclReadsLine ("variable \"" ++ label ++ "\" \x7b") (.opening "variable" label) :=
    HclReadsLine.header (fun _ ↦ rfl) (by decide) hlabel
  exact HclReads.block hheader hlines hnames

/-- The errors of a resource. -/
def Resource.errors : Resource → List String
  | .postgres spec => spec.errors
  | .bucket spec => spec.errors
  | .dns spec => spec.errors
  | .secret spec => spec.errors

/-- The texts of a valid resource stand for themselves in a template. -/
inductive Resource.Plain : Resource → Prop
  | postgres {spec : PostgresSpec}
      (tier : ∀ tier ∈ spec.tier, ∀ c ∈ tier.toList, isHclPlain c = true)
      (version : ∀ version ∈ spec.version, ∀ c ∈ version.toList, isHclPlain c = true) :
      Resource.Plain (.postgres spec)
  | bucket {spec : BucketSpec} (name : ∀ c ∈ spec.name.toList, isHclPlain c = true) :
      Resource.Plain (.bucket spec)
  | dns {spec : DnsRecordSpec} (host : ∀ c ∈ spec.host.toList, isHclPlain c = true)
      (recordType : ∀ c ∈ spec.recordType.toList, isHclPlain c = true) : Resource.Plain (.dns spec)
  | secret {spec : SecretSpec} (name : ∀ c ∈ spec.name.toList, isHclPlain c = true)
      (description : ∀ text ∈ spec.description, ∀ c ∈ text.toList, isHclPlain c = true) :
      Resource.Plain (.secret spec)

theorem Resource.plain_of_errors {resource : Resource} (h : resource.errors = []) :
    resource.Plain := by
  cases resource with
  | postgres spec =>
    simp only [errors, PostgresSpec.errors, List.append_eq_nil_iff, messageUnless_eq_nil_iff,
      Option.all_eq_true] at h
    obtain ⟨⟨htier, hversion⟩, -⟩ := h
    exact .postgres (fun tier ht ↦ plain_of_isSafeText (by decide) (htier tier ht))
      fun version hv ↦ plain_of_isSafeText (by decide) (hversion version hv)
  | bucket spec =>
    simp only [errors, BucketSpec.errors, messageUnless_eq_nil_iff] at h
    exact .bucket (plain_of_isSafeText (by decide) h)
  | dns spec =>
    simp only [errors, DnsRecordSpec.errors, List.append_eq_nil_iff, messageUnless_eq_nil_iff] at h
    obtain ⟨hhost, htype⟩ := h
    apply Resource.Plain.dns (plain_of_isSafeText (by decide) hhost)
    have htypes : ∀ type ∈ ["A", "CNAME", "TXT"], type.toList.all isHclPlain = true := by decide
    exact plain_of_all (htypes _ (List.contains_iff_mem.mp htype))
  | secret spec =>
    simp only [errors, SecretSpec.errors, List.append_eq_nil_iff, messageUnless_eq_nil_iff,
      Option.all_eq_true] at h
    obtain ⟨hname, hdescription⟩ := h
    exact .secret (plain_of_isSafeText (by decide) hname)
      fun text ht ↦ plain_of_isSafeHclString (hdescription text ht)

/-- A text or its default. -/
theorem plain_getD {text : Option String} (h : ∀ s ∈ text, ∀ c ∈ s.toList, isHclPlain c = true)
    {default : String} (hdefault : default.toList.all isHclPlain = true) :
    ∀ c ∈ (text.getD default).toList, isHclPlain c = true := by
  cases text with
  | none => exact plain_of_all hdefault
  | some s => exact h s rfl

/-- The attributes of a module have different names. -/
theorem Resource.nodup_attributes (app : String) (provider : Provider) (resource : Resource) :
    ("source" :: "name_prefix" :: (resource.attributes app provider).map Prod.fst).Nodup := by
  cases provider <;> cases resource <;> simp [attributes]

theorem readsLine_projectId : HclReadsLine "  project_id  = var.project_id"
    (.attribute "project_id" (variable_ "project_id")) := ⟨by decide, rfl⟩

theorem readsLine_public (isPublic : Bool) :
    HclReadsLine ("  public      = " ++ if isPublic then "true" else "false")
      (.attribute "public" (.path [if isPublic then "true" else "false"])) := by
  cases isPublic with
  | false => exact ⟨by decide, rfl⟩
  | true => exact ⟨by decide, rfl⟩

theorem readsLine_retention (n : Nat) :
    HclReadsLine ("  backup_retention_days = " ++ toString n)
      (.attribute "backup_retention_days" (.number n)) :=
  HclReadsLine.number (fun _ ↦ rfl) (by decide) n

theorem reads_renderGcpResource (happ : isSafeTerraformIdentifier app = true) {resource : Resource}
    (hresource : resource.Plain) :
    HclReads (renderGcpResource app resource) (resource.blocks app .gcp) := by
  have hproject := readsLine_projectId
  cases hresource with
  | @postgres spec htier hversion =>
    have hregion : HclReadsLine "  region      = var.region"
        (.attribute "region" (variable_ "region")) := ⟨by decide, rfl⟩
    have hnetwork : HclReadsLine "  network_id  = var.network_id"
        (.attribute "network_id" (variable_ "network_id")) := ⟨by decide, rfl⟩
    have hdatabase : ∀ version ∈ spec.version.map cloudSqlVersion, ∀ c ∈ version.toList,
        isHclPlain c = true := by
      intro version hv
      obtain ⟨declared, hdeclared, rfl⟩ := Option.map_eq_some_iff.mp hv
      exact plain_append (plain_of_all (by decide))
        (plain_dotsToUnderscores (hversion declared hdeclared))
    apply reads_renderModule happ (plain_of_all (by decide)) (plain_of_all (by decide)) _
      (Resource.nodup_attributes app .gcp (.postgres spec))
    exact .cons hproject <| .cons hregion <| .cons hnetwork <|
      .cons (HclReadsLine.quoted (fun _ ↦ rfl) (by decide) (plain_getD htier (by decide))) <|
      .cons (HclReadsLine.quoted (fun _ ↦ rfl) (by decide) (plain_getD hdatabase (by decide))) <|
      .cons (readsLine_retention _) .nil
  | @bucket spec hname =>
    apply reads_renderModule happ (plain_append (plain_of_all (by decide)) hname)
      (plain_of_all (by decide)) _
      (Resource.nodup_attributes app .gcp (.bucket spec))
    exact .cons hproject <| .cons (HclReadsLine.quoted (fun _ ↦ rfl) (by decide) hname) <|
      .cons (readsLine_public _) .nil
  | @dns spec hhost htype =>
    apply reads_renderModule happ
      (plain_append (plain_of_all (by decide)) (plain_dotsToUnderscores hhost))
      (plain_of_all (by decide)) _
      (Resource.nodup_attributes app .gcp (.dns spec))
    exact .cons hproject <| .cons (HclReadsLine.quoted (fun _ ↦ rfl) (by decide) hhost) <|
      .cons (HclReadsLine.quoted (fun _ ↦ rfl) (by decide) htype) .nil
  | @secret spec hname hdescription =>
    apply reads_renderModule happ (plain_append (plain_of_all (by decide)) hname)
      (plain_of_all (by decide)) _
      (Resource.nodup_attributes app .gcp (.secret spec))
    exact .cons hproject <| .cons (HclReadsLine.quoted (fun _ ↦ rfl) (by decide) hname) <|
      .cons (HclReadsLine.quoted (fun _ ↦ rfl) (by decide)
        (plain_getD hdescription (by decide))) .nil

/-- The name of the password's variable. -/
theorem isHclIdentifier_password (happ : isSafeTerraformIdentifier app = true) :
    (app ++ "_db_password").toList.head?.any isHclIdStart = true ∧
      (∀ c ∈ (app ++ "_db_password").toList, isHclIdContinue c = true) ∧
      ∀ c ∈ (app ++ "_db_password").toList, isHclPlain c = true := by
  obtain ⟨hstart, hchars⟩ := isHclIdentifier_of_isSafe happ
  refine ⟨?_, ?_, ?_⟩
  · obtain ⟨c, hc⟩ := Option.isSome_iff_exists.mp (Option.isSome_of_any hstart)
    rw [String.toList_append, List.head?_append, hc, Option.some_or, ← hc]
    exact hstart
  · intro c hc
    rw [String.toList_append] at hc
    rcases List.mem_append.mp hc with hc | hc
    · rw [isHclIdContinue, hchars c hc, Bool.true_or]
    · exact List.all_eq_true.mp (by decide : "_db_password".toList.all isHclIdContinue = true) c hc
  · exact plain_append (plain_of_isSafeTerraformIdentifier happ) (plain_of_all (by decide))

theorem readsLine_type : HclReadsLine "  type        = string"
    (.attribute "type" (.path ["string"])) := ⟨by decide, rfl⟩

theorem reads_passwordVariable (happ : isSafeTerraformIdentifier app = true) :
    HclReads (renderVariable (app ++ "_db_password")
      ["  description = \"" ++ ("Master password for the " ++ app ++ " RDS instance.") ++ "\"",
        "  type        = string",
        "  sensitive   = true"]) [passwordVariable app] := by
  have hsensitive : HclReadsLine "  sensitive   = true"
      (.attribute "sensitive" (.path ["true"])) := ⟨by decide, rfl⟩
  have hdescription := plain_append (plain_append
    (plain_of_all (by decide : "Master password for the ".toList.all isHclPlain = true))
      (plain_of_isSafeTerraformIdentifier happ))
    (plain_of_all (by decide : " RDS instance.".toList.all isHclPlain = true))
  have hnames : ((passwordVariable app).attributes.map Prod.fst).Nodup :=
    (by decide : ["description", "type", "sensitive"].Nodup)
  apply reads_renderVariable (isHclIdentifier_password happ).2.2 _ hnames
  exact .cons (HclReadsLine.quoted (fun _ ↦ rfl) (by decide) hdescription) <|
    .cons readsLine_type <| .cons hsensitive .nil

theorem reads_renderAwsResource (happ : isSafeTerraformIdentifier app = true) {resource : Resource}
    (hresource : resource.Plain) :
    HclReads (renderAwsResource app resource) (resource.blocks app .aws) := by
  cases hresource with
  | @postgres spec htier hversion =>
    have hvpc : HclReadsLine "  vpc_id      = var.vpc_id"
        (.attribute "vpc_id" (variable_ "vpc_id")) := ⟨by decide, rfl⟩
    have hsubnets : HclReadsLine "  subnet_ids  = var.subnet_ids"
        (.attribute "subnet_ids" (variable_ "subnet_ids")) := ⟨by decide, rfl⟩
    obtain ⟨hstart, hchars, -⟩ := isHclIdentifier_password happ
    have hpassword : HclReadsLine ("  db_password           = var." ++ (app ++ "_db_password"))
        (.attribute "db_password" (variable_ (app ++ "_db_password"))) :=
      HclReadsLine.var (fun _ ↦ rfl) (by decide) hstart hchars
    have hblank : HclReads [""] [] := .blank ⟨by decide, rfl⟩
    show HclReads (_ ++ [""] ++ _)
      ([Resource.module app .aws (.postgres spec)] ++ [] ++ [passwordVariable app])
    apply HclReads.append _ (reads_passwordVariable happ)
    apply HclReads.append _ hblank
    apply reads_renderModule happ (plain_of_all (by decide)) (plain_of_all (by decide)) _
      (Resource.nodup_attributes app .aws (.postgres spec))
    exact .cons hvpc <| .cons hsubnets <|
      .cons (HclReadsLine.quoted (fun _ ↦ rfl) (by decide) (plain_getD htier (by decide))) <|
      .cons (HclReadsLine.quoted (fun _ ↦ rfl) (by decide) (plain_getD hversion (by decide))) <|
      .cons (readsLine_retention _) <| .cons hpassword .nil
  | @bucket spec hname =>
    apply reads_renderModule happ (plain_append (plain_of_all (by decide)) hname)
      (plain_of_all (by decide)) _
      (Resource.nodup_attributes app .aws (.bucket spec))
    exact .cons (HclReadsLine.quoted (fun _ ↦ rfl) (by decide) hname) <|
      .cons (readsLine_public _) .nil
  | @dns spec hhost htype =>
    apply reads_renderModule happ
      (plain_append (plain_of_all (by decide)) (plain_dotsToUnderscores hhost))
      (plain_of_all (by decide)) _
      (Resource.nodup_attributes app .aws (.dns spec))
    exact .cons (HclReadsLine.quoted (fun _ ↦ rfl) (by decide) hhost) <|
      .cons (HclReadsLine.quoted (fun _ ↦ rfl) (by decide) htype) .nil
  | @secret spec hname hdescription =>
    apply reads_renderModule happ (plain_append (plain_of_all (by decide)) hname)
      (plain_of_all (by decide)) _
      (Resource.nodup_attributes app .aws (.secret spec))
    exact .cons (HclReadsLine.quoted (fun _ ↦ rfl) (by decide) hname) <|
      .cons (HclReadsLine.quoted (fun _ ↦ rfl) (by decide)
        (plain_getD hdescription (by decide))) .nil

/-- The comment with the app's name. -/
theorem readsLine_app (happ : isSafeTerraformIdentifier app = true) :
    HclReadsLine ("# App: " ++ app) .blank := by
  constructor
  · rw [String.toList_append, List.mem_append]
    rintro (hmem | hmem)
    · exact absurd hmem (by decide)
    · exact absurd (plain_of_isSafeTerraformIdentifier happ _ hmem) (by decide)
  · rw [String.toList_append]
    rfl

/-- A shared variable of a type. -/
theorem reads_sharedVariable {label description type : String} {value : HclExpr}
    (hlabel : label.toList.all isHclPlain = true)
    (hdescription : HclReadsLine description (.attribute "description" value))
    {typeValue : HclExpr} (htype : HclReadsLine type (.attribute "type" typeValue)) :
    HclReads (renderVariable label [description, type])
      [⟨"variable", label, [("description", value), ("type", typeValue)]⟩] := by
  have hnames : ["description", "type"].Nodup := by decide
  exact reads_renderVariable (plain_of_all hlabel) (.cons hdescription (.cons htype .nil)) hnames

theorem readsLine_bootstrap :
    HclReadsLine "  description = \"Bootstrap name prefix (e.g., reinhardt-prod).\""
      (.attribute "description" (.text "Bootstrap name prefix (e.g., reinhardt-prod).")) :=
  ⟨by decide, rfl⟩

theorem reads_renderGcpVariables (happ : isSafeTerraformIdentifier app = true) :
    HclReads (renderGcpVariables app) (sharedVariables .gcp) := by
  have hblank : HclReads [""] [] := .blank ⟨by decide, rfl⟩
  have hproject : HclReadsLine "  description = \"GCP project ID.\""
      (.attribute "description" (.text "GCP project ID.")) := ⟨by decide, rfl⟩
  have hregion : HclReadsLine "  description = \"GCP region.\""
      (.attribute "description" (.text "GCP region.")) := ⟨by decide, rfl⟩
  have hdefault : HclReadsLine "  default     = \"us-central1\""
      (.attribute "default" (.text "us-central1")) := ⟨by decide, rfl⟩
  have hnetwork :
      HclReadsLine "  description = \"Self-link of the VPC network (from bootstrap outputs).\""
        (.attribute "description"
          (.text "Self-link of the VPC network (from bootstrap outputs).")) :=
    ⟨by decide +kernel, by decide +kernel⟩
  have hregionBlock : HclReads
      (renderVariable "region"
        ["  description = \"GCP region.\"", "  type        = string",
          "  default     = \"us-central1\""])
      [⟨"variable", "region", [("description", .text "GCP region."), ("type", .path ["string"]),
        ("default", .text "us-central1")]⟩] :=
    reads_renderVariable (plain_of_all (by decide))
      (.cons hregion (.cons readsLine_type (.cons hdefault .nil)))
      (by decide : ["description", "type", "default"].Nodup)
  show HclReads _ ([] ++ [_] ++ [] ++ [_] ++ [] ++ [_] ++ [] ++ [_])
  apply HclReads.append _ (reads_sharedVariable (by decide) readsLine_bootstrap readsLine_type)
  apply HclReads.append _ hblank
  apply HclReads.append _ (reads_sharedVariable (by decide) hnetwork readsLine_type)
  apply HclReads.append _ hblank
  apply HclReads.append _ hregionBlock
  apply HclReads.append _ hblank
  apply HclReads.append _ (reads_sharedVariable (by decide) hproject readsLine_type)
  apply HclReads.blanks
  simp only [List.forall_mem_cons, List.not_mem_nil, false_imp_iff, implies_true, and_true]
  exact ⟨⟨by decide, rfl⟩, readsLine_app happ, ⟨by decide, rfl⟩, ⟨by decide, rfl⟩, ⟨by decide, rfl⟩,
    ⟨by decide, rfl⟩, ⟨by decide, rfl⟩⟩

theorem reads_renderAwsVariables (happ : isSafeTerraformIdentifier app = true) :
    HclReads (renderAwsVariables app) (sharedVariables .aws) := by
  have hblank : HclReads [""] [] := .blank ⟨by decide, rfl⟩
  have hvpc : HclReadsLine "  description = \"VPC ID (from bootstrap outputs).\""
      (.attribute "description" (.text "VPC ID (from bootstrap outputs).")) := ⟨by decide, rfl⟩
  have hsubnets : HclReadsLine "  description = \"Private subnet IDs (from bootstrap outputs).\""
      (.attribute "description" (.text "Private subnet IDs (from bootstrap outputs).")) :=
    ⟨by decide, rfl⟩
  have hlist : HclReadsLine "  type        = list(string)"
      (.attribute "type" (.call ["list"] ["string"])) := ⟨by decide, rfl⟩
  show HclReads _ ([] ++ [_] ++ [] ++ [_] ++ [] ++ [_])
  apply HclReads.append _ (reads_sharedVariable (by decide) readsLine_bootstrap readsLine_type)
  apply HclReads.append _ hblank
  apply HclReads.append _ (reads_sharedVariable (by decide) hsubnets hlist)
  apply HclReads.append _ hblank
  apply HclReads.append _ (reads_sharedVariable (by decide) hvpc readsLine_type)
  apply HclReads.blanks
  simp only [List.forall_mem_cons, List.not_mem_nil, false_imp_iff, implies_true, and_true]
  exact ⟨⟨by decide, rfl⟩, readsLine_app happ, ⟨by decide, rfl⟩, ⟨by decide, rfl⟩, ⟨by decide, rfl⟩,
    ⟨by decide, rfl⟩, ⟨by decide, rfl⟩⟩

/-! ## Documents -/

theorem resource_errors {infra : InfrastructureSpec} (hvalid : infra.validate = .ok ()) :
    ∀ resource ∈ infra.resources, resource.errors = [] := by
  rw [InfrastructureSpec.validate, collected_eq_ok_iff, InfrastructureSpec.errors] at hvalid
  simp only [List.append_eq_nil_iff, List.flatMap_eq_nil_iff] at hvalid
  obtain ⟨⟨⟨hpostgres, hbuckets⟩, hdns⟩, hsecrets⟩ := hvalid
  intro resource hresource
  simp only [InfrastructureSpec.resources, List.mem_append, List.mem_map, Option.mem_toList,
    Option.map_eq_some_iff] at hresource
  rcases hresource with ((⟨pg, hpg, rfl⟩ | ⟨bucket, hbucket, rfl⟩) | ⟨record, hrecord, rfl⟩) |
    ⟨secret, hsecret, rfl⟩
  · rw [hpg] at hpostgres
    exact hpostgres
  · exact hbuckets bucket hbucket
  · exact hdns record hrecord
  · exact hsecrets secret hsecret

/-- The rendered document is read as the shared variables and the blocks of the resources. -/
theorem readHcl_renderHcl (happ : isSafeTerraformIdentifier app = true) (provider : Provider)
    {infra : InfrastructureSpec} (hvalid : infra.validate = .ok ()) :
    readHcl (renderHcl app provider infra) =
      some (sharedVariables provider ++ infra.resources.flatMap
        (Resource.blocks app provider)) := by
  have hplain : ∀ resource ∈ infra.resources, resource.Plain := fun resource hresource ↦
    Resource.plain_of_errors (resource_errors hvalid resource hresource)
  have hreads (render : Resource → List String) (first : List String)
      (hfirst : HclReads first (sharedVariables provider))
      (hrender : ∀ resource, resource.Plain →
        HclReads (render resource) (resource.blocks app provider)) :
      readHcl ("\n".intercalate ((first :: infra.resources.map render).map hclText)) =
        some (sharedVariables provider ++
          infra.resources.flatMap (Resource.blocks app provider)) := by
    rw [intercalate_hclText]
    apply readHcl_hclText
    have hparts : List.Forall₂ HclReads (first :: infra.resources.map render)
        (sharedVariables provider :: infra.resources.map (Resource.blocks app provider)) := by
      refine .cons hfirst ?_
      rw [List.forall₂_map_left_iff, List.forall₂_map_right_iff, List.forall₂_same]
      exact fun resource hresource ↦ hrender resource (hplain resource hresource)
    exact HclReads.intercalate hparts
  cases provider with
  | gcp =>
    exact hreads (renderGcpResource app) _ (reads_renderGcpVariables happ)
      fun _ ↦ reads_renderGcpResource happ
  | aws =>
    exact hreads (renderAwsResource app) _ (reads_renderAwsVariables happ)
      fun _ ↦ reads_renderAwsResource happ

end ReinhardtCloud.Cli
