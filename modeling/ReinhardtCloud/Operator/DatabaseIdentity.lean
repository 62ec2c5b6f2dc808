import ReinhardtCloud.Operator.Databases

/-!
# The user and the name of a database

Library `Operator`. The identity in the credentials Secret that a reconcile creates
(`crates/reinhardt-cloud-operator/src/inference/database.rs:200–555`, `resources/database.rs:37–92`)
against the one in the application's environment (`inference/env_vars.rs:89–159`).
-/

namespace ReinhardtCloud.Operator.Database

/-- The database resources of a reconcile, `reconciler.rs:663–700`; of those of an introspected
database the Secret. -/
def databaseResources (config : PlatformConfig) (app : Project) (password : String) :
    Except Error (List Resource) :=
  if app.spec.database.isSome then inferDatabaseResources app config password
  else if shouldProvisionPostgresql app then do
    let secret ← buildDbSecret app password
    return [.secret secret]
  else .ok []

/-- The engine that is provisioned: on-premise it is PostgreSQL, as it is for an introspected
database. -/
def provisionedEngine (platform : Platform) (app : Project) : DatabaseEngine :=
  match app.spec.database, platform with
  | some engine, .aws => engine
  | some engine, .gcp => engine
  | _, _ => .postgresql

/-- An unquoted SQL identifier of at most `limit` characters. -/
def isSqlIdentifier (limit : Nat) (identifier : String) : Bool :=
  (identifier.toList.head?.any fun c ↦ c.isAlpha || c = '_') &&
    (identifier.toList.all fun c ↦ c.isAlphanum || c = '_') && identifier.toList.length ≤ limit

/-- Every Secret and every RDS instance among the resources has this user and this database. -/
structure HasIdentity (resources : List Resource) (user database : String) : Prop where
  username : ∀ o, .secret o ∈ resources → o.data.lookup "username" = some user
  postgresUser : ∀ o, .secret o ∈ resources → o.data.lookup "POSTGRES_USER" = some user
  postgresDb : ∀ o, .secret o ∈ resources → o.data.lookup "POSTGRES_DB" = some database
  rds : ∀ o engine version instanceClass storage masterUsername passwordSecret dbName,
    .dynamic o ∈ resources →
    o.spec = .dbInstance engine version instanceClass storage masterUsername passwordSecret dbName →
    masterUsername = user ∧ dbName = database

/-- The application sees the user and the database that the resources have, and both are valid
identifiers. -/
def IdentityMatches (platform : Platform) (app : Project) (resources : List Resource) : Prop :=
  ∃ user database,
    envValues (buildApplicationEnvVars app) "REINHARDT_DATABASE_USER" = [.literal user] ∧
    envValues (buildApplicationEnvVars app) "REINHARDT_DATABASE_NAME" = [.literal database] ∧
    HasIdentity resources user database ∧
    isSqlIdentifier (maxIdentifierLen (provisionedEngine platform app)) user = true ∧
    isSqlIdentifier (maxIdentifierLen (provisionedEngine platform app)) database = true

/-- The database is an explicit one, and the Project's name is an identifier as it is, but for
dashes, with room for the suffix of the database's name. -/
def NameFits (platform : Platform) (app : Project) : Prop :=
  app.spec.database.isSome = true ∧ app.name.toList.head?.any Char.isAlpha = true ∧
    '.' ∉ app.name.toList ∧
    app.name.toList.length + 3 ≤ maxIdentifierLen (provisionedEngine platform app)

/-! ## What is provisioned -/

/-- The user and the database of the Secret. -/
def provisionedIdentity (platform : Platform) (app : Project) : String × String :=
  match app.spec.database, platform with
  | none, _ => (sanitizeDbName app.name, sanitizeDbName app.name)
  | some _, .onpremise => (onpremUser app.name, onpremDatabase app.name)
  | some engine, _ =>
    (sanitizeIdentifier app.name engine, sanitizeIdentifier s!"{app.name}_db" engine)

private theorem hasIdentity_credentials {projectName ns user password database : String}
    (others : List Resource) (hothers : HasIdentity others user database) :
    HasIdentity
      (others ++ [.secret (buildDbCredentialsSecret projectName ns user password database)])
      user database := by
  have hmem : ∀ o, .secret o ∈ others ++ [Resource.secret
      (buildDbCredentialsSecret projectName ns user password database)] →
      .secret o ∈ others ∨ o = buildDbCredentialsSecret projectName ns user password database := by
    intro o ho
    rw [List.mem_append, List.mem_singleton, Resource.secret.injEq] at ho
    exact ho
  refine ⟨?_, ?_, ?_, ?_⟩
  · intro o ho
    rcases hmem o ho with ho | rfl
    · exact hothers.username o ho
    · rfl
  · intro o ho
    rcases hmem o ho with ho | rfl
    · exact hothers.postgresUser o ho
    · rfl
  · intro o ho
    rcases hmem o ho with ho | rfl
    · exact hothers.postgresDb o ho
    · rfl
  · intro o engine version instanceClass storage masterUsername passwordSecret dbName ho hspec
    rw [List.mem_append, List.mem_singleton] at ho
    rcases ho with ho | ho
    · exact hothers.rds o _ _ _ _ _ _ _ ho hspec
    · cases ho

/-- Resources without a Secret and an RDS instance have every identity. -/
private theorem hasIdentity_of_none {resources : List Resource} {user database : String}
    (hsecret : ∀ o, .secret o ∉ resources) (hrds : ∀ o, .dynamic o ∈ resources →
      o.spec.kind ≠ "DBInstance") : HasIdentity resources user database := by
  refine ⟨fun o ho ↦ absurd ho (hsecret o), fun o ho ↦ absurd ho (hsecret o),
    fun o ho ↦ absurd ho (hsecret o), ?_⟩
  intro o engine version instanceClass storage masterUsername passwordSecret dbName ho hspec
  exact absurd (congrArg DynamicSpec.kind hspec) (hrds o ho)

private theorem hasIdentity_onprem {projectName ns password : String} {version : Option String}
    {storageGb : Int} : HasIdentity (buildOnpremPostgres projectName ns version storageGb password)
      (onpremUser projectName) (onpremDatabase projectName) := by
  unfold buildOnpremPostgres
  exact hasIdentity_credentials [_, _, _, _]
    (hasIdentity_of_none (by simp) (by simp))

private theorem hasIdentity_rds {projectName ns password : String} {engine : DatabaseEngine}
    {spec : ProjectSpec} {config : PlatformConfig} :
    HasIdentity (buildAwsRds projectName ns engine spec config password)
      (sanitizeIdentifier projectName engine) (sanitizeIdentifier s!"{projectName}_db" engine) := by
  unfold buildAwsRds
  cases engineToString engine with
  | none => exact hasIdentity_of_none (by simp) (by simp)
  | some engineName =>
    apply hasIdentity_credentials [_]
    refine ⟨by simp, by simp, by simp, ?_⟩
    intro o engine version instanceClass storage masterUsername passwordSecret dbName ho hspec
    obtain rfl := Resource.dynamic.inj (List.mem_singleton.mp ho)
    obtain ⟨-, -, -, -, rfl, -, rfl⟩ := DynamicSpec.dbInstance.inj hspec
    exact ⟨rfl, rfl⟩

private theorem hasIdentity_cloudSql {projectName ns password : String} {engine : DatabaseEngine}
    {spec : ProjectSpec} {config : PlatformConfig} {storageGb : Int} :
    HasIdentity (buildGcpCloudSql projectName ns engine spec config storageGb password)
      (sanitizeIdentifier projectName engine) (sanitizeIdentifier s!"{projectName}_db" engine) := by
  unfold buildGcpCloudSql
  cases engineToGcpVersion engine spec.databaseVersion with
  | none => exact hasIdentity_of_none (by simp) (by simp)
  | some version =>
    exact hasIdentity_credentials [_, _, _]
      (hasIdentity_of_none (by simp) (by simp [DynamicSpec.kind]))

private theorem hasIdentity_dbSecret {app : Project} {password : String} {secret : DbSecret}
    (h : buildDbSecret app password = .ok secret) :
    HasIdentity [.secret secret] (sanitizeDbName app.name) (sanitizeDbName app.name) := by
  simp only [buildDbSecret, bind_eq_ok] at h
  obtain ⟨ns, -, owner, -, hsecret⟩ := h
  obtain rfl := Except.ok.inj hsecret
  refine ⟨?_, ?_, ?_, by simp⟩ <;>
    · intro o ho
      obtain rfl := Resource.secret.inj (List.mem_singleton.mp ho)
      rfl

/-- The resources of a reconcile have the provisioned identity. -/
theorem hasIdentity_of_databaseResources {config : PlatformConfig} {app : Project}
    {password : String} {resources : List Resource}
    (h : databaseResources config app password = .ok resources) :
    HasIdentity resources (provisionedIdentity config.platform app).1
      (provisionedIdentity config.platform app).2 := by
  unfold databaseResources at h
  unfold provisionedIdentity
  cases hdb : app.spec.database with
  | none =>
    rw [hdb, if_neg (by simp)] at h
    split at h
    · obtain ⟨secret, hsecret, hresources⟩ := bind_eq_ok.mp h
      obtain rfl := Except.ok.inj hresources
      exact hasIdentity_dbSecret hsecret
    · obtain rfl := Except.ok.inj h
      exact hasIdentity_of_none (by simp) (by simp)
  | some engine =>
    rw [hdb, Option.isSome_some, if_pos rfl, inferDatabaseResources, hdb] at h
    obtain ⟨-, -, hresources⟩ := bind_eq_ok.mp h
    cases hns : app.ns with
    | none =>
      rw [hns] at hresources
      obtain rfl := Except.ok.inj hresources
      exact hasIdentity_of_none (by simp) (by simp)
    | some ns =>
      rw [hns] at hresources
      obtain rfl := Except.ok.inj hresources
      cases config.platform with
      | onpremise => exact hasIdentity_onprem
      | aws => exact hasIdentity_rds
      | gcp => exact hasIdentity_cloudSql

/-- Who has a database Secret needs a database. -/
private theorem shouldProvision_of_secret {config : PlatformConfig} {app : Project}
    {password : String} {resources : List Resource} {secret : DbSecret}
    (h : databaseResources config app password = .ok resources)
    (hsecret : .secret secret ∈ resources) : shouldProvisionPostgresql app = true := by
  unfold databaseResources at h
  split at h
  · next hdb => rw [shouldProvisionPostgresql, hdb, Bool.true_or]
  · split at h
    · next hneeded => exact hneeded
    · obtain rfl := Except.ok.inj h
      cases hsecret

/-! ## Identifiers and names -/

/-- What a dash becomes. -/
private def dashToUnderscore (c : Char) : Char := if c = '-' then '_' else c

private theorem toList_onpremUser {name : String} :
    (onpremUser name).toList = name.toList.map dashToUnderscore := by
  rw [onpremUser, replaceChar, String.toList_ofList]
  rfl

private theorem toList_onpremDatabase {name : String} :
    (onpremDatabase name).toList = name.toList.map dashToUnderscore ++ ['_', 'd', 'b'] := by
  have h : onpremDatabase name = onpremUser name ++ "_db" := rfl
  rw [h, String.toList_append, toList_onpremUser]
  rfl

private theorem isAlphanum_of_dns {c : Char} (h : isDns1123Alphanumeric c = true) :
    c.isAlphanum = true := by
  have halnum : c.isAlphanum = (c.isUpper || c.isLower || c.isDigit) := rfl
  rw [halnum, Bool.or_assoc]
  exact Bool.or_eq_true_iff.mpr (.inr h)

/-- The first character of a valid name is a letter or a digit. -/
private theorem head_of_kubernetesName {name : String} (h : isKubernetesName name = true) :
    ∃ c rest, name.toList = c :: rest ∧ c.isAlphanum = true := by
  simp only [isKubernetesName, Bool.and_eq_true] at h
  obtain ⟨⟨⟨⟨-, hhead⟩, -⟩, -⟩, -⟩ := h
  cases hname : name.toList with
  | nil =>
    rw [hname] at hhead
    cases hhead
  | cons c rest =>
    rw [hname] at hhead
    exact ⟨c, rest, rfl, isAlphanum_of_dns hhead⟩

/-- The characters of a valid name. -/
private theorem chars_of_kubernetesName {name : String} (h : isKubernetesName name = true) :
    ∀ c ∈ name.toList, c.isAlphanum = true ∨ c = '-' ∨ c = '.' := by
  intro c hc
  simp only [isKubernetesName, Bool.and_eq_true] at h
  have hchar := List.all_eq_true.mp h.1.2 c hc
  simp only [Bool.or_eq_true, decide_eq_true_eq] at hchar
  rcases hchar with (halnum | hdash) | hdot
  · exact .inl (isAlphanum_of_dns halnum)
  · exact .inr (.inl hdash)
  · exact .inr (.inr hdot)

/-- What a character of a valid name becomes is a character of identifiers unless it is a dot. -/
private theorem dashToUnderscore_ok_iff {c : Char} (h : c.isAlphanum = true ∨ c = '-' ∨ c = '.') :
    ((dashToUnderscore c).isAlphanum || dashToUnderscore c = '_') = true ↔ c ≠ '.' := by
  unfold dashToUnderscore
  rcases h with h | rfl | rfl
  · have hdash : c ≠ '-' := by
      rintro rfl
      exact absurd h (by decide)
    have hdot : c ≠ '.' := by
      rintro rfl
      exact absurd h (by decide)
    simp only [hdash, ↓reduceIte, h, Bool.true_or, hdot, ne_eq, not_false_eq_true]
  · decide
  · decide

/-- The database's name is an identifier exactly when the Project's name fits. -/
private theorem isSqlIdentifier_onpremDatabase_iff {name : String} {limit : Nat}
    (h : isKubernetesName name = true) :
    isSqlIdentifier limit (onpremDatabase name) = true ↔
      name.toList.head?.any Char.isAlpha = true ∧ '.' ∉ name.toList ∧
        name.toList.length + 3 ≤ limit := by
  obtain ⟨c, rest, hname, hc⟩ := head_of_kubernetesName h
  have hdash : dashToUnderscore c = c := by
    rw [dashToUnderscore, if_neg]
    rintro rfl
    exact absurd hc (by decide)
  have hunderscore : c ≠ '_' := by
    rintro rfl
    exact absurd hc (by decide)
  have hhead : ((name.toList.map dashToUnderscore ++ ['_', 'd', 'b']).head?.any fun c ↦
      c.isAlpha || c = '_') = name.toList.head?.any Char.isAlpha := by
    rw [hname, List.map_cons, List.cons_append, List.head?_cons, List.head?_cons, hdash]
    simp only [Option.any_some, hunderscore, decide_false, Bool.or_false]
  have hchars : ((name.toList.map dashToUnderscore ++ ['_', 'd', 'b']).all fun c ↦
      c.isAlphanum || c = '_') = true ↔ '.' ∉ name.toList := by
    rw [List.all_append, Bool.and_eq_true, List.all_map, List.all_eq_true]
    constructor
    · rintro ⟨hall, -⟩ hdot
      exact (dashToUnderscore_ok_iff (.inr (.inr rfl))).mp (hall '.' hdot) rfl
    · intro hdot
      refine ⟨fun d hd ↦ ?_, by decide⟩
      apply (dashToUnderscore_ok_iff (chars_of_kubernetesName h d hd)).mpr
      rintro rfl
      exact hdot hd
  rw [isSqlIdentifier, toList_onpremDatabase, Bool.and_eq_true, Bool.and_eq_true, hhead, hchars,
    decide_eq_true_eq, List.length_append, List.length_map, and_assoc]
  rfl

/-- A non-empty beginning of an identifier is one. -/
private theorem isSqlIdentifier_of_append {limit : Nat} {first second : String}
    (hne : first.toList ≠ []) (h : isSqlIdentifier limit (first ++ second) = true) :
    isSqlIdentifier limit first = true := by
  simp only [isSqlIdentifier, String.toList_append, List.all_append, List.length_append,
    Bool.and_eq_true, decide_eq_true_eq] at h ⊢
  obtain ⟨⟨hhead, hall, -⟩, hlen⟩ := h
  rw [List.head?_append_of_ne_nil _ hne] at hhead
  exact ⟨⟨hhead, hall⟩, by omega⟩

/-- Where it neither prefixes nor cuts, the cloud's sanitizer replaces dashes. -/
private theorem sanitizeIdentifier_eq {name : String} {engine : DatabaseEngine}
    (hhead : name.toList.head?.any Char.isAlpha = true)
    (hchars : ∀ c ∈ name.toList, c.isAlphanum = true ∨ c = '-' ∨ c = '_')
    (hlen : name.toList.length ≤ maxIdentifierLen engine) :
    sanitizeIdentifier name engine = String.ofList (name.toList.map dashToUnderscore) := by
  have hmap : (name.toList.map fun c ↦ if c.isAlphanum then c else '_') =
      name.toList.map dashToUnderscore := by
    apply List.map_congr_left
    intro c hc
    rcases hchars c hc with halnum | rfl | rfl
    · rw [if_pos halnum, dashToUnderscore, if_neg]
      rintro rfl
      exact absurd halnum (by decide)
    · rfl
    · rfl
  have hkept : (name.toList.map dashToUnderscore).head?.any Char.isAlpha = true := by
    cases hname : name.toList with
    | nil =>
      rw [hname] at hhead
      cases hhead
    | cons c rest =>
      rw [hname] at hhead
      have halpha : c.isAlpha = true := hhead
      have hdash : c ≠ '-' := by
        rintro rfl
        exact absurd halpha (by decide)
      simpa only [List.map_cons, List.head?_cons, dashToUnderscore, hdash, ↓reduceIte] using hhead
  simp only [sanitizeIdentifier, hmap, hkept, ↓reduceIte]
  rw [List.take_of_length_le (by rw [List.length_map]; exact hlen)]

/-- A name that fits is an identifier, and the cloud's sanitizer only replaces its dashes. -/
private theorem identity_of_fits {name : String} {engine : DatabaseEngine}
    (h : isKubernetesName name = true) (hhead : name.toList.head?.any Char.isAlpha = true)
    (hdot : '.' ∉ name.toList) (hlen : name.toList.length + 3 ≤ maxIdentifierLen engine) :
    sanitizeIdentifier name engine = onpremUser name ∧
      sanitizeIdentifier s!"{name}_db" engine = onpremDatabase name := by
  have hchars : ∀ c ∈ name.toList, c.isAlphanum = true ∨ c = '-' ∨ c = '_' := by
    intro c hc
    rcases chars_of_kubernetesName h c hc with halnum | hdash | rfl
    · exact .inl halnum
    · exact .inr (.inl hdash)
    · exact absurd hc hdot
  have htoList : s!"{name}_db".toList = name.toList ++ ['_', 'd', 'b'] := by
    show (name ++ "_db").toList = _
    rw [String.toList_append]
    rfl
  constructor
  · rw [sanitizeIdentifier_eq hhead hchars (by omega), ← toList_onpremUser, String.ofList_toList]
  · rw [sanitizeIdentifier_eq, htoList, List.map_append]
    · have hdb : (['_', 'd', 'b'].map dashToUnderscore) = ['_', 'd', 'b'] := by decide
      rw [hdb, ← toList_onpremDatabase, String.ofList_toList]
    · rw [htoList, List.head?_append_of_ne_nil]
      · exact hhead
      · intro hnil
        rw [hnil] at hhead
        cases hhead
    · intro c hc
      rw [htoList, List.mem_append] at hc
      rcases hc with hc | hc
      · exact hchars c hc
      · simp only [List.mem_cons, List.not_mem_nil, or_false] at hc
        rcases hc with rfl | rfl | rfl <;> decide
    · rw [htoList, List.length_append]
      exact hlen

/-- What the application sees. -/
private theorem envIdentity {app : Project} (hdb : shouldProvisionPostgresql app = true)
    (hname : (app.spec.env.any fun kv ↦ kv.1 = "REINHARDT_DATABASE_NAME") = false)
    (huser : (app.spec.env.any fun kv ↦ kv.1 = "REINHARDT_DATABASE_USER") = false)
    (user database : String) :
    envValues (buildApplicationEnvVars app) "REINHARDT_DATABASE_USER" = [.literal user] ∧
        envValues (buildApplicationEnvVars app) "REINHARDT_DATABASE_NAME" = [.literal database] ↔
      user = onpremUser app.name ∧ database = onpremDatabase app.name := by
  obtain ⟨hu, hn⟩ := envValues_database hdb hname huser
  rw [hu, hn, List.singleton_inj, List.singleton_inj, EnvValue.literal.injEq,
    EnvValue.literal.injEq, eq_comm, @eq_comm _ _ database]
  rfl

/-- The application has the identity of its database exactly when the database is an explicit one
and the name fits. -/
theorem database_identity_iff {config : PlatformConfig} {app : Project} {password : String}
    {resources : List Resource} {secret : DbSecret} (hvalid : isKubernetesName app.name = true)
    (hname : (app.spec.env.any fun kv ↦ kv.1 = "REINHARDT_DATABASE_NAME") = false)
    (huser : (app.spec.env.any fun kv ↦ kv.1 = "REINHARDT_DATABASE_USER") = false)
    (h : databaseResources config app password = .ok resources)
    (hsecret : .secret secret ∈ resources) :
    IdentityMatches config.platform app resources ↔ NameFits config.platform app := by
  have hidentity := hasIdentity_of_databaseResources h
  have henv := envIdentity (shouldProvision_of_secret h hsecret) hname huser
  unfold IdentityMatches NameFits
  constructor
  · rintro ⟨user, database, hu, hd, hhas, -, hdatabase⟩
    obtain ⟨rfl, rfl⟩ := (henv _ _).mp ⟨hu, hd⟩
    rw [isSqlIdentifier_onpremDatabase_iff hvalid] at hdatabase
    refine ⟨?_, hdatabase⟩
    -- An introspected database has one name for both.
    cases hdb : app.spec.database with
    | some engine => rfl
    | none =>
      have husername := Option.some.inj ((hhas.username secret hsecret).symm.trans
        (hidentity.username secret hsecret))
      have hdatabase := Option.some.inj ((hhas.postgresDb secret hsecret).symm.trans
        (hidentity.postgresDb secret hsecret))
      have hone : (provisionedIdentity config.platform app).1 =
          (provisionedIdentity config.platform app).2 := by
        unfold provisionedIdentity
        rw [hdb]
      have hchars := congrArg String.toList ((husername.trans hone).trans hdatabase.symm)
      rw [toList_onpremUser, toList_onpremDatabase, List.self_eq_append_right] at hchars
      cases hchars
  · rintro ⟨hexplicit, hfits⟩
    have hdatabase := (isSqlIdentifier_onpremDatabase_iff hvalid).mpr hfits
    have husername : isSqlIdentifier (maxIdentifierLen (provisionedEngine config.platform app))
        (onpremUser app.name) = true := by
      apply isSqlIdentifier_of_append _ hdatabase
      obtain ⟨c, rest, hname, -⟩ := head_of_kubernetesName hvalid
      show (onpremUser app.name).toList ≠ []
      rw [toList_onpremUser, hname]
      exact List.cons_ne_nil _ _
    have hsame : provisionedIdentity config.platform app =
        (onpremUser app.name, onpremDatabase app.name) := by
      obtain ⟨engine, hdb⟩ := Option.isSome_iff_exists.mp hexplicit
      unfold provisionedEngine at hfits
      unfold provisionedIdentity
      rw [hdb] at hfits ⊢
      cases hplatform : config.platform with
      | onpremise => rfl
      | aws =>
        rw [hplatform] at hfits
        obtain ⟨hu, hd⟩ := identity_of_fits hvalid hfits.1 hfits.2.1 hfits.2.2
        exact Prod.ext hu hd
      | gcp =>
        rw [hplatform] at hfits
        obtain ⟨hu, hd⟩ := identity_of_fits hvalid hfits.1 hfits.2.1 hfits.2.2
        exact Prod.ext hu hd
    obtain ⟨hu, hd⟩ := (henv _ _).mpr ⟨rfl, rfl⟩
    rw [hsame] at hidentity
    exact ⟨_, _, hu, hd, hidentity, husername, hdatabase⟩

/-- A Project of the given name with a MySQL database. -/
def namedProject (name : String) : Project :=
  ⟨name, some "team", some 7, none, ⟨none, none, none, none⟩,
    { image := "registry.example/shop:1", database := some .mysql }, none, none⟩

/-- The resources of such a Project on AWS. -/
def namedResources (name : String) : List Resource :=
  buildAwsRds name "team" .mysql (namedProject name).spec .awsDefaults "p1"

/-- The name `my-shop` fits MySQL on AWS. -/
theorem database_identity_iff_my_shop :
    databaseResources .awsDefaults (namedProject "my-shop") "p1" =
        .ok (namedResources "my-shop") ∧
      IdentityMatches .aws (namedProject "my-shop") (namedResources "my-shop") := by
  have hsecret : .secret (buildDbCredentialsSecret "my-shop" "team" "my_shop" "p1" "my_shop_db") ∈
      namedResources "my-shop" := by decide
  have h : databaseResources .awsDefaults (namedProject "my-shop") "p1" =
      .ok (namedResources "my-shop") := by decide
  have hfits : NameFits .aws (namedProject "my-shop") := by
    unfold NameFits
    decide
  exact ⟨h, (database_identity_iff (by decide) rfl rfl h hsecret).mpr hfits⟩

/-- For the name `my.shop` the application sees another user than the database has. -/
theorem database_identity_differs :
    ¬ ∀ (config : PlatformConfig) (app : Project) (password : String) (resources : List Resource)
      (secret : DbSecret), isKubernetesName app.name = true →
      (app.spec.env.any fun kv ↦ kv.1 = "REINHARDT_DATABASE_NAME") = false →
      (app.spec.env.any fun kv ↦ kv.1 = "REINHARDT_DATABASE_USER") = false →
      databaseResources config app password = .ok resources → .secret secret ∈ resources →
      IdentityMatches config.platform app resources := by
  intro h
  have hsecret : .secret (buildDbCredentialsSecret "my.shop" "team" "my_shop" "p1" "my_shop_db") ∈
      namedResources "my.shop" := by decide
  obtain ⟨user, database, hu, -, hhas, -⟩ := h .awsDefaults (namedProject "my.shop") "p1"
    (namedResources "my.shop") _ (by decide) rfl rfl (by decide) hsecret
  have husername := hhas.username _ hsecret
  have hseen : envValues (buildApplicationEnvVars (namedProject "my.shop"))
      "REINHARDT_DATABASE_USER" = [.literal "my.shop"] := by decide
  rw [hseen] at hu
  obtain rfl := EnvValue.literal.inj (List.singleton_inj.mp hu)
  exact absurd husername (by decide)

end ReinhardtCloud.Operator.Database
