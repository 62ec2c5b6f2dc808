import ReinhardtCloud.Operator.Operations

/-!
# The environment of an application

Library `Operator`. `build_application_env_vars` and its parts
(`crates/reinhardt-cloud-operator/src/inference/env_vars.rs`). The platform only decides on a
warning there and is left out, as is the `optional: false` that every Secret reference has.
-/

namespace ReinhardtCloud.Operator

/-- The value of an environment variable: a literal or a key of a Secret. -/
inductive EnvValue where
  | literal (value : String)
  | secretKey (secret key : String)
  deriving DecidableEq

/-- `EnvVar`. -/
structure EnvVar where
  name : String
  value : EnvValue
  deriving DecidableEq

/-- `env_var`. -/
def envVar (name value : String) : EnvVar := ⟨name, .literal value⟩

/-- `build_system_env_vars`. -/
def buildSystemEnvVars : List EnvVar := [envVar "REINHARDT_ENV" "production"]

/-- `build_core_secret_key_env_vars`. -/
def buildCoreSecretKeyEnvVars (projectName : String) : List EnvVar :=
  [⟨"REINHARDT_CORE__SECRET_KEY", .secretKey s!"{projectName}-core-secret-key" "secret-key"⟩,
    ⟨"REINHARDT_CLOUD_SECRET_KEY", .secretKey s!"{projectName}-core-secret-key" "secret-key"⟩]

/-- `build_jwt_secret_env_var`. -/
def buildJwtSecretEnvVar (projectName : String) : EnvVar :=
  ⟨"REINHARDT_CLOUD_JWT_SECRET", .secretKey s!"{projectName}-jwt-secret" "jwt-secret"⟩

/-- `build_redis_password_env_var`. -/
def buildRedisPasswordEnvVar (projectName : String) : EnvVar :=
  ⟨"REINHARDT_CLOUD_REDIS_PASSWORD", .secretKey s!"{projectName}-redis-credentials" "password"⟩

/-- `build_redis_cache_env_var`. -/
def buildRedisCacheEnvVar (projectName : String) : EnvVar :=
  envVar "REINHARDT_CLOUD_REDIS_URL"
    s!"redis://:$(REINHARDT_CLOUD_REDIS_PASSWORD)@{projectName}-redis:6379/0"

/-- `build_otel_env_vars`. -/
def buildOtelEnvVars (projectName : String) : List EnvVar :=
  [envVar "OTEL_PROPAGATORS" "tracecontext", envVar "OTEL_SERVICE_NAME" projectName]

/-- `str::parse::<u16>`: decimal digits, with or without a plus sign. -/
def parseU16 (value : String) : Option Nat :=
  let digits := match value.toList with
    | '+' :: rest => rest
    | chars => chars
  if digits.isEmpty || !(digits.all Char.isDigit) then none
  else
    let n := digits.foldl (fun n c ↦ 10 * n + (c.toNat - '0'.toNat)) 0
    if n ≤ 65535 then some n else none

/-- `str::replace` of one character by another. -/
def replaceChar (old new : Char) (name : String) : String :=
  String.ofList (name.toList.map fun c ↦ if c = old then new else c)

/-- The value of a key, unless it is absent or empty. -/
def nonEmptyValue (vars : StringMap) (key : String) : Option String :=
  (vars.lookup key).filter fun value ↦ value ≠ ""

/-- `build_database_env_vars_from_secret`, `env_vars.rs:89–159`. -/
def buildDatabaseEnvVarsFromSecret (app : Project) (dbHost : String) (userVars : StringMap) :
    List EnvVar :=
  let host := (nonEmptyValue userVars "REINHARDT_DATABASE_HOST").getD dbHost
  let sanitizedName := replaceChar '-' '_' app.name
  let dbName := (nonEmptyValue userVars "REINHARDT_DATABASE_NAME").getD s!"{sanitizedName}_db"
  let dbUser := (nonEmptyValue userVars "REINHARDT_DATABASE_USER").getD sanitizedName
  let port := ((userVars.lookup "REINHARDT_DATABASE_PORT").bind parseU16).getD 5432
  let databaseUrl :=
    s!"postgres://{dbUser}:$(REINHARDT_DATABASE_PASSWORD)@{host}:{port}/{dbName}"
  [envVar "REINHARDT_DATABASE_HOST" host,
    envVar "REINHARDT_DATABASE_PORT" (toString port),
    envVar "REINHARDT_DATABASE_NAME" dbName,
    envVar "REINHARDT_DATABASE_USER" dbUser,
    ⟨"REINHARDT_DATABASE_PASSWORD", .secretKey s!"{app.name}-db-credentials" "password"⟩,
    envVar "DATABASE_URL" databaseUrl]

/-- `parse_secret_ref`, `env_vars.rs:333–341`. -/
def parseSecretRef (value : String) : Option (String × String) :=
  ("secretRef:".toList.isPrefixOf? value.toList).bind fun body ↦
    match body.span (· ≠ '/') with
    | (secretName, _ :: key) =>
      if secretName.isEmpty || key.isEmpty then none
      else some (String.ofList secretName, String.ofList key)
    | (_, []) => none

/-- `user_env_var`, `env_vars.rs:349–391`. -/
def userEnvVar (name value projectName : String) : EnvVar :=
  match parseSecretRef value with
  | some (secretName, key) =>
    if secretName ≠ s!"{projectName}-secrets" then envVar name value
    else ⟨name, .secretKey secretName key⟩
  | none => envVar name value

/-- Append a variable unless there is one of its name. -/
def pushEnvVar (vars : List EnvVar) (var : EnvVar) : List EnvVar :=
  if vars.any fun v ↦ v.name = var.name then vars else vars ++ [var]

/-- `merge_env_vars`, `env_vars.rs:299–322`. -/
def mergeEnvVars (autoVars : List EnvVar) (userVars : StringMap) (projectName : String) :
    List EnvVar :=
  autoVars.foldl pushEnvVar (userVars.map fun (k, v) ↦ userEnvVar k v projectName)

/-- The host of the database Service, `env_vars.rs:48–52`. -/
def databaseHost (app : Project) : String :=
  if app.spec.database.isSome then s!"{app.name}-db" else s!"{app.name}-postgresql"

/-- The variables that `build_application_env_vars` generates, `env_vars.rs:37–59`. -/
def autoEnvVars (app : Project) : List EnvVar :=
  buildSystemEnvVars ++ buildCoreSecretKeyEnvVars app.name ++
    (if app.spec.authJwt then [buildJwtSecretEnvVar app.name] else []) ++
    (if shouldProvisionCache app || needsRedisSessions app then
      [buildRedisPasswordEnvVar app.name, buildRedisCacheEnvVar app.name] else []) ++
    (if shouldProvisionPostgresql app then
      buildDatabaseEnvVarsFromSecret app (databaseHost app) app.spec.env else [])

/-- `build_application_env_vars`, `env_vars.rs:19–68`. -/
def buildApplicationEnvVars (app : Project) : List EnvVar :=
  (buildOtelEnvVars app.name).foldl pushEnvVar
    (mergeEnvVars (autoEnvVars app) app.spec.env app.name)

/-! ## Which variable an application sees -/

/-- The values of the variables of one name. -/
def envValues (vars : List EnvVar) (name : String) : List EnvValue :=
  (vars.filter fun v ↦ v.name = name).map EnvVar.value

theorem name_userEnvVar (name value projectName : String) :
    (userEnvVar name value projectName).name = name := by
  unfold userEnvVar
  split
  · split <;> rfl
  · rfl

private theorem envValues_eq_nil {vars : List EnvVar} {name : String} :
    envValues vars name = [] ↔ (vars.any fun v ↦ v.name = name) = false := by
  rw [envValues, List.map_eq_nil_iff, List.filter_eq_nil_iff, List.any_eq_false]

private theorem envValues_cons {var : EnvVar} {vars : List EnvVar} {name : String} :
    envValues (var :: vars) name =
      if var.name = name then var.value :: envValues vars name else envValues vars name := by
  simp only [envValues, List.filter_cons, decide_eq_true_eq]
  split <;> rfl

private theorem envValues_append {vars vars' : List EnvVar} {name : String} :
    envValues (vars ++ vars') name = envValues vars name ++ envValues vars' name := by
  simp only [envValues, List.filter_append, List.map_append]

private theorem envValues_pushEnvVar {vars : List EnvVar} {var : EnvVar} {name : String} :
    envValues (pushEnvVar vars var) name =
      if var.name = name ∧ envValues vars name = [] then [var.value] else envValues vars name := by
  unfold pushEnvVar
  split
  · next hany =>
    rw [if_neg]
    rintro ⟨rfl, hnil⟩
    rw [envValues_eq_nil, hany] at hnil
    cases hnil
  · next hany =>
    rw [envValues_append, envValues_cons]
    by_cases hname : var.name = name
    · subst hname
      rw [Bool.not_eq_true, ← envValues_eq_nil] at hany
      simp only [hany, and_self, ↓reduceIte]
      rfl
    · simp only [hname, false_and, ↓reduceIte]
      exact List.append_nil _

/-- Of one name the variables that are there count, else the first of the appended ones. -/
theorem envValues_foldl_pushEnvVar {autoVars vars : List EnvVar} {name : String} :
    envValues (autoVars.foldl pushEnvVar vars) name =
      if envValues vars name = [] then (envValues autoVars name).take 1
      else envValues vars name := by
  induction autoVars generalizing vars with
  | nil =>
    split
    · next h => exact h
    · rfl
  | cons var rest ih =>
    rw [List.foldl_cons, ih, envValues_pushEnvVar, envValues_cons]
    by_cases hname : var.name = name
    · by_cases hnil : envValues vars name = []
      · simp only [hname, hnil, and_self, ↓reduceIte, List.take_succ_cons, List.take_zero,
          List.cons_ne_nil]
      · simp only [hnil, and_false, ↓reduceIte]
    · simp only [hname, false_and, ↓reduceIte]

/-- What `spec.env` does not set comes from the first generated variable of that name. -/
theorem envValues_buildApplicationEnvVars {app : Project} {name : String}
    (henv : (app.spec.env.any fun kv ↦ kv.1 = name) = false)
    (hotel : envValues (buildOtelEnvVars app.name) name = []) :
    envValues (buildApplicationEnvVars app) name = (envValues (autoEnvVars app) name).take 1 := by
  have huser : envValues (app.spec.env.map fun (k, v) ↦ userEnvVar k v app.name) name = [] := by
    rw [envValues_eq_nil, List.any_map]
    simpa only [Function.comp_def, name_userEnvVar] using henv
  unfold buildApplicationEnvVars mergeEnvVars
  rw [envValues_foldl_pushEnvVar, envValues_foldl_pushEnvVar, if_pos huser, hotel]
  split
  · next h => rw [h, List.take_nil]
  · rfl

private theorem nonEmptyValue_eq_none {vars : StringMap} {key : String}
    (h : (vars.any fun kv ↦ kv.1 = key) = false) : nonEmptyValue vars key = none := by
  have hlookup : vars.lookup key = none := by
    rw [List.lookup_eq_none_iff]
    intro kv hkv
    have hne := List.any_eq_false.mp h kv hkv
    exact bne_iff_ne.mpr fun he ↦ hne (decide_eq_true he.symm)
  rw [nonEmptyValue, hlookup]
  rfl

/-- No other generated variable is one of the database's. -/
private theorem envValues_autoEnvVars {app : Project} (hdb : shouldProvisionPostgresql app = true)
    {name : String}
    (hname : name = "REINHARDT_DATABASE_USER" ∨ name = "REINHARDT_DATABASE_NAME") :
    envValues (autoEnvVars app) name =
      envValues (buildDatabaseEnvVarsFromSecret app (databaseHost app) app.spec.env) name := by
  unfold autoEnvVars
  rw [if_pos hdb, envValues_append, List.append_left_eq_self]
  rcases hname with rfl | rfl <;> cases app.spec.authJwt <;>
    cases shouldProvisionCache app || needsRedisSessions app <;> rfl

/-- The database variables of an application that needs a database and does not set them. -/
theorem envValues_database {app : Project} (hdb : shouldProvisionPostgresql app = true)
    (hname : (app.spec.env.any fun kv ↦ kv.1 = "REINHARDT_DATABASE_NAME") = false)
    (huser : (app.spec.env.any fun kv ↦ kv.1 = "REINHARDT_DATABASE_USER") = false) :
    envValues (buildApplicationEnvVars app) "REINHARDT_DATABASE_USER" =
        [.literal (replaceChar '-' '_' app.name)] ∧
      envValues (buildApplicationEnvVars app) "REINHARDT_DATABASE_NAME" =
        [.literal (replaceChar '-' '_' app.name ++ "_db")] := by
  rw [envValues_buildApplicationEnvVars huser rfl, envValues_buildApplicationEnvVars hname rfl,
    envValues_autoEnvVars hdb (.inl rfl), envValues_autoEnvVars hdb (.inr rfl)]
  unfold buildDatabaseEnvVarsFromSecret
  rw [nonEmptyValue_eq_none hname, nonEmptyValue_eq_none huser]
  exact ⟨rfl, rfl⟩

end ReinhardtCloud.Operator
