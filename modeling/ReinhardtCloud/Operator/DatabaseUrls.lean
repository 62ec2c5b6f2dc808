import Mathlib.Data.List.Nodup
import ReinhardtCloud.Base.Expansion
import ReinhardtCloud.Base.Keyed
import ReinhardtCloud.Base.Numerals
import ReinhardtCloud.Operator.Environment

/-!
# The connection string against the single variables

Library `Operator`. What the list of `build_application_env_vars` gives for `DATABASE_URL`, for the
variables that its parts repeat and for the variables that its values refer to.
-/

namespace ReinhardtCloud.Operator

open ReinhardtCloud.Base

/-! ## The list as a whole -/

/-- The names that `spec.env` sets. -/
def envKeys (app : Project) : List String := app.spec.env.map Prod.fst

/-- What the operator has to add, in its order. -/
def generatedEnvVars (app : Project) : List EnvVar :=
  autoEnvVars app ++ buildOtelEnvVars app.name

/-- Variables of different names are appended unless their name is there. -/
theorem foldl_pushEnvVar {news : List EnvVar} (hnews : (news.map EnvVar.name).Nodup)
    (vars : List EnvVar) :
    news.foldl pushEnvVar vars =
      vars ++ news.filter fun var ↦ decide (var.name ∉ vars.map EnvVar.name) := by
  induction news generalizing vars with
  | nil => rw [List.foldl_nil, List.filter_nil, List.append_nil]
  | cons var rest ih =>
    rw [List.map_cons, List.nodup_cons] at hnews
    have hany : (vars.any fun v ↦ v.name = var.name) = true ↔
        var.name ∈ vars.map EnvVar.name := by
      simp only [List.any_eq_true, decide_eq_true_eq, List.mem_map]
    rw [List.foldl_cons, ih hnews.2, pushEnvVar]
    by_cases hmem : var.name ∈ vars.map EnvVar.name
    · have hdrop : ¬ decide (var.name ∉ vars.map EnvVar.name) = true := by
        rw [decide_eq_true_eq, not_not]
        exact hmem
      rw [if_pos (hany.mpr hmem), List.filter_cons, if_neg hdrop]
    · have hkeep : decide (var.name ∉ vars.map EnvVar.name) = true := by
        rw [decide_eq_true_eq]
        exact hmem
      rw [if_neg (mt hany.mp hmem), List.filter_cons, if_pos hkeep,
        List.append_assoc, List.singleton_append]
      congr 2
      apply List.filter_congr
      intro other hother
      have hne : other.name ≠ var.name := by
        intro h
        exact hnews.1 (h ▸ List.mem_map_of_mem hother)
      simp only [List.map_append, List.map_cons, List.map_nil, List.mem_append,
        List.mem_singleton, hne, or_false]

/-- The names that the operator adds before `DATABASE_URL`. -/
def namesBeforeUrl (app : Project) : List String :=
  ["REINHARDT_ENV", "REINHARDT_CORE__SECRET_KEY", "REINHARDT_CLOUD_SECRET_KEY"] ++
    (if app.spec.authJwt then ["REINHARDT_CLOUD_JWT_SECRET"] else []) ++
    (if shouldProvisionCache app || needsRedisSessions app then
      ["REINHARDT_CLOUD_REDIS_PASSWORD", "REINHARDT_CLOUD_REDIS_URL"] else []) ++
    ["REINHARDT_DATABASE_HOST", "REINHARDT_DATABASE_PORT", "REINHARDT_DATABASE_NAME",
      "REINHARDT_DATABASE_USER", "REINHARDT_DATABASE_PASSWORD"]

theorem map_name_generatedEnvVars {app : Project} (hdb : shouldProvisionPostgresql app = true) :
    (generatedEnvVars app).map EnvVar.name =
      namesBeforeUrl app ++ ["DATABASE_URL", "OTEL_PROPAGATORS", "OTEL_SERVICE_NAME"] := by
  unfold generatedEnvVars autoEnvVars namesBeforeUrl
  rw [if_pos hdb]
  cases app.spec.authJwt <;> cases shouldProvisionCache app || needsRedisSessions app <;> rfl

/-- No name is added twice. -/
theorem nodup_generatedEnvVars {app : Project} (hdb : shouldProvisionPostgresql app = true) :
    ((generatedEnvVars app).map EnvVar.name).Nodup := by
  rw [map_name_generatedEnvVars hdb, namesBeforeUrl]
  cases app.spec.authJwt <;> cases shouldProvisionCache app || needsRedisSessions app <;>
    decide +kernel

theorem map_name_userEnvVars (env : StringMap) (projectName : String) :
    (env.map fun (k, v) ↦ userEnvVar k v projectName).map EnvVar.name = env.map Prod.fst := by
  rw [List.map_map]
  exact List.map_congr_left fun kv _ ↦ name_userEnvVar kv.1 kv.2 projectName

/-- The variables of `spec.env`, then what it does not set. -/
theorem buildApplicationEnvVars_eq {app : Project} (hdb : shouldProvisionPostgresql app = true) :
    buildApplicationEnvVars app =
      (app.spec.env.map fun (k, v) ↦ userEnvVar k v app.name) ++
        (generatedEnvVars app).filter fun var ↦ decide (var.name ∉ envKeys app) := by
  rw [buildApplicationEnvVars, mergeEnvVars, ← List.foldl_append, ← generatedEnvVars,
    foldl_pushEnvVar (nodup_generatedEnvVars hdb), map_name_userEnvVars, envKeys]

/-- No name is there twice, whatever `spec.env` sets. -/
theorem nodup_buildApplicationEnvVars {app : Project} (hdb : shouldProvisionPostgresql app = true)
    (hkeys : (envKeys app).Nodup) : ((buildApplicationEnvVars app).map EnvVar.name).Nodup := by
  rw [buildApplicationEnvVars_eq hdb, List.map_append, map_name_userEnvVars, List.nodup_append]
  refine ⟨hkeys, (List.filter_sublist.map _).nodup (nodup_generatedEnvVars hdb), ?_⟩
  rintro name hkey _ hgenerated rfl
  obtain ⟨var, hvar, rfl⟩ := List.mem_map.mp hgenerated
  exact of_decide_eq_true (List.mem_filter.mp hvar).2 hkey

/-- A variable that the operator adds stands behind those of `spec.env` and those it adds first. -/
theorem mem_before_iff {app : Project} (hdb : shouldProvisionPostgresql app = true)
    (hkeys : (envKeys app).Nodup) {before after first rest : List EnvVar} {var : EnvVar}
    (h : buildApplicationEnvVars app = before ++ var :: after)
    (hsplit : generatedEnvVars app = first ++ var :: rest) (hvar : var.name ∉ envKeys app)
    {name : String} :
    name ∈ before.map EnvVar.name ↔ name ∈ envKeys app ∨ name ∈ first.map EnvVar.name := by
  have hkeep : decide (var.name ∉ envKeys app) = true := by
    rw [decide_eq_true_eq]
    exact hvar
  have hlist := buildApplicationEnvVars_eq hdb
  rw [hsplit, List.filter_append, List.filter_cons, if_pos hkeep, ← List.append_assoc] at hlist
  have hnodup := nodup_buildApplicationEnvVars hdb hkeys
  rw [h] at hnodup hlist
  rw [List.map_append, List.map_cons, List.nodup_append, List.nodup_cons] at hnodup
  have hbefore : var ∉ before := fun hmem ↦
    hnodup.2.2 _ (List.mem_map_of_mem hmem) _ List.mem_cons_self rfl
  have hafter : var ∉ after := fun hmem ↦ hnodup.2.1.1 (List.mem_map_of_mem hmem)
  obtain ⟨hfirst, -, -⟩ :=
    (List.append_cons_inj_of_notMem hbefore hafter).mp hlist
  rw [hfirst, List.map_append, map_name_userEnvVars, List.mem_append, ← envKeys]
  constructor
  · rintro (hkey | hmem)
    · exact .inl hkey
    · exact .inr ((List.filter_sublist.map _).subset hmem)
  · rintro (hkey | hmem)
    · exact .inl hkey
    · by_cases hkey : name ∈ envKeys app
      · exact .inl hkey
      · obtain ⟨other, hother, rfl⟩ := List.mem_map.mp hmem
        refine .inr (List.mem_map_of_mem (List.mem_filter.mpr ⟨hother, ?_⟩))
        rw [decide_eq_true_eq]
        exact hkey

/-- A text that refers to a Secret of the application. -/
def IsSecretRef (app : Project) (value : String) : Prop :=
  ∃ key, parseSecretRef value = some (s!"{app.name}-secrets", key)

theorem userEnvVar_eq_literal_iff {app : Project} {key value text : String} :
    userEnvVar key value app.name = envVar key text ↔ value = text ∧ ¬ IsSecretRef app value := by
  unfold userEnvVar IsSecretRef
  cases hparse : parseSecretRef value with
  | none => simp [envVar]
  | some parts =>
    obtain ⟨secret, name⟩ := parts
    by_cases hsecret : secret = s!"{app.name}-secrets"
    · simp [hsecret, envVar]
    · simp [hsecret, envVar]

/-- The text that `spec.env` gives a variable, unless it refers to a Secret. -/
theorem literal_mem_userEnvVars_iff {app : Project} (hkeys : (envKeys app).Nodup)
    {key text : String} :
    envVar key text ∈ (app.spec.env.map fun (k, v) ↦ userEnvVar k v app.name) ↔
      app.spec.env.lookup key = some text ∧ ¬ IsSecretRef app text := by
  rw [List.mem_map]
  constructor
  · rintro ⟨⟨k, value⟩, hkv, hvar⟩
    have hname := congrArg EnvVar.name hvar
    rw [name_userEnvVar] at hname
    obtain rfl : k = key := hname
    obtain ⟨rfl, hsecret⟩ := userEnvVar_eq_literal_iff.mp hvar
    exact ⟨(lookup_eq_some_iff_mem hkeys).mpr hkv, hsecret⟩
  · rintro ⟨hlookup, hsecret⟩
    exact ⟨(key, text), (lookup_eq_some_iff_mem hkeys).mp hlookup,
      userEnvVar_eq_literal_iff.mpr ⟨rfl, hsecret⟩⟩

/-- The text that the list has for a variable the operator could add: what `spec.env` sets, unless
it refers to a Secret, or else what the operator adds. -/
theorem literal_mem_iff {app : Project} (hdb : shouldProvisionPostgresql app = true)
    (hkeys : (envKeys app).Nodup) {key added text : String}
    (hadded : envVar key added ∈ generatedEnvVars app) :
    envVar key text ∈ buildApplicationEnvVars app ↔
      text = (app.spec.env.lookup key).getD added ∧
        ∀ value, app.spec.env.lookup key = some value → ¬ IsSecretRef app value := by
  rw [buildApplicationEnvVars_eq hdb, List.mem_append, List.mem_filter,
    literal_mem_userEnvVars_iff hkeys]
  have hmem : key ∈ envKeys app ↔ ∃ value, app.spec.env.lookup key = some value := by
    rw [envKeys, List.mem_map]
    constructor
    · rintro ⟨⟨k, value⟩, hkv, rfl⟩
      exact ⟨value, (lookup_eq_some_iff_mem hkeys).mpr hkv⟩
    · rintro ⟨value, hvalue⟩
      exact ⟨(key, value), (lookup_eq_some_iff_mem hkeys).mp hvalue, rfl⟩
  have hkey : decide (key ∉ envKeys app) = true ↔ app.spec.env.lookup key = none := by
    rw [decide_eq_true_eq, hmem, not_exists, Option.eq_none_iff_forall_not_mem]
    rfl
  cases hlookup : app.spec.env.lookup key with
  | none =>
    constructor
    · rintro (⟨hset, -⟩ | ⟨hgenerated, -⟩)
      · cases hset
      · have hsame := List.inj_on_of_nodup_map (nodup_generatedEnvVars hdb) hgenerated hadded rfl
        cases hsame
        exact ⟨rfl, fun value h ↦ nomatch h⟩
    · rintro ⟨rfl, -⟩
      exact .inr ⟨hadded, hkey.mpr hlookup⟩
  | some value =>
    constructor
    · rintro (⟨hset, hsecret⟩ | ⟨-, hnone⟩)
      · cases hset
        refine ⟨rfl, ?_⟩
        rintro _ ⟨⟩
        exact hsecret
      · have hnone' := hkey.mp hnone
        rw [hlookup] at hnone'
        cases hnone'
    · rintro ⟨rfl, hsecret⟩
      exact .inl ⟨rfl, hsecret _ rfl⟩

/-! ## What the values refer to -/

/-- Values whose references name a variable of `spec.env` or one further up. -/
def RefersBack (keys : List String) : List String → List EnvVar → Prop
  | _, [] => True
  | seen, var :: rest =>
    (var.name ∉ keys → ∀ text, var.value = .literal text →
      ∀ name ∈ references text, name ∈ keys ∨ name ∈ seen) ∧
      RefersBack keys (seen ++ [var.name]) rest

theorem refersBack_append {keys seen : List String} {vars vars' : List EnvVar} :
    RefersBack keys seen (vars ++ vars') ↔
      RefersBack keys seen vars ∧ RefersBack keys (seen ++ vars.map EnvVar.name) vars' := by
  induction vars generalizing seen with
  | nil => rw [List.nil_append, List.map_nil, List.append_nil, RefersBack, true_and]
  | cons var rest ih =>
    rw [List.cons_append, RefersBack, RefersBack, ih, and_assoc, List.map_cons, List.append_assoc,
      List.singleton_append]

theorem refersBack_iff {keys seen : List String} {vars : List EnvVar} :
    RefersBack keys seen vars ↔
      ∀ first var rest, vars = first ++ var :: rest → var.name ∉ keys →
        ∀ text, var.value = .literal text → ∀ name ∈ references text,
          name ∈ keys ∨ name ∈ seen ++ first.map EnvVar.name := by
  constructor
  · rintro h first var rest rfl
    rw [refersBack_append, RefersBack] at h
    exact h.2.1
  · intro h
    induction vars generalizing seen with
    | nil => trivial
    | cons var rest ih =>
      rw [RefersBack]
      constructor
      · have hvar := h [] var rest rfl
        rw [List.map_nil, List.append_nil] at hvar
        exact hvar
      · apply ih
        rintro first other after rfl
        have hother := h (var :: first) other after rfl
        rw [List.map_cons, ← List.singleton_append, ← List.append_assoc] at hother
        exact hother

/-- Texts without a dollar sign refer to nothing. -/
theorem refersBack_of_plain {keys seen : List String} {vars : List EnvVar}
    (h : ∀ var ∈ vars, var.name ∉ keys → ∀ text, var.value = .literal text → '$' ∉ text.toList) :
    RefersBack keys seen vars := by
  rw [refersBack_iff]
  rintro first var rest rfl hvar text htext name hname
  have hplain := h var (List.mem_append_right _ List.mem_cons_self) hvar text htext
  rw [references, (scan_of_no_dollar hplain).2] at hname
  cases hname

/-- References of the values that the operator adds name a variable at an earlier position. -/
def ReferencesEarlier (app : Project) : Prop :=
  ∀ before var after text, buildApplicationEnvVars app = before ++ var :: after →
    var.name ∉ envKeys app → var.value = .literal text →
      ∀ name ∈ references text, name ∈ before.map EnvVar.name

theorem referencesEarlier_iff {app : Project} (hdb : shouldProvisionPostgresql app = true)
    (hkeys : (envKeys app).Nodup) :
    ReferencesEarlier app ↔ RefersBack (envKeys app) [] (generatedEnvVars app) := by
  rw [refersBack_iff]
  constructor
  · intro h first var rest hsplit hvar text htext name hname
    have hkeep : decide (var.name ∉ envKeys app) = true := by
      rw [decide_eq_true_eq]
      exact hvar
    have hlist := buildApplicationEnvVars_eq hdb
    rw [hsplit, List.filter_append, List.filter_cons, if_pos hkeep, ← List.append_assoc] at hlist
    rw [List.nil_append, ← mem_before_iff hdb hkeys hlist hsplit hvar]
    exact h _ var _ text hlist hvar htext name hname
  · intro h before var after text hlist hvar htext name hname
    have hmem : var ∈ buildApplicationEnvVars app := by
      rw [hlist]
      exact List.mem_append_right _ List.mem_cons_self
    rw [buildApplicationEnvVars_eq hdb, List.mem_append, List.mem_filter] at hmem
    have hgenerated : var ∈ generatedEnvVars app := by
      rcases hmem with huser | hgenerated
      · have hkey := List.mem_map_of_mem (f := EnvVar.name) huser
        rw [map_name_userEnvVars] at hkey
        exact absurd hkey hvar
      · exact hgenerated.1
    obtain ⟨first, rest, hsplit⟩ := List.append_of_mem hgenerated
    rw [mem_before_iff hdb hkeys hlist hsplit hvar]
    have hback := h first var rest hsplit hvar text htext name hname
    rw [List.nil_append] at hback
    exact hback

/-! ## The connection string -/

/-- The text of `DATABASE_URL`, `env_vars.rs:135–136`. -/
def databaseUrl (user host port name : String) : String :=
  s!"postgres://{user}:$(REINHARDT_DATABASE_PASSWORD)@{host}:{port}/{name}"

theorem toList_databaseUrl (user host port name : String) :
    (databaseUrl user host port name).toList =
      "postgres://".toList ++ (user.toList ++ (":$(REINHARDT_DATABASE_PASSWORD)@".toList ++
        (host.toList ++ ':' :: (port.toList ++ '/' :: name.toList)))) := by
  delta databaseUrl
  simp [toString]

/-- The references up to the at sign, then those behind it. -/
theorem references_databaseUrl (user host port name : String) :
    references (databaseUrl user host port name) =
      references s!"{user}:$(REINHARDT_DATABASE_PASSWORD)" ++
        references s!"{host}:{port}/{name}" := by
  have hlist : (databaseUrl user host port name).toList =
      "postgres://".toList ++ ((user.toList ++ ":$(REINHARDT_DATABASE_PASSWORD".toList ++ [')']) ++
        '@' :: (host.toList ++ ':' :: (port.toList ++ '/' :: name.toList))) := by
    delta databaseUrl
    simp [toString]
  have huser : s!"{user}:$(REINHARDT_DATABASE_PASSWORD)".toList =
      user.toList ++ ":$(REINHARDT_DATABASE_PASSWORD".toList ++ [')'] := by
    simp [toString]
  have haddress : s!"{host}:{port}/{name}".toList =
      host.toList ++ ':' :: (port.toList ++ '/' :: name.toList) := by
    simp [toString]
  obtain ⟨hrun, hrefs⟩ := scan_of_no_dollar (l := "postgres://".toList) (by decide +kernel)
  have hclose (scan : Scan) : scan.run (user.toList ++
      ":$(REINHARDT_DATABASE_PASSWORD".toList ++ [')']) = .text := by
    rw [Scan.run_append]
    exact Scan.next_close _
  rw [references, references, references, hlist, huser, haddress, referencesFrom_append, hrefs,
    hrun, List.nil_append, referencesFrom_append, hclose]
  rfl

/-- A reference that stands in text without another dollar sign. -/
theorem references_single {before name after : List Char} (hbefore : '$' ∉ before)
    (hname : ')' ∉ name) (hafter : '$' ∉ after) :
    referencesFrom .text (before ++ (('$' :: '(' :: name ++ [')']) ++ after)) =
      [String.ofList name] := by
  obtain ⟨hrun, hrefs⟩ := scan_of_no_dollar hbefore
  obtain ⟨hrun', hrefs'⟩ := references_name hname
  rw [referencesFrom_append, hrefs, hrun, referencesFrom_append, hrefs', hrun',
    (scan_of_no_dollar hafter).2, List.nil_append, List.append_nil]

/-- Where the parts of two connection strings differ only in that one of them leaves a part empty,
the texts differ too. -/
theorem parts_of_databaseUrl_eq {user user' host host' port port' name name' : String}
    (h : databaseUrl user' host' port' name' = databaseUrl user host port name)
    (huser : user' = user ∨ user = "" ∧ ∃ c rest, user'.toList = c :: rest ∧ c ≠ ':')
    (hhost : host' = host ∨ host = "" ∧ ∃ c rest, host'.toList = c :: rest ∧ c ≠ ':')
    (hname : name' = name ∨ name = "" ∧ ∃ init c, name'.toList = init ++ [c] ∧ c ≠ '/') :
    user' = user ∧ host' = host ∧ port' = port ∧ name' = name := by
  have hlist := congrArg String.toList h
  rw [toList_databaseUrl, toList_databaseUrl, List.append_cancel_left_eq] at hlist
  have hcolon : ":$(REINHARDT_DATABASE_PASSWORD)@".toList =
      ':' :: "$(REINHARDT_DATABASE_PASSWORD)@".toList := rfl
  rcases huser with rfl | ⟨rfl, c, rest, hfirst, hc⟩
  · rw [List.append_cancel_left_eq, List.append_cancel_left_eq] at hlist
    rcases hhost with rfl | ⟨rfl, c, rest, hfirst, hc⟩
    · rw [List.append_cancel_left_eq, List.cons_inj_right] at hlist
      rcases hname with rfl | ⟨rfl, init, c, hlast, hc⟩
      · rw [List.append_cancel_right_eq] at hlist
        exact ⟨rfl, rfl, String.toList_inj.mp hlist, rfl⟩
      · -- one text ends in the separator, the other behind it
        have hsplit : (port'.toList ++ '/' :: init) ++ [c] = port.toList ++ ['/'] := by
          rw [List.append_assoc, List.cons_append, ← hlast]
          exact hlist
        have hend := List.append_inj_right' hsplit rfl
        exact absurd (List.cons.inj hend).1 hc
    · rw [hfirst] at hlist
      exact absurd (List.cons.inj hlist).1 hc
  · rw [hfirst, hcolon] at hlist
    exact absurd (List.cons.inj hlist).1 hc

theorem ne_empty_of_kubernetesName {name : String} (h : isKubernetesName name = true) :
    name ≠ "" := by
  rintro rfl
  revert h
  decide

/-- No character of a name separates the parts of the text, or begins a reference. -/
theorem plain_of_kubernetesName {name : String} (h : isKubernetesName name = true) {c : Char}
    (hc : c ∈ name.toList) : c ≠ ':' ∧ c ≠ '$' := by
  simp only [isKubernetesName, Bool.and_eq_true] at h
  have hchar := List.all_eq_true.mp h.1.2 c hc
  constructor
  · rintro rfl
    exact absurd hchar (by decide)
  · rintro rfl
    exact absurd hchar (by decide)

/-- The user name that the operator derives from the project's. -/
def defaultDatabaseUser (app : Project) : String := replaceChar '-' '_' app.name

/-- The database name that it derives. -/
def defaultDatabaseName (app : Project) : String := s!"{defaultDatabaseUser app}_db"

theorem plain_defaultDatabaseUser {app : Project} (hname : isKubernetesName app.name = true)
    {c : Char} (hc : c ∈ (defaultDatabaseUser app).toList) : c ≠ ':' ∧ c ≠ '$' := by
  rw [defaultDatabaseUser, replaceChar, String.toList_ofList, List.mem_map] at hc
  obtain ⟨d, hd, rfl⟩ := hc
  by_cases hdash : d = '-'
  · rw [if_pos hdash]
    decide
  · rw [if_neg hdash]
    exact plain_of_kubernetesName hname hd

theorem databaseHost_eq (app : Project) :
    ∃ suffix ∈ ["-db", "-postgresql"], databaseHost app = app.name ++ suffix := by
  rw [databaseHost]
  by_cases hexplicit : app.spec.database.isSome = true
  · exact ⟨"-db", List.mem_cons_self, if_pos hexplicit⟩
  · exact ⟨"-postgresql", List.mem_cons_of_mem _ List.mem_cons_self, if_neg hexplicit⟩

theorem plain_databaseHost {app : Project} (hname : isKubernetesName app.name = true) {c : Char}
    (hc : c ∈ (databaseHost app).toList) : c ≠ ':' ∧ c ≠ '$' := by
  have hsuffixes : ∀ suffix ∈ ["-db", "-postgresql"],
      (suffix.toList.all fun c ↦ decide (c ≠ ':' ∧ c ≠ '$')) = true := by decide
  obtain ⟨suffix, hsuffix, heq⟩ := databaseHost_eq app
  rw [heq, String.toList_append, List.mem_append] at hc
  rcases hc with hc | hc
  · exact plain_of_kubernetesName hname hc
  · exact of_decide_eq_true (List.all_eq_true.mp (hsuffixes suffix hsuffix) c hc)

/-- Text without a colon that is not empty starts with another character. -/
theorem first_of_plain {s : String} (hne : s ≠ "") (h : ∀ c ∈ s.toList, c ≠ ':') :
    ∃ c rest, s.toList = c :: rest ∧ c ≠ ':' := by
  cases hlist : s.toList with
  | nil => exact absurd (String.toList_inj.mp hlist) hne
  | cons c rest => exact ⟨c, rest, rfl, h c (hlist ▸ List.mem_cons_self)⟩

theorem first_defaultDatabaseUser {app : Project} (hname : isKubernetesName app.name = true) :
    ∃ c rest, (defaultDatabaseUser app).toList = c :: rest ∧ c ≠ ':' := by
  apply first_of_plain
  · intro h
    apply ne_empty_of_kubernetesName hname
    apply String.toList_inj.mp
    have hlist := congrArg String.toList h
    rw [defaultDatabaseUser, replaceChar, String.toList_ofList] at hlist
    exact List.map_eq_nil_iff.mp hlist
  · exact fun c hc ↦ (plain_defaultDatabaseUser hname hc).1

theorem first_databaseHost {app : Project} (hname : isKubernetesName app.name = true) :
    ∃ c rest, (databaseHost app).toList = c :: rest ∧ c ≠ ':' := by
  apply first_of_plain
  · intro h
    obtain ⟨suffix, -, heq⟩ := databaseHost_eq app
    rw [heq, String.append_eq_empty_iff] at h
    exact ne_empty_of_kubernetesName hname h.1
  · exact fun c hc ↦ (plain_databaseHost hname hc).1

theorem last_defaultDatabaseName (app : Project) :
    ∃ init c, (defaultDatabaseName app).toList = init ++ [c] ∧ c ≠ '/' := by
  refine ⟨(defaultDatabaseUser app).toList ++ ['_', 'd'], 'b', ?_, by decide⟩
  simp [defaultDatabaseName, toString]

/-- The port that the text of the variable stands for. -/
def urlPort (app : Project) : Nat :=
  ((app.spec.env.lookup "REINHARDT_DATABASE_PORT").bind parseU16).getD 5432

/-- A part of the text that `spec.env` may set. -/
def urlPart (app : Project) (key added : String) : String :=
  (nonEmptyValue app.spec.env key).getD added

/-- The part is what the list has for the key, or the list has the empty text. -/
theorem urlPart_or {P : String → Prop} (app : Project) (key : String) {added : String}
    (hadded : P added) :
    urlPart app key added = (app.spec.env.lookup key).getD added ∨
      (app.spec.env.lookup key).getD added = "" ∧ P (urlPart app key added) := by
  rw [urlPart, nonEmptyValue]
  cases hlookup : app.spec.env.lookup key with
  | none => exact .inl rfl
  | some value =>
    by_cases hempty : value = ""
    · subst hempty
      exact .inr ⟨rfl, hadded⟩
    · rw [Option.filter_some, decide_eq_true hempty]
      exact .inl rfl

theorem parseU16_le {value : String} {n : Nat} (h : parseU16 value = some n) : n ≤ 65535 := by
  simp only [parseU16, Option.ite_none_left_eq_some, Option.ite_none_right_eq_some,
    Option.some_inj] at h
  obtain ⟨-, hle, rfl⟩ := h
  exact hle

theorem urlPort_le (app : Project) : urlPort app ≤ 65535 := by
  rw [urlPort]
  cases hport : (app.spec.env.lookup "REINHARDT_DATABASE_PORT").bind parseU16 with
  | none => decide
  | some n =>
    obtain ⟨value, -, hvalue⟩ := Option.bind_eq_some_iff.mp hport
    exact parseU16_le hvalue

/-- The decimal text of a port is read as the port. -/
theorem parseU16_toString {n : Nat} (h : n ≤ 65535) : parseU16 (toString n) = some n := by
  obtain ⟨hdecimal, hvalue⟩ := decimalValue_toString n
  rw [isDecimal, Bool.and_eq_true, Bool.not_eq_true', List.all_eq_true] at hdecimal
  have hplus : ∀ rest, (toString n).toList ≠ '+' :: rest := by
    intro rest hlist
    have hdigit := hdecimal.2 '+' (hlist ▸ List.mem_cons_self)
    exact absurd hdigit (by decide)
  unfold parseU16
  split
  next rest hlist => exact absurd hlist (hplus rest)
  next =>
    have hall : (toString n).toList.all Char.isDigit = true := List.all_eq_true.mpr hdecimal.2
    rw [decimalValue] at hvalue
    simp only [hdecimal.1, hall, hvalue, Bool.not_true, Bool.or_self, Bool.false_eq_true,
      ↓reduceIte, if_pos h]

/-- What the operator adds, with the values of the database variables. -/
theorem generatedEnvVars_eq {app : Project} (hdb : shouldProvisionPostgresql app = true) :
    generatedEnvVars app =
      (buildSystemEnvVars ++ buildCoreSecretKeyEnvVars app.name ++
        (if app.spec.authJwt then [buildJwtSecretEnvVar app.name] else [])) ++
      ((if shouldProvisionCache app || needsRedisSessions app then
        [buildRedisPasswordEnvVar app.name, buildRedisCacheEnvVar app.name] else []) ++
      ([envVar "REINHARDT_DATABASE_HOST" (urlPart app "REINHARDT_DATABASE_HOST" (databaseHost app)),
        envVar "REINHARDT_DATABASE_PORT" (toString (urlPort app)),
        envVar "REINHARDT_DATABASE_NAME"
          (urlPart app "REINHARDT_DATABASE_NAME" (defaultDatabaseName app)),
        envVar "REINHARDT_DATABASE_USER"
          (urlPart app "REINHARDT_DATABASE_USER" (defaultDatabaseUser app)),
        ⟨"REINHARDT_DATABASE_PASSWORD", .secretKey s!"{app.name}-db-credentials" "password"⟩] ++
      (envVar "DATABASE_URL" (databaseUrl
        (urlPart app "REINHARDT_DATABASE_USER" (defaultDatabaseUser app))
        (urlPart app "REINHARDT_DATABASE_HOST" (databaseHost app)) (toString (urlPort app))
        (urlPart app "REINHARDT_DATABASE_NAME" (defaultDatabaseName app))) ::
        buildOtelEnvVars app.name))) := by
  unfold generatedEnvVars autoEnvVars
  rw [if_pos hdb]
  simp only [List.append_assoc]
  rfl

/-- `DATABASE_URL` is made of the values that the list gives to the four variables. -/
def UrlAgrees (app : Project) : Prop :=
  ∃ user host port name,
    envVar "REINHARDT_DATABASE_USER" user ∈ buildApplicationEnvVars app ∧
    envVar "REINHARDT_DATABASE_HOST" host ∈ buildApplicationEnvVars app ∧
    envVar "REINHARDT_DATABASE_PORT" port ∈ buildApplicationEnvVars app ∧
    envVar "REINHARDT_DATABASE_NAME" name ∈ buildApplicationEnvVars app ∧
    envVar "DATABASE_URL" (databaseUrl user host port name) ∈ buildApplicationEnvVars app

/-- What `spec.env` may set the parts of the connection string to. -/
structure PartsFit (app : Project) : Prop where
  text : ∀ key ∈ ["REINHARDT_DATABASE_USER", "REINHARDT_DATABASE_HOST", "REINHARDT_DATABASE_NAME"],
    ∀ value, app.spec.env.lookup key = some value → value ≠ "" ∧ ¬ IsSecretRef app value
  port : ∀ value, app.spec.env.lookup "REINHARDT_DATABASE_PORT" = some value →
    ∃ n ≤ 65535, value = toString n

/-- A text that is set and not empty is the part of the connection string. -/
theorem PartsFit.urlPart {app : Project} (h : PartsFit app) {key : String}
    (hkey : key ∈ ["REINHARDT_DATABASE_USER", "REINHARDT_DATABASE_HOST", "REINHARDT_DATABASE_NAME"])
    (added : String) :
    urlPart app key added = (app.spec.env.lookup key).getD added := by
  rw [Operator.urlPart, nonEmptyValue]
  cases hlookup : app.spec.env.lookup key with
  | none => rfl
  | some value =>
    rw [Option.filter_some, decide_eq_true (h.text key hkey value hlookup).1, if_pos rfl]

theorem PartsFit.urlPort {app : Project} (h : PartsFit app) :
    toString (urlPort app) = (app.spec.env.lookup "REINHARDT_DATABASE_PORT").getD "5432" := by
  rw [Operator.urlPort]
  cases hlookup : app.spec.env.lookup "REINHARDT_DATABASE_PORT" with
  | none => decide
  | some value =>
    obtain ⟨n, hn, rfl⟩ := h.port value hlookup
    rw [Option.bind_some, parseU16_toString hn]
    rfl

/-- A decimal text refers to no Secret. -/
theorem not_isSecretRef_toString (app : Project) (n : Nat) : ¬ IsSecretRef app (toString n) := by
  rintro ⟨key, hkey⟩
  rw [parseSecretRef, Option.bind_eq_some_iff] at hkey
  obtain ⟨body, hbody, -⟩ := hkey
  rw [List.isPrefixOf?_eq_some_iff_append_eq] at hbody
  have hs : 's' ∈ (toString n).toList := hbody ▸ List.mem_cons_self
  obtain ⟨hdecimal, -⟩ := decimalValue_toString n
  rw [isDecimal, Bool.and_eq_true, List.all_eq_true] at hdecimal
  exact absurd (hdecimal.2 's' hs) (by decide)

/-- What the list has for a key that is not set is the part itself. -/
theorem getD_urlPart (app : Project) (key added : String) :
    (app.spec.env.lookup key).getD (urlPart app key added) =
      (app.spec.env.lookup key).getD added := by
  cases hlookup : app.spec.env.lookup key with
  | none =>
    rw [urlPart, nonEmptyValue, hlookup]
    rfl
  | some value => rfl

theorem getD_urlPort (app : Project) :
    (app.spec.env.lookup "REINHARDT_DATABASE_PORT").getD (toString (urlPort app)) =
      (app.spec.env.lookup "REINHARDT_DATABASE_PORT").getD "5432" := by
  cases hlookup : app.spec.env.lookup "REINHARDT_DATABASE_PORT" with
  | none =>
    rw [urlPort, hlookup]
    decide
  | some value => rfl

theorem ne_empty_of_mem {s : String} {c : Char} (h : c ∈ s.toList) : s ≠ "" := by
  rintro rfl
  cases h

/-- A part that equals what the list has for it is not set to the empty text. -/
theorem ne_empty_of_urlPart {app : Project} {key added value : String}
    (h : urlPart app key added = (app.spec.env.lookup key).getD added) (hadded : added ≠ "")
    (hvalue : app.spec.env.lookup key = some value) : value ≠ "" := by
  rintro rfl
  rw [urlPart, nonEmptyValue, hvalue] at h
  exact hadded h

/-- The variables of the database whose values are texts. -/
def databaseTexts (app : Project) : List EnvVar :=
  [envVar "REINHARDT_DATABASE_HOST" (urlPart app "REINHARDT_DATABASE_HOST" (databaseHost app)),
    envVar "REINHARDT_DATABASE_PORT" (toString (urlPort app)),
    envVar "REINHARDT_DATABASE_NAME"
      (urlPart app "REINHARDT_DATABASE_NAME" (defaultDatabaseName app)),
    envVar "REINHARDT_DATABASE_USER"
      (urlPart app "REINHARDT_DATABASE_USER" (defaultDatabaseUser app)),
    envVar "DATABASE_URL" (databaseUrl
      (urlPart app "REINHARDT_DATABASE_USER" (defaultDatabaseUser app))
      (urlPart app "REINHARDT_DATABASE_HOST" (databaseHost app)) (toString (urlPort app))
      (urlPart app "REINHARDT_DATABASE_NAME" (defaultDatabaseName app)))]

theorem mem_generatedEnvVars {app : Project} (hdb : shouldProvisionPostgresql app = true)
    {var : EnvVar} (h : var ∈ databaseTexts app) : var ∈ generatedEnvVars app := by
  rw [generatedEnvVars_eq hdb]
  refine List.mem_append_right _ (List.mem_append_right _ ?_)
  rw [databaseTexts] at h
  simp only [List.mem_cons, List.not_mem_nil, or_false] at h
  simp only [List.mem_append, List.mem_cons, List.not_mem_nil, or_false]
  rcases h with h | h | h | h | h
  · exact .inl (.inl h)
  · exact .inl (.inr (.inl h))
  · exact .inl (.inr (.inr (.inl h)))
  · exact .inl (.inr (.inr (.inr (.inl h))))
  · exact .inr (.inl h)

/-- The connection string agrees exactly when the parts that are set are the parts it is made of. -/
theorem urlAgrees_iff {app : Project} (hdb : shouldProvisionPostgresql app = true)
    (hkeys : (envKeys app).Nodup) (hurl : app.spec.env.lookup "DATABASE_URL" = none)
    (hname : isKubernetesName app.name = true) : UrlAgrees app ↔ PartsFit app := by
  have htexts {key added : String} (h : envVar key added ∈ databaseTexts app) (text : String) :=
    @literal_mem_iff app hdb hkeys key added text (mem_generatedEnvVars hdb h)
  have huser := htexts (List.mem_cons_of_mem _ (List.mem_cons_of_mem _ (List.mem_cons_of_mem _
    List.mem_cons_self)))
  have hhost := htexts List.mem_cons_self
  have hport := htexts (List.mem_cons_of_mem _ List.mem_cons_self)
  have hdatabase := htexts (List.mem_cons_of_mem _ (List.mem_cons_of_mem _ List.mem_cons_self))
  have hdatabaseUrl := htexts (List.mem_cons_of_mem _ (List.mem_cons_of_mem _
    (List.mem_cons_of_mem _ (List.mem_cons_of_mem _ List.mem_cons_self))))
  simp only [getD_urlPart, getD_urlPort] at huser hhost hport hdatabase
  obtain ⟨_, _, hfirstUser, -⟩ := first_defaultDatabaseUser hname
  obtain ⟨_, _, hfirstHost, -⟩ := first_databaseHost hname
  obtain ⟨_, _, hlast, -⟩ := last_defaultDatabaseName app
  constructor
  · rintro ⟨user, host, port, name, hu, hh, hp, hn, hdbUrl⟩
    obtain ⟨rfl, hsecretUser⟩ := (huser user).mp hu
    obtain ⟨rfl, hsecretHost⟩ := (hhost host).mp hh
    obtain ⟨rfl, -⟩ := (hport port).mp hp
    obtain ⟨rfl, hsecretName⟩ := (hdatabase name).mp hn
    obtain ⟨hsame, -⟩ := (hdatabaseUrl _).mp hdbUrl
    rw [hurl, Option.getD_none] at hsame
    obtain ⟨heqUser, heqHost, heqPort, heqName⟩ := parts_of_databaseUrl_eq hsame.symm
      (urlPart_or (P := fun s ↦ ∃ c rest, s.toList = c :: rest ∧ c ≠ ':') app _
        (first_defaultDatabaseUser hname))
      (urlPart_or (P := fun s ↦ ∃ c rest, s.toList = c :: rest ∧ c ≠ ':') app _
        (first_databaseHost hname))
      (urlPart_or (P := fun s ↦ ∃ init c, s.toList = init ++ [c] ∧ c ≠ '/') app _
        (last_defaultDatabaseName app))
    constructor
    · intro key hkey value hvalue
      simp only [List.mem_cons, List.not_mem_nil, or_false] at hkey
      rcases hkey with rfl | rfl | rfl
      · exact ⟨ne_empty_of_urlPart heqUser (ne_empty_of_mem (hfirstUser ▸ List.mem_cons_self))
          hvalue, hsecretUser value hvalue⟩
      · exact ⟨ne_empty_of_urlPart heqHost (ne_empty_of_mem (hfirstHost ▸ List.mem_cons_self))
          hvalue, hsecretHost value hvalue⟩
      · exact ⟨ne_empty_of_urlPart heqName (ne_empty_of_mem (hlast ▸ List.mem_concat_self))
          hvalue, hsecretName value hvalue⟩
    · intro value hvalue
      rw [hvalue, Option.getD_some] at heqPort
      exact ⟨urlPort app, urlPort_le app, heqPort.symm⟩
  · intro hfit
    refine ⟨_, _, _, _, (huser _).mpr ⟨rfl, ?_⟩, (hhost _).mpr ⟨rfl, ?_⟩, (hport _).mpr ⟨rfl, ?_⟩,
      (hdatabase _).mpr ⟨rfl, ?_⟩, (hdatabaseUrl _).mpr ⟨?_, ?_⟩⟩
    · exact fun value h ↦ (hfit.text _ List.mem_cons_self value h).2
    · exact fun value h ↦ (hfit.text _ (List.mem_cons_of_mem _ List.mem_cons_self) value h).2
    · intro value h
      obtain ⟨n, -, rfl⟩ := hfit.port value h
      exact not_isSecretRef_toString app n
    · exact fun value h ↦ (hfit.text _ (List.mem_cons_of_mem _ (List.mem_cons_of_mem _
        List.mem_cons_self)) value h).2
    · rw [hurl, Option.getD_none, hfit.urlPart (by simp), hfit.urlPart (by simp),
        hfit.urlPart (by simp), hfit.urlPort]
    · intro value h
      rw [hurl] at h
      cases h

/-- The texts of `spec.env` that make the connection string, and the references it gets from them:
up to the at sign and behind it. -/
structure DatabaseEnvFits (app : Project) : Prop extends PartsFit app where
  user : ∀ value, app.spec.env.lookup "REINHARDT_DATABASE_USER" = some value →
    ∀ name ∈ references s!"{value}:$(REINHARDT_DATABASE_PASSWORD)",
      name ∈ envKeys app ∨ name ∈ namesBeforeUrl app
  address : ∀ host port name,
    host = (app.spec.env.lookup "REINHARDT_DATABASE_HOST").getD (databaseHost app) →
    port = (app.spec.env.lookup "REINHARDT_DATABASE_PORT").getD "5432" →
    name = (app.spec.env.lookup "REINHARDT_DATABASE_NAME").getD (defaultDatabaseName app) →
    ∀ ref ∈ references s!"{host}:{port}/{name}", ref ∈ envKeys app ∨ ref ∈ namesBeforeUrl app

theorem references_password (user : String) (h : '$' ∉ user.toList) :
    references s!"{user}:$(REINHARDT_DATABASE_PASSWORD)" = ["REINHARDT_DATABASE_PASSWORD"] := by
  have hlist : s!"{user}:$(REINHARDT_DATABASE_PASSWORD)".toList = (user.toList ++ [':']) ++
      (('$' :: '(' :: "REINHARDT_DATABASE_PASSWORD".toList ++ [')']) ++ []) := by
    simp [toString]
  rw [references, hlist, references_single ?_ (by decide +kernel) List.not_mem_nil]
  · rfl
  · rw [List.mem_append, not_or]
    exact ⟨h, by decide⟩

theorem references_redisUrl {app : Project} (hname : isKubernetesName app.name = true) :
    references s!"redis://:$(REINHARDT_CLOUD_REDIS_PASSWORD)@{app.name}-redis:6379/0" =
      ["REINHARDT_CLOUD_REDIS_PASSWORD"] := by
  have hlist : s!"redis://:$(REINHARDT_CLOUD_REDIS_PASSWORD)@{app.name}-redis:6379/0".toList =
      "redis://:".toList ++ (('$' :: '(' :: "REINHARDT_CLOUD_REDIS_PASSWORD".toList ++ [')']) ++
        ('@' :: (app.name.toList ++ "-redis:6379/0".toList))) := by
    simp [toString]
  rw [references, hlist, references_single (by decide +kernel) (by decide +kernel) ?_]
  · rfl
  · rw [List.mem_cons, List.mem_append, not_or, not_or]
    refine ⟨by decide, fun h ↦ (plain_of_kubernetesName hname h).2 rfl, by decide +kernel⟩

theorem lookup_eq_none_iff {app : Project} {key : String} :
    app.spec.env.lookup key = none ↔ key ∉ envKeys app := by
  rw [List.lookup_eq_none_iff, envKeys, List.mem_map]
  constructor
  · rintro h ⟨kv, hkv, rfl⟩
    exact absurd rfl (bne_iff_ne.mp (h kv hkv))
  · intro h kv hkv
    exact bne_iff_ne.mpr fun he ↦ h ⟨kv, hkv, he.symm⟩

/-- A part that is not set is the operator's own. -/
theorem urlPart_of_notMem {app : Project} {key : String} (h : key ∉ envKeys app) (added : String) :
    urlPart app key added = added := by
  rw [urlPart, nonEmptyValue, lookup_eq_none_iff.mpr h]
  rfl

theorem plain_defaultDatabaseName {app : Project} (hname : isKubernetesName app.name = true) :
    '$' ∉ (defaultDatabaseName app).toList := by
  have hlist : (defaultDatabaseName app).toList =
      (defaultDatabaseUser app).toList ++ "_db".toList := by
    simp [defaultDatabaseName, toString]
  rw [hlist, List.mem_append, not_or]
  exact ⟨fun h ↦ (plain_defaultDatabaseUser hname h).2 rfl, by decide⟩

theorem plain_toString (n : Nat) : '$' ∉ (toString n).toList := by
  intro h
  obtain ⟨hdecimal, -⟩ := decimalValue_toString n
  rw [isDecimal, Bool.and_eq_true, List.all_eq_true] at hdecimal
  exact absurd (hdecimal.2 '$' h) (by decide)

section Parts

variable {app : Project} (keys seen : List String)

theorem refersBack_systemEnvVars : RefersBack keys seen
    (buildSystemEnvVars ++ buildCoreSecretKeyEnvVars app.name ++
      (if app.spec.authJwt then [buildJwtSecretEnvVar app.name] else [])) := by
  apply refersBack_of_plain
  intro var hvar _ text htext
  simp only [buildSystemEnvVars, buildCoreSecretKeyEnvVars, List.mem_append, List.mem_cons,
    List.not_mem_nil, or_false, List.mem_ite_nil_right] at hvar
  rcases hvar with (rfl | rfl | rfl) | ⟨-, rfl⟩
  · cases htext
    decide
  · cases htext
  · cases htext
  · cases htext

/-- The password stands before the connection string of the cache. -/
theorem refersBack_redisEnvVars (hname : isKubernetesName app.name = true) : RefersBack keys seen
    (if shouldProvisionCache app || needsRedisSessions app then
      [buildRedisPasswordEnvVar app.name, buildRedisCacheEnvVar app.name] else []) := by
  by_cases hneeds : (shouldProvisionCache app || needsRedisSessions app) = true
  · rw [if_pos hneeds, RefersBack, RefersBack, RefersBack]
    refine ⟨fun _ text htext ↦ ?_, fun _ text htext name hmem ↦ .inr ?_, trivial⟩
    · cases htext
    · cases htext
      rw [references_redisUrl hname, List.mem_singleton] at hmem
      subst hmem
      exact List.mem_append_right _ List.mem_cons_self
  · rw [if_neg hneeds]
    trivial

theorem refersBack_otelEnvVars (hname : isKubernetesName app.name = true) :
    RefersBack keys seen (buildOtelEnvVars app.name) := by
  apply refersBack_of_plain
  intro var hvar _ text htext
  simp only [buildOtelEnvVars, List.mem_cons, List.not_mem_nil, or_false] at hvar
  rcases hvar with rfl | rfl
  · cases htext
    decide
  · cases htext
    exact fun h ↦ (plain_of_kubernetesName hname h).2 rfl

/-- The parts of the connection string are the operator's own texts where they are not set. -/
theorem refersBack_databaseParts (hname : isKubernetesName app.name = true) :
    RefersBack (envKeys app) seen
      [envVar "REINHARDT_DATABASE_HOST" (urlPart app "REINHARDT_DATABASE_HOST" (databaseHost app)),
        envVar "REINHARDT_DATABASE_PORT" (toString (urlPort app)),
        envVar "REINHARDT_DATABASE_NAME"
          (urlPart app "REINHARDT_DATABASE_NAME" (defaultDatabaseName app)),
        envVar "REINHARDT_DATABASE_USER"
          (urlPart app "REINHARDT_DATABASE_USER" (defaultDatabaseUser app)),
        ⟨"REINHARDT_DATABASE_PASSWORD",
          .secretKey s!"{app.name}-db-credentials" "password"⟩] := by
  apply refersBack_of_plain
  intro var hvar hkey text htext
  simp only [List.mem_cons, List.not_mem_nil, or_false] at hvar
  rcases hvar with rfl | rfl | rfl | rfl | rfl
  · cases htext
    rw [@urlPart_of_notMem app "REINHARDT_DATABASE_HOST" hkey]
    exact fun h ↦ (plain_databaseHost hname h).2 rfl
  · cases htext
    exact plain_toString _
  · cases htext
    rw [@urlPart_of_notMem app "REINHARDT_DATABASE_NAME" hkey]
    exact plain_defaultDatabaseName hname
  · cases htext
    rw [@urlPart_of_notMem app "REINHARDT_DATABASE_USER" hkey]
    exact fun h ↦ (plain_defaultDatabaseUser hname h).2 rfl
  · cases htext

end Parts

/-- The references that every environment has are to variables further up; those of the connection
string remain. -/
theorem refersBack_generatedEnvVars {app : Project} (hdb : shouldProvisionPostgresql app = true)
    (hurl : "DATABASE_URL" ∉ envKeys app) (hname : isKubernetesName app.name = true) :
    RefersBack (envKeys app) [] (generatedEnvVars app) ↔
      ∀ name ∈ references (databaseUrl
          (urlPart app "REINHARDT_DATABASE_USER" (defaultDatabaseUser app))
          (urlPart app "REINHARDT_DATABASE_HOST" (databaseHost app)) (toString (urlPort app))
          (urlPart app "REINHARDT_DATABASE_NAME" (defaultDatabaseName app))),
        name ∈ envKeys app ∨ name ∈ namesBeforeUrl app := by
  rw [generatedEnvVars_eq hdb, refersBack_append, and_iff_right (refersBack_systemEnvVars _ _),
    refersBack_append, and_iff_right (refersBack_redisEnvVars _ _ hname), refersBack_append,
    and_iff_right (refersBack_databaseParts _ hname), RefersBack,
    and_iff_left (refersBack_otelEnvVars _ _ hname)]
  have hseen : ([] ++ (buildSystemEnvVars ++ buildCoreSecretKeyEnvVars app.name ++
        (if app.spec.authJwt then [buildJwtSecretEnvVar app.name] else [])).map EnvVar.name ++
      (if shouldProvisionCache app || needsRedisSessions app then
        [buildRedisPasswordEnvVar app.name, buildRedisCacheEnvVar app.name]
      else []).map EnvVar.name ++
      ["REINHARDT_DATABASE_HOST", "REINHARDT_DATABASE_PORT", "REINHARDT_DATABASE_NAME",
        "REINHARDT_DATABASE_USER", "REINHARDT_DATABASE_PASSWORD"]) = namesBeforeUrl app := by
    rw [namesBeforeUrl]
    cases app.spec.authJwt <;> cases shouldProvisionCache app || needsRedisSessions app <;> rfl
  constructor
  · intro h name hmem
    have hback := h hurl _ rfl name hmem
    rw [← hseen]
    exact hback
  · intro h _ text htext name hmem
    cases htext
    have hback := h name hmem
    rw [← hseen] at hback
    exact hback

/-- For a project that needs a database and does not set `DATABASE_URL`: no name is there twice,
every reference is to a variable at an earlier position, and the connection string is made of the
values of the four variables, exactly when the parts that are set fit and what they refer to stands
before it. -/
theorem database_url_agrees_iff {app : Project} (hdb : shouldProvisionPostgresql app = true)
    (hurl : "DATABASE_URL" ∉ envKeys app) (hkeys : (envKeys app).Nodup)
    (hname : isKubernetesName app.name = true) :
    (((buildApplicationEnvVars app).map EnvVar.name).Nodup ∧ ReferencesEarlier app ∧
      UrlAgrees app) ↔ DatabaseEnvFits app := by
  have hnodup := nodup_buildApplicationEnvVars hdb hkeys
  rw [referencesEarlier_iff hdb hkeys, refersBack_generatedEnvVars hdb hurl hname,
    urlAgrees_iff hdb hkeys (lookup_eq_none_iff.mpr hurl) hname, references_databaseUrl]
  simp only [List.mem_append, or_imp, forall_and]
  constructor
  · rintro ⟨-, ⟨huser, haddress⟩, hfit⟩
    refine ⟨hfit, ?_, ?_⟩
    · intro value hvalue
      rw [hfit.urlPart List.mem_cons_self, hvalue] at huser
      exact huser
    · rintro host port name rfl rfl rfl
      rw [hfit.urlPart (by simp), hfit.urlPart (by simp), hfit.urlPort] at haddress
      exact haddress
  · intro h
    refine ⟨hnodup, ⟨?_, ?_⟩, h.toPartsFit⟩
    · rw [h.toPartsFit.urlPart List.mem_cons_self]
      cases hvalue : app.spec.env.lookup "REINHARDT_DATABASE_USER" with
      | none =>
        rw [Option.getD_none, references_password]
        · intro name hmem
          rw [List.mem_singleton] at hmem
          subst hmem
          refine .inr (List.mem_append_right _ ?_)
          simp
        · exact fun hmem ↦ (plain_defaultDatabaseUser hname hmem).2 rfl
      | some value => exact h.user value hvalue
    · rw [h.toPartsFit.urlPart (by simp), h.toPartsFit.urlPart (by simp), h.toPartsFit.urlPort]
      exact h.address _ _ _ rfl rfl rfl

/-- The Project `shop` with a database and the given `spec.env`. -/
def shopWithEnv (env : StringMap) : Project :=
  ⟨"shop", some "team", some 7, none, ⟨none, none, none, none⟩,
    { image := "registry.example/shop:1", database := some .postgresql, env := env }, none, none⟩

/-- With a host and a port of its own the project's connection string has them. -/
theorem database_url_agrees_iff_own_host :
    UrlAgrees (shopWithEnv [("REINHARDT_DATABASE_HOST", "db.example"),
      ("REINHARDT_DATABASE_PORT", "6432")]) := by
  refine ((database_url_agrees_iff (by decide) (by decide) (by decide) (by decide)).mpr
    ⟨⟨?_, ?_⟩, ?_, ?_⟩).2.2
  · intro key hkey value hvalue
    simp only [List.mem_cons, List.not_mem_nil, or_false] at hkey
    rcases hkey with rfl | rfl | rfl
    · cases hvalue
    · cases hvalue
      refine ⟨by decide, ?_⟩
      rintro ⟨key, hkey⟩
      cases hkey
    · cases hvalue
  · intro value hvalue
    cases hvalue
    exact ⟨6432, by decide, by decide⟩
  · intro value hvalue
    cases hvalue
  · intro host port name hhost hport hname ref href
    have hnone : references s!"{host}:{port}/{name}" = [] := by
      rw [hhost, hport, hname]
      decide +kernel
    rw [hnone] at href
    cases href

/-- The Project with the user name from its own Secret. -/
def secretUser : Project :=
  shopWithEnv [("REINHARDT_DATABASE_USER", "secretRef:shop-secrets/db-user")]

example : ⟨"REINHARDT_DATABASE_USER", .secretKey "shop-secrets" "db-user"⟩ ∈
      buildApplicationEnvVars secretUser ∧
    envVar "DATABASE_URL"
        (databaseUrl "secretRef:shop-secrets/db-user" "shop-db" "5432" "shop_db") ∈
      buildApplicationEnvVars secretUser := by decide +kernel

/-- A user name from the application's Secret is a reference in the list, and the text of the
reference in the connection string. -/
theorem database_url_disagrees :
    ¬ ∀ app : Project, shouldProvisionPostgresql app = true → "DATABASE_URL" ∉ envKeys app →
      (envKeys app).Nodup → isKubernetesName app.name = true →
      ((buildApplicationEnvVars app).map EnvVar.name).Nodup ∧ ReferencesEarlier app ∧
        UrlAgrees app := by
  intro h
  obtain ⟨-, -, hagrees⟩ := h secretUser (by decide) (by decide) (by decide) (by decide)
  have hfit := (urlAgrees_iff (by decide) (by decide) rfl (by decide)).mp hagrees
  exact (hfit.text _ List.mem_cons_self _ rfl).2 ⟨"db-user", by decide⟩

end ReinhardtCloud.Operator
