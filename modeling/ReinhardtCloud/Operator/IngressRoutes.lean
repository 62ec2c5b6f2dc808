import ReinhardtCloud.Base.PathPrefixes
import ReinhardtCloud.Operator.Workloads

/-!
# Routing of Ingresses

Library `Operator`. Where an Ingress sends the requests of an application's routes and those of
its static files (`crates/reinhardt-cloud-operator/src/resources/ingress.rs:59–157`). Its paths are
prefixes of whole elements; a route's path is a pattern, which the Ingress takes as it is written.
-/

namespace ReinhardtCloud.Operator

open ReinhardtCloud.Base

/-! ## Requests -/

/-- A segment such as `{provider_id}`. -/
def isParameter (segment : List Char) : Bool :=
  segment.head? = some '{' && segment.getLast? = some '}'

/-- The elements of a path. -/
def elementsOf (path : String) : List (List Char) := pathElements path.toList

/-- A request that a route's pattern matches. -/
def MatchesRoute (route request : String) : Prop :=
  MatchesPattern isParameter (elementsOf route) (elementsOf request)

/-- What a controller reads from the paths: each prefix with its Service and port. -/
def routingTable (paths : List HttpIngressPath) : List (List (List Char) × (String × UInt16)) :=
  paths.map fun p ↦ (elementsOf p.path, (p.serviceName, p.servicePort))

/-- No prefix leads to two backends, the requests of every route lead to the application and those
under the static URL to the static server. -/
structure FollowsRoutes (app : Project) (routes : List String) (appPort : UInt16)
    (pagesConfig : Option ResolvedPagesConfig) (paths : List HttpIngressPath) : Prop where
  unambiguous : Unambiguous (routingTable paths)
  application : ∀ route ∈ routes, ∀ request, MatchesRoute route request →
    ForwardedTo (routingTable paths) (elementsOf request) (app.name, appPort)
  static : ∀ config ∈ pagesConfig, ∀ request, elementsOf config.staticUrl <+: elementsOf request →
    ForwardedTo (routingTable paths) (elementsOf request) (app.name, 8080)

/-! ## What is in the table -/

/-- The paths that signals add. -/
def signalPaths (signals : Option InfraSignals) : List String :=
  (if signals.any fun s ↦ s.graphql then ["/graphql/"] else []) ++
    if signals.any fun s ↦ s.adminPanel then ["/admin/"] else []

section Table

variable {app : Project} {routes : List String} {appPort : UInt16} {signals : Option InfraSignals}
  {pagesConfig : Option ResolvedPagesConfig}

/-- The paths before the static one is inserted. -/
def applicationPaths (app : Project) (routes : List String) (appPort : UInt16)
    (signals : Option InfraSignals) : List HttpIngressPath :=
  appendPath (appendPath (routes.map fun route ↦ ⟨route, app.name, appPort⟩)
    (signals.any fun s ↦ s.graphql) ⟨"/graphql/", app.name, appPort⟩)
    (signals.any fun s ↦ s.adminPanel) ⟨"/admin/", app.name, appPort⟩

/-- A path that is appended when it is not there is there. -/
theorem mem_appendPath_iff {paths : List HttpIngressPath} {wanted : Bool} {path p : HttpIngressPath}
    (hsame : ∀ q ∈ paths, q.path = path.path → q = path) :
    p ∈ appendPath paths wanted path ↔ p ∈ paths ∨ wanted = true ∧ p = path := by
  unfold appendPath
  cases wanted with
  | false => simp
  | true =>
    by_cases hthere : (paths.any fun q ↦ q.path = path.path) = true
    · obtain ⟨q, hq, hpath⟩ := List.any_eq_true.mp hthere
      obtain rfl := hsame q hq (of_decide_eq_true hpath)
      rw [hthere, Bool.not_true, Bool.and_false, if_neg Bool.false_ne_true]
      constructor
      · exact Or.inl
      · rintro (hp | ⟨-, rfl⟩)
        · exact hp
        · exact hq
    · rw [Bool.not_eq_true] at hthere
      rw [hthere, Bool.not_false, Bool.and_true, if_pos rfl, List.mem_append, List.mem_singleton]
      rw [eq_self_iff_true, true_and]

theorem mem_signalPaths {path : String} : path ∈ signalPaths signals ↔
    (signals.any fun s ↦ s.graphql) = true ∧ path = "/graphql/" ∨
      (signals.any fun s ↦ s.adminPanel) = true ∧ path = "/admin/" := by
  unfold signalPaths
  cases signals.any fun s ↦ s.graphql <;> cases signals.any fun s ↦ s.adminPanel <;> simp

theorem mem_applicationPaths {p : HttpIngressPath} :
    p ∈ applicationPaths app routes appPort signals ↔
      ∃ path ∈ routes ++ signalPaths signals, p = ⟨path, app.name, appPort⟩ := by
  have hroutes : ∀ q ∈ routes.map fun route ↦ (⟨route, app.name, appPort⟩ : HttpIngressPath),
      q = ⟨q.path, app.name, appPort⟩ := by
    intro q hq
    obtain ⟨route, -, rfl⟩ := List.mem_map.mp hq
    rfl
  have hgraphql : ∀ q ∈ appendPath (routes.map fun route ↦ ⟨route, app.name, appPort⟩)
      (signals.any fun s ↦ s.graphql) ⟨"/graphql/", app.name, appPort⟩,
      q = ⟨q.path, app.name, appPort⟩ := by
    intro q hq
    rcases mem_appendPath hq with hq | rfl
    · exact hroutes q hq
    · rfl
  rw [applicationPaths, mem_appendPath_iff, mem_appendPath_iff, List.mem_map]
  · constructor
    · rintro ((⟨route, hroute, rfl⟩ | ⟨hwanted, rfl⟩) | ⟨hwanted, rfl⟩)
      · exact ⟨route, List.mem_append_left _ hroute, rfl⟩
      · exact ⟨_, List.mem_append_right _ (mem_signalPaths.mpr (Or.inl ⟨hwanted, rfl⟩)), rfl⟩
      · exact ⟨_, List.mem_append_right _ (mem_signalPaths.mpr (Or.inr ⟨hwanted, rfl⟩)), rfl⟩
    · rintro ⟨path, hpath, rfl⟩
      rcases List.mem_append.mp hpath with hpath | hpath
      · exact Or.inl (Or.inl ⟨path, hpath, rfl⟩)
      · rcases mem_signalPaths.mp hpath with ⟨hwanted, rfl⟩ | ⟨hwanted, rfl⟩
        · exact Or.inl (Or.inr ⟨hwanted, rfl⟩)
        · exact Or.inr ⟨hwanted, rfl⟩
  · intro q hq hpath
    rw [hroutes q hq, hpath]
  · intro q hq hpath
    rw [hgraphql q hq, hpath]

theorem ingressPaths_some (config : ResolvedPagesConfig) :
    ingressPaths app routes appPort signals (some config) =
      insertStaticPath (applicationPaths app routes appPort signals)
        ⟨config.staticUrl, app.name, 8080⟩ :=
  rfl

/-- The entry of a path that leads to the application, and that of the static URL. -/
theorem mem_routingTable {entry : List (List Char) × (String × UInt16)}
    (h : entry ∈ routingTable (ingressPaths app routes appPort signals pagesConfig)) :
    (∃ path ∈ routes ++ signalPaths signals, entry = (elementsOf path, (app.name, appPort))) ∨
      ∃ config ∈ pagesConfig, entry = (elementsOf config.staticUrl, (app.name, 8080)) := by
  obtain ⟨p, hp, rfl⟩ := List.mem_map.mp h
  cases pagesConfig with
  | none =>
    obtain ⟨path, hpath, rfl⟩ := mem_applicationPaths.mp hp
    exact Or.inl ⟨path, hpath, rfl⟩
  | some config =>
    rcases mem_insertStaticPath hp with hp | rfl
    · obtain ⟨path, hpath, rfl⟩ := mem_applicationPaths.mp hp
      exact Or.inl ⟨path, hpath, rfl⟩
    · exact Or.inr ⟨config, rfl, rfl⟩

theorem application_mem_routingTable {path : String} (h : path ∈ routes ++ signalPaths signals) :
    (elementsOf path, (app.name, appPort)) ∈
      routingTable (ingressPaths app routes appPort signals pagesConfig) := by
  have hmem : (⟨path, app.name, appPort⟩ : HttpIngressPath) ∈
      applicationPaths app routes appPort signals := mem_applicationPaths.mpr ⟨path, h, rfl⟩
  refine List.mem_map.mpr ⟨⟨path, app.name, appPort⟩, ?_, rfl⟩
  cases pagesConfig with
  | none => exact hmem
  | some config => exact subset_insertStaticPath hmem

/-- The static URL is there, or was there before. -/
theorem static_mem_routingTable {config : ResolvedPagesConfig} (h : config ∈ pagesConfig) :
    (elementsOf config.staticUrl, (app.name, 8080)) ∈
        routingTable (ingressPaths app routes appPort signals pagesConfig) ∨
      config.staticUrl ∈ routes ++ signalPaths signals := by
  cases h
  by_cases hthere : (applicationPaths app routes appPort signals).any
      (fun p ↦ p.path = config.staticUrl) = true
  · right
    obtain ⟨p, hp, hpath⟩ := List.any_eq_true.mp hthere
    obtain ⟨path, hmem, rfl⟩ := mem_applicationPaths.mp hp
    rwa [← of_decide_eq_true hpath]
  · left
    refine List.mem_map.mpr ⟨⟨config.staticUrl, app.name, 8080⟩, ?_, rfl⟩
    rw [ingressPaths_some, insertStaticPath, if_neg hthere]
    exact List.mem_append_right _ List.mem_cons_self

end Table

/-! ## Which Ingresses follow the routes -/

/-- No path of the application is at the static URL or under it; it does not matter where the
application has the port of the static server itself. -/
def StaticApart (routes : List String) (appPort : UInt16) (signals : Option InfraSignals)
    (pagesConfig : Option ResolvedPagesConfig) : Prop :=
  ∀ config ∈ pagesConfig, appPort ≠ 8080 →
    (∀ route ∈ routes, mayBegin isParameter (elementsOf config.staticUrl) (elementsOf route) =
      false) ∧
    ∀ path ∈ signalPaths signals, ¬ elementsOf config.staticUrl <+: elementsOf path

/-- The paths that lead to the application port. -/
def pathsToApplication (routes : List String) (appPort : UInt16) (signals : Option InfraSignals)
    (pagesConfig : Option ResolvedPagesConfig) : List String :=
  routes ++ signalPaths signals ++
    if appPort = 8080 then pagesConfig.toList.map ResolvedPagesConfig.staticUrl else []

/-- A path to the application leads to what stands before the first parameter of a route. -/
def HeadsCovered (routes : List String) (appPort : UInt16) (signals : Option InfraSignals)
    (pagesConfig : Option ResolvedPagesConfig) : Prop :=
  ∀ route ∈ routes, ∃ path ∈ pathsToApplication routes appPort signals pagesConfig,
    elementsOf path <+: fixedHead isParameter (elementsOf route)

section Follows

variable {app : Project} {routes : List String} {appPort : UInt16} {host : Option String}
  {signals : Option InfraSignals} {pagesConfig : Option ResolvedPagesConfig} {ing : Ingress}

theorem exists_request {elements : List (List Char)} (hne : elements ≠ [])
    (hslash : ∀ element ∈ elements, '/' ∉ element) :
    ∃ request, elementsOf request = elements := by
  obtain ⟨path, hpath⟩ := exists_pathElements hne hslash
  refine ⟨String.ofList path, ?_⟩
  rw [elementsOf, String.toList_ofList, hpath]

/-- Apart from the static URL, what begins with it leads nowhere else. -/
theorem StaticApart.not_prefix (h : StaticApart routes appPort signals pagesConfig)
    {config : ResolvedPagesConfig} (hconfig : config ∈ pagesConfig) (hport : appPort ≠ 8080)
    {path : String} (hpath : path ∈ routes ++ signalPaths signals) :
    ¬ elementsOf config.staticUrl <+: elementsOf path := by
  obtain ⟨hroutes, hsignals⟩ := h config hconfig hport
  rcases List.mem_append.mp hpath with hpath | hpath
  · intro hbegins
    have hself : MatchesPattern isParameter (elementsOf path) (elementsOf path) := matches_self _
    have hbegin := mayBegin_of_matches hself hbegins
    rw [hroutes path hpath] at hbegin
    cases hbegin
  · exact hsignals path hpath

theorem staticApart_of_follows
    (h : FollowsRoutes app routes appPort pagesConfig
      (ingressPaths app routes appPort signals pagesConfig)) :
    StaticApart routes appPort signals pagesConfig := by
  intro config hconfig hport
  -- no request can be forwarded both ways
  have hclash : ∀ request, elementsOf config.staticUrl <+: elementsOf request →
      ¬ ForwardedTo (routingTable (ingressPaths app routes appPort signals pagesConfig))
        (elementsOf request) (app.name, appPort) := by
    rintro request hbegins ⟨⟨entry, hentry⟩, happlication⟩
    have hstatic := (h.static config hconfig request hbegins).2 entry hentry
    rw [happlication entry hentry] at hstatic
    exact hport (Prod.mk.inj hstatic).2
  constructor
  · intro route hroute
    by_contra hbegin
    rw [Bool.not_eq_false] at hbegin
    have hslash : ∀ element ∈ elementsOf config.staticUrl ++
        (elementsOf route).drop (elementsOf config.staticUrl).length, '/' ∉ element := by
      intro element helement
      rcases List.mem_append.mp helement with helement | helement
      · exact not_mem_of_mem_pathElements helement
      · exact not_mem_of_mem_pathElements (List.mem_of_mem_drop helement)
    obtain ⟨request, hrequest⟩ := exists_request
      (List.append_ne_nil_of_left_ne_nil (pathElements_ne_nil _) _) hslash
    apply hclash request
    · rw [hrequest]
      exact List.prefix_append _ _
    · apply h.application route hroute
      rw [MatchesRoute, hrequest]
      exact matches_of_mayBegin hbegin
  · intro path hpath hbegins
    apply hclash path hbegins
    have hmem : (elementsOf path, (app.name, appPort)) ∈
        routingTable (ingressPaths app routes appPort signals pagesConfig) :=
      application_mem_routingTable (List.mem_append_right routes hpath)
    apply forwardedTo_of_forall hmem List.prefix_rfl
    intro other hother hmatch hlength
    exact h.unambiguous other hother _ hmem (hmatch.eq_of_length_le hlength)

theorem headsCovered_of_follows
    (h : FollowsRoutes app routes appPort pagesConfig
      (ingressPaths app routes appPort signals pagesConfig)) :
    HeadsCovered routes appPort signals pagesConfig := by
  intro route hroute
  obtain ⟨fresh, hfresh, hunused⟩ := exists_fresh_element
    ((routingTable (ingressPaths app routes appPort signals pagesConfig)).flatMap Prod.fst)
  have hslash : ∀ element ∈ fill isParameter fresh (elementsOf route), '/' ∉ element := by
    intro element helement
    obtain ⟨segment, hsegment, rfl⟩ := List.mem_map.mp helement
    split
    · exact hfresh
    · exact not_mem_of_mem_pathElements hsegment
  have hne : fill isParameter fresh (elementsOf route) ≠ [] := by
    rw [fill, ne_eq, List.map_eq_nil_iff]
    exact pathElements_ne_nil _
  obtain ⟨request, hrequest⟩ := exists_request hne hslash
  have hmatches : MatchesRoute route request := by
    rw [MatchesRoute, hrequest]
    exact matches_fill fresh _
  obtain ⟨⟨entry, hentry⟩, happlication⟩ := h.application route hroute request hmatches
  have hbackend := happlication entry hentry
  obtain ⟨⟨hmem, hbegins⟩, -⟩ := hentry
  rw [hrequest] at hbegins
  have hhead := begins_fixedHead hbegins fun hin ↦
    hunused (List.mem_flatMap.mpr ⟨entry, hmem, hin⟩)
  rcases mem_routingTable hmem with ⟨path, hpath, rfl⟩ | ⟨config, hconfig, rfl⟩
  · exact ⟨path, List.mem_append_left _ hpath, hhead⟩
  · have hport : appPort = 8080 := (Prod.mk.inj hbackend).2.symm
    refine ⟨config.staticUrl, List.mem_append_right _ ?_, hhead⟩
    rw [if_pos hport]
    exact List.mem_map.mpr ⟨config, Option.mem_toList.mpr hconfig, rfl⟩

theorem pathsToApplication_mem {path : String}
    (h : path ∈ pathsToApplication routes appPort signals pagesConfig) :
    (elementsOf path, (app.name, appPort)) ∈
      routingTable (ingressPaths app routes appPort signals pagesConfig) := by
  rcases List.mem_append.mp h with h | h
  · exact application_mem_routingTable h
  · by_cases hport : appPort = 8080
    · rw [if_pos hport] at h
      obtain ⟨config, hconfig, rfl⟩ := List.mem_map.mp h
      have hstatic : (elementsOf config.staticUrl, (app.name, 8080)) ∈
          routingTable (ingressPaths app routes appPort signals pagesConfig) ∨
            config.staticUrl ∈ routes ++ signalPaths signals :=
        static_mem_routingTable (Option.mem_toList.mp hconfig)
      rcases hstatic with hmem | hmem
      · rw [hport] at hmem ⊢
        exact hmem
      · exact application_mem_routingTable hmem
    · rw [if_neg hport] at h
      cases h

/-- Where all backends are one, a match is enough. -/
theorem follows_of_samePort (hport : appPort = 8080)
    (hcovered : HeadsCovered routes appPort signals pagesConfig) :
    FollowsRoutes app routes appPort pagesConfig
      (ingressPaths app routes appPort signals pagesConfig) := by
  have hbackend : ∀ entry ∈ routingTable (ingressPaths app routes appPort signals pagesConfig),
      entry.2 = (app.name, appPort) := by
    intro entry hentry
    rcases mem_routingTable hentry with ⟨path, -, rfl⟩ | ⟨config, -, rfl⟩
    · rfl
    · rw [hport]
  constructor
  · intro entry hentry other hother _
    rw [hbackend entry hentry, hbackend other hother]
  · intro route hroute request hmatch
    obtain ⟨path, hpath, hbegins⟩ := hcovered route hroute
    apply forwardedTo_of_forall (pathsToApplication_mem hpath)
      (hbegins.trans (fixedHead_begins hmatch))
    intro other hother _ _
    exact hbackend other hother
  · intro config hconfig request hbegins
    have hpath : config.staticUrl ∈ pathsToApplication routes appPort signals pagesConfig := by
      refine List.mem_append_right _ ?_
      rw [if_pos hport]
      exact List.mem_map.mpr ⟨config, Option.mem_toList.mpr hconfig, rfl⟩
    apply forwardedTo_of_forall (pathsToApplication_mem hpath) hbegins
    intro other hother _ _
    rw [hbackend other hother, hport]

theorem follows_of_apart (hport : appPort ≠ 8080)
    (hapart : StaticApart routes appPort signals pagesConfig)
    (hcovered : HeadsCovered routes appPort signals pagesConfig) :
    FollowsRoutes app routes appPort pagesConfig
      (ingressPaths app routes appPort signals pagesConfig) := by
  constructor
  · intro entry hentry other hother hsame
    rcases mem_routingTable hentry with ⟨path, hpath, rfl⟩ | ⟨config, hconfig, rfl⟩
    · rcases mem_routingTable hother with ⟨path', -, rfl⟩ | ⟨config, hconfig, rfl⟩
      · rfl
      · refine absurd ⟨[], ?_⟩ (hapart.not_prefix hconfig hport hpath)
        rw [List.append_nil]
        exact hsame.symm
    · rcases mem_routingTable hother with ⟨path, hpath, rfl⟩ | ⟨config', hconfig', rfl⟩
      · refine absurd ⟨[], ?_⟩ (hapart.not_prefix hconfig hport hpath)
        rw [List.append_nil]
        exact hsame
      · rfl
  · intro route hroute request hmatch
    obtain ⟨path, hpath, hbegins⟩ := hcovered route hroute
    apply forwardedTo_of_forall (pathsToApplication_mem hpath)
      (hbegins.trans (fixedHead_begins hmatch))
    intro other hother hotherBegins _
    rcases mem_routingTable hother with ⟨path', -, rfl⟩ | ⟨config, hconfig, rfl⟩
    · rfl
    · have hbegin := mayBegin_of_matches hmatch hotherBegins
      rw [(hapart config hconfig hport).1 route hroute] at hbegin
      cases hbegin
  · intro config hconfig request hbegins
    rcases static_mem_routingTable hconfig with hmem | hmem
    · apply forwardedTo_of_forall hmem hbegins
      intro other hother hotherBegins hlength
      rcases mem_routingTable hother with ⟨path, hpath, rfl⟩ | ⟨config', -, rfl⟩
      · have hunder := List.prefix_of_prefix_length_le hbegins hotherBegins hlength
        exact absurd hunder (hapart.not_prefix hconfig hport hpath)
      · rfl
    · exact absurd List.prefix_rfl (hapart.not_prefix hconfig hport hmem)

/-- An Ingress follows the routes exactly when the static URL is apart from the application's
paths and what stands before each parameter is led to the application. -/
theorem followsRoutes_iff
    (hing : buildIngress app routes appPort host signals pagesConfig = .ok (some ing)) :
    FollowsRoutes app routes appPort pagesConfig ing.paths ↔
      StaticApart routes appPort signals pagesConfig ∧
        HeadsCovered routes appPort signals pagesConfig := by
  rw [paths_of_buildIngress hing]
  constructor
  · intro h
    exact ⟨staticApart_of_follows h, headsCovered_of_follows h⟩
  · rintro ⟨hapart, hcovered⟩
    by_cases hport : appPort = 8080
    · exact follows_of_samePort hport hcovered
    · exact follows_of_apart hport hapart hcovered

end Follows

/-! ## A project with routes -/

/-- A Project that can have an Ingress. -/
def routedProject : Project :=
  ⟨"shop", some "team", some 7, none, ⟨none, none, none, none⟩,
    { image := "registry.example/shop:1" }, none, none⟩

/-- With a route to everything, routes with parameters and static files are led as they should. -/
theorem followsRoutes_catchAll : ∃ ing,
    buildIngress routedProject ["/", "/users/{id}/"] 8000 none none (some {}) = .ok (some ing) ∧
      FollowsRoutes routedProject ["/", "/users/{id}/"] 8000 (some {}) ing.paths := by
  have hing : buildIngress routedProject ["/", "/users/{id}/"] 8000 none none (some {}) =
      .ok (some _) := rfl
  refine ⟨_, hing, (followsRoutes_iff hing).mpr ⟨?_, ?_⟩⟩
  · rintro config ⟨⟩ _
    decide +kernel
  · unfold HeadsCovered
    decide +kernel

/-- The callback of a provider matches no path. -/
theorem not_followsRoutes_parameter : ∃ ing,
    buildIngress routedProject ["/auth/{provider_id}/callback/"] 8000 none none none =
        .ok (some ing) ∧
      ¬ FollowsRoutes routedProject ["/auth/{provider_id}/callback/"] 8000 none ing.paths := by
  refine ⟨_, rfl, ?_⟩
  intro h
  have hmatches : MatchesRoute "/auth/{provider_id}/callback/" "/auth/github/callback/" := by
    unfold MatchesRoute MatchesPattern
    decide
  obtain ⟨⟨entry, ⟨hmem, hbegins⟩, -⟩, -⟩ :=
    h.application _ List.mem_cons_self "/auth/github/callback/" hmatches
  rw [List.mem_singleton.mp hmem] at hbegins
  revert hbegins
  decide

end ReinhardtCloud.Operator
