import ReinhardtCloud.Operator.Workloads

/-!
# From Ingress to container

Library `Operator`. Whether the backends of a Project's Ingress are ports of its Service and these
lead to ports its containers listen on. The Ingress names the application port where it should
name the Service's, so a route arrives only where the two are the same number.
-/

namespace ReinhardtCloud.Operator

variable {checks : PodChecks} {app : Project} {pagesConfig : Option ResolvedPagesConfig}

/-! ## What the builders return -/

/-- The containers listen on the target port and, with pages, on 8080. -/
theorem containers_of_buildDeployment {d : Deployment}
    (h : buildDeployment checks app pagesConfig = .ok d) :
    d.containers = ⟨app.name, app.spec.image, [app.spec.serviceTargetPort.getD 8000]⟩ ::
      (pagesConfig.map staticServer).toList := by
  simp only [buildDeployment, bind_eq_ok, validatePort_eq_ok_iff] at h
  obtain ⟨ns, -, port, ⟨rfl, -⟩, owner, -, _, -, _, -, _, -, _, -, hd⟩ := h
  obtain rfl := Except.ok.inj hd
  rfl

/-- The Service has the Project's name and port and, with pages, port 8080. -/
theorem ports_of_buildService {pagesEnabled : Bool} {svc : Service}
    (h : buildService app pagesEnabled = .ok svc) :
    svc.name = app.name ∧
      svc.ports = ⟨if pagesEnabled then some "http-app" else none, app.spec.servicePort.getD 80,
          app.spec.serviceTargetPort.getD 8000⟩ ::
        (if pagesEnabled then [⟨some "http-static", 8080, 8080⟩] else []) ∧
      1 ≤ app.spec.serviceTargetPort.getD 8000 ∧ app.spec.serviceTargetPort.getD 8000 ≤ 65535 := by
  simp only [buildService, bind_eq_ok, validatePort_eq_ok_iff] at h
  obtain ⟨ns, -, port, ⟨rfl, -⟩, targetPort, ⟨rfl, hmin, hmax⟩, owner, -, hsvc⟩ := h
  obtain rfl := Except.ok.inj hsvc
  exact ⟨rfl, rfl, hmin, hmax⟩

/-- A backend of the Ingress: the application port, or with pages the sidecar's. -/
def IsBackend (app : Project) (pagesEnabled : Bool) (appPort : UInt16) (p : HttpIngressPath) :
    Prop :=
  p.serviceName = app.name ∧ (p.servicePort = appPort ∨ pagesEnabled = true ∧ p.servicePort = 8080)

/-- Every backend is the application port or the sidecar's. -/
private theorem isBackend_of_mem {routes : List String} {appPort : UInt16}
    {signals : Option InfraSignals} {p : HttpIngressPath}
    (h : p ∈ ingressPaths app routes appPort signals pagesConfig) :
    IsBackend app pagesConfig.isSome appPort p := by
  have happ : ∀ path : String, IsBackend app pagesConfig.isSome appPort ⟨path, app.name, appPort⟩ :=
    fun _ ↦ ⟨rfl, Or.inl rfl⟩
  have happended : ∀ p : HttpIngressPath,
      p ∈ appendPath (appendPath (routes.map fun route ↦ ⟨route, app.name, appPort⟩)
        (signals.any fun s ↦ s.graphql) ⟨"/graphql/", app.name, appPort⟩)
        (signals.any fun s ↦ s.adminPanel) ⟨"/admin/", app.name, appPort⟩ →
      IsBackend app pagesConfig.isSome appPort p := by
    intro p hp
    rcases mem_appendPath hp with hp | rfl
    · rcases mem_appendPath hp with hp | rfl
      · obtain ⟨route, -, rfl⟩ := List.mem_map.mp hp
        exact happ route
      · exact happ _
    · exact happ _
  cases pagesConfig with
  | none => exact happended p h
  | some config =>
    rcases mem_insertStaticPath h with hp | rfl
    · exact happended p hp
    · exact ⟨rfl, Or.inr ⟨rfl, rfl⟩⟩

/-- Every route leads to the application port. -/
private theorem exists_of_route {routes : List String} {appPort : UInt16}
    {signals : Option InfraSignals} {route : String} (h : route ∈ routes) :
    ∃ p ∈ ingressPaths app routes appPort signals pagesConfig, p.servicePort = appPort := by
  refine ⟨⟨route, app.name, appPort⟩, ?_, rfl⟩
  have hroute : (⟨route, app.name, appPort⟩ : HttpIngressPath) ∈
      routes.map fun route ↦ ⟨route, app.name, appPort⟩ := List.mem_map.mpr ⟨route, h, rfl⟩
  have hmem : (⟨route, app.name, appPort⟩ : HttpIngressPath) ∈
      appendPath (appendPath (routes.map fun route ↦ ⟨route, app.name, appPort⟩)
        (signals.any fun s ↦ s.graphql) ⟨"/graphql/", app.name, appPort⟩)
        (signals.any fun s ↦ s.adminPanel) ⟨"/admin/", app.name, appPort⟩ :=
    subset_appendPath (subset_appendPath hroute)
  cases pagesConfig with
  | none => exact hmem
  | some config => exact subset_insertStaticPath hmem

/-- The Ingress that `apply` builds has routes to the application port and no other backends than
that and, with pages, the sidecar. -/
theorem backends_of_ingressStep {normalizeHost : String → Except Error (Option String)}
    {ing : Ingress} (h : ingressStep normalizeHost app pagesConfig = .ok (some ing)) :
    (∀ p ∈ ing.paths, IsBackend app pagesConfig.isSome (resolveAppPort app) p) ∧
      ∃ p ∈ ing.paths, p.servicePort = resolveAppPort app := by
  unfold ingressStep at h
  cases hconfig : resolveIngressConfig app with
  | some config =>
    obtain ⟨routes, port⟩ := config
    rw [hconfig] at h
    have hroutes : port = resolveAppPort app ∧ ∃ route, route ∈ routes := by
      unfold resolveIngressConfig at hconfig
      split at hconfig
      · cases hconfig
      · obtain ⟨i, -, hi⟩ := Option.bind_eq_some_iff.mp hconfig
        split at hi
        · cases hi
        · next hne =>
          obtain ⟨rfl, rfl⟩ := Prod.mk.inj (Option.some.inj hi)
          exact ⟨rfl, List.exists_mem_of_ne_nil _ (by simpa using hne)⟩
    obtain ⟨rfl, route, hroute⟩ := hroutes
    rw [paths_of_buildIngress h]
    exact ⟨fun p hp ↦ isBackend_of_mem hp, exists_of_route hroute⟩
  | none =>
    rw [hconfig] at h
    cases hhost : app.spec.ingressHost with
    | none =>
      rw [hhost] at h
      cases h
    | some host =>
      rw [hhost] at h
      obtain ⟨host, -, hing⟩ := bind_eq_ok.mp h
      rw [paths_of_buildIngress hing]
      exact ⟨fun p hp ↦ isBackend_of_mem hp, exists_of_route List.mem_cons_self⟩

/-! ## Where the ports agree -/

/-- The application port as the Ingress has it, from the spec or the introspection. -/
def applicationPort (app : Project) : Int :=
  app.spec.serviceTargetPort.getD
    ((app.spec.introspect.map fun i ↦ (i.defaultPort.toNat : Int)).getD 8000)

/-- The Service's port for the application. -/
def webPort (app : Project) : Int := app.spec.servicePort.getD 80

/-- The Ingress's application port is a port of the Service, and the Service has no port twice. -/
def PortsAgree (app : Project) : Prop :=
  (shouldEnablePages app = true → webPort app ≠ 8080) ∧
    (applicationPort app = webPort app ∨ shouldEnablePages app = true ∧ applicationPort app = 8080)

/-- Within the range of ports the cast to `u16` loses nothing. -/
private theorem toNat_resolveAppPort
    (hmin : 1 ≤ app.spec.serviceTargetPort.getD 8000)
    (hmax : app.spec.serviceTargetPort.getD 8000 ≤ 65535) :
    ((resolveAppPort app).toNat : Int) = applicationPort app := by
  unfold resolveAppPort applicationPort
  cases hport : app.spec.serviceTargetPort with
  | some port =>
    rw [hport, Option.getD_some] at hmin hmax
    have hmod : port % 65536 = port := Int.emod_eq_of_lt (by omega) (by omega)
    have hlt : port.toNat < 2 ^ 16 := by omega
    simp only [asU16, hmod, Option.getD_some, UInt16.toNat_ofNat', Nat.mod_eq_of_lt hlt]
    omega
  | none =>
    cases app.spec.introspect with
    | none => rfl
    | some i => rfl

/-- A configuration is resolved when pages are enabled. -/
theorem isSome_resolvePagesConfig :
    (resolvePagesConfig app).isSome = shouldEnablePages app := by
  unfold resolvePagesConfig
  cases shouldEnablePages app with
  | false => rfl
  | true => cases app.spec.pages <;> rfl

/-- Every backend of the Ingress is a port of the Service that leads to a container, and the
Service's ports are distinct. -/
def RoutesArrive (ing : Ingress) (svc : Service) (d : Deployment) : Prop :=
  (∀ p ∈ ing.paths, p.serviceName = svc.name ∧ ∃ s ∈ svc.ports, s.port = p.servicePort.toNat ∧
    ∃ c ∈ d.containers, s.targetPort ∈ c.ports) ∧
  (svc.ports.map ServicePort.port).Nodup

/-- The routes of a Project's Ingress arrive exactly where its ports agree. -/
theorem routes_arrive_iff {normalizeHost : String → Except Error (Option String)} {d : Deployment}
    {svc : Service} {ing : Ingress}
    (hd : buildDeployment checks app (resolvePagesConfig app) = .ok d)
    (hs : buildService app (resolvePagesConfig app).isSome = .ok svc)
    (hi : ingressStep normalizeHost app (resolvePagesConfig app) = .ok (some ing)) :
    RoutesArrive ing svc d ↔ PortsAgree app := by
  obtain ⟨hname, hports, hmin, hmax⟩ := ports_of_buildService hs
  have hcontainers := containers_of_buildDeployment hd
  obtain ⟨hbackends, q, hq, hqport⟩ := backends_of_ingressStep hi
  have happ := toNat_resolveAppPort hmin hmax
  have hpages : (resolvePagesConfig app).isSome = shouldEnablePages app := isSome_resolvePagesConfig
  -- Every Service port leads to a container, so only the numbers matter.
  have htarget : ∀ s ∈ svc.ports, ∃ c ∈ d.containers, s.targetPort ∈ c.ports := by
    rw [hports, hcontainers]
    cases resolvePagesConfig app <;> simp [staticServer]
  have hnumbers : ∀ n : Int, (∃ s ∈ svc.ports, s.port = n) ↔
      webPort app = n ∨ shouldEnablePages app = true ∧ n = 8080 := by
    intro n
    rw [hports, hpages]
    cases shouldEnablePages app <;> simp [webPort, eq_comm]
  have hdistinct : (svc.ports.map ServicePort.port).Nodup ↔
      (shouldEnablePages app = true → webPort app ≠ 8080) := by
    rw [hports, hpages]
    cases shouldEnablePages app <;> simp [webPort]
  unfold RoutesArrive PortsAgree
  rw [hdistinct, and_comm]
  apply and_congr_right
  intro _
  constructor
  · intro h
    obtain ⟨-, s, hs, hsport, -⟩ := h q hq
    rw [hqport, happ] at hsport
    rcases (hnumbers _).mp ⟨s, hs, hsport⟩ with h | h
    · exact Or.inl h.symm
    · exact Or.inr h
  · intro h p hp
    obtain ⟨hservice, hport⟩ := hbackends p hp
    refine ⟨hservice.trans hname.symm, ?_⟩
    obtain ⟨s, hs, hsport⟩ : ∃ s ∈ svc.ports, s.port = (p.servicePort.toNat : Int) := by
      apply (hnumbers _).mpr
      rcases hport with hport | ⟨henabled, hport⟩
      · rw [hport, happ]
        exact h.imp_left Eq.symm
      · rw [hport]
        exact Or.inr ⟨hpages ▸ henabled, rfl⟩
    exact ⟨s, hs, hsport, htarget s hs⟩

/-- A Project with an Ingress host and the given ports. -/
def hostedProject (port targetPort : Option Int) : Project :=
  ⟨"shop", some "team", some 7, none, ⟨none, none, none, none⟩,
    { image := "registry.example/shop:1"
      ingressHost := some "shop.example"
      servicePort := port
      serviceTargetPort := targetPort }, none, none⟩

/-- With the Service on the application port, the route of the host arrives. -/
theorem routes_arrive_iff_hosted :
    ∃ d svc ing, buildDeployment passingChecks (hostedProject (some 8000) none) none = .ok d ∧
      buildService (hostedProject (some 8000) none) false = .ok svc ∧
      ingressStep (fun host ↦ .ok (some host)) (hostedProject (some 8000) none) none =
        .ok (some ing) ∧ RoutesArrive ing svc d := by
  have hd : buildDeployment passingChecks (hostedProject (some 8000) none) none = .ok _ := rfl
  have hs : buildService (hostedProject (some 8000) none) false = .ok _ := rfl
  have hi : ingressStep (fun host ↦ .ok (some host)) (hostedProject (some 8000) none) none =
    .ok (some _) := rfl
  have hports : PortsAgree (hostedProject (some 8000) none) := by
    unfold PortsAgree
    decide
  exact ⟨_, _, _, hd, hs, hi, (routes_arrive_iff hd hs hi).mpr hports⟩

/-- With the default ports the Ingress leads to a port the Service does not have. -/
theorem routes_do_not_arrive :
    ¬ ∀ (checks : PodChecks) (normalizeHost : String → Except Error (Option String))
      (app : Project) (d : Deployment) (svc : Service) (ing : Ingress),
      buildDeployment checks app (resolvePagesConfig app) = .ok d →
      buildService app (resolvePagesConfig app).isSome = .ok svc →
      ingressStep normalizeHost app (resolvePagesConfig app) = .ok (some ing) →
      RoutesArrive ing svc d := by
  intro h
  have harrive := h passingChecks (fun host ↦ .ok (some host)) (hostedProject none none) _ _ _
    rfl rfl rfl
  obtain ⟨-, s, hs, hport, -⟩ := harrive.1 _ List.mem_cons_self
  revert s
  decide

end ReinhardtCloud.Operator
