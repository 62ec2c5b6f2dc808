import ReinhardtCloud.Dashboard.Onboarding

/-!
# The dashboard at work

Library `Dashboard`. Any number of requests of any organizations at work on the records, one
awaited step at a time in any order; the clock moves on, clusters come and go and
deployments are added by other handlers.
-/

namespace ReinhardtCloud.Dashboard

open ReinhardtCloud.Base

variable {Text : Type}

/-- A running handler. -/
inductive Handler (Text : Type) where
  | webhook (phase : WebhookPhase Text)
  | form (phase : FormPhase Text)
  | delete (phase : DeletePhase)
  | importing (phase : ImportPhase Text)
  | sync (phase : SyncPhase)
  | setup (phase : SetupPhase)
  | installation (phase : InstallationPhase)

/-- An incoming request. -/
inductive Request where
  | webhook (action : WebhookAction) (githubRepositoryId : Nat)
  | form (organization deployment : Nat) (edit : DeploymentEdit)
  | delete (organization deployment : Nat)
  | importing (request : ImportRequest)
  | sync (organization : Nat) (wanted : Option Nat)
  | setup (organization installationId : Nat)
  | installation (action : String) (account : UserInstallation)
  deriving DecidableEq

/-- The handler of a request at its first query. -/
def Request.start : Request → Handler Text
  | .webhook action githubRepositoryId => .webhook (.loadRepository action githubRepositoryId)
  | .form organization deployment edit => .form (.start organization deployment edit)
  | .delete organization deployment => .delete (.load organization deployment)
  | .importing request => .importing (.start request)
  | .sync organization wanted => .sync (.load organization wanted)
  | .setup organization installationId => .setup (.verify organization installationId)
  | .installation action account => .installation (.start action account)

/-- One awaited step of a handler. -/
def Handler.advance (codec : ManifestCodec Text) (s : Records Text) (h : Handler Text)
    (o : Outcome) : Option (Records Text × Handler Text) :=
  match h with
  | .webhook p => (p.advance codec s o).map fun r ↦ (r.1, .webhook r.2)
  | .form p => (p.advance s o).map fun r ↦ (r.1, .form r.2)
  | .delete p => (p.advance s o).map fun r ↦ (r.1, .delete r.2)
  | .importing p => (p.advance codec s o).map fun r ↦ (r.1, .importing r.2)
  | .sync p => (p.advance s o).map fun r ↦ (r.1, .sync r.2)
  | .setup p => (p.advance s o).map fun r ↦ (r.1, .setup r.2)
  | .installation p => (p.advance s o).map fun r ↦ (r.1, .installation r.2)

/-- What happens beside these handlers. -/
inductive RecordsEvent (Text : Type) where
  | tick (microseconds : Nat)
  | createCluster (cluster : Cluster)
  | editCluster (id : Nat) (name apiUrl : String) (isActive : Bool)
  | deleteCluster (id : Nat)
  | addDeployment (row : Deployment Text)

/-- One such event. A cluster with deployments is not deleted; a deployment is added for a cluster
of its organization. -/
def recordsEvent (s : Records Text) : RecordsEvent Text → Option (Records Text)
  | .tick n => some { s with now := s.now + n }
  | .createCluster cluster => some { s with clusters := s.clusters.add cluster }
  | .editCluster id name apiUrl isActive =>
    (s.clusters.get id).map fun cluster ↦ { s with
      clusters := s.clusters.set id
        { cluster with name := name, apiUrl := apiUrl, isActive := isActive } }
  | .deleteCluster id =>
    if (s.deployments.first fun d ↦ d.cluster = id).isSome then none
    else some { s with clusters := s.clusters.deleteWhere fun k _ ↦ k = id }
  | .addDeployment row =>
    ((s.clusters.get row.cluster).filter fun c ↦ c.organization = row.organization).map fun _ ↦
      { s with deployments := s.deployments.add row }

/-- What these events leave. -/
structure RecordsFrame (s t : Records Text) : Prop where
  installations : t.installations = s.installations
  repositories : t.repositories = s.repositories
  projects : t.projects = s.projects
  outbox : t.outbox = s.outbox
  deployments : ∀ id row, s.deployments.get id = some row → t.deployments.get id = some row
  now : s.now ≤ t.now

theorem recordsEvent_frame {s t : Records Text} {e : RecordsEvent Text}
    (h : recordsEvent s e = some t) : RecordsFrame s t := by
  cases e with
  | tick n =>
    cases h
    exact ⟨rfl, rfl, rfl, rfl, fun _ _ h ↦ h, Nat.le_add_right _ _⟩
  | createCluster cluster =>
    cases h
    exact ⟨rfl, rfl, rfl, rfl, fun _ _ h ↦ h, Nat.le_refl _⟩
  | editCluster id name apiUrl isActive =>
    obtain ⟨cluster, -, rfl⟩ := Option.map_eq_some_iff.mp h
    exact ⟨rfl, rfl, rfl, rfl, fun _ _ h ↦ h, Nat.le_refl _⟩
  | deleteCluster id =>
    simp only [recordsEvent] at h
    split at h <;> cases h
    exact ⟨rfl, rfl, rfl, rfl, fun _ _ h ↦ h, Nat.le_refl _⟩
  | addDeployment row =>
    obtain ⟨cluster, -, rfl⟩ := Option.map_eq_some_iff.mp h
    exact ⟨rfl, rfl, rfl, rfl, fun _ _ h ↦ Table.get_add_of_get h, Nat.le_refl _⟩

/-- The machine's states and actions. -/
abbrev ServiceState (Text : Type) := Pool (Records Text) (Handler Text)
abbrev ServiceAction (Text : Type) := PoolAction Request Outcome (RecordsEvent Text)
abbrev ServiceTransition (Text : Type) := Transition (ServiceState Text) (ServiceAction Text)

/-- Requests at work on the records. -/
def serviceStep (codec : ManifestCodec Text) :
    ServiceState Text → ServiceAction Text → Option (ServiceState Text) :=
  Pool.step Request.start (Handler.advance codec) recordsEvent

/-- A request goes on by some steps that succeed. -/
def goesOn (i n : Nat) : List (ServiceAction Text) :=
  List.replicate n (.advance i .success)

/-- A handler's step is a step of its phase. -/
theorem Handler.phase_advance {π : Type} {wrap : π → Handler Text} {x : Option (Records Text × π)}
    {t : Records Text} {h' : Handler Text} (h : (x.map fun r ↦ (r.1, wrap r.2)) = some (t, h')) :
    ∃ p', x = some (t, p') ∧ h' = wrap p' := by
  obtain ⟨⟨u, p'⟩, hx, he⟩ := Option.map_eq_some_iff.mp h
  obtain ⟨hu, hw⟩ : u = t ∧ wrap p' = h' := Prod.mk.inj he
  subst hu
  exact ⟨p', hx, hw.symm⟩

/-- A handler's step leaves the clusters and the clock. -/
theorem Handler.advance_frame {codec : ManifestCodec Text} {s t : Records Text}
    {h h' : Handler Text} {o : Outcome} (ht : h.advance codec s o = some (t, h')) :
    t.clusters = s.clusters ∧ t.now = s.now := by
  cases h with
  | webhook p =>
    obtain ⟨p', hp, rfl⟩ := phase_advance ht
    rw [WebhookPhase.advance_frame hp]
    exact ⟨rfl, rfl⟩
  | form p =>
    obtain ⟨p', hp, rfl⟩ := phase_advance ht
    rw [FormPhase.advance_frame hp]
    exact ⟨rfl, rfl⟩
  | delete p =>
    obtain ⟨p', hp, rfl⟩ := phase_advance ht
    rcases DeletePhase.advance_cases hp with rfl | ⟨organization, deployment, -, -, rfl⟩
    · exact ⟨rfl, rfl⟩
    · rw [Records.deleteDeploymentTransaction_frame]
      exact ⟨rfl, rfl⟩
  | importing p =>
    obtain ⟨p', hp, rfl⟩ := phase_advance ht
    exact (ImportPhase.advance_frame hp).2
  | sync p =>
    obtain ⟨p', hp, rfl⟩ := phase_advance ht
    rw [SyncPhase.advance_frame hp]
    exact ⟨rfl, rfl⟩
  | setup p =>
    obtain ⟨p', hp, rfl⟩ := phase_advance ht
    rw [SetupPhase.advance_frame hp]
    exact ⟨rfl, rfl⟩
  | installation p =>
    obtain ⟨p', hp, rfl⟩ := phase_advance ht
    rw [InstallationPhase.advance_frame hp]
    exact ⟨rfl, rfl⟩

end ReinhardtCloud.Dashboard
