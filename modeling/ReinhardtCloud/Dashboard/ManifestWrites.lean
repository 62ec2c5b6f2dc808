import ReinhardtCloud.Dashboard.Service
import ReinhardtCloud.Dashboard.WebhookReading

/-!
# Concurrent writes of a stored manifest

Library `Dashboard`. Webhooks and forms of one deployment, each reading its row and writing all of
it back later. When every write finds the manifest that its handler has read, and every webhook
sends its manifest while it is the stored one or while the webhook that stored the present one has
still to send, no accepted action is lost and the cluster ends with the stored manifest. The
handlers see to neither.
-/

namespace ReinhardtCloud.Dashboard

open ReinhardtCloud.Base

variable {Text : Type}

/-! ## The requests and what they leave -/

/-- The project that webhooks of a GitHub repository lead to. -/
def Records.webhookTarget (s : Records Text) (githubRepositoryId : Nat) : Option GitHubProject :=
  (s.repositories.first fun r ↦ r.githubRepositoryId = githubRepositoryId).bind fun repository ↦
    (s.projects.first fun p ↦ p.repository = repository.1).map Prod.snd

/-- The stored manifest of a deployment. -/
def Records.manifest (s : Records Text) (deployment : Nat) : Option Text :=
  (s.deployments.get deployment).bind fun row ↦ row.projectYaml

/-- The manifest of an `ApplyProject` command. -/
def AgentCommand.manifest : AgentCommand Text → Option Text
  | .applyProject _ _ yaml => some yaml
  | .applyGitCredentialsSecret _ _ _ _ _ => none

/-- The manifest sent last. -/
def lastManifest (commands : List (AgentCommand Text)) : Option Text :=
  (commands.filterMap AgentCommand.manifest).getLast?

/-- Webhooks of the repository and forms of the deployment arrive, and none is cancelled. -/
def OneDeployment (githubRepositoryId deployment : Nat) : ServiceAction Text → Prop
  | .start (.webhook _ id) => id = githubRepositoryId
  | .start (.form _ id _) => id = deployment
  | .start _ => False
  | .cancel _ => False
  | .advance _ _ => True
  | .environment _ => True

/-- The answers of an accepted and of an ignored webhook. -/
def ViewResult.succeeds : ViewResult → Bool
  | .response code _ _ => code = 200 || code = 202
  | _ => false

/-- A handler that has returned its success. -/
def Handler.succeeded : Handler Text → Bool
  | .webhook (.returned _ result) => result.succeeds
  | .form (.returned (.ok _)) => true
  | _ => false

/-- A handler that will return an error. -/
def Handler.failing : Handler Text → Bool
  | .webhook (.markError _ _) => true
  | .webhook (.returned _ result) => !result.succeeds
  | .form (.returned (.error _)) => true
  | _ => false

/-- The action of a webhook that was accepted. -/
def Handler.accepted : Handler Text → Option WebhookAction
  | .webhook (.returned action (.response code _ _)) => if code = 202 then some action else none
  | _ => none

/-- The manifest that a handler about to write its row has read. -/
def Handler.manifestRead : Handler Text → Option (Option Text)
  | .webhook (.updateDeployment job) => some job.loaded.projectYaml
  | .form (.update _ _ loaded) => some loaded.projectYaml
  | _ => none

/-- The manifest that a webhook has stored and not yet sent. -/
def Handler.unsent : Handler Text → Option Text
  | .webhook (.loadCluster job) => some job.manifest
  | .webhook (.loadInstallation job _) => some job.manifest
  | .webhook (.mintToken job _ _) => some job.manifest
  | .webhook (.sendCredentials job _ _) => some job.manifest
  | .webhook (.sendApply job _) => some job.manifest
  | _ => none

/-- The manifest that a webhook is about to send. -/
def Handler.sends : Handler Text → Option Text
  | .webhook (.sendApply job _) => some job.manifest
  | _ => none

/-- A write finds the manifest that its handler has read, and a manifest is sent while it is stored
or while another webhook has stored the present one and not yet sent it. -/
def InOrder (deployment : Nat) (s : ServiceState Text) : ServiceAction Text → Prop
  | .advance i _ => ∀ p ∈ s.procs[i]?,
    (∀ read ∈ p.manifestRead, s.store.manifest deployment = read) ∧
    ∀ sent ∈ p.sends, s.store.manifest deployment = some sent ∨
      ∃ q ∈ s.procs.eraseIdx i, q.unsent = s.store.manifest deployment
  | _ => True

/-! ## The invariant -/

/-- The action of a webhook that has written its manifest. -/
def Handler.wrote : Handler Text → Option WebhookAction
  | .webhook (.loadCluster job) => some job.action
  | .webhook (.loadInstallation job _) => some job.action
  | .webhook (.mintToken job _ _) => some job.action
  | .webhook (.sendCredentials job _ _) => some job.action
  | .webhook (.sendApply job _) => some job.action
  | p => p.accepted

section Invariant

variable (codec : ManifestCodec Text) (init : Records Text) (githubRepositoryId : Nat)
  (project : GitHubProject) (yaml : Text)

/-- What a handler has read leads to the one deployment, and the manifest it is about to write is
the one it has read after its action. -/
def Handler.Aimed : Handler Text → Prop
  | .webhook (.loadRepository _ id) => id = githubRepositoryId
  | .webhook (.loadProject _ repository) =>
    (init.projects.first fun p ↦ p.repository = repository.1).map Prod.snd = some project
  | .webhook (.loadDeployment _ _ found) => found.2 = project
  | .webhook (.updateDeployment job) => job.project.2 = project ∧ ∃ read,
    job.loaded.projectYaml = some read ∧
    applyWebhookActionToManifest codec read job.action project.productionBranch =
      .ok (some job.manifest)
  | .webhook _ => True
  | .form (.load _ deployment _) => deployment = project.deployment
  | .form (.update deployment _ _) => deployment = project.deployment
  | .form _ => True
  | _ => False

/-- The stored manifest is the initial one after the actions written so far in some order, and the
one sent last is the stored one unless a webhook has yet to send that. -/
structure ManifestInv (s : ServiceState Text) : Prop where
  repositories : s.store.repositories = init.repositories
  projects : s.store.projects = init.projects
  aimed : ∀ p ∈ s.procs, p.Aimed codec init githubRepositoryId project
  applied : ∃ order : List WebhookAction, order.Perm (s.procs.filterMap Handler.wrote) ∧
    s.store.manifest project.deployment =
      some (applyWebhookActions codec project.productionBranch yaml order).1
  sent : ∃ sent, s.store.outbox = init.outbox ++ sent ∧
    (lastManifest sent = none ∨ lastManifest sent = s.store.manifest project.deployment ∨
      ∃ p ∈ s.procs, p.unsent = s.store.manifest project.deployment)

end Invariant

/-! ## One step -/

section Steps

variable {codec : ManifestCodec Text} {init : Records Text} {githubRepositoryId : Nat}
  {project : GitHubProject} {yaml : Text} {s t : Records Text} {o : Outcome}

@[simp] theorem failing_returned (action : WebhookAction) (result : ViewResult) :
    (Handler.webhook (.returned action result) : Handler Text).failing = !result.succeeds := rfl

/-- A handler about to fail goes on failing. -/
theorem Handler.failing_advance {p p' : Handler Text} (hp : p.failing = true)
    (h : p.advance codec s o = some (t, p')) : p'.failing = true := by
  cases p with
  | webhook p =>
    obtain ⟨p'', hu, rfl⟩ := phase_advance h
    cases p with
    | markError job message =>
      simp only [WebhookPhase.advance, Option.some.injEq] at hu
      split at hu <;> cases hu <;> rfl
    | returned => cases hu
    | _ => cases hp
  | form p =>
    obtain ⟨p'', hu, rfl⟩ := phase_advance h
    cases p with
    | returned => cases hu
    | _ => cases hp
  | _ => cases hp

/-- What a webhook makes of the row it has loaded. -/
theorem editManifest_aimed {action : WebhookAction} {repository : Nat × GitHubRepository}
    {found : Nat × GitHubProject} {loaded : Deployment Text} {p : WebhookPhase Text}
    (hfound : found.2 = project) (hp : editManifest codec action repository found loaded = p)
    (hsucceeds : (Handler.webhook p).failing = false) :
    (Handler.webhook p).Aimed codec init githubRepositoryId project ∧
      (Handler.webhook p).wrote = none ∧ (Handler.webhook p).unsent = none := by
  unfold editManifest at hp
  split at hp
  · subst hp
    cases hsucceeds
  · next read hread =>
    split at hp
    · subst hp
      cases hsucceeds
    · subst hp
      exact ⟨trivial, rfl, rfl⟩
    · next hedit =>
      subst hp
      exact ⟨⟨hfound, read, hread, hfound ▸ hedit⟩, rfl, rfl⟩

/-- One step of a webhook that is not about to fail: it reads or sends credentials, writes its
manifest, or sends it. -/
theorem WebhookPhase.manifest_cases {p p' : WebhookPhase Text}
    (htarget : init.webhookTarget githubRepositoryId = some project)
    (hrepositories : s.repositories = init.repositories) (hprojects : s.projects = init.projects)
    (hp : (Handler.webhook p).Aimed codec init githubRepositoryId project)
    (hsucceeds : (Handler.webhook p').failing = false)
    (h : p.advance codec s o = some (t, p')) :
    (Handler.webhook p').Aimed codec init githubRepositoryId project ∧
    ((t.deployments = s.deployments ∧ (Handler.webhook p').wrote = (Handler.webhook p).wrote ∧
        (Handler.webhook p').unsent = (Handler.webhook p).unsent ∧
        ∃ sent, t.outbox = s.outbox ++ sent ∧ sent.filterMap AgentCommand.manifest = []) ∨
      (∃ job, p = .updateDeployment job ∧
        t = s.updateDeployment job.project.2.deployment job.deployment ∧
        (Handler.webhook p').wrote = some job.action ∧
        (Handler.webhook p').unsent = some job.manifest) ∨
      ∃ job cluster command, p = .sendApply job cluster ∧ t = s.send command ∧
        command.manifest = some job.manifest ∧ (Handler.webhook p').wrote = some job.action ∧
        (Handler.webhook p').unsent = none) := by
  have hsame : ∃ sent, s.outbox = s.outbox ++ sent ∧ sent.filterMap AgentCommand.manifest = [] :=
    ⟨[], by simp, rfl⟩
  cases p with
  | loadRepository action id =>
    simp only [advance, Option.some.injEq] at h
    split at h
    · cases h
      cases hsucceeds
    · split at h
      · cases h
        exact ⟨trivial, .inl ⟨rfl, rfl, rfl, hsame⟩⟩
      · next repository hfirst =>
        cases h
        refine ⟨?_, .inl ⟨rfl, rfl, rfl, hsame⟩⟩
        have hid : id = githubRepositoryId := hp
        rw [hrepositories, hid] at hfirst
        rwa [Records.webhookTarget, hfirst] at htarget
  | loadProject action repository =>
    simp only [advance, Option.some.injEq] at h
    split at h
    · cases h
      cases hsucceeds
    · split at h
      · cases h
        exact ⟨trivial, .inl ⟨rfl, rfl, rfl, hsame⟩⟩
      · next found hfirst =>
        cases h
        refine ⟨?_, .inl ⟨rfl, rfl, rfl, hsame⟩⟩
        rw [hprojects] at hfirst
        have hfound : (some found).map Prod.snd = some project := hfirst ▸ hp
        exact Option.some.inj hfound
  | loadDeployment action repository found =>
    simp only [advance, Option.some.injEq] at h
    split at h
    · cases h
      cases hsucceeds
    · split at h
      · cases h
        cases hsucceeds
      · obtain ⟨rfl, hnext⟩ := Prod.mk.inj h
        obtain ⟨haimed, hwrote, hunsent⟩ := editManifest_aimed hp hnext hsucceeds
        exact ⟨haimed, .inl ⟨rfl, hwrote, hunsent, hsame⟩⟩
  | updateDeployment job =>
    simp only [advance, Option.some.injEq] at h
    split at h
    · cases h
      cases hsucceeds
    · cases h
      exact ⟨trivial, .inr (.inl ⟨job, rfl, rfl, rfl, rfl⟩)⟩
  | loadCluster job =>
    simp only [advance, Option.some.injEq] at h
    split at h
    · cases h
      cases hsucceeds
    · split at h
      · cases h
        cases hsucceeds
      · split at h <;> cases h <;> exact ⟨trivial, .inl ⟨rfl, rfl, rfl, hsame⟩⟩
  | loadInstallation job cluster =>
    simp only [advance, Option.some.injEq] at h
    split at h
    · cases h
      cases hsucceeds
    · split at h
      · cases h
        cases hsucceeds
      · cases h
        exact ⟨trivial, .inl ⟨rfl, rfl, rfl, hsame⟩⟩
  | mintToken job cluster installation =>
    simp only [advance, Option.some.injEq] at h
    split at h
    · cases h
      cases hsucceeds
    · cases h
      exact ⟨trivial, .inl ⟨rfl, rfl, rfl, hsame⟩⟩
  | sendCredentials job cluster token =>
    simp only [advance, Option.some.injEq] at h
    split at h
    · cases h
      exact ⟨trivial, .inl ⟨rfl, rfl, rfl, _, rfl, rfl⟩⟩
    · cases h
      cases hsucceeds
  | sendApply job cluster =>
    simp only [advance, Option.some.injEq] at h
    split at h
    · cases h
      exact ⟨trivial, .inr (.inr ⟨job, cluster, _, rfl, rfl, rfl, rfl, rfl⟩)⟩
    · cases h
      cases hsucceeds
  | markError job message =>
    simp only [advance, Option.some.injEq] at h
    split at h <;> cases h <;> cases hsucceeds
  | returned => cases h

end Steps

section Machine

variable {codec : ManifestCodec Text} {init : Records Text} {githubRepositoryId : Nat}
  {project : GitHubProject} {yaml : Text} {s : ServiceState Text} {i : Nat} {p p' : Handler Text}

/-- A handler other than the one that goes on is still there. -/
theorem mem_set_of_mem_eraseIdx {q : Handler Text} (h : q ∈ s.procs.eraseIdx i) :
    q ∈ s.procs.set i p' := by
  obtain ⟨j, hj, hget⟩ := List.mem_eraseIdx_iff_getElem?.mp h
  refine List.mem_of_getElem? (i := j) ?_
  rwa [List.getElem?_set_ne (Ne.symm hj)]

theorem aimed_set (hinv : ManifestInv codec init githubRepositoryId project yaml s)
    (haimed : p'.Aimed codec init githubRepositoryId project) :
    ∀ q ∈ s.procs.set i p', q.Aimed codec init githubRepositoryId project := by
  intro q hq
  rcases List.mem_or_eq_of_mem_set hq with hq | rfl
  · exact hinv.aimed q hq
  · exact haimed

theorem lastManifest_append {sent more : List (AgentCommand Text)}
    (h : more.filterMap AgentCommand.manifest = []) :
    lastManifest (sent ++ more) = lastManifest sent := by
  rw [lastManifest, lastManifest, List.filterMap_append, h, List.append_nil]

/-- A step that leaves the stored manifest, and what the handler has written and has yet to send. -/
theorem ManifestInv.quiet {t : Records Text}
    (hinv : ManifestInv codec init githubRepositoryId project yaml s)
    (hp : s.procs[i]? = some p) (hrepositories : t.repositories = s.store.repositories)
    (hprojects : t.projects = s.store.projects)
    (hmanifest : t.manifest project.deployment = s.store.manifest project.deployment)
    (haimed : p'.Aimed codec init githubRepositoryId project) (hwrote : p'.wrote = p.wrote)
    (hunsent : p'.unsent = p.unsent)
    (hsent : ∃ sent, t.outbox = s.store.outbox ++ sent ∧
      sent.filterMap AgentCommand.manifest = []) :
    ManifestInv codec init githubRepositoryId project yaml ⟨t, s.procs.set i p'⟩ := by
  obtain ⟨more, hmore, hnone⟩ := hsent
  obtain ⟨order, hperm, horder⟩ := hinv.applied
  obtain ⟨sent, houtbox, hlast⟩ := hinv.sent
  refine ⟨hrepositories.trans hinv.repositories, hprojects.trans hinv.projects,
    aimed_set hinv haimed, ⟨order, ?_, hmanifest.trans horder⟩, sent ++ more, ?_, ?_⟩
  · rw [Pool.filterMap_set_same hp hwrote]
    exact hperm
  · rw [hmore, houtbox, List.append_assoc]
  · rw [lastManifest_append hnone, hmanifest]
    refine hlast.imp_right fun h ↦ h.imp_right ?_
    rintro ⟨q, hq, hqs⟩
    obtain ⟨j, hj⟩ := List.mem_iff_getElem?.mp hq
    by_cases hji : j = i
    · subst hji
      obtain rfl := Option.some.inj (hp.symm.trans hj)
      have hlt := (List.getElem?_eq_some_iff.mp hp).1
      exact ⟨p', List.mem_of_getElem? (List.getElem?_set_self hlt), hunsent.trans hqs⟩
    · refine ⟨q, List.mem_of_getElem? (i := j) ?_, hqs⟩
      rwa [List.getElem?_set_ne (Ne.symm hji)]

/-- A webhook writes its manifest over the one it has read. -/
theorem ManifestInv.write {phase : WebhookPhase Text} {job : WebhookJob Text}
    (hinv : ManifestInv codec init githubRepositoryId project yaml s)
    (hp : s.procs[i]? = some (.webhook (.updateDeployment job)))
    (hread : s.store.manifest project.deployment = job.loaded.projectYaml)
    (hwrote : (Handler.webhook phase).wrote = some job.action)
    (hunsent : (Handler.webhook phase).unsent = some job.manifest)
    (haimed : (Handler.webhook phase).Aimed codec init githubRepositoryId project) :
    ManifestInv codec init githubRepositoryId project yaml
      ⟨s.store.updateDeployment job.project.2.deployment job.deployment,
        s.procs.set i (.webhook phase)⟩ := by
  obtain ⟨hproject, read, hloaded, hedit⟩ := hinv.aimed _ (List.mem_of_getElem? hp)
  obtain ⟨order, hperm, horder⟩ := hinv.applied
  obtain ⟨sent, houtbox, -⟩ := hinv.sent
  have hstored : read = (applyWebhookActions codec project.productionBranch yaml order).1 :=
    Option.some.inj ((hread.trans hloaded).symm.trans horder)
  have hmanifest : (s.store.updateDeployment job.project.2.deployment job.deployment).manifest
      project.deployment = some job.manifest := by
    obtain ⟨row, hrow, -⟩ := Option.bind_eq_some_iff.mp horder
    rw [hproject, Records.manifest, Records.updateDeployment, Table.get_set_self hrow]
    rfl
  have hmem : (Handler.webhook phase) ∈ s.procs.set i (.webhook phase) :=
    List.mem_of_getElem? (List.getElem?_set_self (List.getElem?_eq_some_iff.mp hp).1)
  refine ⟨hinv.repositories, hinv.projects, aimed_set hinv haimed,
    ⟨order ++ [job.action], ?_, ?_⟩, sent, houtbox, .inr (.inr ⟨_, hmem, ?_⟩)⟩
  · exact (hperm.append_right _).trans (Pool.perm_filterMap_set hp rfl hwrote)
  · rw [hmanifest, applyWebhookActions_append, webhookStep, ← hstored, hedit]
  · rw [hunsent, hmanifest]

/-- A webhook sends its manifest in order. -/
theorem ManifestInv.send {phase : WebhookPhase Text} {job : WebhookJob Text} {cluster : Cluster}
    {command : AgentCommand Text} (hinv : ManifestInv codec init githubRepositoryId project yaml s)
    (hp : s.procs[i]? = some (.webhook (.sendApply job cluster)))
    (horder : s.store.manifest project.deployment = some job.manifest ∨
      ∃ q ∈ s.procs.eraseIdx i, q.unsent = s.store.manifest project.deployment)
    (hcommand : command.manifest = some job.manifest)
    (hwrote : (Handler.webhook phase).wrote = some job.action)
    (haimed : (Handler.webhook phase).Aimed codec init githubRepositoryId project) :
    ManifestInv codec init githubRepositoryId project yaml
      ⟨s.store.send command, s.procs.set i (.webhook phase)⟩ := by
  obtain ⟨order, hperm, happlied⟩ := hinv.applied
  obtain ⟨sent, houtbox, -⟩ := hinv.sent
  refine ⟨hinv.repositories, hinv.projects, aimed_set hinv haimed, ⟨order, ?_, happlied⟩,
    sent ++ [command], ?_, .inr ?_⟩
  · rw [Pool.filterMap_set_same hp hwrote]
    exact hperm
  · rw [Records.send, houtbox, List.append_assoc]
  · have hlast : lastManifest (sent ++ [command]) = some job.manifest := by
      rw [lastManifest, List.filterMap_append]
      simp [hcommand]
    rw [hlast]
    rcases horder with hstored | ⟨q, hq, hunsent⟩
    · exact .inl hstored.symm
    · exact .inr ⟨q, mem_set_of_mem_eraseIdx hq, hunsent⟩

/-- A form that writes back the manifest it has read leaves the stored one. -/
theorem manifest_form {deployment : Nat} {edit : DeploymentEdit} {loaded : Deployment Text}
    {r : Records Text} (h : r.manifest deployment = loaded.projectYaml) :
    (r.updateDeployment deployment (edit.apply loaded)).manifest deployment =
      r.manifest deployment := by
  rw [Records.manifest, Records.updateDeployment, Table.get_set, if_pos rfl]
  cases hrow : r.deployments.get deployment with
  | none => simp [Records.manifest, hrow]
  | some row =>
    rw [h]
    exact (edit.apply_keeps loaded).2.2

/-- One step of a handler in order. -/
theorem ManifestInv.advance {t : Records Text} {o : Outcome}
    (hinv : ManifestInv codec init githubRepositoryId project yaml s)
    (htarget : init.webhookTarget githubRepositoryId = some project)
    (hp : s.procs[i]? = some p) (horder : InOrder project.deployment s (.advance i o))
    (hsucceeds : p'.failing = false) (ht : p.advance codec s.store o = some (t, p')) :
    ManifestInv codec init githubRepositoryId project yaml ⟨t, s.procs.set i p'⟩ := by
  have haimed := hinv.aimed p (List.mem_of_getElem? hp)
  obtain ⟨hread, hsends⟩ := horder p hp
  cases p with
  | webhook p =>
    obtain ⟨p'', hu, rfl⟩ := Handler.phase_advance ht
    have hframe := WebhookPhase.advance_frame hu
    obtain ⟨haimed', hcases⟩ := WebhookPhase.manifest_cases htarget hinv.repositories hinv.projects
      haimed hsucceeds hu
    rcases hcases with ⟨hdeployments, hwrote, hunsent, hsent⟩ | ⟨job, rfl, rfl, hwrote, hunsent⟩ |
      ⟨job, cluster, command, rfl, rfl, hcommand, hwrote, -⟩
    · refine hinv.quiet hp ?_ ?_ ?_ haimed' hwrote hunsent hsent
      · rw [hframe]
      · rw [hframe]
      · rw [Records.manifest, hdeployments, Records.manifest]
    · exact hinv.write hp (hread _ rfl) hwrote hunsent haimed'
    · exact hinv.send hp (hsends _ rfl) hcommand hwrote haimed'
  | form p =>
    obtain ⟨p'', hu, rfl⟩ := Handler.phase_advance ht
    cases p with
    | load organization deployment edit =>
      simp only [FormPhase.advance, Option.some.injEq] at hu
      split at hu
      · cases hu
        cases hsucceeds
      · split at hu
        · cases hu
          cases hsucceeds
        · cases hu
          exact hinv.quiet hp rfl rfl rfl haimed rfl rfl ⟨[], by simp, rfl⟩
    | update deployment edit loaded =>
      simp only [FormPhase.advance, Option.some.injEq] at hu
      split at hu
      · cases hu
        cases hsucceeds
      · cases hu
        cases hsucceeds
      · cases hu
        have hdeployment : deployment = project.deployment := haimed
        subst hdeployment
        exact hinv.quiet hp rfl rfl (manifest_form (hread _ rfl)) trivial rfl rfl
          ⟨[], by simp [Records.updateDeployment], rfl⟩
    | returned => cases hu
  | _ => exact haimed.elim

/-- A request of the one deployment arrives. -/
theorem ManifestInv.start {r : Request}
    (hinv : ManifestInv codec init githubRepositoryId project yaml s)
    (hone : OneDeployment githubRepositoryId project.deployment
      (.start r : ServiceAction Text))
    (hsucceeds : (r.start : Handler Text).failing = false) :
    ManifestInv codec init githubRepositoryId project yaml ⟨s.store, s.procs ++ [r.start]⟩ := by
  have hnew : (r.start : Handler Text).Aimed codec init githubRepositoryId project ∧
      (r.start : Handler Text).wrote = none := by
    cases r with
    | webhook action id => exact ⟨hone, rfl⟩
    | form organization deployment edit =>
      simp only [Request.start, FormPhase.start] at hsucceeds ⊢
      split at hsucceeds
      · cases hsucceeds
      · exact ⟨hone, rfl⟩
    | _ => exact hone.elim
  obtain ⟨order, hperm, happlied⟩ := hinv.applied
  obtain ⟨sent, houtbox, hlast⟩ := hinv.sent
  refine ⟨hinv.repositories, hinv.projects, fun p hp ↦ ?_, ⟨order, ?_, happlied⟩, sent, houtbox,
    hlast.imp_right fun h ↦ h.imp_right ?_⟩
  · rcases List.mem_append.mp hp with hp | hp
    · exact hinv.aimed p hp
    · obtain rfl := List.mem_singleton.mp hp
      exact hnew.1
  · simpa [List.filterMap_append, hnew.2] using hperm
  · rintro ⟨q, hq, hunsent⟩
    exact ⟨q, List.mem_append_left _ hq, hunsent⟩

/-- One step of a run in which no handler fails. -/
theorem ManifestInv.step {t : ServiceState Text} {a : ServiceAction Text}
    (hinv : ManifestInv codec init githubRepositoryId project yaml s)
    (htarget : init.webhookTarget githubRepositoryId = some project)
    (hone : OneDeployment githubRepositoryId project.deployment a)
    (horder : InOrder project.deployment s a) (hsucceeds : ∀ p ∈ t.procs, p.failing = false)
    (ht : serviceStep codec s a = some t) :
    ManifestInv codec init githubRepositoryId project yaml t := by
  cases a with
  | start r =>
    obtain rfl := Option.some.inj ht
    exact hinv.start hone (hsucceeds _ (List.mem_append_right _ List.mem_cons_self))
  | advance i o =>
    obtain ⟨p, u, p', hp, hu, rfl⟩ := Pool.step_advance ht
    have hlt := (List.getElem?_eq_some_iff.mp hp).1
    have hmem : p' ∈ s.procs.set i p' := List.mem_of_getElem? (List.getElem?_set_self hlt)
    exact hinv.advance htarget hp horder (hsucceeds p' hmem) hu
  | cancel i => exact hone.elim
  | environment e =>
    obtain ⟨u, hu, rfl⟩ := Option.map_eq_some_iff.mp ht
    have hframe := recordsEvent_frame hu
    obtain ⟨order, hperm, happlied⟩ := hinv.applied
    obtain ⟨row, hrow, hyaml⟩ := Option.bind_eq_some_iff.mp happlied
    have hmanifest : u.manifest project.deployment = s.store.manifest project.deployment := by
      rw [Records.manifest, hframe.deployments _ row hrow, Records.manifest, hrow]
    refine ⟨hframe.repositories.trans hinv.repositories, hframe.projects.trans hinv.projects,
      hinv.aimed, ⟨order, hperm, hmanifest.trans happlied⟩, ?_⟩
    dsimp only
    rw [hframe.outbox, hmanifest]
    exact hinv.sent

end Machine

/-! ## Runs -/

/-- A handler that is about to fail is still there, failed, at the end of a run without
cancellations. -/
theorem not_failing_of_succeeded {codec : ManifestCodec Text} {init s : ServiceState Text}
    {tr : List (ServiceTransition Text)} (h : Run (serviceStep codec) init tr s)
    (hkept : ∀ x ∈ tr, ∀ i, x.action ≠ .cancel i) (hend : ∀ p ∈ s.procs, p.failing = false) :
    ∀ x ∈ tr, ∀ p ∈ x.after.procs, p.failing = false := by
  intro x hx p hp
  by_contra hfailing
  obtain ⟨tr₁, tr₂, rfl⟩ := List.append_of_mem hx
  have hlost := h.lost (Q := fun s ↦ ∃ p ∈ s.procs, p.failing = true)
    ⟨p, hp, by simpa using hfailing⟩
  rcases hlost with ⟨q, hq, hfails⟩ | ⟨y, hy, ⟨q, hq, hfails⟩, hgone⟩
  · rw [hend q hq] at hfails
    cases hfails
  · apply hgone
    have hstep := (h.forall_before (I := fun _ ↦ True) trivial (fun _ _ _ _ _ ↦ trivial) y
      (by simp [hy])).2
    have hnot := hkept y (by simp [hy])
    generalize y.before = u at hq hstep
    generalize y.after = v at hstep ⊢
    generalize y.action = a at hstep hnot
    cases a with
    | start r =>
      obtain rfl := Option.some.inj hstep
      exact ⟨q, List.mem_append_left _ hq, hfails⟩
    | advance i o =>
      obtain ⟨p, w, p', hp, hw, rfl⟩ := Pool.step_advance hstep
      obtain ⟨j, hj⟩ := List.mem_iff_getElem?.mp hq
      by_cases hji : j = i
      · subst hji
        obtain rfl := Option.some.inj (hp.symm.trans hj)
        have hlt := (List.getElem?_eq_some_iff.mp hp).1
        exact ⟨p', List.mem_of_getElem? (List.getElem?_set_self hlt),
          Handler.failing_advance hfails hw⟩
      · refine ⟨q, List.mem_of_getElem? (i := j) ?_, hfails⟩
        rwa [List.getElem?_set_ne (Ne.symm hji)]
    | cancel i => exact absurd rfl (hnot i)
    | environment e =>
      obtain ⟨w, -, rfl⟩ := Option.map_eq_some_iff.mp hstep
      exact ⟨q, hq, hfails⟩

theorem not_failing_of_returned {p : Handler Text} (h : p.succeeded = true) :
    p.failing = false := by
  cases p with
  | webhook p =>
    cases p with
    | returned action result =>
      rw [failing_returned]
      simpa [Handler.succeeded] using h
    | _ => cases h
  | form p =>
    cases p with
    | returned result =>
      cases result with
      | ok row => rfl
      | error e => cases h
    | _ => cases h
  | _ => cases h

/-- A handler that has returned has written exactly what was accepted, and has nothing left to
send. -/
theorem wrote_of_succeeded {p : Handler Text} (h : p.succeeded = true) :
    p.wrote = p.accepted ∧ p.unsent = none := by
  cases p with
  | webhook p =>
    cases p with
    | returned => exact ⟨rfl, rfl⟩
    | _ => cases h
  | _ => exact ⟨rfl, rfl⟩

/-- In every interleaving of successful webhooks and forms of one deployment in which writes and
sends come in order: the stored manifest is the initial one after all accepted actions in some
order, forms leave it, and the manifest sent last is the stored one. -/
theorem manifest_writes_kept (codec : ManifestCodec Text) (init : Records Text)
    {githubRepositoryId : Nat} {project : GitHubProject} {yaml : Text}
    (htarget : init.webhookTarget githubRepositoryId = some project)
    (hyaml : init.manifest project.deployment = some yaml)
    {tr : List (ServiceTransition Text)} {s : ServiceState Text}
    (h : Run (serviceStep codec) ⟨init, []⟩ tr s)
    (hone : ∀ x ∈ tr, OneDeployment githubRepositoryId project.deployment x.action)
    (hreturned : ∀ p ∈ s.procs, p.succeeded = true)
    (horder : ∀ x ∈ tr, InOrder project.deployment x.before x.action) :
    (∃ order : List WebhookAction, order.Perm (s.procs.filterMap Handler.accepted) ∧
      s.store.manifest project.deployment =
        some (applyWebhookActions codec project.productionBranch yaml order).1) ∧
    (∀ x ∈ tr, ∀ i o phase, x.action = .advance i o → x.before.procs[i]? = some (.form phase) →
      x.after.store.manifest project.deployment = x.before.store.manifest project.deployment) ∧
    ∃ sent, s.store.outbox = init.outbox ++ sent ∧ ∀ last, lastManifest sent = some last →
      s.store.manifest project.deployment = some last := by
  have hsucceeds := not_failing_of_succeeded h
    (fun x hx i hi ↦ by have := hone x hx; rw [hi] at this; exact this)
    fun p hp ↦ not_failing_of_returned (hreturned p hp)
  have hinit : ManifestInv codec init githubRepositoryId project yaml ⟨init, []⟩ :=
    ⟨rfl, rfl, fun _ hp ↦ (nomatch hp), ⟨[], .nil, hyaml⟩, [], by simp, .inl rfl⟩
  obtain ⟨hinv, hall⟩ := h.safe_of_condition
    (C := fun x ↦ OneDeployment githubRepositoryId project.deployment x.action ∧
      InOrder project.deployment x.before x.action ∧ ∀ p ∈ x.after.procs, p.failing = false)
    (P := fun x ↦ serviceStep codec x.before x.action = some x.after) hinit
    (fun s a t hs ht hc ↦ ⟨hs.step htarget hc.1 hc.2.1 hc.2.2 ht, ht⟩)
    fun x hx ↦ ⟨hone x hx, horder x hx, hsucceeds x hx⟩
  refine ⟨?_, ?_, ?_⟩
  · obtain ⟨order, hperm, happlied⟩ := hinv.applied
    refine ⟨order, ?_, happlied⟩
    rwa [List.filterMap_congr fun p hp ↦ (wrote_of_succeeded (hreturned p hp)).1] at hperm
  · intro x hx i o phase ha hphase
    obtain ⟨hbefore, hstep⟩ := hall x hx
    have hread := (horder x hx)
    rw [ha] at hstep hread
    obtain ⟨p, t, p', hp, ht, hafter⟩ := Pool.step_advance hstep
    obtain rfl := Option.some.inj (hphase.symm.trans hp)
    obtain ⟨p'', hu, rfl⟩ := Handler.phase_advance ht
    have haimed := hbefore.aimed _ (List.mem_of_getElem? hphase)
    rw [hafter]
    cases phase with
    | load organization deployment edit =>
      simp only [FormPhase.advance, Option.some.injEq] at hu
      split at hu <;> (try split at hu) <;> cases hu <;> rfl
    | update deployment edit loaded =>
      simp only [FormPhase.advance, Option.some.injEq] at hu
      have hdeployment : deployment = project.deployment := haimed
      subst hdeployment
      split at hu <;> cases hu
      · rfl
      · rfl
      · exact manifest_form ((hread _ hphase).1 _ rfl)
    | returned => cases hu
  · obtain ⟨sent, houtbox, hlast⟩ := hinv.sent
    refine ⟨sent, houtbox, fun last hsome ↦ ?_⟩
    rcases hlast with hnone | hstored | ⟨p, hp, hunsent⟩
    · rw [hsome] at hnone
      cases hnone
    · exact hstored.symm.trans hsome
    · obtain ⟨order, -, happlied⟩ := hinv.applied
      rw [(wrote_of_succeeded (hreturned p hp)).2, happlied] at hunsent
      cases hunsent

/-! ## A form around a push -/

instance (d : Nat) (s : ServiceState Manifest) : (a : ServiceAction Manifest) →
    Decidable (InOrder d s a)
  | .advance i _ => inferInstanceAs (Decidable (∀ p ∈ s.procs[i]?,
      (∀ read ∈ p.manifestRead, s.store.manifest d = read) ∧
      ∀ sent ∈ p.sends, s.store.manifest d = some sent ∨
        ∃ q ∈ s.procs.eraseIdx i, q.unsent = s.store.manifest d))
  | .start _ => .isTrue trivial
  | .cancel _ => .isTrue trivial
  | .environment _ => .isTrue trivial

instance (g d : Nat) : (a : ServiceAction Manifest) → Decidable (OneDeployment g d a)
  | .start (.webhook _ id) => inferInstanceAs (Decidable (id = g))
  | .start (.form _ id _) => inferInstanceAs (Decidable (id = d))
  | .start (.delete _ _) => .isFalse id
  | .start (.importing _) => .isFalse id
  | .start (.sync _ _) => .isFalse id
  | .start (.setup _ _) => .isFalse id
  | .start (.installation _ _) => .isFalse id
  | .cancel _ => .isFalse id
  | .advance _ _ => .isTrue trivial
  | .environment _ => .isTrue trivial

/-- An imported repository with its deployment. -/
def deployedRecords : Records Manifest where
  installations := Table.empty.add ⟨1, 70, 7, "acme", "Organization", "active"⟩
  repositories := Table.empty.add
    ⟨0, 500, "acme/shop", "acme", "shop", "main", false, true, some 0, 0⟩
  projects := Table.empty.add ⟨1, 0, 0, "shop", "main", "imported"⟩
  deployments := Table.empty.add
    ⟨1, "shop", 0, "pending", "registry/shop:pending", some (importedManifest shopImport)⟩
  clusters := Table.empty.add ⟨1, "prod", "https://k8s", true⟩
  outbox := []
  now := 0

/-- A status form and a push, the form's load first; then `later`. -/
def formAndPush (later : List (ServiceAction Manifest)) : List (ServiceAction Manifest) :=
  [.start (.form 1 0 (.statusOnly "healthy")), .advance 0 .success,
    .start (.webhook (.buildTrigger "main" "0123456789abcdef") 500)] ++ later

/-- The form writes back the manifest from before the push: the accepted push is lost, and the
cluster was sent another manifest than the stored one. -/
theorem form_drops_push : ∃ tr s, Run (serviceStep plainCodec) ⟨deployedRecords, []⟩ tr s ∧
    (∀ x ∈ tr, OneDeployment 500 0 x.action) ∧ (∀ p ∈ s.procs, p.succeeded = true) ∧
    ¬ ∃ order : List WebhookAction, order.Perm (s.procs.filterMap Handler.accepted) ∧
      s.store.manifest 0 = some (applyWebhookActions plainCodec "main"
        (importedManifest shopImport) order).1 := by
  have hstate : (execute (serviceStep plainCodec) ⟨deployedRecords, []⟩
      (formAndPush (goesOn 1 6 ++ goesOn 0 1))).map (fun s ↦
        (s.procs.map Handler.succeeded, s.procs.filterMap Handler.accepted, s.store.manifest 0)) =
      some ([true, true], [.buildTrigger "main" "0123456789abcdef"],
        some (importedManifest shopImport)) := by decide
  obtain ⟨s, hs, hend⟩ := Option.map_eq_some_iff.mp hstate
  simp only [Prod.mk.injEq] at hend
  obtain ⟨hsucceeded, haccepted, hmanifest⟩ := hend
  refine ⟨_, s, Run.of_execute _ hs, by decide, fun p hp ↦ ?_, ?_⟩
  · have hmem := List.mem_map_of_mem (f := Handler.succeeded) hp
    rw [hsucceeded] at hmem
    simpa using hmem
  · rintro ⟨order, hperm, happlied⟩
    rw [haccepted, List.perm_singleton] at hperm
    rw [hmanifest, hperm] at happlied
    exact absurd happlied (by decide)

/-- When the push comes after the form's write, it is stored and sent. -/
theorem push_after_form : ∃ tr s, Run (serviceStep plainCodec) ⟨deployedRecords, []⟩ tr s ∧
    s.procs.filterMap Handler.accepted = [.buildTrigger "main" "0123456789abcdef"] ∧
    (∃ order : List WebhookAction, order.Perm (s.procs.filterMap Handler.accepted) ∧
      s.store.manifest 0 =
        some (applyWebhookActions plainCodec "main" (importedManifest shopImport) order).1) ∧
    (∀ x ∈ tr, ∀ i o phase, x.action = .advance i o → x.before.procs[i]? = some (.form phase) →
      x.after.store.manifest 0 = x.before.store.manifest 0) ∧
    ∃ sent, s.store.outbox = deployedRecords.outbox ++ sent ∧
      ∀ last, lastManifest sent = some last → s.store.manifest 0 = some last := by
  have hstate : (execute (serviceStep plainCodec) ⟨deployedRecords, []⟩
      (formAndPush (goesOn 0 1 ++ goesOn 1 6))).map (fun s ↦
        (s.procs.map Handler.succeeded, s.procs.filterMap Handler.accepted)) =
      some ([true, true], [.buildTrigger "main" "0123456789abcdef"]) := by decide
  obtain ⟨s, hs, hend⟩ := Option.map_eq_some_iff.mp hstate
  rw [Prod.mk.injEq] at hend
  have hrun := Run.of_execute _ hs
  have hreturned (p : Handler Manifest) (hp : p ∈ s.procs) : p.succeeded = true := by
    have hmem := List.mem_map_of_mem (f := Handler.succeeded) hp
    rw [hend.1] at hmem
    simpa using hmem
  have htarget : deployedRecords.webhookTarget 500 =
      some ⟨1, 0, 0, "shop", "main", "imported"⟩ := by decide
  exact ⟨_, s, hrun, hend.2, manifest_writes_kept plainCodec deployedRecords htarget rfl hrun
    (by decide) hreturned (by decide)⟩

end ReinhardtCloud.Dashboard
