import ReinhardtCloud.Operator.PreviewRuns

/-!
# Previews that outlive their parent

Library `Operator`. What a cleanup that succeeds has left of the previews the operator has built
for the parent. It goes by the spec it reads: previews built before `preview.enabled` was taken back
are not looked for.
-/

namespace ReinhardtCloud.Operator.Previews

open ReinhardtCloud.Base

/-- Every preview that a build has created is gone, or its namespace is being deleted. -/
def NoneOutlives (s : PreviewCluster) : Prop :=
  ∀ ns n p, s.Left ns n p → n.deleting = true

/-- The PR number on the preview is one `cleanup` verifies. -/
def PreviewProject.isNumbered (p : PreviewProject) : Bool :=
  (p.labels.lookup prNumberLabelKey).any isPrNumber

/-- The namespace carries the labels of the parent's preview namespace. -/
def Parent.owns (P : Parent) (n : PreviewNamespace) : Bool :=
  P.uid.any fun uid ↦ labelsMatchPreviewOwner n.labels P.ns P.name uid

/-- For every preview left, its namespace is being deleted already, or the spec that is read still
enables previews and the preview has a PR number or the operator may delete its namespace. -/
def Covered (lifecycle : Bool) (P : Parent) (app : Project) (s : PreviewCluster) : Prop :=
  ∀ ns n p, s.Left ns n p → n.deleting = true ∨
    previewsEnabled app = true ∧ (p.isNumbered = true ∨ lifecycle = true ∧ P.owns n = true)

/-- The preview is one that `cleanup` lists and verifies. -/
def PreviewProject.isFound (p : PreviewProject) (parentNamespace parentName : String) : Bool :=
  (previewProjectsLabelSelector parentName).all (Requirement.admits p.labels) &&
    isVerifiedPreviewOf p (previewNamespaceName parentNamespace parentName) parentNamespace
      parentName

/-- The parent's preview namespace is being deleted, or it is one to keep and holds no preview that
`cleanup` finds. -/
def Tidy (lifecycle : Bool) (P : Parent) (s : PreviewCluster) : Prop :=
  ∀ n, s.namespaces (previewNamespaceName P.ns P.name) = some n → n.deleting = true ∨
    (lifecycle = true → P.owns n = false) ∧ ∀ p ∈ n.previews, p.isFound P.ns P.name = false

/-- No preview is left that `cleanup` would have to wait for. -/
def NoneToAwait (lifecycle : Bool) (P : Parent) (s : PreviewCluster) : Prop :=
  ∀ n, s.namespaces (previewNamespaceName P.ns P.name) = some n →
    lifecycle = true ∧ P.owns n = true ∨ ∀ p ∈ n.previews, p.isFound P.ns P.name = false

/-- Nobody else acts between the requests. -/
def Undisturbed (service : Nat → Service) : Prop := ∀ k, (service k).others = []

/-! ## A cleanup that succeeds -/

section

variable {s t u : PreviewCluster} {ns : String} {n : PreviewNamespace} {p : PreviewProject}
  {P : Parent} {lifecycle : Bool} {app : Project} {service : Nat → Service}

private theorem serve_ok {o : Service} {c : Call} {r : c.Result}
    (h : serve s o c = (t, .ok r)) :
    (o.others.foldl PreviewCluster.change s).perform c = (t, .ok r) := by
  unfold serve at h
  split at h
  · cases h
  · exact h

private theorem run_api_ok {c : Call} {r : c.Result}
    (h : (api c).run serve service s = (t, .ok r)) : serve s (service 0) c = (t, .ok r) := by
  simp only [api, Program.run] at h
  cases hr : serve s (service 0) c with
  | mk u answer =>
    rw [hr] at h
    cases answer with
    | ok a =>
      simp only [Program.pure_eq, Program.run_done, Prod.mk.injEq, Except.ok.injEq] at h
      obtain ⟨rfl, rfl⟩ := h
      rfl
    | error e => cases h

/-- The loop counts the verified previews; without any it requests nothing. -/
private theorem deleteVerified_ok {parentNamespace parentName : String}
    {previews : List PreviewProject} {remaining count : Nat}
    (h : (deleteVerified parentNamespace parentName ns previews remaining).run serve service s =
      (t, .ok count)) :
    remaining ≤ count ∧ (count = remaining →
      t = s ∧ ∀ p ∈ previews, isVerifiedPreviewOf p ns parentNamespace parentName = false) := by
  induction previews generalizing remaining service s with
  | nil =>
    cases h
    exact ⟨le_refl _, fun _ ↦ ⟨rfl, by simp⟩⟩
  | cons p rest ih =>
    have hcounted : ∀ {service s},
        (deleteVerified parentNamespace parentName ns rest (remaining + 1)).run serve service s =
          (t, .ok count) → remaining ≤ count ∧ count ≠ remaining := by
      intro service s h
      have := (ih h).1
      omega
    rw [deleteVerified] at h
    split at h
    · have hlt : remaining ≤ count ∧ count ≠ remaining := by
        split at h
        · exact hcounted h
        · simp only [Program.run] at h
          split at h
          · exact hcounted h
          · exact hcounted h
          · exact hcounted h
          · exact hcounted h
          · cases h
      exact ⟨hlt.1, fun heq ↦ absurd heq hlt.2⟩
    · next hverified =>
      obtain ⟨hle, hnone⟩ := ih h
      refine ⟨hle, fun heq ↦ ⟨(hnone heq).1, ?_⟩⟩
      intro q hq
      rcases List.mem_cons.mp hq with rfl | hq
      · exact Bool.not_eq_true _ ▸ hverified
      · exact (hnone heq).2 q hq

private theorem changes_undisturbed (h : Undisturbed service) (k : Nat) :
    (service k).others.foldl PreviewCluster.change s = s := by
  rw [h k, List.foldl_nil]

/-- A request that changes nothing is answered from the cluster as it is afterwards. -/
private theorem run_read_ok {c : Call} {r : c.Result}
    (hread : ∀ u : PreviewCluster, (u.perform c).1 = u)
    (h : (api c).run serve service s = (t, .ok r)) :
    Shrinks s t ∧ (Undisturbed service → t = s) ∧ (t.perform c).2 = .ok r := by
  have hserved := serve_ok (run_api_ok h)
  have ht : (service 0).others.foldl PreviewCluster.change s = t := by
    rw [← hread ((service 0).others.foldl PreviewCluster.change s), hserved]
  rw [ht] at hserved
  refine ⟨?_, ?_, congrArg Prod.snd hserved⟩
  · rw [← ht]
    exact changes_shrink s _
  · intro hcalm
    rw [← ht, changes_undisturbed hcalm]

/-- An accepted deletion of a namespace. -/
private theorem serve_deleteNamespace_ok {o : Service} {uid : Uid}
    (h : serve s o (.deleteNamespace ns uid) = (t, .ok ())) :
    ∀ n, t.namespaces ns = some n → n.deleting = true := by
  have hserved := serve_ok h
  simp only [PreviewCluster.perform] at hserved
  split at hserved
  · cases hserved
  · split at hserved
    · obtain ⟨rfl, -⟩ := Prod.mk.inj hserved
      intro n hn
      simp only [PreviewCluster.set, Function.update_self] at hn
      obtain rfl := Option.some.inj hn
      rfl
    · cases hserved

/-- The deletion of a namespace is refused when there is none with the observed UID. -/
private theorem serve_deleteNamespace_refused {o : Service} {uid : Uid} {e : ApiError}
    (h : serve s o (.deleteNamespace ns uid) = (t, .error e)) (he : e ≠ .other) :
    o.others.foldl PreviewCluster.change s = t ∧ ∀ n, t.namespaces ns = some n → n.uid ≠ uid := by
  unfold serve at h
  split at h
  · obtain ⟨-, heq⟩ := Prod.mk.inj h
    exact absurd (Except.error.inj heq).symm he
  · simp only [PreviewCluster.perform] at h
    split at h
    · next hnone =>
      obtain ⟨ht, -⟩ := Prod.mk.inj h
      refine ⟨ht, ?_⟩
      intro n hn
      rw [← ht, hnone] at hn
      cases hn
    · next n hn =>
      split at h
      · cases h
      · next huid =>
        obtain ⟨ht, -⟩ := Prod.mk.inj h
        refine ⟨ht, ?_⟩
        intro m hm
        rw [← ht, hn] at hm
        obtain rfl := Option.some.inj hm
        exact huid

/-- `delete_owned_preview_namespace` found the namespace owned and its deletion was accepted. -/
private structure Accepted (P : Parent) (service : Nat → Service) (s t : PreviewCluster) :
    Prop where
  shrinks : Shrinks s t
  deleting : ∀ n, t.namespaces (previewNamespaceName P.ns P.name) = some n → n.deleting = true
  owned : Undisturbed service →
    ∃ m, s.namespaces (previewNamespaceName P.ns P.name) = some m ∧ P.owns m = true

/-- It left the namespace alone: where a preview is left, the parent does not own it. -/
private structure Declined (P : Parent) (service : Nat → Service) (s t : PreviewCluster) :
    Prop where
  shrinks : Shrinks s t
  unowned : ∀ n p, t.Left (previewNamespaceName P.ns P.name) n p → P.owns n = false
  unchanged : Undisturbed service → t = s
  kept : Undisturbed service →
    ∀ n, t.namespaces (previewNamespaceName P.ns P.name) = some n → P.owns n = false

/-- A refusal says that the namespace with the observed UID is gone. -/
private theorem declined_of_refused {v : PreviewCluster} {m : PreviewNamespace} {k : Nat}
    {e : ApiError} (hu : Shrinks s u)
    (hm : u.namespaces (previewNamespaceName P.ns P.name) = some m)
    (h : serve u (service k) (.deleteNamespace (previewNamespaceName P.ns P.name) m.uid) =
      (v, .error e)) (he : e ≠ .other) : Declined P service s v := by
  have hv : Shrinks u v := serve_shrinks h trivial
  obtain ⟨hchanges, hnone⟩ := serve_deleteNamespace_refused h he
  have hdisturbed : ¬ Undisturbed service := by
    intro hcalm
    rw [changes_undisturbed hcalm] at hchanges
    rw [← hchanges] at hnone
    exact hnone m hm rfl
  refine ⟨hu.trans hv, ?_, fun hcalm ↦ absurd hcalm hdisturbed, fun hcalm ↦ absurd hcalm hdisturbed⟩
  · intro n p hleft
    obtain ⟨m', q, ⟨hm', -⟩, hcont⟩ := hv _ n p hleft
    rw [hm] at hm'
    obtain rfl := Option.some.inj hm'
    exact absurd hcont.uid.symm (hnone n hleft.1)

/-- How the deletion of an owned namespace with the observed UID can end without an error. -/
private theorem deleteObserved_ok {m : PreviewNamespace} {accepted : Bool} {k : Nat}
    {next : Except ApiError Unit → PreviewProgram Bool}
    (hok : next (.ok ()) = pure true) (hother : next (.error .other) = .fail (.kube .other))
    (hrefused : ∀ e, e ≠ .other → next (.error e) = pure false)
    (hu : Shrinks s u) (hsame : Undisturbed service → u = s)
    (hm : u.namespaces (previewNamespaceName P.ns P.name) = some m) (howns : P.owns m = true)
    (h : (Program.call (.deleteNamespace (previewNamespaceName P.ns P.name) m.uid) next).run serve
      (fun n ↦ service (n + k)) u = (t, .ok accepted)) :
    accepted = true ∧ Accepted P service s t ∨ accepted = false ∧ Declined P service s t := by
  simp only [Program.run] at h
  cases hserved : serve u (service (0 + k))
    (.deleteNamespace (previewNamespaceName P.ns P.name) m.uid) with
  | mk v answer =>
    rw [hserved] at h
    cases answer with
    | ok _ =>
      rw [show next (.ok ()) = pure true from hok] at h
      cases h
      refine .inl ⟨rfl, hu.trans (serve_shrinks hserved trivial), serve_deleteNamespace_ok hserved,
        ?_⟩
      intro hcalm
      rw [← hsame hcalm]
      exact ⟨m, hm, howns⟩
    | error e =>
      by_cases he : e = .other
      · subst he
        rw [show next (.error .other) = .fail (.kube .other) from hother] at h
        cases h
      · rw [show next (.error e) = pure false from hrefused e he] at h
        cases h
        exact .inr ⟨rfl, declined_of_refused hu hm hserved he⟩

private theorem deleteOwned_ok {accepted : Bool}
    (h : (deleteOwnedPreviewNamespace P.ns P.name P.uid
      (previewNamespaceName P.ns P.name)).run serve service s = (t, .ok accepted)) :
    accepted = true ∧ Accepted P service s t ∨ accepted = false ∧ Declined P service s t := by
  cases huid : P.uid with
  | none =>
    rw [huid] at h
    cases h
    have hunowned : ∀ n, P.owns n = false := fun n ↦ by rw [Parent.owns, huid, Option.any_none]
    exact .inr ⟨rfl, Shrinks.refl s, fun n _ _ ↦ hunowned n, fun _ ↦ rfl, fun _ n _ ↦ hunowned n⟩
  | some uid =>
    rw [huid] at h
    obtain ⟨u, existing, k, hget, h⟩ := Program.run_bind_ok h
    obtain ⟨hshrinks, hsame, hfound⟩ := run_read_ok (fun _ ↦ rfl) hget
    have hexisting : u.namespaces (previewNamespaceName P.ns P.name) = existing :=
      Except.ok.inj hfound
    cases existing with
    | none =>
      cases h
      have hunowned : ∀ n, t.namespaces (previewNamespaceName P.ns P.name) = some n →
          P.owns n = false := by
        intro n hn
        rw [hexisting] at hn
        cases hn
      exact .inr ⟨rfl, hshrinks, fun n p hleft ↦ hunowned n hleft.1, hsame, fun _ ↦ hunowned⟩
    | some m =>
      dsimp only at h
      have howns : P.owns m = labelsMatchPreviewOwner m.labels P.ns P.name uid := by
        rw [Parent.owns, huid, Option.any_some]
      split at h
      · next hmatch =>
        refine deleteObserved_ok rfl rfl ?_ hshrinks hsame hexisting (howns.trans hmatch) h
        intro e he
        cases e with
        | other => exact absurd rfl he
        | notFound => rfl
        | alreadyExists => rfl
        | conflict => rfl
      · next hmatch =>
        cases h
        have hunowned : ∀ n, t.namespaces (previewNamespaceName P.ns P.name) = some n →
            P.owns n = false := by
          intro n hn
          rw [hexisting] at hn
          obtain rfl := Option.some.inj hn
          rw [howns]
          exact Bool.not_eq_true _ ▸ hmatch
        exact .inr ⟨rfl, hshrinks, fun n p hleft ↦ hunowned n hleft.1, hsame, fun _ ↦ hunowned⟩

/-- A numbered preview of the parent is listed and verified. -/
private theorem isFound_of_numbered (hp : Labelled P ns p) (hnumbered : p.isNumbered = true) :
    p.isFound P.ns P.name = true := by
  obtain ⟨-, ⟨prNumber, hname, hnumber⟩, hpreview, happ, hparent, hmanaged⟩ := hp
  rw [PreviewProject.isNumbered, hnumber, Option.any_some] at hnumbered
  refine Bool.and_eq_true_iff.mpr ⟨?_, ?_⟩
  · simp only [previewProjectsLabelSelector, List.all_cons, Requirement.admits, hpreview, happ,
      hnumber, hmanaged, Option.isSome_some, decide_true, Bool.and_self, List.all_nil]
  · simp only [isVerifiedPreviewOf, previewParentNameFromLabels, hparent, happ, hnumber, hpreview,
      hmanaged, hnumbered, ← hname, Option.all_some, decide_true, Bool.and_self, ne_eq,
      not_true_eq_false, decide_false, Bool.or_self, Bool.not_true, Bool.false_eq_true, ↓reduceIte]

/-- In a namespace it keeps, `cleanup` has found no preview left. -/
private theorem deleteRetained_ok
    (h : (deleteRetainedPreviewProjects P.ns P.name (previewNamespaceName P.ns P.name)).run serve
      service s = (t, .ok 0)) :
    Shrinks s t ∧ (Undisturbed service → t = s) ∧
      ∀ n, t.namespaces (previewNamespaceName P.ns P.name) = some n →
        ∀ p ∈ n.previews, p.isFound P.ns P.name = false := by
  obtain ⟨u, previews, k, hlist, h⟩ := Program.run_bind_ok h
  obtain ⟨hshrinks, hsame, hlisted⟩ := run_read_ok (fun _ ↦ rfl) hlist
  obtain ⟨rfl, hnone⟩ := (deleteVerified_ok h).2 rfl
  refine ⟨hshrinks, hsame, ?_⟩
  intro n hn p hp
  obtain rfl := Except.ok.inj hlisted
  by_contra hfound
  obtain ⟨hselected, hverified⟩ := Bool.and_eq_true_iff.mp (Bool.not_eq_false _ ▸ hfound)
  have hmem := hnone p (List.mem_filter.mpr ⟨by rw [hn]; exact hp, hselected⟩)
  rw [hverified] at hmem
  cases hmem

/-- The namespace was kept, and nothing in it is left to wait for. -/
private structure Retained (lifecycle : Bool) (P : Parent) (service : Nat → Service)
    (s t : PreviewCluster) : Prop where
  shrinks : Shrinks s t
  unowned : lifecycle = true →
    ∀ n p, t.Left (previewNamespaceName P.ns P.name) n p → P.owns n = false
  unnumbered : ∀ ns n p, t.Left ns n p → Labelled P ns p → p.isNumbered = false
  unchanged : Undisturbed service → t = s
  tidy : Undisturbed service → Tidy lifecycle P t

/-- The deletion of the namespace, which only lifecycle management attempts. -/
private theorem attemptDeletion_ok {accepted : Bool}
    (h : (if lifecycle = true then deleteOwnedPreviewNamespace P.ns P.name P.uid
        (previewNamespaceName P.ns P.name) else pure false : PreviewProgram Bool).run serve
      service s = (t, .ok accepted)) :
    accepted = true ∧ lifecycle = true ∧ Accepted P service s t ∨
      accepted = false ∧ Shrinks s t ∧ (Undisturbed service → t = s) ∧
        (lifecycle = true →
          ∀ n p, t.Left (previewNamespaceName P.ns P.name) n p → P.owns n = false) ∧
        (Undisturbed service → lifecycle = true →
          ∀ n, t.namespaces (previewNamespaceName P.ns P.name) = some n → P.owns n = false) := by
  split at h
  · next hlifecycle =>
    rcases deleteOwned_ok h with ⟨hdeleted, haccepted⟩ | ⟨hkept, hdeclined⟩
    · exact .inl ⟨hdeleted, hlifecycle, haccepted⟩
    · refine .inr ⟨hkept, hdeclined.shrinks, hdeclined.unchanged, fun _ ↦ hdeclined.unowned, ?_⟩
      exact fun hcalm _ ↦ hdeclined.kept hcalm
  · next hlifecycle =>
    cases h
    exact .inr ⟨rfl, Shrinks.refl s, fun _ ↦ rfl, fun h ↦ absurd h hlifecycle,
      fun _ h ↦ absurd h hlifecycle⟩

/-- How a cleanup can succeed. -/
private theorem cleanupPreviews_ok (hname : app.name = P.name) (huid : app.uid = P.uid)
    (h : (cleanupPreviews lifecycle P.ns app).run serve service s = (t, .ok ())) :
    previewsEnabled app = false ∧ t = s ∨ previewsEnabled app = true ∧
      (lifecycle = true ∧ Accepted P service s t ∨ Retained lifecycle P service s t) := by
  unfold cleanupPreviews at h
  split at h
  · next henabled =>
    refine .inr ⟨henabled, ?_⟩
    rw [hname, huid] at h
    obtain ⟨u, namespaceDeleted, k, hattempt, h⟩ := Program.run_bind_ok h
    rcases attemptDeletion_ok hattempt with
      ⟨rfl, hlifecycle, haccepted⟩ | ⟨rfl, hu, hsame, hunowned, hkept⟩
    · cases h
      exact .inl ⟨hlifecycle, haccepted⟩
    · obtain ⟨v, remaining, l, hdelete, h⟩ := Program.run_bind_ok h
      right
      split at h
      · cases h
      · next hzero =>
        obtain rfl : remaining = 0 := by omega
        obtain ⟨hv, hvsame, hnone⟩ := deleteRetained_ok hdelete
        obtain ⟨ht, htsame, -⟩ := run_read_ok (fun _ ↦ rfl) h
        have hunfound : ∀ ns n p, v.Left ns n p → Labelled P ns p → p.isNumbered = false := by
          rintro ns n p ⟨hn, hp, -⟩ hlabelled
          by_contra hnumbered
          have hfound := isFound_of_numbered hlabelled (Bool.not_eq_false _ ▸ hnumbered)
          rw [hlabelled.ns] at hn
          rw [hnone n hn p hp] at hfound
          cases hfound
        have hshift : ∀ {service : Nat → Service}, Undisturbed service →
            ∀ k, Undisturbed fun n ↦ service (n + k) := fun hcalm k n ↦ hcalm (n + k)
        refine ⟨(hu.trans hv).trans ht, ?_, ?_, ?_, ?_⟩
        · intro hlifecycle n p hp
          obtain ⟨m, q, hq, hcont⟩ := (hv.trans ht) _ n p hp
          have := hunowned hlifecycle m q hq
          rwa [Parent.owns, hcont.owner] at this
        · intro ns n p hp hlabelled
          obtain ⟨m, q, hq, hcont⟩ := ht ns n p hp
          have := hunfound ns m q hq (hlabelled.congr hcont.name.symm hcont.labels.symm)
          rwa [PreviewProject.isNumbered, hcont.labels] at this
        · intro hcalm
          exact ((htsame (hshift (hshift hcalm k) l)).trans (hvsame (hshift hcalm k))).trans
            (hsame hcalm)
        · intro hcalm n hn
          rw [htsame (hshift (hshift hcalm k) l)] at hn
          refine .inr ⟨?_, hnone n hn⟩
          intro hlifecycle
          rw [hvsame (hshift hcalm k)] at hn
          exact hkept hcalm hlifecycle n hn
  · next henabled =>
    cases h
    exact .inl ⟨Bool.not_eq_true _ ▸ henabled, rfl⟩

/-- One cleanup: where nothing else happens meanwhile, its result is right exactly when the previews
it has to remove are covered, and otherwise at least then. -/
private theorem cleanup_right_iff (hP : P.Is app) (hs : AllLabelled P s)
    (h : (cleanupPreviews lifecycle P.ns app).run serve service s = (t, .ok ())) :
    (Covered lifecycle P app s → NoneOutlives t) ∧
      (Undisturbed service → NoneOutlives t → Covered lifecycle P app s) := by
  rcases cleanupPreviews_ok hP.2.1 hP.2.2 h with
    ⟨hdisabled, rfl⟩ | ⟨henabled, ⟨hlifecycle, haccepted⟩ | hretained⟩
  · constructor
    · intro hcovered ns n p hp
      rcases hcovered ns n p hp with hdeleting | ⟨henabled, -⟩
      · exact hdeleting
      · rw [hdisabled] at henabled
        cases henabled
    · exact fun _ hnone ns n p hp ↦ .inl (hnone ns n p hp)
  · constructor
    · intro _ ns n p hp
      obtain ⟨m, q, hq, -⟩ := haccepted.shrinks ns n p hp
      have hns := (hs ns m q hq).ns
      subst hns
      exact haccepted.deleting n hp.1
    · intro hcalm _ ns n p hp
      obtain ⟨m, hm, howns⟩ := haccepted.owned hcalm
      rw [← (hs ns n p hp).ns, hp.1] at hm
      obtain rfl := Option.some.inj hm
      exact .inr ⟨henabled, .inr ⟨hlifecycle, howns⟩⟩
  · constructor
    · intro hcovered ns n p hp
      obtain ⟨m, q, hq, hcont⟩ := hretained.shrinks ns n p hp
      have hlabelled := hs ns m q hq
      rcases hcovered ns m q hq with hdeleting | ⟨-, hnumbered | ⟨hlifecycle, howns⟩⟩
      · exact hcont.deleting hdeleting
      · have := hretained.unnumbered ns n p hp (hlabelled.congr hcont.name hcont.labels)
        rw [PreviewProject.isNumbered, ← hcont.labels] at this
        rw [PreviewProject.isNumbered, this] at hnumbered
        cases hnumbered
      · have hns := hlabelled.ns
        subst hns
        have := hretained.unowned hlifecycle n p hp
        rw [Parent.owns, ← hcont.owner] at this
        rw [Parent.owns, this] at howns
        cases howns
    · intro hcalm hnone
      rw [hretained.unchanged hcalm] at hnone
      exact fun ns n p hp ↦ .inl (hnone ns n p hp)

/-- A cleanup that nobody else interferes with leaves the preview namespace tidy. -/
theorem tidy_of_cleanupPreviews (hname : app.name = P.name) (huid : app.uid = P.uid)
    (henabled : previewsEnabled app = true) (hcalm : Undisturbed service)
    (h : (cleanupPreviews lifecycle P.ns app).run serve service s = (t, .ok ())) :
    Tidy lifecycle P t := by
  rcases cleanupPreviews_ok hname huid h with ⟨hdisabled, -⟩ | ⟨-, ⟨-, haccepted⟩ | hretained⟩
  · rw [henabled] at hdisabled
    cases hdisabled
  · exact fun n hn ↦ .inl (haccepted.deleting n hn)
  · exact hretained.tidy hcalm

/-! ## A cleanup with nothing to wait for -/

private theorem run_api_calm {c : Call} {r : c.Result} (h : s.perform c = (t, .ok r)) :
    (api c).run serve (fun _ ↦ .calm) s = (t, .ok r) := by
  have hserved : serve s .calm c = (t, .ok r) := h
  simp only [api, Program.run, hserved, Program.pure_eq]

private theorem deleteVerified_calm {parentNamespace parentName : String}
    {previews : List PreviewProject} {remaining : Nat}
    (h : ∀ p ∈ previews, isVerifiedPreviewOf p ns parentNamespace parentName = false) :
    (deleteVerified parentNamespace parentName ns previews remaining).run serve (fun _ ↦ .calm) s =
      (s, .ok remaining) := by
  induction previews with
  | nil => rfl
  | cons p rest ih =>
    have hp : ¬ isVerifiedPreviewOf p ns parentNamespace parentName = true := by
      rw [h p List.mem_cons_self]
      exact Bool.false_ne_true
    rw [deleteVerified, if_neg hp]
    exact ih fun q hq ↦ h q (List.mem_cons_of_mem p hq)

private theorem deleteRetained_calm
    (h : ∀ n, s.namespaces (previewNamespaceName P.ns P.name) = some n →
      ∀ p ∈ n.previews, p.isFound P.ns P.name = false) :
    (deleteRetainedPreviewProjects P.ns P.name (previewNamespaceName P.ns P.name)).run serve
      (fun _ ↦ .calm) s = (s, .ok 0) := by
  rw [deleteRetainedPreviewProjects, Program.bind_eq, Program.run_bind, run_api_calm rfl]
  apply deleteVerified_calm
  intro p hp
  obtain ⟨hmem, hselected⟩ := List.mem_filter.mp hp
  cases hn : s.namespaces (previewNamespaceName P.ns P.name) with
  | none =>
    rw [hn] at hmem
    cases hmem
  | some n =>
    rw [hn] at hmem
    have hfound := h n hn p hmem
    rwa [PreviewProject.isFound, hselected, Bool.true_and] at hfound

private theorem deleteOwned_calm_of_unowned
    (h : ∀ n, s.namespaces (previewNamespaceName P.ns P.name) = some n → P.owns n = false) :
    (deleteOwnedPreviewNamespace P.ns P.name P.uid (previewNamespaceName P.ns P.name)).run serve
      (fun _ ↦ .calm) s = (s, .ok false) := by
  unfold Parent.owns at h
  cases huid : P.uid with
  | none => rfl
  | some uid =>
    rw [huid] at h
    rw [deleteOwnedPreviewNamespace, Program.bind_eq, Program.run_bind, run_api_calm rfl]
    cases hn : s.namespaces (previewNamespaceName P.ns P.name) with
    | none => rfl
    | some n =>
      have hunowned : ¬ labelsMatchPreviewOwner n.labels P.ns P.name uid = true := by
        have hfalse := h n hn
        rw [Option.any_some] at hfalse
        rw [hfalse]
        exact Bool.false_ne_true
      dsimp only
      rw [if_neg hunowned]
      rfl

private theorem deleteOwned_calm_of_owned {n : PreviewNamespace}
    (hn : s.namespaces (previewNamespaceName P.ns P.name) = some n) (h : P.owns n = true) :
    (deleteOwnedPreviewNamespace P.ns P.name P.uid (previewNamespaceName P.ns P.name)).run serve
      (fun _ ↦ .calm) s = (s.set (previewNamespaceName P.ns P.name)
        (some { n with deleting := true }), .ok true) := by
  unfold Parent.owns at h
  cases huid : P.uid with
  | none =>
    rw [huid] at h
    cases h
  | some uid =>
    rw [huid, Option.any_some] at h
    rw [deleteOwnedPreviewNamespace, Program.bind_eq, Program.run_bind, run_api_calm rfl, hn]
    dsimp only
    rw [if_pos h]
    have hdeleted : serve s .calm (.deleteNamespace (previewNamespaceName P.ns P.name) n.uid) =
        (s.set (previewNamespaceName P.ns P.name) (some { n with deleting := true }), .ok ()) := by
      simp only [serve, Service.calm, List.foldl_nil, PreviewCluster.perform, hn, if_true,
        Bool.false_eq_true, if_false]
    simp only [Program.run, hdeleted, Program.pure_eq]

/-- With nothing to wait for, a cleanup whose requests are all answered succeeds. -/
theorem cleanupPreviews_calm (hname : app.name = P.name) (huid : app.uid = P.uid)
    (h : NoneToAwait lifecycle P s) :
    ((cleanupPreviews lifecycle P.ns app).run serve (fun _ ↦ .calm) s).2 = .ok () := by
  unfold cleanupPreviews
  split
  · rw [hname, huid, Program.bind_eq, Program.run_bind]
    by_cases hdeletes : lifecycle = true ∧
        ∃ n, s.namespaces (previewNamespaceName P.ns P.name) = some n ∧ P.owns n = true
    · obtain ⟨rfl, n, hn, howned⟩ := hdeletes
      rw [if_pos rfl, deleteOwned_calm_of_owned hn howned]
      rfl
    · have hkept : (if lifecycle = true then deleteOwnedPreviewNamespace P.ns P.name P.uid
          (previewNamespaceName P.ns P.name) else pure false : PreviewProgram Bool).run serve
            (fun _ ↦ .calm) s = (s, .ok false) := by
        split
        · next hlifecycle =>
          apply deleteOwned_calm_of_unowned
          intro n hn
          by_contra howned
          exact hdeletes ⟨hlifecycle, n, hn, Bool.not_eq_false _ ▸ howned⟩
        · rfl
      have hnone : ∀ n, s.namespaces (previewNamespaceName P.ns P.name) = some n →
          ∀ p ∈ n.previews, p.isFound P.ns P.name = false := by
        intro n hn
        refine (h n hn).resolve_left ?_
        rintro ⟨hlifecycle, howned⟩
        exact hdeletes ⟨hlifecycle, n, hn, howned⟩
      rw [hkept]
      dsimp only
      rw [if_neg Bool.false_ne_true, Program.bind_eq, Program.run_bind, deleteRetained_calm hnone]
      exact congrArg Prod.snd (run_api_calm rfl)
  · rfl

end

/-- In every run from a cluster without previews, no preview outlives a parent whose cleanup has
succeeded exactly when each is covered: the spec that is read still enables previews, and the
preview has a PR number or its namespace may be deleted. -/
theorem no_preview_outlives_iff (lifecycle : Bool) (P : Parent) (s₀ : PreviewCluster)
    (hnew : ∀ ns n p, ¬ s₀.Left ns n p)
    {tr : List (Transition PreviewCluster PreviewEvent)} {s : PreviewCluster}
    (hrun : Run (previewStep lifecycle P) s₀ tr s) :
    ∀ x ∈ tr, ∀ app service, x.action = .cleanup app service →
      ((cleanupPreviews lifecycle P.ns app).run serve service x.before).2 = .ok () →
      (Covered lifecycle P app x.before → NoneOutlives x.after) ∧
        (Undisturbed service → NoneOutlives x.after → Covered lifecycle P app x.before) := by
  intro x hx app service haction hok
  have hinit : AllLabelled P s₀ := fun ns n p hp ↦ absurd hp (hnew ns n p)
  obtain ⟨hlabelled, hstep⟩ :=
    hrun.forall_before hinit (fun _ _ _ hs ht ↦ previewStep_labelled hs ht) x hx
  rw [haction] at hstep
  simp only [previewStep, Option.ite_none_right_eq_some, Option.some.injEq] at hstep
  obtain ⟨hP, hafter⟩ := hstep
  exact cleanup_right_iff hP hlabelled (Prod.ext hafter hok)

/-! ## A parent with one preview -/

/-- A cluster without namespaces. -/
def emptyCluster : PreviewCluster := ⟨fun _ ↦ none, 0⟩

/-- A parent. -/
def shop : Parent := ⟨"team", "shop", some 7⟩

/-- Its versions, which differ in `preview.enabled` and in the annotations. -/
def shopVersion (enabled : Bool) (annotations : Annotations) : Project :=
  ⟨"shop", some "team", some 7, none, annotations,
    { image := "registry.example/shop:1"
      source := some ⟨"https://git.example/shop", none, none,
        some ⟨none, none, some "registry.example/shop", []⟩,
        some ⟨enabled, none, none⟩⟩ }, none, none⟩

/-- A pass that finds the requested build of pull request 5 done. -/
def shopPass : Pass :=
  ⟨"2026-01-01T00:00:00Z", fun _ _ ↦ false,
    some (shopVersion true ⟨some "abcdef12", some "create", some "5", none⟩)⟩

/-- The cluster after that pass. -/
def shopCluster : PreviewCluster :=
  ((reconcilePreviews true "team" (shopVersion true .cleared) shopPass).run serve
    (fun _ ↦ .calm) emptyCluster).1

/-- The cluster after a cleanup that reads a spec with previews enabled or not. -/
def shopCleaned (enabled : Bool) : PreviewCluster :=
  ((cleanupPreviews true "team" (shopVersion enabled .cleared)).run serve (fun _ ↦ .calm)
    shopCluster).1

private theorem not_left_emptyCluster (ns : String) (n : PreviewNamespace) (p : PreviewProject) :
    ¬ emptyCluster.Left ns n p := by
  rintro ⟨hn, -⟩
  cases hn

private theorem shop_build : previewStep true shop emptyCluster
    (.reconcile (shopVersion true .cleared) shopPass fun _ ↦ .calm) = some shopCluster := by
  have hversions : shop.Is (shopVersion true .cleared) ∧
      ∀ request ∈ shopPass.requested, shop.Is request := by decide
  rw [previewStep, if_pos hversions]
  rfl

/-- The build and a cleanup. -/
private theorem shop_run (enabled : Bool) : Run (previewStep true shop) emptyCluster
    [⟨emptyCluster, .reconcile (shopVersion true .cleared) shopPass fun _ ↦ .calm, shopCluster⟩,
      ⟨shopCluster, .cleanup (shopVersion enabled .cleared) fun _ ↦ .calm, shopCleaned enabled⟩]
    (shopCleaned enabled) := by
  have hcleanup : previewStep true shop shopCluster
      (.cleanup (shopVersion enabled .cleared) fun _ ↦ .calm) = some (shopCleaned enabled) := by
    have hversion : shop.Is (shopVersion enabled .cleared) := ⟨rfl, rfl, rfl⟩
    rw [previewStep, if_pos hversion]
    rfl
  exact (Run.nil.snoc shop_build).snoc hcleanup

/-- After the build its preview is in the parent's namespace. -/
private theorem shopCluster_namespaces :
    shopCluster.namespaces (previewNamespaceName "team" "shop") = some ⟨0,
      previewNamespaceOwnerLabels "team" "shop" 7, false, [⟨"shop-pr-5", 1,
        previewLabels "team" "shop" "5", some "2026-01-01T00:00:00Z",
        "registry.example/shop:pr-5-abcdef12", false, true⟩]⟩ := by
  decide

private theorem shop_owns {ns : String} {n : PreviewNamespace} {p : PreviewProject}
    (h : shopCluster.Left ns n p) : shop.owns n = true := by
  have hlabelled : AllLabelled shop shopCluster :=
    previewStep_labelled (fun ns n p hp ↦ absurd hp (not_left_emptyCluster ns n p)) shop_build
  have hns : ns = previewNamespaceName "team" "shop" := (hlabelled ns n p h).ns
  subst hns
  obtain rfl := Option.some.inj (shopCluster_namespaces.symm.trans h.1)
  decide

/-- With previews still enabled the cleanup succeeds and the namespace is being deleted. -/
theorem no_preview_outlives_iff_shop :
    ((cleanupPreviews true "team" (shopVersion true .cleared)).run serve (fun _ ↦ .calm)
      shopCluster).2 = .ok () ∧ NoneOutlives (shopCleaned true) := by
  refine ⟨rfl, ?_⟩
  have hright := no_preview_outlives_iff true shop emptyCluster not_left_emptyCluster
    (shop_run true)
    ⟨shopCluster, .cleanup (shopVersion true .cleared) fun _ ↦ .calm, shopCleaned true⟩
    (by simp) _ _ rfl rfl
  exact hright.1 fun ns n p hp ↦ .inr ⟨rfl, .inr ⟨rfl, shop_owns hp⟩⟩

/-- With previews disabled after the build, the cleanup succeeds and leaves the preview. -/
theorem preview_outlives_parent :
    ¬ ∀ (lifecycle : Bool) (P : Parent) (s₀ : PreviewCluster), (∀ ns n p, ¬ s₀.Left ns n p) →
      ∀ tr s, Run (previewStep lifecycle P) s₀ tr s →
      ∀ x ∈ tr, ∀ app service, x.action = .cleanup app service →
        ((cleanupPreviews lifecycle P.ns app).run serve service x.before).2 = .ok () →
        NoneOutlives x.after := by
  intro h
  have hnone := h true shop emptyCluster not_left_emptyCluster _ _ (shop_run false)
    ⟨shopCluster, .cleanup (shopVersion false .cleared) fun _ ↦ .calm, shopCleaned false⟩
    (by simp) _ _ rfl rfl
  have hleft : (shopCleaned false).Left (previewNamespaceName "team" "shop") _ _ :=
    ⟨shopCluster_namespaces, List.mem_cons_self, rfl⟩
  cases hnone _ _ _ hleft

end ReinhardtCloud.Operator.Previews
