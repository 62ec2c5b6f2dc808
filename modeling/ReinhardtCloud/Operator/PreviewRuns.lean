import ReinhardtCloud.Operator.PreviewNamespaces

/-!
# The previews of one parent

Library `Operator`. Runs of the preview parts of `apply` and `cleanup` for one parent Project, whose
spec and annotations each of them reads anew, with what others do in the cluster before any request
and between the passes. One pass at a time works on a Project, so a pass is one step; each of its
requests may fail, which leaves what the requests before it have done.
-/

namespace ReinhardtCloud.Operator.Previews

open ReinhardtCloud.Base

/-- The identity of the parent Project. -/
structure Parent where
  ns : String
  name : String
  uid : Option Uid
  deriving DecidableEq

/-- `app` is the parent, at some point of its edits. -/
def Parent.Is (P : Parent) (app : Project) : Prop :=
  app.ns = some P.ns ∧ app.name = P.name ∧ app.uid = P.uid

instance (P : Parent) (app : Project) : Decidable (P.Is app) := inferInstanceAs (Decidable (_ ∧ _))

/-- What happens: a change by others, a reconcile of the parent, a cleanup of the parent. -/
inductive PreviewEvent where
  | change (c : Change)
  | reconcile (app : Project) (pass : Pass) (service : Nat → Service)
  | cleanup (app : Project) (service : Nat → Service)

/-- One step. -/
def previewStep (lifecycle : Bool) (P : Parent) (s : PreviewCluster) :
    PreviewEvent → Option PreviewCluster
  | .change c => some (s.change c)
  | .reconcile app pass service =>
    if P.Is app ∧ ∀ request ∈ pass.requested, P.Is request then
      some ((reconcilePreviews lifecycle P.ns app pass).run serve service s).1
    else none
  | .cleanup app service =>
    if P.Is app then some ((cleanupPreviews lifecycle P.ns app).run serve service s).1 else none

/-- A preview that a build has created is left in a namespace. -/
def PreviewCluster.Left (s : PreviewCluster) (ns : String) (n : PreviewNamespace)
    (p : PreviewProject) : Prop :=
  s.namespaces ns = some n ∧ p ∈ n.previews ∧ p.fromBuild = true

/-! ## What only goes away -/

/-- The preview `q` in the namespace `m` has become `p` in `n`. -/
structure Continues (m : PreviewNamespace) (q : PreviewProject) (n : PreviewNamespace)
    (p : PreviewProject) : Prop where
  name : q.name = p.name
  labels : q.labels = p.labels
  uid : m.uid = n.uid
  owner : m.labels = n.labels
  deleting : m.deleting = true → n.deleting = true

/-- Every preview left in `t` was there in `s`. -/
def Shrinks (s t : PreviewCluster) : Prop :=
  ∀ ns n p, t.Left ns n p → ∃ m q, s.Left ns m q ∧ Continues m q n p

section

variable {s t u : PreviewCluster} {ns : String} {n : PreviewNamespace} {p : PreviewProject}

theorem Shrinks.refl (s : PreviewCluster) : Shrinks s s :=
  fun _ n p h ↦ ⟨n, p, h, rfl, rfl, rfl, rfl, id⟩

theorem Shrinks.trans (h : Shrinks s t) (h' : Shrinks t u) : Shrinks s u := by
  intro ns n p hp
  obtain ⟨m, q, hq, hqp⟩ := h' ns n p hp
  obtain ⟨l, r, hr, hrq⟩ := h ns m q hq
  exact ⟨l, r, hr, hrq.name.trans hqp.name, hrq.labels.trans hqp.labels, hrq.uid.trans hqp.uid,
    hrq.owner.trans hqp.owner, hqp.deleting ∘ hrq.deleting⟩

/-- `n` is the namespace `m` with at most its previews. -/
private structure Reduces (m n : PreviewNamespace) : Prop where
  uid : m.uid = n.uid
  owner : m.labels = n.labels
  deleting : m.deleting = true → n.deleting = true
  previews : ∀ p ∈ n.previews, p.fromBuild = true →
    ∃ q ∈ m.previews, q.fromBuild = true ∧ q.name = p.name ∧ q.labels = p.labels

private theorem reduces_of_subset {m : PreviewNamespace} (huid : m.uid = n.uid)
    (howner : m.labels = n.labels) (hdeleting : m.deleting = true → n.deleting = true)
    (h : ∀ p ∈ n.previews, p.fromBuild = true → p ∈ m.previews) : Reduces m n :=
  ⟨huid, howner, hdeleting, fun p hp hbuild ↦ ⟨p, h p hp hbuild, hbuild, rfl, rfl⟩⟩

private theorem reduces_markDeleting (n : PreviewNamespace) (name : String) :
    Reduces n (n.markDeleting name) := by
  refine ⟨rfl, rfl, id, ?_⟩
  intro p hp hbuild
  obtain ⟨q, hq, rfl⟩ := List.mem_map.mp hp
  split at hbuild
  · next hname => exact ⟨q, hq, hbuild, by simp only [if_pos hname], by simp only [if_pos hname]⟩
  · next hname => exact ⟨q, hq, hbuild, by simp only [if_neg hname], by simp only [if_neg hname]⟩

/-- Only one namespace has changed, and it was there with at least its previews, or is empty. -/
private theorem shrinks_of_update {content : Option PreviewNamespace}
    (ht : t.namespaces = Function.update s.namespaces ns content)
    (h : ∀ n, content = some n → n.previews = [] ∨
      ∃ m, s.namespaces ns = some m ∧ Reduces m n) : Shrinks s t := by
  rintro ns' n p ⟨hn, hp, hbuild⟩
  rw [ht, Function.update_apply] at hn
  split at hn
  · next heq =>
    subst heq
    rcases h n hn with hempty | ⟨m, hm, hreduces⟩
    · rw [hempty] at hp
      cases hp
    · obtain ⟨q, hq, hqbuild, hname, hlabels⟩ := hreduces.previews p hp hbuild
      exact ⟨m, q, ⟨hm, hq, hqbuild⟩, hname, hlabels, hreduces.uid, hreduces.owner,
        hreduces.deleting⟩
  · exact Shrinks.refl s ns' n p ⟨hn, hp, hbuild⟩

private theorem shrinks_of_reduces {m n : PreviewNamespace} (hm : s.namespaces ns = some m)
    (ht : t.namespaces = Function.update s.namespaces ns (some n)) (h : Reduces m n) :
    Shrinks s t := by
  refine shrinks_of_update ht ?_
  rintro _ ⟨rfl⟩
  exact .inr ⟨m, hm, h⟩

private theorem shrinks_of_map {f : PreviewNamespace → PreviewNamespace}
    (ht : t.namespaces = Function.update s.namespaces ns ((s.namespaces ns).map f))
    (h : ∀ m, Reduces m (f m)) : Shrinks s t := by
  refine shrinks_of_update ht ?_
  intro n hn
  obtain ⟨m, hm, rfl⟩ := Option.map_eq_some_iff.mp hn
  exact .inr ⟨m, hm, h m⟩

/-- Others add no preview of a build. -/
theorem change_shrinks (s : PreviewCluster) (c : Change) : Shrinks s (s.change c) := by
  cases c with
  | createProject ns name labels =>
    simp only [PreviewCluster.change]
    split
    · exact Shrinks.refl s
    · next n hn =>
      split
      · exact Shrinks.refl s
      · refine shrinks_of_reduces hn rfl (reduces_of_subset rfl rfl id ?_)
        intro p hp hbuild
        rcases List.mem_append.mp hp with hp | hp
        · exact hp
        · obtain rfl := List.mem_singleton.mp hp
          cases hbuild
  | deleteProject ns name => exact shrinks_of_map rfl fun m ↦ reduces_markDeleting m name
  | finalizeProject ns name =>
    refine shrinks_of_map rfl fun m ↦ reduces_of_subset rfl rfl id ?_
    intro p hp _
    exact List.mem_of_mem_filter hp
  | createNamespace ns labels =>
    simp only [PreviewCluster.change]
    split
    · exact Shrinks.refl s
    · refine shrinks_of_update rfl ?_
      rintro _ ⟨rfl⟩
      exact .inl rfl
  | deleteNamespace ns =>
    exact shrinks_of_map rfl fun m ↦ reduces_of_subset rfl rfl (fun _ ↦ rfl) fun p hp _ ↦ hp
  | finalizeNamespace ns =>
    refine shrinks_of_update rfl ?_
    intro n hn
    have hfound := (Option.filter_eq_some_iff.mp hn).1
    exact .inr ⟨n, hfound, reduces_of_subset rfl rfl id fun p hp _ ↦ hp⟩

theorem changes_shrink (s : PreviewCluster) (changes : List Change) :
    Shrinks s (changes.foldl PreviewCluster.change s) := by
  induction changes generalizing s with
  | nil => exact Shrinks.refl s
  | cons c rest ih => exact (change_shrinks s c).trans (ih _)

/-- Requests that apply no Project and relabel no namespace. -/
def Call.Harmless : Call → Prop
  | .applyProject .. | .patchNamespace .. => False
  | _ => True

theorem perform_shrinks {c : Call} (hc : c.Harmless) : Shrinks s (s.perform c).1 := by
  cases c with
  | applyProject ns name labels lastActivity image => exact hc.elim
  | patchNamespace ns labels => exact hc.elim
  | getNamespace ns => exact Shrinks.refl s
  | listProjects ns selector => exact Shrinks.refl s
  | deleteGuardrails ns => exact Shrinks.refl s
  | applyGuardrails ns =>
    simp only [PreviewCluster.perform]
    split <;> exact Shrinks.refl s
  | createNamespace ns labels =>
    simp only [PreviewCluster.perform]
    split
    · exact Shrinks.refl s
    · refine shrinks_of_update rfl ?_
      rintro _ ⟨rfl⟩
      exact .inl rfl
  | deleteNamespace ns uid =>
    simp only [PreviewCluster.perform]
    split
    · exact Shrinks.refl s
    · next n hn =>
      split
      · exact shrinks_of_reduces hn rfl
          (reduces_of_subset rfl rfl (fun _ ↦ rfl) fun p hp _ ↦ hp)
      · exact Shrinks.refl s
  | deleteProject ns name uid =>
    simp only [PreviewCluster.perform]
    split
    · exact Shrinks.refl s
    · next n hn =>
      split
      · exact Shrinks.refl s
      · split
        · exact shrinks_of_reduces hn rfl (reduces_markDeleting n name)
        · exact Shrinks.refl s

theorem serve_shrinks {c : Call} {o : Service} {r : Except ApiError c.Result}
    (h : serve s o c = (t, r)) (hc : c.Harmless) : Shrinks s t := by
  unfold serve at h
  split at h
  · obtain ⟨rfl, -⟩ := Prod.mk.inj h
    exact changes_shrink s o.others
  · have hperform : ((o.others.foldl PreviewCluster.change s).perform c).1 = t :=
      congrArg Prod.fst h
    rw [← hperform]
    exact (changes_shrink s o.others).trans (perform_shrinks hc)

/-! ## What a build leaves -/

/-- A preview of the parent as `reconcile_preview_from_build` names and labels it. -/
structure Labelled (P : Parent) (ns : String) (p : PreviewProject) : Prop where
  ns : ns = previewNamespaceName P.ns P.name
  named : ∃ prNumber, p.name = previewProjectName P.name prNumber ∧
    p.labels.lookup prNumberLabelKey = some prNumber
  preview : p.labels.lookup previewLabelKey = some "true"
  parentApp : p.labels.lookup parentAppLabelKey = some P.name
  parentNamespace : p.labels.lookup parentNamespaceLabelKey = some P.ns
  managedBy : p.labels.lookup managedByLabelKey = some "reinhardt-cloud"

/-- Every preview left is named and labelled so. -/
def AllLabelled (P : Parent) (s : PreviewCluster) : Prop :=
  ∀ ns n p, s.Left ns n p → Labelled P ns p

/-- A Project is applied only as `reconcile_preview_from_build` applies it. -/
def Call.LabelsFor (P : Parent) : Call → Prop
  | .applyProject ns name labels _ _ => ns = previewNamespaceName P.ns P.name ∧
      ∃ prNumber, name = previewProjectName P.name prNumber ∧
        labels = previewLabels P.ns P.name prNumber
  | _ => True

theorem Labelled.congr {P : Parent} {q : PreviewProject} (h : Labelled P ns q)
    (hname : q.name = p.name) (hlabels : q.labels = p.labels) : Labelled P ns p := by
  obtain ⟨hns, hnamed, hpreview, happ, hparent, hmanaged⟩ := h
  rw [hname, hlabels] at hnamed
  rw [hlabels] at hpreview happ hparent hmanaged
  exact ⟨hns, hnamed, hpreview, happ, hparent, hmanaged⟩

private theorem Shrinks.labelled {P : Parent} (h : Shrinks s t) (hs : AllLabelled P s) :
    AllLabelled P t := by
  intro ns n p hp
  obtain ⟨m, q, hq, hcont⟩ := h ns n p hp
  exact (hs ns m q hq).congr hcont.name hcont.labels

private theorem lookup_merge {current patch : StringMap} {key value : String}
    (h : patch.lookup key = some value) : (current.merge patch).lookup key = some value := by
  rw [StringMap.merge, List.lookup_append, h, Option.some_or]

/-- What is applied over any labels is labelled. -/
private theorem labelled_of_merge {P : Parent} {prNumber : String}
    (hns : ns = previewNamespaceName P.ns P.name)
    (hname : p.name = previewProjectName P.name prNumber)
    (hlabels : ∃ current : StringMap,
      p.labels = current.merge (previewLabels P.ns P.name prNumber)) : Labelled P ns p := by
  obtain ⟨current, hlabels⟩ := hlabels
  refine ⟨hns, ⟨prNumber, hname, ?_⟩, ?_, ?_, ?_, ?_⟩
  all_goals
    rw [hlabels]
    exact lookup_merge rfl

/-- Only one namespace has changed, and its previews are labelled. -/
private theorem allLabelled_of_update {P : Parent} {content : Option PreviewNamespace}
    (hs : AllLabelled P s) (ht : t.namespaces = Function.update s.namespaces ns content)
    (h : ∀ n, content = some n → ∀ p ∈ n.previews, p.fromBuild = true → Labelled P ns p) :
    AllLabelled P t := by
  rintro ns' n p ⟨hn, hp, hbuild⟩
  rw [ht, Function.update_apply] at hn
  split at hn
  · next heq =>
    subst heq
    exact h n hn p hp hbuild
  · exact hs ns' n p ⟨hn, hp, hbuild⟩

private theorem perform_labelled {P : Parent} {c : Call} (hc : c.LabelsFor P)
    (hs : AllLabelled P s) : AllLabelled P (s.perform c).1 := by
  cases c with
  | applyProject ns name labels lastActivity image =>
    obtain ⟨hns, prNumber, rfl, rfl⟩ := hc
    simp only [PreviewCluster.perform]
    split
    · exact hs
    · next n hn =>
      split
      · refine allLabelled_of_update hs rfl ?_
        rintro _ ⟨rfl⟩ p hp hbuild
        obtain ⟨q, hq, rfl⟩ := List.mem_map.mp hp
        split
        · next hname => exact labelled_of_merge hns hname ⟨_, rfl⟩
        · next hname =>
          rw [if_neg hname] at hbuild
          exact hs ns n q ⟨hn, hq, hbuild⟩
      · split
        · exact hs
        · refine allLabelled_of_update hs rfl ?_
          rintro _ ⟨rfl⟩ p hp hbuild
          rcases List.mem_append.mp hp with hp | hp
          · exact hs ns n p ⟨hn, hp, hbuild⟩
          · obtain rfl := List.mem_singleton.mp hp
            exact labelled_of_merge hns rfl ⟨[], rfl⟩
  | patchNamespace ns labels =>
    simp only [PreviewCluster.perform]
    split
    · exact hs
    · next n hn =>
      refine allLabelled_of_update hs rfl ?_
      rintro _ ⟨rfl⟩ p hp hbuild
      exact hs ns n p ⟨hn, hp, hbuild⟩
  | getNamespace ns => exact hs
  | listProjects ns selector => exact hs
  | deleteGuardrails ns => exact hs
  | applyGuardrails ns =>
    exact (perform_shrinks (c := .applyGuardrails ns) trivial).labelled hs
  | createNamespace ns labels =>
    exact (perform_shrinks (c := .createNamespace ns labels) trivial).labelled hs
  | deleteNamespace ns uid =>
    exact (perform_shrinks (c := .deleteNamespace ns uid) trivial).labelled hs
  | deleteProject ns name uid =>
    exact (perform_shrinks (c := .deleteProject ns name uid) trivial).labelled hs

private theorem serve_labelled {P : Parent} {c : Call} (hc : c.LabelsFor P) (o : Service)
    (hs : AllLabelled P s) : AllLabelled P (serve s o c).1 := by
  have hchanged := (changes_shrink s o.others).labelled hs
  unfold serve
  split
  · exact hchanged
  · exact perform_labelled hc hchanged

/-! ## What the operator requests -/

section

variable {A : Call → Prop}

private theorem only_api {c : Call} (hc : A c) : (api c).Only A := by
  refine ⟨hc, fun r ↦ ?_⟩
  cases r <;> trivial

private theorem only_whenEnabled {app : Project} {part : PreviewProgram Unit} (h : part.Only A) :
    (whenEnabled app part).Only A := by
  unfold whenEnabled
  split
  · exact h
  · trivial

private theorem only_patchOrCreateNamespace {labels : StringMap}
    (hpatch : A (.patchNamespace ns labels)) (hcreate : A (.createNamespace ns labels)) :
    (patchOrCreateNamespace ns labels).Only A := by
  refine ⟨hpatch, ?_⟩
  rintro (e | _)
  · cases e with
    | notFound =>
      refine ⟨hcreate, ?_⟩
      rintro (e | _)
      · cases e with
        | alreadyExists => exact only_api hpatch
        | conflict => exact only_api hpatch
        | notFound => trivial
        | other => trivial
      · trivial
    | alreadyExists => trivial
    | conflict => trivial
    | other => trivial
  · trivial

private theorem only_patchExistingNamespaceLabels {labels : StringMap}
    (hpatch : A (.patchNamespace ns labels)) : (patchExistingNamespaceLabels ns labels).Only A := by
  refine ⟨hpatch, ?_⟩
  rintro (e | _)
  · cases e <;> trivial
  · trivial

private theorem only_deleteExpired {expired : String → Bool} {previews : List PreviewProject}
    (hdelete : ∀ name uid, A (.deleteProject ns name uid)) :
    (deleteExpired expired ns previews).Only A := by
  induction previews with
  | nil => trivial
  | cons p rest ih =>
    rw [deleteExpired]
    split
    · exact ⟨hdelete _ _, fun _ ↦ ih⟩
    · exact ih

private theorem only_deleteVerified {parentNamespace parentName : String}
    {previews : List PreviewProject} {remaining : Nat}
    (hdelete : ∀ name uid, A (.deleteProject ns name uid)) :
    (deleteVerified parentNamespace parentName ns previews remaining).Only A := by
  induction previews generalizing remaining with
  | nil => trivial
  | cons p rest ih =>
    rw [deleteVerified]
    split
    · split
      · exact ih
      · refine ⟨hdelete _ _, ?_⟩
        rintro (e | _)
        · cases e with
          | other => trivial
          | notFound => exact ih
          | alreadyExists => exact ih
          | conflict => exact ih
        · exact ih
    · exact ih

end

private theorem only_reconcilePreviewNamespace {P : Parent} {lifecycle : Bool} {name : String}
    {uid : Option Uid} :
    (reconcilePreviewNamespace lifecycle ns name uid).Only (Call.LabelsFor P) := by
  cases uid with
  | none => trivial
  | some uid =>
    simp only [reconcilePreviewNamespace, Program.bind_eq]
    split
    · exact Program.only_bind (only_patchOrCreateNamespace trivial trivial) fun _ ↦ only_api trivial
    · exact Program.only_bind (only_patchExistingNamespaceLabels trivial) fun _ ↦ only_api trivial

private theorem only_reconcilePreviewFromBuild {P : Parent} {app request : Project} {now : String}
    {build : BuildStatus} (hP : P.Is app) (hrequest : P.Is request)
    (hbuild : requestedBuild request = some build) :
    (reconcilePreviewFromBuild app (previewNamespaceName P.ns app.name) now build).Only
      (Call.LabelsFor P) := by
  have hderived : DerivedBuild request build :=
    derivedBuild_of_derive (by rw [deriveNewBuildStatus_eq, hbuild])
  obtain ⟨hns, hname, -⟩ := hP
  have hpreview : build.previewName = build.prNumber.map (previewProjectName P.name) := by
    rw [hderived.previewName, hderived.prNumber, hrequest.2.1]
  unfold reconcilePreviewFromBuild
  split
  · trivial
  · trivial
  · trivial
  · trivial
  · next prNumber previewName image ns hnumber hpreviewName _ happ =>
    obtain rfl := Option.some.inj (happ.symm.trans hns)
    rw [hnumber, hpreviewName, Option.map_some] at hpreview
    obtain rfl := Option.some.inj hpreview
    rw [hname]
    exact only_api ⟨rfl, prNumber, rfl, rfl⟩

private theorem only_reconcilePreviews {P : Parent} {lifecycle : Bool} {app : Project} {pass : Pass}
    (hP : P.Is app) (hrequest : ∀ request ∈ pass.requested, P.Is request) :
    (reconcilePreviews lifecycle P.ns app pass).Only (Call.LabelsFor P) := by
  simp only [reconcilePreviews, Program.bind_eq]
  refine Program.only_bind ?_ fun _ ↦ Program.only_bind ?_ fun deleted ↦ ?_
  · exact only_whenEnabled only_reconcilePreviewNamespace
  · unfold reconcilePreviewDeleteAction
    split
    · refine ⟨trivial, ?_⟩
      rintro (e | _)
      · cases e <;> trivial
      · trivial
    · trivial
  · split
    · trivial
    · refine Program.only_bind ?_ fun _ ↦ ?_
      · exact only_whenEnabled
          (Program.only_bind (only_api trivial) fun _ ↦ only_deleteExpired fun _ _ ↦ trivial)
      · split
        · next build hbuild =>
          obtain ⟨request, hr, hrequested⟩ :=
            Option.bind_eq_some_iff.mp (Option.filter_eq_some_iff.mp hbuild).1
          exact only_reconcilePreviewFromBuild hP (hrequest request hr) hrequested
        · trivial

/-- The requests of a cleanup: reads and deletions in one namespace. -/
def Call.Cleans (previewNamespace : String) : Call → Prop
  | .getNamespace ns | .deleteNamespace ns _ | .listProjects ns _ | .deleteProject ns _ _
  | .deleteGuardrails ns => ns = previewNamespace
  | _ => False

theorem only_cleanupPreviews {lifecycle : Bool} {parentNamespace : String} {app : Project} :
    (cleanupPreviews lifecycle parentNamespace app).Only
      (Call.Cleans (previewNamespaceName parentNamespace app.name)) := by
  unfold cleanupPreviews
  split
  · simp only [Program.bind_eq]
    refine Program.only_bind ?_ fun namespaceDeleted ↦ ?_
    · split
      · unfold deleteOwnedPreviewNamespace
        split
        · trivial
        · refine Program.only_bind (only_api rfl) fun existing ↦ ?_
          cases existing with
          | none => trivial
          | some existing =>
            dsimp only
            split
            · refine ⟨rfl, ?_⟩
              rintro (e | _)
              · cases e <;> trivial
              · trivial
            · trivial
      · trivial
    · split
      · trivial
      · refine Program.only_bind ?_ fun remaining ↦ ?_
        · exact Program.only_bind (only_api rfl) fun _ ↦ only_deleteVerified fun _ _ ↦ rfl
        · split
          · trivial
          · exact only_api rfl
  · trivial

theorem Call.Cleans.labelsFor {P : Parent} {c : Call} (h : c.Cleans ns) : c.LabelsFor P := by
  cases c with
  | applyProject => exact h.elim
  | _ => trivial

/-- At most the namespace, or the Projects of a name in it, have been marked as being deleted. -/
def OnlyDeletes (ns : String) (s t : PreviewCluster) : Prop :=
  t = s ∨ ∃ n, s.namespaces ns = some n ∧
    (t = s.set ns (some { n with deleting := true }) ∨
      ∃ name, t = s.set ns (some (n.markDeleting name)))

/-- A request of a cleanup, whether it is answered or fails. -/
theorem Call.Cleans.onlyDeletes {c : Call} (h : c.Cleans ns) (fault : Bool) :
    OnlyDeletes ns s (serve s ⟨[], fault⟩ c).1 := by
  cases fault with
  | true => exact .inl rfl
  | false =>
    show OnlyDeletes ns s (s.perform c).1
    cases c with
    | deleteNamespace ns uid =>
      obtain rfl := h
      simp only [PreviewCluster.perform]
      split
      · exact .inl rfl
      · next n hn =>
        split
        · exact .inr ⟨n, hn, .inl rfl⟩
        · exact .inl rfl
    | deleteProject ns name uid =>
      obtain rfl := h
      simp only [PreviewCluster.perform]
      split
      · exact .inl rfl
      · next n hn =>
        split
        · exact .inl rfl
        · split
          · exact .inr ⟨n, hn, .inr ⟨name, rfl⟩⟩
          · exact .inl rfl
    | getNamespace ns => exact .inl rfl
    | listProjects ns selector => exact .inl rfl
    | deleteGuardrails ns => exact .inl rfl
    | _ => exact h.elim

/-- Every step keeps the previews labelled. -/
theorem previewStep_labelled {P : Parent} {lifecycle : Bool} {e : PreviewEvent}
    (hs : AllLabelled P s) (h : previewStep lifecycle P s e = some t) : AllLabelled P t := by
  have hserve : ∀ s o c, Call.LabelsFor P c → AllLabelled P s → AllLabelled P (serve s o c).1 :=
    fun _ o _ hc hs ↦ serve_labelled hc o hs
  cases e with
  | change c =>
    obtain rfl := Option.some.inj h
    exact (change_shrinks s c).labelled hs
  | reconcile app pass service =>
    simp only [previewStep, Option.ite_none_right_eq_some, Option.some.injEq] at h
    obtain ⟨⟨hP, hrequest⟩, rfl⟩ := h
    exact (only_reconcilePreviews hP hrequest).run hserve hs
  | cleanup app service =>
    simp only [previewStep, Option.ite_none_right_eq_some, Option.some.injEq] at h
    obtain ⟨-, rfl⟩ := h
    exact (only_cleanupPreviews.mono fun _ hc ↦ hc.labelsFor).run hserve hs

end

end ReinhardtCloud.Operator.Previews
