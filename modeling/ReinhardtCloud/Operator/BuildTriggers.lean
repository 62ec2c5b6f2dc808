import ReinhardtCloud.Operator.BuildRequests

/-!
# What becomes of a build trigger

Library `Operator`. The four annotations are written by requesters and cleared by the operator
with a merge patch of nulls, some requests after the reconcile read them
(`source_build.rs:375–390,514–529`). A trigger written in between is cleared unread. When each
clear finds nothing but what its reconcile read, every trigger is kept, accepted, ignored as
malformed or disabled, or superseded.
-/

namespace ReinhardtCloud.Operator

open ReinhardtCloud.Base

/-- The live annotations hold no value that was not read. -/
def Annotations.Within (live read : Annotations) : Prop :=
  (live.buildTrigger = none ∨ live.buildTrigger = read.buildTrigger) ∧
    (live.previewAction = none ∨ live.previewAction = read.previewAction) ∧
    (live.prNumber = none ∨ live.prNumber = read.prNumber) ∧
    (live.prBranch = none ∨ live.prBranch = read.prBranch)

instance (live read : Annotations) : Decidable (live.Within read) :=
  inferInstanceAs (Decidable (_ ∧ _ ∧ _ ∧ _))

theorem Annotations.Within.trigger {live read : Annotations} {v : String} (h : live.Within read)
    (hv : live.buildTrigger = some v) : read.buildTrigger = some v := by
  rcases h.1 with hn | he
  · rw [hn] at hv
    cases hv
  · rw [← he, hv]

/-- What the reconcile had read whose clear of the annotations is served. -/
def clearedBy (x : BuildTransition) : Option Project :=
  match x.action, x.before.current with
  | .serve _, some (app, .call .clearBuildAnnotations _) => some app
  | _, _ => none

/-- A requester writes the annotations. -/
def Requests (a : Annotations) (x : BuildTransition) : Prop :=
  x.action = .interfere (.annotate a)

/-- The annotations in a state. -/
def liveAnnotations (s : BuildState) : Annotations := s.store.project.annotations

/-- What the operator may clear: only values it read, of a request that it accepted, ignored as
malformed or disabled, or processed as a preview deletion without a build trigger. -/
def Handled (app : Project) (s : BuildStore) : Prop :=
  s.project.annotations.Within app.annotations ∧
    (s.Accepted app ∨ ignoredPreviewRequest app ∨
      s.PreviewDeleted app ∧ s.project.annotations.buildTrigger = none)

/-- The operator clears no annotation value that it has not handled. -/
def ClearsHandled (x : BuildTransition) : Prop :=
  ∀ o, x.action = .serve o → liveAnnotations x.after ≠ liveAnnotations x.before →
    ∃ app ∈ clearedBy x, Handled app x.before.store

/-- The trigger `v` goes: it is recorded as accepted with its Job present, or ignored. -/
def SettlesTrigger (v : String) (x : BuildTransition) : Prop :=
  ∃ app ∈ clearedBy x, app.annotations.buildTrigger = some v ∧
    (x.before.store.Accepted app ∨ ignoredPreviewRequest app)

/-- A requester writes another trigger, or none, over `v`. -/
def SupersedesTrigger (v : String) (x : BuildTransition) : Prop :=
  ∃ a, Requests a x ∧ a.buildTrigger ≠ some v

/-- Every trigger that was written is still there, was settled, or was superseded. -/
def TriggersKept (tr : List BuildTransition) (s : BuildState) : Prop :=
  ∀ tr₁ x tr₂ a v, tr = tr₁ ++ x :: tr₂ → Requests a x → a.buildTrigger = some v →
    (liveAnnotations s).buildTrigger = some v ∨
      ∃ y ∈ tr₂, SettlesTrigger v y ∨ SupersedesTrigger v y

/-- A clear finds nothing but what its reconcile read, and after a preview deletion no build
trigger at all. -/
def ClearsAsRead (x : BuildTransition) : Prop :=
  ∀ app ∈ clearedBy x, (liveAnnotations x.before).Within app.annotations ∧
    (app.annotations.previewAction = some "delete" → (liveAnnotations x.before).buildTrigger = none)

instance (x : BuildTransition) : Decidable (ClearsAsRead x) :=
  inferInstanceAs (Decidable (∀ _ ∈ clearedBy x, _))

/-- Only the clearing patch changes the annotations. -/
theorem annotations_serve {s : BuildStore} {o : Bool} {c : BuildCall}
    (hc : c ≠ .clearBuildAnnotations) :
    (s.serve o c).1.project.annotations = s.project.annotations := by
  unfold BuildStore.serve
  split
  · rfl
  · cases c with
    | clearBuildAnnotations => exact absurd rfl hc
    | createJob job => simp only [BuildStore.perform]; split <;> rfl
    | deleteJob name => simp only [BuildStore.perform]; split <;> rfl
    | deletePreviewProject name => simp only [BuildStore.perform]; split <;> rfl
    | applyWorkloads a => exact (s.frame_applyWorkloads a).2.1
    | _ => rfl

/-- A justified clear that finds what was read is of a handled request. -/
theorem handled_of_justified {app : Project} {s : BuildStore}
    (h : s.Justified app .clearBuildAnnotations)
    (hread : s.project.annotations.Within app.annotations ∧
      (app.annotations.previewAction = some "delete" → s.project.annotations.buildTrigger = none)) :
    Handled app s := by
  refine ⟨hread.1, ?_⟩
  rcases h with hacc | hign | hdel
  · exact .inl hacc
  · exact .inr (.inl hign)
  · exact .inr (.inr ⟨hdel, hread.2 hdel.1⟩)

/-- A justified transition that clears what was read changes annotations only as a requester or of
a handled request. -/
theorem annotations_of_justified {x : BuildTransition}
    (hx : JustifiedTurn (fun _ ↦ True) x) (hc : ClearsAsRead x)
    (hne : liveAnnotations x.after ≠ liveAnnotations x.before) :
    (∃ a, Requests a x) ∨
      ∃ app ∈ clearedBy x, Handled app x.before.store := by
  obtain ⟨s, a, t⟩ := x
  cases a with
  | start => exact absurd (congrArg (fun u ↦ u.project.annotations) hx) hne
  | interfere e =>
    cases e with
    | annotate a => exact .inl ⟨a, rfl⟩
    | reportJob name status | reportMigration name status =>
      obtain ⟨job, -, hjob⟩ := Option.map_eq_some_iff.mp hx
      exact absurd (congrArg (fun u ↦ u.project.annotations) hjob.symm) hne
  | serve o =>
    obtain ⟨app, c, next, -, hcur, hafter, hj⟩ := hx
    by_cases hclear : c = .clearBuildAnnotations
    · subst hclear
      have hs : app ∈ clearedBy ⟨s, .serve o, t⟩ := by
        simp [clearedBy, show s.current = _ from hcur]
      exact .inr ⟨app, hs, handled_of_justified hj (hc app hs)⟩
    · exact absurd ((congrArg (fun u ↦ u.project.annotations) hafter).trans
        (annotations_serve hclear)) hne

theorem annotations_of_requests {admitted : Project → Prop} {x : BuildTransition}
    {a : Annotations} (hx : JustifiedTurn admitted x) (ha : Requests a x) :
    liveAnnotations x.after = a := by
  have hx : buildEvent x.before.store (.annotate a) = some x.after.store := by
    simpa only [Solo.Accounted, show x.action = _ from ha] using hx
  exact (congrArg (fun u ↦ u.project.annotations) (Option.some.inj hx)).symm

/-- In every run whose clears find only what their reconcile read, no trigger is lost and the
operator clears nothing that it has not handled. -/
theorem triggers_kept {init : BuildStore} {tr : List BuildTransition} {s : BuildState}
    (h : Run buildStep ⟨init, none⟩ tr s) (hc : ∀ x ∈ tr, ClearsAsRead x) :
    TriggersKept tr s ∧ ∀ x ∈ tr, ClearsHandled x := by
  have hj := requests_justified (fun _ ↦ True) h fun _ _ _ ↦ trivial
  refine ⟨?_, fun x hx o ho hne ↦ ?_⟩
  · rintro tr₁ x tr₂ a v rfl hreq hv
    have hwritten : (liveAnnotations x.after).buildTrigger = some v := by
      rw [annotations_of_requests (hj x (by simp)) hreq, hv]
    rcases h.lost (Q := fun u ↦ (liveAnnotations u).buildTrigger = some v) hwritten with
      hkept | ⟨y, hy, hbefore, hafter⟩
    · exact .inl hkept
    · have hmem : y ∈ tr₁ ++ x :: tr₂ := by simp [hy]
      have hne : liveAnnotations y.after ≠ liveAnnotations y.before := by
        intro heq
        exact hafter (heq ▸ hbefore)
      refine .inr ⟨y, hy, ?_⟩
      rcases annotations_of_justified (hj y hmem) (hc y hmem) hne with ⟨a', ha'⟩ | ⟨app, hs, hh⟩
      · exact .inr ⟨a', ha', by rwa [← annotations_of_requests (hj y hmem) ha']⟩
      · obtain ⟨hwithin, hacc | hign | ⟨-, hnone⟩⟩ := hh
        · exact .inl ⟨app, hs, hwithin.trigger hbefore, .inl hacc⟩
        · exact .inl ⟨app, hs, hwithin.trigger hbefore, .inr hign⟩
        · exact absurd (hnone.symm.trans hbefore) (by simp)
  · rcases annotations_of_justified (hj x hx) (hc x hx) hne with ⟨a, ha⟩ | hs
    · rw [Requests, ho] at ha
      cases ha
    · exact hs

/-! ## A trigger written while another is accepted -/

/-- A Project built from source, without requests. -/
def sourceProject : Project :=
  ⟨"shop", some "team", some 7, none, .cleared,
    { image := "registry.example/shop:1"
      source := some ⟨"https://git.example/shop", some "main", none, none, none⟩ }, none, none⟩

/-- Nothing stored but the Project. -/
def sourceStore : BuildStore :=
  ⟨sourceProject, fun _ ↦ none, fun _ ↦ none, fun _ ↦ none, .empty, .none⟩

/-- The first trigger is read and its build accepted, all but the clearing patch. -/
def acceptFirst : List BuildTurn :=
  [.interfere (.annotate ⟨some "1111", none, none, none⟩), .start, .serve false, .serve false,
    .serve false]

/-- A second trigger is written just before the annotations are cleared. -/
def overtakenTrigger : List BuildTurn :=
  acceptFirst ++ [.interfere (.annotate ⟨some "2222", none, none, none⟩), .serve false]

/-- The second trigger is cleared although nothing has read it. -/
theorem trigger_overtaken : ¬ ∀ (init : BuildStore) (tr : List BuildTransition) (s : BuildState),
    Run buildStep ⟨init, none⟩ tr s → TriggersKept tr s ∧ ∀ x ∈ tr, ClearsHandled x := by
  intro hall
  have he : ∃ s, execute buildStep ⟨sourceStore, none⟩ overtakenTrigger = some s ∧
      liveAnnotations s = .cleared := ⟨_, rfl, rfl⟩
  obtain ⟨s, he, hcleared⟩ := he
  have hkept := (hall sourceStore _ s (Run.of_execute _ he)).1
  have hsplit : ∃ tr₁ x y, transitions buildStep ⟨sourceStore, none⟩ overtakenTrigger =
      tr₁ ++ x :: [y] ∧ Requests ⟨some "2222", none, none, none⟩ x ∧ y.action = .serve false ∧
      ∀ app ∈ clearedBy y, app.annotations.buildTrigger = some "1111" :=
    ⟨[_, _, _, _, _], _, _, rfl, rfl, rfl, by decide⟩
  obtain ⟨tr₁, x, y, htr, hreq, hserve, hread⟩ := hsplit
  rcases hkept tr₁ x [y] _ "2222" htr hreq rfl with h | ⟨z, hz, ⟨app, happ, htrig, -⟩ | ⟨a, ha, -⟩⟩
  · rw [hcleared] at h
    cases h
  · obtain rfl := List.mem_singleton.mp hz
    exact absurd ((hread app happ).symm.trans htrig) (by decide)
  · obtain rfl := List.mem_singleton.mp hz
    rw [Requests, hserve] at ha
    cases ha

/-- Without the second trigger the clear finds what was read. -/
theorem triggers_kept_acceptFirst :
    ∃ s, execute buildStep ⟨sourceStore, none⟩ (acceptFirst ++ [.serve false]) = some s ∧
      liveAnnotations s = .cleared ∧
      TriggersKept (transitions buildStep ⟨sourceStore, none⟩ (acceptFirst ++ [.serve false])) s ∧
      ∀ x ∈ transitions buildStep ⟨sourceStore, none⟩ (acceptFirst ++ [.serve false]),
        ClearsHandled x := by
  have he : ∃ s, execute buildStep ⟨sourceStore, none⟩ (acceptFirst ++ [.serve false]) = some s ∧
      liveAnnotations s = .cleared := ⟨_, rfl, rfl⟩
  obtain ⟨s, he, hcleared⟩ := he
  exact ⟨s, he, hcleared, triggers_kept (Run.of_execute _ he) (by decide)⟩

end ReinhardtCloud.Operator
