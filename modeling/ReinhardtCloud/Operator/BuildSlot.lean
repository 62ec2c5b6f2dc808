import ReinhardtCloud.Operator.BuildRequests

/-!
# What becomes of an accepted production build

Library `Operator`. `status.build` holds one build; a build derived from the annotations takes
the place of an active one (`new_build.or(active_build)`, `source_build.rs:557–569`), whatever
their targets. When no reconcile reads an enabled preview request while a production build is
active, every accepted production build is followed to its outcome or replaced by a newer
production build.
-/

namespace ReinhardtCloud.Operator

open ReinhardtCloud.Base

/-- The state records the unfinished production build `b`. -/
def Follows (b : BuildStatus) (s : BuildState) : Prop :=
  ∃ r, s.store.project.build = some r ∧ SameBuild b r ∧ b.target = .production ∧ r.Active

/-- `b` is recorded as failed, or as succeeded with its image applied. -/
def Concludes (b : BuildStatus) (x : BuildTransition) : Prop :=
  ∃ r, x.after.store.project.build = some r ∧ SameBuild b r ∧
    (r.phase = .failed ∨ r.phase = .succeeded ∧ x.after.store.project.spec.image = b.image)

/-- The running reconcile accepts the production build it was triggered for. -/
def AcceptsProduction (x : BuildTransition) : Prop :=
  ∃ app p r, x.before.current = some (app, p) ∧ x.after.store.project.build = some r ∧
    r.target = .production ∧ r.phase = .pending ∧ app.annotations.buildTrigger = some r.trigger

/-- Every production build recorded as unfinished is still followed, was concluded, or was
replaced by a newer production build. -/
def ProductionCarried (tr : List BuildTransition) (s : BuildState) : Prop :=
  ∀ tr₁ x tr₂ b, tr = tr₁ ++ x :: tr₂ → Follows b x.after →
    Follows b s ∨ ∃ y ∈ tr₂, Concludes b y ∨ AcceptsProduction y

/-- An enabled, well-formed preview build request next to an unfinished production build. -/
def previewOverProduction (app : Project) : Bool :=
  app.annotations.buildTrigger.isSome && (previewPrNumber app).isSome &&
    app.build.any fun b ↦ b.target = .production && decide b.Active

/-- A build derived over an unfinished production build is a production build, too. -/
theorem target_of_derived {app : Project} {b r : BuildStatus} (hd : DerivedBuild app b)
    (hr : app.build = some r) (htarget : r.target = .production) (hactive : r.Active)
    (hok : previewOverProduction app = false) : b.target = .production := by
  cases hpr : previewPrNumber app with
  | none => simpa [hpr] using hd.target
  | some n => simp [previewOverProduction, hd.trigger, hpr, hr, htarget, hactive] at hok

/-- What is recorded after a served request of a reconcile that reads `app` while the production
build `b` is unfinished: `b` in some phase, or a newer production build. -/
private def FollowedOrReplaced (app : Project) (b : BuildStatus) (s : BuildStore) : Prop :=
  ∃ r', s.project.build = some r' ∧
    (SameBuild b r' ∧ (r'.Active ∨ r'.phase = .failed ∨
      r'.phase = .succeeded ∧ s.project.spec.image = b.image) ∨
    r'.target = .production ∧ r'.phase = .pending ∧
      app.annotations.buildTrigger = some r'.trigger)

/-- A request leaves an unfinished production build in place, concludes it, or accepts a newer
one. -/
theorem follows_serve {app : Project} {s : BuildStore} {b r : BuildStatus} {c : BuildCall}
    (hok : previewOverProduction app = false) (hj : s.Justified app c)
    (hr : s.project.build = some r) (hsame : SameBuild b r) (htarget : b.target = .production)
    (hactive : r.Active) : FollowedOrReplaced app b (s.perform c).1 := by
  have hkeep (h : (s.perform c).1.project.build = s.project.build) :
      FollowedOrReplaced app b (s.perform c).1 := ⟨r, h.trans hr, .inl ⟨hsame, .inl hactive⟩⟩
  have hrtarget : r.target = .production := hsame.target.trans htarget
  cases c with
  | patchBuildStatus build =>
    obtain ⟨hmerge, hphase⟩ := sameBuild_merge s.project.build build
    refine ⟨_, rfl, ?_⟩
    rcases hj with ⟨hd, -, hread⟩ | ⟨⟨r', hr', hrec⟩, hadv⟩
    · have hd := derivedBuild_of_derive hd
      have hprod := target_of_derived hd (hread.symm.trans hr) hrtarget hactive hok
      exact .inr ⟨hmerge.target.trans hprod, hphase.trans hd.phase,
        by rw [hmerge.trigger, hd.trigger]⟩
    · obtain rfl : r = r' := Option.some.inj (hr.symm.trans hr')
      have hbuild : SameBuild b build := hsame.trans hrec
      refine .inl ⟨hbuild.trans hmerge, ?_⟩
      rw [BuildStatus.Active, hphase]
      rcases hadv with h | h | ⟨h, himage⟩
      · exact .inl (.inr h)
      · exact .inr (.inl h)
      · exact .inr (.inr ⟨h, (himage (hbuild.target.trans htarget)).trans hbuild.image⟩)
  | clearBuildStatus =>
    obtain ⟨r', hr', hpreview⟩ := hj
    obtain rfl : r = r' := Option.some.inj (hr.symm.trans hr')
    rw [hrtarget] at hpreview
    cases hpreview
  | applyWorkloads a =>
    obtain ⟨-, hread, hdone⟩ := hj
    have hsucc := hdone r (hread.symm.trans hr)
    rcases hactive with h | h <;> rw [hsucc] at h <;> cases h
  | createJob job => exact hkeep (by simp only [BuildStore.perform]; split <;> rfl)
  | deleteJob name => exact hkeep (by simp only [BuildStore.perform]; split <;> rfl)
  | deletePreviewProject name => exact hkeep (by simp only [BuildStore.perform]; split <;> rfl)
  | getJob name => exact hkeep rfl
  | clearBuildAnnotations => exact hkeep rfl
  | patchProjectImage image => exact hkeep rfl
  | applyPreviewProject name image => exact hkeep rfl

/-- A justified transition keeps following an unfinished production build, concludes it, or
accepts a newer one. -/
theorem follows_of_justified {b : BuildStatus} {x : BuildTransition}
    (hx : JustifiedTurn (fun app ↦ previewOverProduction app = false) x)
    (hb : Follows b x.before) : Follows b x.after ∨ Concludes b x ∨ AcceptsProduction x := by
  obtain ⟨s, a, t⟩ := x
  obtain ⟨r, hr, hsame, htarget, hactive⟩ := hb
  cases a with
  | interfere e =>
    have hu := BuildStore.undisturbed_buildEvent hx
    exact .inl ⟨r, hu.build.trans hr, hsame, htarget, hactive⟩
  | start =>
    have hstore : t.store = s.store := hx
    exact .inl ⟨r, by rw [hstore]; exact hr, hsame, htarget, hactive⟩
  | serve o =>
    obtain ⟨app, c, next, hok, hcur, hafter, hj⟩ := hx
    have hafter : t.store = (s.store.serve o c).1 := hafter
    cases o with
    | true => exact .inl ⟨r, by rw [hafter]; exact hr, hsame, htarget, hactive⟩
    | false =>
      have hperform : t.store = (s.store.perform c).1 := hafter
      obtain ⟨r', hr', hout⟩ := follows_serve hok hj hr hsame htarget hactive
      rw [← hperform] at hr' hout
      rcases hout with ⟨hsame', hphase | hphase⟩ | ⟨hprod, hphase, htrigger⟩
      · exact .inl ⟨r', hr', hsame', htarget, hphase⟩
      · exact .inr (.inl ⟨r', hr', hsame', hphase⟩)
      · exact .inr (.inr ⟨app, _, r', hcur, hr', hprod, hphase, htrigger⟩)

/-- In every run in which no reconcile reads a preview request over an unfinished production
build, every production build is carried to its outcome or replaced by a newer one. -/
theorem production_carried {init : BuildStore} {tr : List BuildTransition} {s : BuildState}
    (h : Run buildStep ⟨init, none⟩ tr s)
    (hc : ∀ x ∈ tr, x.action = .start → previewOverProduction x.before.store.project = false) :
    ProductionCarried tr s := by
  have hj := requests_justified (fun app ↦ previewOverProduction app = false) h hc
  rintro tr₁ x tr₂ b rfl hb
  rcases h.lost (Q := Follows b) hb with hkept | ⟨y, hy, hbefore, hafter⟩
  · exact .inl hkept
  · refine .inr ⟨y, hy, ?_⟩
    exact (follows_of_justified (hj y (by simp [hy])) hbefore).resolve_left hafter

/-! ## A preview request during a production build -/

/-- A production build is accepted and left running. -/
def startProduction : List BuildTurn :=
  [.interfere (.annotate ⟨some "1111", none, none, none⟩), .start, .serve false, .serve false,
    .serve false, .serve false, .serve false]

/-- A preview of a pull request is accepted while the production build runs. -/
def previewDuringProduction : List BuildTurn :=
  startProduction ++
    [.interfere (.annotate ⟨some "2222", some "create", some "5", some "topic"⟩), .start,
      .serve false, .serve false, .serve false]

/-- The production build is dropped from `status.build` before its outcome. -/
theorem production_dropped : ¬ ∀ (init : BuildStore) (tr : List BuildTransition) (s : BuildState),
    Run buildStep ⟨init, none⟩ tr s → ProductionCarried tr s := by
  intro hall
  have he : ∃ s r, execute buildStep ⟨previewedStore, none⟩ previewDuringProduction = some s ∧
      s.store.project.build = some r ∧ r.target = .preview := ⟨_, _, rfl, rfl, by decide⟩
  obtain ⟨s, r, he, hr, hpreview⟩ := he
  have hsplit : ∃ tr₁ x tr₂ b, transitions buildStep ⟨previewedStore, none⟩
        previewDuringProduction = tr₁ ++ x :: tr₂ ∧
      x.after.store.project.build = some b ∧ b.target = .production ∧ b.Active ∧
      ∀ y ∈ tr₂, ∀ r ∈ y.after.store.project.build,
        r.Active ∧ (r.target = .production → r.phase = .running) :=
    ⟨[_, _, _, _, _, _], _, _, _, rfl, rfl, by decide, by decide, by decide⟩
  obtain ⟨tr₁, x, tr₂, b, htr, hb, htarget, hactive, hrest⟩ := hsplit
  rcases hall previewedStore _ s (Run.of_execute _ he) tr₁ x tr₂ b htr
    ⟨b, hb, .refl b, htarget, hactive⟩ with ⟨r', hr', hsame, -, -⟩ | ⟨y, hy, hout⟩
  · obtain rfl := Option.some.inj (hr.symm.trans hr')
    rw [hsame.target, htarget] at hpreview
    cases hpreview
  · rcases hout with ⟨r', hr', -, hdone⟩ | ⟨-, -, r', -, hr', hprod, hpending, -⟩
    · rcases (hrest y hy r' hr').1 with hp | hp <;>
        rcases hdone with hd | ⟨hd, -⟩ <;> rw [hp] at hd <;> cases hd
    · rw [(hrest y hy r' hr').2 hprod] at hpending
      cases hpending

/-- The production build of a run without previews reaches its outcome. -/
def finishProduction : List BuildTurn :=
  startProduction ++
    [.interfere (.reportJob "shop-build-shop-1111" ⟨some 1, none, none⟩), .start, .serve false,
      .serve false, .serve false]

theorem production_carried_finishProduction :
    ∃ s, execute buildStep ⟨previewedStore, none⟩ finishProduction = some s ∧
      s.store.project.spec.image = "registry.example/shop:shop-1111" ∧
      ProductionCarried (transitions buildStep ⟨previewedStore, none⟩ finishProduction) s := by
  have he : ∃ s, execute buildStep ⟨previewedStore, none⟩ finishProduction = some s ∧
      s.store.project.spec.image = "registry.example/shop:shop-1111" := ⟨_, rfl, by decide⟩
  obtain ⟨s, he, himage⟩ := he
  exact ⟨s, he, himage, production_carried (Run.of_execute _ he) (by decide)⟩

end ReinhardtCloud.Operator
