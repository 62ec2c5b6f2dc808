import ReinhardtCloud.Core.LocalBuilds

/-!
# The events of a local build

Library `Core`. What the stream of `run_build_pipeline`
(`crates/reinhardt-cloud-core/src/services/build/local.rs:119–202`) has sent at any time, and the
phase that the status shows beside it.
-/

namespace ReinhardtCloud.Core

open ReinhardtCloud.Base

/-- What every start, step, select and cancellation of a build keeps, all builds of a run have. -/
theorem build_invariant {P : Build → Prop}
    (hstart : ∀ projectName image now, P (.start projectName image now))
    (hcancel : ∀ b, P b → P { b with cancelled := true })
    (hadvance : ∀ b b' now uuid, P b → b.advance now uuid = some b' → P b')
    (hselect : ∀ b b' branch, P b → b.select branch = some b' → P b')
    {tr : List BuildTransition} {s : Builds} (h : Run buildStep noBuilds tr s) {id : Uuid}
    {b : Build} (hb : s id = some b) : P b := by
  refine h.invariant (I := fun s ↦ ∀ b, s id = some b → P b) ?_ ?_ b hb
  · intro b hb
    cases hb
  · intro u a v hu hstep b hv
    cases buildStep_change hstep id with
    | none same notCancelled notSelected => exact hu b (same ▸ hv)
    | started projectName image now action new after =>
      obtain rfl := Option.some.inj (hv.symm.trans after)
      exact hstart projectName image now
    | cancelled b' action accepted before running after =>
      obtain rfl := Option.some.inj (hv.symm.trans after)
      exact hcancel b' (hu b' before)
    | advanced b₀ b' now uuid action before step after =>
      obtain rfl := Option.some.inj (hv.symm.trans after)
      exact hadvance b₀ b now uuid (hu b₀ before) step
    | selected b₀ b' branch action before step after =>
      obtain rfl := Option.some.inj (hv.symm.trans after)
      exact hselect b₀ b branch (hu b₀ before) step

/-! ## The script -/

/-- An event without its time. -/
def BuildEvent.untimed : BuildEvent → BuildEvent
  | .log message _ => .log message 0
  | .phaseChange phase _ => .phaseChange phase 0
  | .artifactReady artifactUrl digest _ => .artifactReady artifactUrl digest 0
  | .error message _ => .error message 0
  | .complete success _ => .complete success 0

/-- The events of phases that ran: each is announced and logged. -/
def announced (done : Phases) : List BuildEvent :=
  done.flatMap fun p ↦ [.phaseChange p.1 0, .log p.2 0]

/-- The phase that the status shows after these phases. -/
def lastPhase (done : Phases) : BuildPhase := (done.getLast?.map (·.1)).getD .queued

/-- The artifact of a build. -/
def artifact (image uuid : String) : BuildEvent :=
  .artifactReady (image ++ "@sha256:" ++ uuid) ("sha256:" ++ uuid) 0

/-- How far a build is after some of its phases: between two phases, in the middle of one, which
the status shows or is about to show, cancelled because that was asked for, or past the last
phase. -/
inductive Build.After (b : Build) (events : List BuildEvent) (done : Phases) : Prop
  | between (hevents : events = announced done) (hphase : b.status.phase = lastPhase done)
  | within (phase : BuildPhase) (message : String) (hnext : done ++ [(phase, message)] <+: phases)
      (hevents : events = announced done ++ [.phaseChange phase 0])
      (hphase : b.status.phase = lastPhase done ∨ b.status.phase = phase)
  | cancelled (hasked : b.cancelled = true)
      (hevents : events = announced done ++ [.error "Build cancelled by user" 0])
      (hphase : b.status.phase = lastPhase done) (hsuccess : b.status.success ≠ some true)
  | built (uuid : String) (hdone : done = phases)
      (hevents : events = announced phases ++ [artifact b.image uuid])
      (hphase : b.status.phase = .finalizing) (hsuccess : b.status.success = none)
  | complete (uuid : String) (hdone : done = phases)
      (hevents : events = announced phases ++ [artifact b.image uuid, .complete true 0])
      (hphase : b.status.phase = .finalizing) (hsuccess : b.status.success ≠ some false)

/-- The build follows the script of the pipeline. -/
def Build.Scripted (b : Build) : Prop :=
  ∃ done, done <+: phases ∧ b.After (b.events.map BuildEvent.untimed) done

/-! ## What the pipeline keeps -/

theorem announced_append (done : Phases) (phase : BuildPhase) (message : String) :
    announced (done ++ [(phase, message)]) =
      announced done ++ [.phaseChange phase 0] ++ [.log message 0] := by
  simp [announced]

theorem lastPhase_append (done : Phases) (phase : BuildPhase) (message : String) :
    lastPhase (done ++ [(phase, message)]) = phase := by
  simp [lastPhase]

/-- The script, by the place of the task: the phases that ran, what was sent and what is shown. -/
def PipelineTask.Follows (task : PipelineTask) (image : String) (status : BuildStatus)
    (cancelled : Bool) (events : List BuildEvent) (done : Phases) : Prop :=
  match task with
  | .nextPhase rest | .work rest => phases = done ++ rest ∧ events = announced done ∧
      status.phase = lastPhase done ∧ status.success = none
  | .sendPhaseChange phase message rest => phases = done ++ (phase, message) :: rest ∧
      events = announced done ∧ status.phase = lastPhase done ∧ status.success = none
  | .setPhase phase message rest => phases = done ++ (phase, message) :: rest ∧
      events = announced done ++ [.phaseChange phase 0] ∧ status.phase = lastPhase done ∧
      status.success = none
  | .sendLog message rest => ∃ phase, phases = done ++ (phase, message) :: rest ∧
      events = announced done ++ [.phaseChange phase 0] ∧ status.phase = phase ∧
      status.success = none
  | .sendError => cancelled = true ∧ done <+: phases ∧ events = announced done ∧
      status.phase = lastPhase done ∧ status.success = none
  | .sendArtifact => done = phases ∧ events = announced phases ∧ status.phase = .finalizing ∧
      status.success = none
  | .sendComplete => done = phases ∧ (∃ uuid, events = announced phases ++ [artifact image uuid]) ∧
      status.phase = .finalizing ∧ status.success = none
  | .updateCompleted false => cancelled = true ∧ done <+: phases ∧
      events = announced done ++ [.error "Build cancelled by user" 0] ∧
      status.phase = lastPhase done ∧ status.success = none
  | .updateCompleted true => done = phases ∧
      (∃ uuid, events = announced phases ++ [artifact image uuid, .complete true 0]) ∧
      status.phase = .finalizing ∧ status.success = none
  | .returned =>
    (status.success = some false ∧ cancelled = true ∧ done <+: phases ∧
      events = announced done ++ [.error "Build cancelled by user" 0] ∧
      status.phase = lastPhase done) ∨
    (status.success = some true ∧ done = phases ∧
      (∃ uuid, events = announced phases ++ [artifact image uuid, .complete true 0]) ∧
      status.phase = .finalizing)

/-- The build follows the script at the place of its task. -/
def Build.Follows (b : Build) : Prop :=
  ∃ done, b.task.Follows b.image b.status b.cancelled (b.events.map BuildEvent.untimed) done

theorem Build.follows_start (projectName image : String) (now : Int) :
    (Build.start projectName image now).Follows := ⟨[], rfl, rfl, rfl, rfl⟩

/-- A cancellation alone moves nothing. -/
theorem Build.Follows.cancel {b : Build} (h : b.Follows) :
    { b with cancelled := true }.Follows := by
  obtain ⟨status, cancelled, image, task, events⟩ := b
  obtain ⟨done, h⟩ := h
  refine ⟨done, ?_⟩
  cases task with
  | sendError => exact ⟨rfl, h.2⟩
  | updateCompleted success =>
    cases success with
    | false => exact ⟨rfl, h.2⟩
    | true => exact h
  | returned =>
    rcases h with ⟨hsuccess, -, hrest⟩ | h
    · exact .inl ⟨hsuccess, rfl, hrest⟩
    · exact .inr h
  | _ => exact h

theorem Build.Follows.advance {b b' : Build} {now : Int} {uuid : String} (h : b.Follows)
    (hstep : b.advance now uuid = some b') : b'.Follows := by
  obtain ⟨status, cancelled, image, task, events⟩ := b
  obtain ⟨done, h⟩ := h
  cases task with
  | nextPhase rest =>
    obtain ⟨hphases, hevents, hphase, hsuccess⟩ := h
    cases rest with
    | nil =>
      obtain rfl := Option.some.inj hstep
      rw [List.append_nil] at hphases
      subst hphases
      exact ⟨phases, rfl, hevents, hphase, hsuccess⟩
    | cons p rest =>
      obtain rfl := Option.some.inj hstep
      cases cancelled with
      | false => exact ⟨done, hphases, hevents, hphase, hsuccess⟩
      | true => exact ⟨done, rfl, ⟨p :: rest, hphases.symm⟩, hevents, hphase, hsuccess⟩
  | sendPhaseChange phase message rest =>
    obtain rfl := Option.some.inj hstep
    obtain ⟨hphases, hevents, hphase, hsuccess⟩ := h
    refine ⟨done, hphases, ?_, hphase, hsuccess⟩
    show (events ++ [_]).map BuildEvent.untimed = _
    rw [List.map_append, hevents]
    rfl
  | setPhase phase message rest =>
    obtain rfl := Option.some.inj hstep
    obtain ⟨hphases, hevents, -, hsuccess⟩ := h
    exact ⟨done, phase, hphases, hevents, rfl, hsuccess⟩
  | sendLog message rest =>
    obtain rfl := Option.some.inj hstep
    obtain ⟨phase, hphases, hevents, hphase, hsuccess⟩ := h
    refine ⟨done ++ [(phase, message)], ?_, ?_, ?_, hsuccess⟩
    · rw [hphases, List.append_assoc]
      rfl
    · show (events ++ [_]).map BuildEvent.untimed = _
      rw [List.map_append, hevents, announced_append]
      rfl
    · rw [lastPhase_append]
      exact hphase
  | work rest => cases hstep
  | sendError =>
    obtain rfl := Option.some.inj hstep
    obtain ⟨hasked, hphases, hevents, hphase, hsuccess⟩ := h
    refine ⟨done, hasked, hphases, ?_, hphase, hsuccess⟩
    show (events ++ [_]).map BuildEvent.untimed = _
    rw [List.map_append, hevents]
    rfl
  | sendArtifact =>
    obtain rfl := Option.some.inj hstep
    obtain ⟨hphases, hevents, hphase, hsuccess⟩ := h
    refine ⟨done, hphases, ⟨uuid, ?_⟩, hphase, hsuccess⟩
    show (events ++ [_]).map BuildEvent.untimed = _
    rw [List.map_append, hevents]
    rfl
  | sendComplete =>
    obtain rfl := Option.some.inj hstep
    obtain ⟨hphases, ⟨uuid', hevents⟩, hphase, hsuccess⟩ := h
    refine ⟨done, hphases, ⟨uuid', ?_⟩, hphase, hsuccess⟩
    show (events ++ [_]).map BuildEvent.untimed = _
    rw [List.map_append, hevents, List.append_assoc]
    rfl
  | updateCompleted success =>
    obtain rfl := Option.some.inj hstep
    cases success with
    | false => exact ⟨done, .inl ⟨rfl, h.1, h.2.1, h.2.2.1, h.2.2.2.1⟩⟩
    | true => exact ⟨done, .inr ⟨rfl, h.1, h.2.1, h.2.2.1⟩⟩
  | returned => cases hstep

theorem Build.Follows.select {b b' : Build} {branch : SelectBranch} (h : b.Follows)
    (hstep : b.select branch = some b') : b'.Follows := by
  obtain ⟨status, cancelled, image, task, events⟩ := b
  obtain ⟨done, h⟩ := h
  cases task with
  | work rest =>
    cases branch with
    | slept =>
      obtain rfl := Option.some.inj hstep
      exact ⟨done, h⟩
    | cancelled =>
      rw [Build.select] at hstep
      cases cancelled with
      | false => cases hstep
      | true =>
        obtain rfl := Option.some.inj hstep
        exact ⟨done, rfl, ⟨rest, h.1.symm⟩, h.2⟩
  | _ => cases hstep

/-- Phases that ran before another one. -/
theorem prefix_of_next {done rest : Phases} {p : BuildPhase × String}
    (h : phases = done ++ p :: rest) : done ++ [p] <+: phases := ⟨rest, by rw [h]; simp⟩

theorem Build.Follows.scripted {b : Build} (h : b.Follows) : b.Scripted := by
  obtain ⟨status, cancelled, image, task, events⟩ := b
  obtain ⟨done, h⟩ := h
  cases task with
  | nextPhase rest => exact ⟨done, ⟨rest, h.1.symm⟩, .between h.2.1 h.2.2.1⟩
  | work rest => exact ⟨done, ⟨rest, h.1.symm⟩, .between h.2.1 h.2.2.1⟩
  | sendPhaseChange phase message rest =>
    exact ⟨done, ⟨_, h.1.symm⟩, .between h.2.1 h.2.2.1⟩
  | setPhase phase message rest =>
    exact ⟨done, ⟨_, h.1.symm⟩, .within phase message (prefix_of_next h.1) h.2.1 (.inl h.2.2.1)⟩
  | sendLog message rest =>
    obtain ⟨phase, hphases, hevents, hphase, -⟩ := h
    exact ⟨done, ⟨_, hphases.symm⟩,
      .within phase message (prefix_of_next hphases) hevents (.inr hphase)⟩
  | sendError => exact ⟨done, h.2.1, .between h.2.2.1 h.2.2.2.1⟩
  | sendArtifact =>
    obtain ⟨rfl, hevents, hphase, -⟩ := h
    exact ⟨phases, List.prefix_rfl, .between hevents hphase⟩
  | sendComplete =>
    obtain ⟨rfl, ⟨uuid, hevents⟩, hphase, hsuccess⟩ := h
    exact ⟨phases, List.prefix_rfl, .built uuid rfl hevents hphase hsuccess⟩
  | updateCompleted success =>
    cases success with
    | false =>
      obtain ⟨hasked, hdone, hevents, hphase, hsuccess⟩ := h
      refine ⟨done, hdone, .cancelled hasked hevents hphase ?_⟩
      intro htrue
      cases hsuccess.symm.trans htrue
    | true =>
      obtain ⟨rfl, ⟨uuid, hevents⟩, hphase, hsuccess⟩ := h
      refine ⟨phases, List.prefix_rfl, .complete uuid rfl hevents hphase ?_⟩
      intro hfalse
      cases hsuccess.symm.trans hfalse
  | returned =>
    rcases h with ⟨hsuccess, hasked, hdone, hevents, hphase⟩ |
      ⟨hsuccess, rfl, ⟨uuid, hevents⟩, hphase⟩
    · refine ⟨done, hdone, .cancelled hasked hevents hphase ?_⟩
      intro htrue
      cases hsuccess.symm.trans htrue
    · refine ⟨phases, List.prefix_rfl, .complete uuid rfl hevents hphase ?_⟩
      intro hfalse
      cases hsuccess.symm.trans hfalse

/-- In every state of every run, each build has sent its phases in order, each announced and
logged, ended by one error once a cancellation was accepted, or by one artifact and its completion;
its status shows the phase announced last or is about to, and reports no success of a build that
ended in that error. -/
theorem builds_scripted {tr : List BuildTransition} {s : Builds}
    (h : Run buildStep noBuilds tr s) {id : Uuid} {b : Build} (hb : s id = some b) :
    b.Scripted ∧ (b.cancelled = true ↔ ∃ x ∈ tr, Accepts id x) := by
  have hfollows : b.Follows :=
    build_invariant Build.follows_start (fun _ h ↦ h.cancel)
      (fun _ _ _ _ h hstep ↦ h.advance hstep) (fun _ _ _ h hstep ↦ h.select hstep) h hb
  have htracked := tracked_of_run h id
  rw [Tracked, hb] at htracked
  exact ⟨hfollows.scripted, htracked.2.1⟩

/-- The build cancelled at once has sent its one error. -/
theorem builds_scripted_early : ∃ tr s b, Run buildStep noBuilds tr s ∧ s "b" = some b ∧
    (b.Scripted ∧ (b.cancelled = true ↔ ∃ x ∈ tr, Accepts "b" x)) ∧ b.cancelled = true ∧
      b.events.map BuildEvent.untimed = [.error "Build cancelled by user" 0] := by
  have hends : ∃ s b, execute buildStep noBuilds earlyCancellation = some s ∧ s "b" = some b ∧
      b.cancelled = true ∧ b.events.map BuildEvent.untimed = [.error "Build cancelled by user" 0] :=
    ⟨_, _, rfl, rfl, rfl, rfl⟩
  obtain ⟨s, b, hs, hb, hcancelled, hevents⟩ := hends
  have hrun := Run.of_execute _ hs
  exact ⟨_, s, b, hrun, hb, builds_scripted hrun hb, hcancelled, hevents⟩

end ReinhardtCloud.Core
