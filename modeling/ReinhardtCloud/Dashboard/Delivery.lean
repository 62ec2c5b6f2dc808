import ReinhardtCloud.Base.Run
import ReinhardtCloud.Dashboard.Broadcaster

/-!
# Whom a status update reaches

Library `Dashboard`. Sequences of the broadcaster's operations by any users and connections, with
the subscriptions that `try_subscribe` has confirmed and not ended since, and all that it has ever
granted. What is broadcast goes by rooms; what is confirmed goes by the user's set.
-/

namespace ReinhardtCloud.Dashboard

open ReinhardtCloud.Base WsBroadcaster

/-- The broadcaster, with the subscriptions that stand confirmed and those ever granted, each a
connection and a deployment. -/
structure DeliveryState (ρ : Type) where
  hub : WsBroadcaster ρ
  confirmed : Finset (String × String)
  granted : Finset (String × String)

/-- A call at the broadcaster. -/
inductive WsOperation where
  | registerConnection (connectionId userId : String)
  | trySubscribe (connectionId userId deploymentId : String)
  | subscribe (connectionId userId deploymentId : String)
  | unsubscribe (connectionId deploymentId : String)
  | removeConnection (connectionId : String)
  | cleanupUser (userId : String)
  | broadcastDeploymentStatus (payload : DeploymentStatusPayload)

namespace DeliveryState

variable {ρ : Type} (rm : RoomManager ρ) (s : DeliveryState ρ)

/-- An empty broadcaster. -/
def init : DeliveryState ρ := ⟨WsBroadcaster.new rm, ∅, ∅⟩

/-- What a `try_subscribe` call that returned the answer has confirmed and granted. -/
def answered (connectionId userId deploymentId : String) (result : Bool × WsBroadcaster ρ) :
    DeliveryState ρ where
  hub := result.2
  confirmed :=
    if result.1 = true ∧ s.hub.connectionUsers connectionId = some userId then
      insert (connectionId, deploymentId) s.confirmed
    else s.confirmed
  granted := if result.1 then insert (connectionId, deploymentId) s.granted else s.granted

/-- One call. A connection id is not in use when it is registered. -/
def step : WsOperation → Option (DeliveryState ρ)
  | .registerConnection c u =>
    if s.hub.connectionUsers c = none then
      some { s with hub := s.hub.registerConnection rm c u }
    else none
  | .trySubscribe c u d => some (s.answered c u d (s.hub.trySubscribe rm c u d))
  | .subscribe c u d => some { s with hub := s.hub.subscribe rm c u d }
  | .unsubscribe c d =>
    some { s with hub := s.hub.unsubscribe rm c d, confirmed := s.confirmed.erase (c, d) }
  | .removeConnection c =>
    some { s with
      hub := s.hub.removeConnection rm c
      confirmed := s.confirmed.filter fun p ↦ p.1 ≠ c }
  | .cleanupUser u =>
    some { s with
      hub := s.hub.cleanupUser rm u
      confirmed := s.confirmed.filter fun p ↦ s.hub.connectionUsers p.1 ≠ some u }
  | .broadcastDeploymentStatus _ => some s

/-- Whatever status is broadcast now, its message is put once on each connection whose
subscription stands confirmed, and on none that was never granted one. -/
def Delivers : Prop :=
  ∀ (payload : DeploymentStatusPayload) (c : String),
    ((c, payload.deploymentId) ∈ s.confirmed →
      (s.hub.broadcastDeploymentStatus rm payload).count (c, payload) = 1) ∧
    ((c, payload.deploymentId) ∉ s.granted →
      (s.hub.broadcastDeploymentStatus rm payload).count (c, payload) = 0)

/-- What is asked of a call: when `try_subscribe` finds the deployment in the user's set, the
connection is in its room; and `subscribe` is called by itself only for what was granted. -/
def Served : WsOperation → Prop
  | .trySubscribe c u d => s.hub.connectionUsers c = some u → d ∈ s.hub.userSubscriptions u →
      s.hub.InRoom rm c (deploymentRoomId d)
  | .subscribe c _ d => c ∈ s.hub.connections → (c, d) ∈ s.granted
  | _ => True

/-- What is confirmed has joined, and who has joined was granted it. -/
structure Inv : Prop where
  registry : s.hub.Registry
  joined : ∀ c d, (c, d) ∈ s.confirmed → s.hub.InRoom rm c (deploymentRoomId d)
  granted : ∀ c d, s.hub.InRoom rm c (deploymentRoomId d) → (c, d) ∈ s.granted

variable {rm s} {t : DeliveryState ρ} {c u d : String}

theorem inv_init (hrm : rm.Lawful) : (init rm).Inv rm := by
  refine ⟨registry_new, ?_, fun c d hin ↦ absurd hin (not_inRoom_new hrm)⟩
  intro c d hconfirmed
  exact absurd hconfirmed (Finset.notMem_empty _)

/-- A broadcast reaches exactly the room, so the invariant is what delivery needs. -/
theorem Inv.delivers (hrm : rm.Lawful) (h : s.Inv rm) : s.Delivers rm := by
  intro payload c
  rw [count_broadcastDeploymentStatus hrm]
  constructor
  · intro hconfirmed
    rw [if_pos (h.joined c _ hconfirmed)]
  · intro hgranted
    rw [if_neg fun hin ↦ hgranted (h.granted c _ hin)]

theorem Inv.trySubscribe (hrm : rm.Lawful) (h : s.Inv rm)
    (hc : s.Served rm (.trySubscribe c u d)) :
    (s.answered c u d (s.hub.trySubscribe rm c u d)).Inv rm := by
  rw [WsBroadcaster.trySubscribe]
  cases hcheck : s.hub.checkSubscription u d with
  | some answer =>
    cases answer with
    | false => exact h
    | true =>
      have hsub : d ∈ s.hub.userSubscriptions u := by
        by_contra hout
        rw [checkSubscription, if_neg hout] at hcheck
        split at hcheck <;> cases hcheck
      refine ⟨h.registry, ?_, ?_⟩
      · intro e f hconfirmed
        dsimp only [answered] at hconfirmed ⊢
        split at hconfirmed
        · next howner =>
          rcases Finset.mem_insert.mp hconfirmed with heq | hold
          · obtain ⟨rfl, rfl⟩ := Prod.mk.inj heq
            exact hc howner.2 hsub
          · exact h.joined e f hold
        · exact h.joined e f hconfirmed
      · intro e f hin
        exact Finset.mem_insert_of_mem (h.granted e f hin)
  | none =>
    refine ⟨h.registry.subscribe, ?_, ?_⟩
    · intro e f hconfirmed
      dsimp only [answered] at hconfirmed ⊢
      rw [inRoom_subscribe hrm]
      split at hconfirmed
      · next howner =>
        rcases Finset.mem_insert.mp hconfirmed with heq | hold
        · obtain ⟨rfl, rfl⟩ := Prod.mk.inj heq
          exact .inr ⟨(h.registry.tracked e).mpr ⟨u, howner.2⟩, rfl, rfl⟩
        · exact .inl (h.joined e f hold)
      · exact .inl (h.joined e f hconfirmed)
    · intro e f hin
      rcases (inRoom_subscribe hrm).mp hin with hold | ⟨-, hroom, rfl⟩
      · exact Finset.mem_insert_of_mem (h.granted e f hold)
      · rw [deploymentRoomId_inj.mp hroom]
        exact Finset.mem_insert_self _ _

/-- Every call that meets the condition keeps the invariant. -/
theorem inv_step (hrm : rm.Lawful) (h : s.Inv rm) {a : WsOperation} (ht : step rm s a = some t)
    (hc : s.Served rm a) : t.Inv rm := by
  cases a with
  | registerConnection c u =>
    rw [step] at ht
    split at ht
    · next hfresh =>
      obtain rfl := Option.some.inj ht
      refine ⟨h.registry.registerConnection hfresh, ?_, ?_⟩
      · exact fun e d hd ↦ (inRoom_registerConnection hrm).mpr (.inl (h.joined e d hd))
      · intro e d hin
        rcases (inRoom_registerConnection hrm).mp hin with hold | ⟨hsys, -⟩
        · exact h.granted e d hold
        · exact absurd hsys (deploymentRoomId_ne_system d)
    · cases ht
  | trySubscribe c u d =>
    obtain rfl := Option.some.inj ht
    exact h.trySubscribe hrm hc
  | subscribe c u d =>
    obtain rfl := Option.some.inj ht
    refine ⟨h.registry.subscribe, ?_, ?_⟩
    · exact fun e f hf ↦ (inRoom_subscribe hrm).mpr (.inl (h.joined e f hf))
    · intro e f hin
      rcases (inRoom_subscribe hrm).mp hin with hold | ⟨hconn, hroom, rfl⟩
      · exact h.granted e f hold
      · rw [deploymentRoomId_inj.mp hroom]
        exact hc hconn
  | unsubscribe c d =>
    obtain rfl := Option.some.inj ht
    refine ⟨h.registry.unsubscribe, ?_, ?_⟩
    · intro e f hconfirmed
      rw [Finset.mem_erase] at hconfirmed
      refine (inRoom_unsubscribe hrm).mpr ⟨h.joined e f hconfirmed.2, ?_⟩
      rintro ⟨hroom, rfl⟩
      exact hconfirmed.1 (by rw [deploymentRoomId_inj.mp hroom])
    · exact fun e f hin ↦ h.granted e f ((inRoom_unsubscribe hrm).mp hin).1
  | removeConnection c =>
    obtain rfl := Option.some.inj ht
    refine ⟨h.registry.removeConnection, ?_, ?_⟩
    · intro e f hconfirmed
      rw [Finset.mem_filter] at hconfirmed
      exact (inRoom_removeConnection hrm).mpr
        ⟨h.joined e f hconfirmed.1, fun hec ↦ absurd hec hconfirmed.2⟩
    · exact fun e f hin ↦ h.granted e f ((inRoom_removeConnection hrm).mp hin).1
  | cleanupUser u =>
    obtain rfl := Option.some.inj ht
    refine ⟨h.registry.cleanupUser, ?_, ?_⟩
    · intro e f hconfirmed
      rw [Finset.mem_filter] at hconfirmed
      refine (inRoom_cleanupUser hrm).mpr ⟨h.joined e f hconfirmed.1, fun hmem ↦ ?_⟩
      exact absurd ((h.registry.users e u).mpr hmem) hconfirmed.2
    · exact fun e f hin ↦ h.granted e f ((inRoom_cleanupUser hrm).mp hin).1
  | broadcastDeploymentStatus payload =>
    obtain rfl := Option.some.inj ht
    exact h

/-- After a call that does not meet the condition some broadcast goes wrong. -/
theorem served_of_delivers (hrm : rm.Lawful) {a : WsOperation} (ht : step rm s a = some t)
    (hd : t.Delivers rm) : s.Served rm a := by
  cases a with
  | trySubscribe c u d =>
    obtain rfl := Option.some.inj ht
    intro howner hsub
    by_contra hout
    have hanswer : s.hub.trySubscribe rm c u d = (true, s.hub) := by
      rw [WsBroadcaster.trySubscribe, checkSubscription, if_pos hsub]
    rw [hanswer] at hd
    have hone := (hd ⟨d, "", "", .running, 0, 0, none, ""⟩ c).1
      (by simp [answered, howner])
    rw [answered, count_broadcastDeploymentStatus hrm, if_neg hout] at hone
    cases hone
  | subscribe c u d =>
    obtain rfl := Option.some.inj ht
    intro hconn
    by_contra hout
    have hzero := (hd ⟨d, "", "", .running, 0, 0, none, ""⟩ c).2 hout
    have hin : (s.hub.subscribe rm c u d).InRoom rm c (deploymentRoomId d) :=
      (inRoom_subscribe hrm).mpr (.inr ⟨hconn, rfl, rfl⟩)
    rw [count_broadcastDeploymentStatus hrm, if_pos hin] at hzero
    cases hzero
  | _ => trivial

/-- Broadcasts reach what is confirmed, and nothing that was not granted, throughout a run exactly
when each `try_subscribe` that finds its deployment in the user's set is for a connection in the
room. -/
theorem delivers_iff_served (hrm : rm.Lawful) {tr : List (Transition (DeliveryState ρ) WsOperation)}
    (h : Run (step rm) (init rm) tr s) :
    (∀ x ∈ tr, x.after.Delivers rm) ↔ ∀ x ∈ tr, x.before.Served rm x.action := by
  have hsteps := h.forall_before (I := fun _ ↦ True) trivial (fun _ _ _ _ _ ↦ trivial)
  constructor
  · exact fun hd x hx ↦ served_of_delivers hrm (hsteps x hx).2 (hd x hx)
  · intro hc
    have hrun := h.safe_of_condition (C := fun x ↦ x.before.Served rm x.action)
      (P := fun x ↦ x.after.Inv rm) (inv_init hrm)
      (fun s a t hs ht hx ↦ ⟨inv_step hrm hs ht hx, inv_step hrm hs ht hx⟩) hc
    exact fun x hx ↦ (hrun.2 x hx).2.delivers hrm

/-- Two users, one of them with two tabs, and a tab for each deployment. -/
private def ownTabs : List WsOperation :=
  [.registerConnection "tab-1" "ann", .registerConnection "tab-2" "ann",
    .registerConnection "tab-3" "bob", .trySubscribe "tab-1" "ann" "shop",
    .trySubscribe "tab-2" "ann" "blog", .trySubscribe "tab-3" "bob" "shop",
    .unsubscribe "tab-3" "shop"]

theorem delivers_ownTabs : ∃ s, execute (step .lists) (init .lists) ownTabs = some s ∧
    ("tab-1", "shop") ∈ s.confirmed ∧
    ∀ x ∈ transitions (step .lists) (init .lists) ownTabs, x.after.Delivers .lists := by
  have hrun : ∃ s, execute (step .lists) (init .lists) ownTabs = some s ∧
      ("tab-1", "shop") ∈ s.confirmed := ⟨_, rfl, by decide⟩
  obtain ⟨s, hexec, hconfirmed⟩ := hrun
  refine ⟨s, hexec, hconfirmed, ?_⟩
  refine (delivers_iff_served RoomManager.lists_lawful (Run.of_execute ownTabs hexec)).mpr ?_
  exact forall_mem_transitions_cons rfl trivial <| forall_mem_transitions_cons rfl trivial <|
    forall_mem_transitions_cons rfl trivial <|
    forall_mem_transitions_cons rfl (fun _ ↦ by decide) <|
    forall_mem_transitions_cons rfl (fun _ ↦ by decide) <|
    forall_mem_transitions_cons rfl (fun _ ↦ by decide) <|
    forall_mem_transitions_cons rfl trivial (fun x hx ↦ by cases hx)

/-- The second tab of a user is told that it is subscribed and receives nothing. -/
theorem not_delivers_second_tab : RoomManager.lists.Lawful ∧
    ∃ (tr : List (Transition (DeliveryState (String → List String)) WsOperation))
      (s : DeliveryState _),
      Run (step .lists) (init .lists) tr s ∧ s.hub.connectionUsers "tab-2" = some "ann" ∧
        ("tab-2", "shop") ∈ s.confirmed ∧ ¬ s.Delivers .lists := by
  have hrun : ∃ s, execute (step .lists) (init .lists)
      [.registerConnection "tab-1" "ann", .registerConnection "tab-2" "ann",
        .trySubscribe "tab-1" "ann" "shop", .trySubscribe "tab-2" "ann" "shop"] = some s ∧
      s.hub.connectionUsers "tab-2" = some "ann" ∧ ("tab-2", "shop") ∈ s.confirmed ∧
        ¬ s.hub.InRoom .lists "tab-2" (deploymentRoomId "shop") := ⟨_, rfl, by decide⟩
  obtain ⟨s, hexec, hann, hconfirmed, hout⟩ := hrun
  refine ⟨RoomManager.lists_lawful, _, s, Run.of_execute _ hexec, hann, hconfirmed, ?_⟩
  intro hd
  have hone := (hd ⟨"shop", "", "", .running, 0, 0, none, ""⟩ "tab-2").1 hconfirmed
  rw [count_broadcastDeploymentStatus RoomManager.lists_lawful, if_neg hout] at hone
  cases hone

end DeliveryState

end ReinhardtCloud.Dashboard
