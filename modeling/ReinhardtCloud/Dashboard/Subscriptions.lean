import ReinhardtCloud.Base.Run
import ReinhardtCloud.Dashboard.Broadcaster

/-!
# What users are subscribed to

Library `Dashboard`. The broadcaster over runs: its operations one after the other, with any
number of `try_subscribe` calls going on between their lock acquisitions. A call has checked the
limit before it starts; everything else waits until no call is going on.
-/

namespace ReinhardtCloud.Dashboard

open ReinhardtCloud.Base WsBroadcaster

/-- Where a `try_subscribe` call is that has passed its check. -/
inductive SubscribePhase where
  | openRoom
  | lookup
  | joinRoom
  | trackRoom
  | trackSubscription
  deriving DecidableEq

/-- A `try_subscribe` call that has passed its check. -/
structure SubscribeCall where
  connectionId : String
  userId : String
  deploymentId : String
  phase : SubscribePhase
  deriving DecidableEq

namespace SubscribeCall

variable {ρ : Type} (rm : RoomManager ρ)

/-- One lock acquisition of `subscribe`, and the rest of the call when there is one. -/
def advance (hub : WsBroadcaster ρ) (call : SubscribeCall) :
    WsBroadcaster ρ × Option SubscribeCall :=
  match call.phase with
  | .openRoom => (hub.openRoom rm call.deploymentId, some { call with phase := .lookup })
  | .lookup =>
    if call.connectionId ∈ hub.connections then (hub, some { call with phase := .joinRoom })
    else (hub, some { call with phase := .trackSubscription })
  | .joinRoom =>
    (hub.joinRoom rm call.connectionId call.deploymentId, some { call with phase := .trackRoom })
  | .trackRoom =>
    (hub.trackRoom call.connectionId call.deploymentId,
      some { call with phase := .trackSubscription })
  | .trackSubscription => (hub.trackSubscription call.userId call.deploymentId, none)

/-- The call of a registered connection is past its join. -/
def HasJoined (call : SubscribeCall) : Prop :=
  call.phase = .trackRoom ∨ call.phase = .trackSubscription

end SubscribeCall

/-- The broadcaster, the calls going on, and whom each connection was registered for last. -/
structure HubState (ρ : Type) where
  hub : WsBroadcaster ρ
  calls : List SubscribeCall
  owner : String → Option String

/-- What happens next at the broadcaster. -/
inductive HubAction where
  | registerConnection (connectionId userId : String)
  | trySubscribe (connectionId userId deploymentId : String)
  | advance (i : Nat)
  | unsubscribe (connectionId deploymentId : String)
  | removeConnection (connectionId : String)
  | cleanupUser (userId : String)
  deriving DecidableEq

namespace HubState

variable {ρ : Type} (rm : RoomManager ρ)

/-- An empty broadcaster. -/
def init : HubState ρ := ⟨WsBroadcaster.new rm, [], fun _ ↦ none⟩

/-- Another operation takes its turn: no call is going on. -/
def idle (s : HubState ρ) (hub : WsBroadcaster ρ) : Option (HubState ρ) :=
  if s.calls = [] then some { s with hub := hub } else none

/-- One step. A connection id is not in use when it is registered, and `try_subscribe` names the
user that the connection was registered for. -/
def step (s : HubState ρ) : HubAction → Option (HubState ρ)
  | .registerConnection c u =>
    if s.hub.connectionUsers c = none then
      { s with owner := Function.update s.owner c (some u) }.idle
        (s.hub.registerConnection rm c u)
    else none
  | .trySubscribe c u d =>
    if s.owner c = some u then
      match s.hub.checkSubscription u d with
      | some _ => some s
      | none => some { s with calls := ⟨c, u, d, .openRoom⟩ :: s.calls }
    else none
  | .advance i =>
    match s.calls[i]? with
    | none => none
    | some call =>
      let result := call.advance rm s.hub
      some { s with hub := result.1, calls := result.2.toList ++ s.calls.eraseIdx i }
  | .unsubscribe c d => s.idle (s.hub.unsubscribe rm c d)
  | .removeConnection c => s.idle (s.hub.removeConnection rm c)
  | .cleanupUser u => s.idle (s.hub.cleanupUser rm u)

/-- Let alone, a call that has passed its check does to the broadcaster what `try_subscribe`
does. -/
theorem execute_trySubscribe {s : HubState ρ} {c u d : String} (hidle : s.calls = [])
    (howner : s.owner c = some u) : ∃ n, execute (step rm) s
      (.trySubscribe c u d :: List.replicate n (.advance 0)) =
        some { s with hub := (s.hub.trySubscribe rm c u d).2 } := by
  cases hcheck : s.hub.checkSubscription u d with
  | some answer =>
    refine ⟨0, ?_⟩
    simp [execute, step, howner, hcheck, WsBroadcaster.trySubscribe]
  | none =>
    by_cases hc : c ∈ s.hub.connections
    · refine ⟨5, ?_⟩
      have hopen : c ∈ (s.hub.openRoom rm d).connections := hc
      simp [execute, step, howner, hcheck, WsBroadcaster.trySubscribe, List.replicate, hidle,
        SubscribeCall.advance, hopen, WsBroadcaster.subscribe, hc]
    · refine ⟨3, ?_⟩
      have hopen : c ∉ (s.hub.openRoom rm d).connections := hc
      simp [execute, step, howner, hcheck, WsBroadcaster.trySubscribe, List.replicate, hidle,
        SubscribeCall.advance, hopen, WsBroadcaster.subscribe, hc]

end HubState

/-! ## What the maps should say -/

namespace WsBroadcaster

variable {ρ : Type} (rm : RoomManager ρ) (hub : WsBroadcaster ρ)

/-- A registered connection of the user has joined the deployment's room. -/
def Joined (userId deploymentId : String) : Prop :=
  ∃ c, hub.connectionUsers c = some userId ∧ hub.InRoom rm c (deploymentRoomId deploymentId)

/-- The connections of the user have joined at most so many deployments. -/
def JoinedAtMost (n : Nat) (userId : String) : Prop :=
  ∀ joined : Finset String, (∀ d ∈ joined, hub.Joined rm userId d) → joined.card ≤ n

/-- The bookkeeping agrees with the rooms, and no entry is about a removed connection. -/
structure Consistent : Prop where
  registry : hub.Registry
  subscriptions : ∀ u d, d ∈ hub.userSubscriptions u ↔ hub.Joined rm u d
  rooms : ∀ c r, r ≠ systemRoomId → (hub.InRoom rm c r ↔ r ∈ hub.connectionRooms c)
  members : ∀ c r, hub.InRoom rm c r → c ∈ hub.connections
  tracked : ∀ c, hub.connectionRooms c ≠ [] → c ∈ hub.connections

end WsBroadcaster

namespace HubState

variable {ρ : Type} (rm : RoomManager ρ)

/-- The deployments that calls of the user are going on for. -/
def pending (s : HubState ρ) (userId : String) : Finset String :=
  ((s.calls.filter fun call ↦ call.userId = userId).map SubscribeCall.deploymentId).toFinset

/-- What is asked of a step: a call that passes its check is about a registered connection, and
while other calls of its user are going on, which the check does not see, there is room for all of
them; nobody leaves a room by `unsubscribe` in which the user has another connection, nor the last
but one connection by `remove_connection` a room in which the user has no other. -/
def Orderly (s : HubState ρ) : HubAction → Prop
  | .registerConnection _ _ => True
  | .trySubscribe c u d => s.hub.checkSubscription u d = none → c ∈ s.hub.connections ∧
      ((s.pending u).Nonempty →
        (insert d (s.hub.userSubscriptions u ∪ s.pending u)).card ≤ maxSubscriptionsPerUser)
  | .advance _ => True
  | .unsubscribe c d => ∀ u e, s.hub.connectionUsers c = some u →
      s.hub.connectionUsers e = some u → e ≠ c → ¬ s.hub.InRoom rm e (deploymentRoomId d)
  | .removeConnection c => ∀ u e, s.hub.connectionUsers c = some u →
      s.hub.connectionUsers e = some u → e ≠ c → ∀ d, s.hub.InRoom rm c (deploymentRoomId d) →
        ∃ e', e' ≠ c ∧ s.hub.connectionUsers e' = some u ∧
          s.hub.InRoom rm e' (deploymentRoomId d)
  | .cleanupUser _ => True

/-- The invariant of orderly runs: what the maps say, up to the calls that have joined a room and
not yet noted it. -/
structure Inv (s : HubState ρ) : Prop where
  registry : s.hub.Registry
  owned : ∀ c u, s.hub.connectionUsers c = some u → s.owner c = some u
  calls : ∀ k ∈ s.calls, s.hub.connectionUsers k.connectionId = some k.userId
  callsJoined : ∀ k ∈ s.calls, k.HasJoined →
    s.hub.InRoom rm k.connectionId (deploymentRoomId k.deploymentId)
  tracks : ∀ c r, s.hub.InRoom rm c r → r ≠ systemRoomId → r ∈ s.hub.connectionRooms c ∨
    ∃ k ∈ s.calls, k.phase = .trackRoom ∧ k.connectionId = c ∧
      deploymentRoomId k.deploymentId = r
  joins : ∀ c r, r ∈ s.hub.connectionRooms c → s.hub.InRoom rm c r ∧ r ≠ systemRoomId
  members : ∀ c r, s.hub.InRoom rm c r → c ∈ s.hub.connections
  sound : ∀ u d, d ∈ s.hub.userSubscriptions u → s.hub.Joined rm u d
  complete : ∀ u d, s.hub.Joined rm u d → d ∈ s.hub.userSubscriptions u ∨
    ∃ k ∈ s.calls, k.HasJoined ∧ k.userId = u ∧ k.deploymentId = d
  limit : ∀ u, (s.hub.userSubscriptions u ∪ s.pending u).card ≤ maxSubscriptionsPerUser

end HubState

namespace WsBroadcaster

variable {ρ : Type} {rm : RoomManager ρ} {hub : WsBroadcaster ρ} {c u d e v : String}

theorem joined_registerConnection (hrm : rm.Lawful) (hr : hub.Registry)
    (hm : ∀ c r, hub.InRoom rm c r → c ∈ hub.connections)
    (hfresh : hub.connectionUsers c = none) :
    (hub.registerConnection rm c v).Joined rm u d ↔ hub.Joined rm u d := by
  have hout : ¬ hub.InRoom rm c (deploymentRoomId d) := by
    intro hin
    obtain ⟨w, hw⟩ := (hr.tracked c).mp (hm _ _ hin)
    rw [hfresh] at hw
    cases hw
  constructor
  · rintro ⟨e, he, hin⟩
    rcases (inRoom_registerConnection hrm).mp hin with hold | ⟨hsys, -⟩
    · have hne : e ≠ c := by
        rintro rfl
        exact hout hold
      refine ⟨e, ?_, hold⟩
      simpa [registerConnection, hne] using he
    · exact absurd hsys (deploymentRoomId_ne_system d)
  · rintro ⟨e, he, hin⟩
    have hne : e ≠ c := by
      rintro rfl
      exact hout hin
    refine ⟨e, ?_, (inRoom_registerConnection hrm).mpr (.inl hin)⟩
    simpa [registerConnection, hne] using he

theorem joined_removeConnection (hrm : rm.Lawful) :
    (hub.removeConnection rm c).Joined rm u d ↔
      ∃ e, e ≠ c ∧ hub.connectionUsers e = some u ∧ hub.InRoom rm e (deploymentRoomId d) := by
  constructor
  · rintro ⟨e, he, hin⟩
    rw [connectionUsers_removeConnection] at he
    by_cases hec : e = c
    · subst hec
      simp at he
    · rw [Function.update_of_ne hec] at he
      exact ⟨e, hec, he, ((inRoom_removeConnection hrm).mp hin).1⟩
  · rintro ⟨e, hec, he, hin⟩
    refine ⟨e, ?_, (inRoom_removeConnection hrm).mpr ⟨hin, fun h ↦ absurd h hec⟩⟩
    rw [connectionUsers_removeConnection, Function.update_of_ne hec]
    exact he

theorem joined_unsubscribe (hrm : rm.Lawful) {d' : String} :
    (hub.unsubscribe rm c d').Joined rm u d ↔
      ∃ e, hub.connectionUsers e = some u ∧ hub.InRoom rm e (deploymentRoomId d) ∧
        ¬ (d = d' ∧ e = c) := by
  simp only [Joined, connectionUsers_unsubscribe, inRoom_unsubscribe hrm, deploymentRoomId_inj]

theorem joined_cleanupUser (hrm : rm.Lawful) (hr : hub.Registry) :
    (hub.cleanupUser rm v).Joined rm u d ↔ u ≠ v ∧ hub.Joined rm u d := by
  constructor
  · rintro ⟨e, he, hin⟩
    rw [connectionUsers_cleanupUser] at he
    split at he
    · cases he
    · next hout =>
      refine ⟨?_, e, he, ((inRoom_cleanupUser hrm).mp hin).1⟩
      rintro rfl
      exact hout ((hr.users e u).mp he)
  · rintro ⟨hne, e, he, hin⟩
    have hout : e ∉ hub.userConnections v := by
      intro hv
      rw [← hr.users, he] at hv
      exact hne (Option.some.inj hv)
    refine ⟨e, ?_, (inRoom_cleanupUser hrm).mpr ⟨hin, fun h ↦ absurd h hout⟩⟩
    rw [connectionUsers_cleanupUser, if_neg hout]
    exact he

end WsBroadcaster

namespace HubState

variable {ρ : Type} {rm : RoomManager ρ} {s t : HubState ρ} {c u d : String}

theorem inv_init (hrm : rm.Lawful) : (init rm).Inv rm := by
  have hout : ∀ c r, ¬ (init rm).hub.InRoom rm c r := fun c r ↦ not_inRoom_new hrm
  have hnone : ∀ u d, ¬ (init rm).hub.Joined rm u d := by
    rintro u d ⟨c, hc, -⟩
    cases hc
  refine ⟨registry_new, ?_, ?_, ?_, ?_, ?_, ?_, ?_, ?_, ?_⟩
  · intro c u hc
    cases hc
  · intro k hk
    cases hk
  · intro k hk
    cases hk
  · exact fun c r hin ↦ absurd hin (hout c r)
  · intro c r hr
    cases hr
  · exact fun c r hin ↦ absurd hin (hout c r)
  · intro u d hd
    exact absurd hd (Finset.notMem_empty d)
  · exact fun u d hj ↦ absurd hj (hnone u d)
  · exact fun u ↦ Nat.zero_le _

theorem mem_pending : d ∈ s.pending u ↔ ∃ k ∈ s.calls, k.userId = u ∧ k.deploymentId = d := by
  simp [pending, and_assoc]

namespace Inv

/-- Fewer claims keep the limit. -/
theorem claims_mono (h : s.Inv rm) (hsub : ∀ d, d ∈ t.hub.userSubscriptions u ∨ d ∈ t.pending u →
    d ∈ s.hub.userSubscriptions u ∨ d ∈ s.pending u) :
    (t.hub.userSubscriptions u ∪ t.pending u).card ≤ maxSubscriptionsPerUser := by
  refine (Finset.card_le_card fun d hd ↦ ?_).trans (h.limit u)
  exact Finset.mem_union.mpr (hsub d (Finset.mem_union.mp hd))

/-- What a user has joined is noted or about to be. -/
theorem joinedAtMost (h : s.Inv rm) (u : String) :
    s.hub.JoinedAtMost rm maxSubscriptionsPerUser u := by
  intro joined hjoined
  refine (Finset.card_le_card fun d hd ↦ ?_).trans (h.limit u)
  rw [Finset.mem_union, mem_pending]
  rcases h.complete u d (hjoined d hd) with hnoted | ⟨k, hk, -, hids⟩
  · exact .inl hnoted
  · exact .inr ⟨k, hk, hids⟩

/-- The calls of a state that has none. -/
private theorem forall_call {P : SubscribeCall → Prop} (hidle : s.calls = []) :
    ∀ k ∈ s.calls, P k := by
  intro k hk
  rw [hidle] at hk
  cases hk

private theorem no_call {P : SubscribeCall → Prop} (hidle : s.calls = []) :
    ¬ ∃ k ∈ s.calls, P k := by
  rintro ⟨k, hk, -⟩
  exact @forall_call _ s (fun _ ↦ False) hidle k hk

theorem registerConnection (hrm : rm.Lawful) (h : s.Inv rm) (hidle : s.calls = [])
    (hfresh : s.hub.connectionUsers c = none) :
    (HubState.mk (s.hub.registerConnection rm c u) s.calls
      (Function.update s.owner c (some u))).Inv rm := by
  have hj : ∀ v d, (s.hub.registerConnection rm c u).Joined rm v d ↔ s.hub.Joined rm v d :=
    fun v d ↦ joined_registerConnection hrm h.registry h.members hfresh
  refine ⟨h.registry.registerConnection hfresh, ?_, ?_, ?_, ?_, ?_, ?_, ?_, ?_, ?_⟩
  · intro e v he
    by_cases hec : e = c
    · subst hec
      simpa [WsBroadcaster.registerConnection] using he
    · dsimp only
      rw [Function.update_of_ne hec]
      apply h.owned
      simpa [WsBroadcaster.registerConnection, hec] using he
  · exact forall_call hidle
  · exact forall_call hidle
  · intro e r hin hr
    rcases (inRoom_registerConnection hrm).mp hin with hold | ⟨hsys, -⟩
    · exact h.tracks e r hold hr
    · exact absurd hsys hr
  · intro e r hr
    obtain ⟨hin, hne⟩ := h.joins e r hr
    exact ⟨(inRoom_registerConnection hrm).mpr (.inl hin), hne⟩
  · intro e r hin
    simp only [WsBroadcaster.registerConnection, Finset.mem_insert]
    rcases (inRoom_registerConnection hrm).mp hin with hold | ⟨-, hec⟩
    · exact .inr (h.members e r hold)
    · exact .inl hec
  · exact fun v d hd ↦ (hj v d).mpr (h.sound v d hd)
  · exact fun v d hd ↦ h.complete v d ((hj v d).mp hd)
  · exact h.limit

theorem removeConnection (hrm : rm.Lawful) (h : s.Inv rm) (hidle : s.calls = [])
    (hc : s.Orderly rm (.removeConnection c)) :
    (HubState.mk (s.hub.removeConnection rm c) s.calls s.owner).Inv rm := by
  have hrooms : ∀ e r, (s.hub.removeConnection rm c).InRoom rm e r ↔
      e ≠ c ∧ s.hub.InRoom rm e r := by
    intro e r
    rw [inRoom_removeConnection hrm]
    constructor
    · rintro ⟨hin, hleft⟩
      refine ⟨?_, hin⟩
      rintro rfl
      rcases h.tracks e r hin (hleft rfl).2 with htracked | hcall
      · exact (hleft rfl).1 htracked
      · exact no_call hidle hcall
    · rintro ⟨hne, hin⟩
      exact ⟨hin, fun hec ↦ absurd hec hne⟩
  refine ⟨h.registry.removeConnection, ?_, ?_, ?_, ?_, ?_, ?_, ?_, ?_, ?_⟩
  · intro e u he
    dsimp only at he
    rw [connectionUsers_removeConnection] at he
    by_cases hec : e = c
    · subst hec
      simp at he
    · rw [Function.update_of_ne hec] at he
      exact h.owned e u he
  · exact forall_call hidle
  · exact forall_call hidle
  · intro e r hin hr
    obtain ⟨hne, hold⟩ := (hrooms e r).mp hin
    left
    dsimp only
    rw [connectionRooms_removeConnection, Function.update_of_ne hne]
    exact (h.tracks e r hold hr).resolve_right (no_call hidle)
  · intro e r hr
    dsimp only at hr
    rw [connectionRooms_removeConnection] at hr
    by_cases hec : e = c
    · subst hec
      simp at hr
    · rw [Function.update_of_ne hec] at hr
      obtain ⟨hin, hne⟩ := h.joins e r hr
      exact ⟨(hrooms e r).mpr ⟨hec, hin⟩, hne⟩
  · intro e r hin
    obtain ⟨hne, hold⟩ := (hrooms e r).mp hin
    dsimp only
    rw [connections_removeConnection, Finset.mem_erase]
    exact ⟨hne, h.members e r hold⟩
  · -- What the user is subscribed to after the removal, another connection has joined.
    intro u d hd
    rw [joined_removeConnection hrm]
    have hkept := (mem_userSubscriptions_removeConnection h.registry).mp hd
    obtain ⟨e, he, hin⟩ := h.sound u d hkept.1
    by_cases hec : e = c
    · subst hec
      obtain ⟨e', hne, he'⟩ := hkept.2 he
      exact hc u e' he he' hne d hin
    · exact ⟨e, hec, he, hin⟩
  · intro u d hd
    left
    obtain ⟨e, hec, he, hin⟩ := (joined_removeConnection hrm).mp hd
    have hsub := (h.complete u d ⟨e, he, hin⟩).resolve_right (no_call hidle)
    exact (mem_userSubscriptions_removeConnection h.registry).mpr ⟨hsub, fun _ ↦ ⟨e, hec, he⟩⟩
  · exact fun u ↦ h.claims_mono fun d hd ↦
      hd.imp_left fun hd ↦ ((mem_userSubscriptions_removeConnection h.registry).mp hd).1

theorem unsubscribe (hrm : rm.Lawful) (h : s.Inv rm) (hidle : s.calls = [])
    (hc : s.Orderly rm (.unsubscribe c d)) :
    (HubState.mk (s.hub.unsubscribe rm c d) s.calls s.owner).Inv rm := by
  refine ⟨h.registry.unsubscribe, ?_, ?_, ?_, ?_, ?_, ?_, ?_, ?_, ?_⟩
  · intro e u he
    dsimp only at he
    rw [connectionUsers_unsubscribe] at he
    exact h.owned e u he
  · exact forall_call hidle
  · exact forall_call hidle
  · intro e r hin hr
    obtain ⟨hold, hnot⟩ := (inRoom_unsubscribe hrm).mp hin
    left
    have htracked := (h.tracks e r hold hr).resolve_right (no_call hidle)
    dsimp only
    rw [connectionRooms_unsubscribe]
    by_cases hec : e = c
    · subst hec
      rw [Function.update_self, List.mem_filter]
      refine ⟨htracked, ?_⟩
      simpa using fun hrd ↦ hnot ⟨hrd, rfl⟩
    · rw [Function.update_of_ne hec]
      exact htracked
  · intro e r hr
    dsimp only at hr
    rw [connectionRooms_unsubscribe] at hr
    by_cases hec : e = c
    · subst hec
      rw [Function.update_self, List.mem_filter] at hr
      obtain ⟨hin, hne⟩ := h.joins e r hr.1
      refine ⟨(inRoom_unsubscribe hrm).mpr ⟨hin, ?_⟩, hne⟩
      rintro ⟨hrd, -⟩
      simp [hrd] at hr
    · rw [Function.update_of_ne hec] at hr
      obtain ⟨hin, hne⟩ := h.joins e r hr
      exact ⟨(inRoom_unsubscribe hrm).mpr ⟨hin, fun hcontra ↦ hec hcontra.2⟩, hne⟩
  · intro e r hin
    dsimp only
    rw [connections_unsubscribe]
    exact h.members e r ((inRoom_unsubscribe hrm).mp hin).1
  · intro u d' hd
    obtain ⟨hold, hnot⟩ := mem_userSubscriptions_unsubscribe.mp hd
    obtain ⟨e, he, hin⟩ := h.sound u d' hold
    refine (joined_unsubscribe hrm).mpr ⟨e, he, hin, ?_⟩
    rintro ⟨rfl, rfl⟩
    exact hnot ⟨he, rfl⟩
  · -- The user has no other connection in the room, so the one that leaves was the last.
    intro u d' hd
    left
    obtain ⟨e, he, hin, hnot⟩ := (joined_unsubscribe hrm).mp hd
    have hsub := (h.complete u d' ⟨e, he, hin⟩).resolve_right (no_call hidle)
    refine mem_userSubscriptions_unsubscribe.mpr ⟨hsub, ?_⟩
    rintro ⟨hcu, rfl⟩
    by_cases hec : e = c
    · exact hnot ⟨rfl, hec⟩
    · exact hc u e hcu he hec hin
  · exact fun u ↦ h.claims_mono fun d' hd ↦
      hd.imp_left fun hd ↦ (mem_userSubscriptions_unsubscribe.mp hd).1

theorem cleanupUser (hrm : rm.Lawful) (h : s.Inv rm) (hidle : s.calls = []) :
    (HubState.mk (s.hub.cleanupUser rm u) s.calls s.owner).Inv rm := by
  have hrooms : ∀ e r, (s.hub.cleanupUser rm u).InRoom rm e r ↔
      e ∉ s.hub.userConnections u ∧ s.hub.InRoom rm e r := by
    intro e r
    rw [inRoom_cleanupUser hrm]
    constructor
    · rintro ⟨hin, hleft⟩
      refine ⟨?_, hin⟩
      intro hmem
      rcases h.tracks e r hin (hleft hmem).2 with htracked | hcall
      · exact (hleft hmem).1 htracked
      · exact no_call hidle hcall
    · rintro ⟨hout, hin⟩
      exact ⟨hin, fun hmem ↦ absurd hmem hout⟩
  refine ⟨h.registry.cleanupUser, ?_, ?_, ?_, ?_, ?_, ?_, ?_, ?_, ?_⟩
  · intro e v he
    dsimp only at he
    rw [connectionUsers_cleanupUser] at he
    split at he
    · cases he
    · exact h.owned e v he
  · exact forall_call hidle
  · exact forall_call hidle
  · intro e r hin hr
    obtain ⟨hout, hold⟩ := (hrooms e r).mp hin
    left
    dsimp only
    rw [connectionRooms_cleanupUser, if_neg hout]
    exact (h.tracks e r hold hr).resolve_right (no_call hidle)
  · intro e r hr
    dsimp only at hr
    rw [connectionRooms_cleanupUser] at hr
    split at hr
    · cases hr
    · next hout =>
      obtain ⟨hin, hne⟩ := h.joins e r hr
      exact ⟨(hrooms e r).mpr ⟨hout, hin⟩, hne⟩
  · intro e r hin
    obtain ⟨hout, hold⟩ := (hrooms e r).mp hin
    exact (mem_connections_cleanupUser e).mpr ⟨h.members e r hold, hout⟩
  · intro v d hd
    dsimp only at hd
    rw [userSubscriptions_cleanupUser] at hd
    by_cases hvu : v = u
    · subst hvu
      simp at hd
    · rw [Function.update_of_ne hvu] at hd
      exact (joined_cleanupUser hrm h.registry).mpr ⟨hvu, h.sound v d hd⟩
  · intro v d hd
    obtain ⟨hvu, hold⟩ := (joined_cleanupUser hrm h.registry).mp hd
    left
    dsimp only
    rw [userSubscriptions_cleanupUser, Function.update_of_ne hvu]
    exact (h.complete v d hold).resolve_right (no_call hidle)
  · refine fun v ↦ h.claims_mono fun d hd ↦ hd.imp_left fun hd ↦ ?_
    dsimp only at hd
    rw [userSubscriptions_cleanupUser] at hd
    by_cases hvu : v = u
    · subst hvu
      simp at hd
    · rwa [Function.update_of_ne hvu] at hd

/-- The check leaves room for one more; calls that it does not see must fit beside it. -/
theorem card_claims (hcheck : s.hub.checkSubscription u d = none)
    (hroom : (s.pending u).Nonempty →
      (insert d (s.hub.userSubscriptions u ∪ s.pending u)).card ≤ maxSubscriptionsPerUser) :
    (insert d (s.hub.userSubscriptions u ∪ s.pending u)).card ≤ maxSubscriptionsPerUser := by
  by_cases hpending : (s.pending u).Nonempty
  · exact hroom hpending
  · rw [Finset.not_nonempty_iff_eq_empty.mp hpending, Finset.union_empty]
    have hless : (s.hub.userSubscriptions u).card < maxSubscriptionsPerUser := by
      rw [checkSubscription] at hcheck
      split at hcheck
      · cases hcheck
      · split at hcheck
        · cases hcheck
        · next hless => exact not_le.mp hless
    exact (Finset.card_insert_le _ _).trans hless

theorem trySubscribe (h : s.Inv rm) (howner : s.owner c = some u)
    (hcheck : s.hub.checkSubscription u d = none) (hc : s.Orderly rm (.trySubscribe c u d)) :
    (HubState.mk s.hub (⟨c, u, d, .openRoom⟩ :: s.calls) s.owner).Inv rm := by
  obtain ⟨hc, hroom⟩ := hc hcheck
  have hcu : s.hub.connectionUsers c = some u := by
    obtain ⟨v, hv⟩ := (h.registry.tracked c).mp hc
    rw [hv, ← howner, ← h.owned c v hv]
  have hopen : ¬ (SubscribeCall.mk c u d .openRoom).HasJoined := by
    rintro (hphase | hphase) <;> cases hphase
  refine ⟨h.registry, h.owned, ?_, ?_, ?_, h.joins, h.members, h.sound, ?_, ?_⟩
  · intro k hk
    rcases List.mem_cons.mp hk with rfl | hk
    · exact hcu
    · exact h.calls k hk
  · intro k hk hjoined
    rcases List.mem_cons.mp hk with rfl | hk
    · exact absurd hjoined hopen
    · exact h.callsJoined k hk hjoined
  · intro e r hin hr
    rcases h.tracks e r hin hr with htracked | ⟨k, hk, hcall⟩
    · exact .inl htracked
    · exact .inr ⟨k, List.mem_cons_of_mem _ hk, hcall⟩
  · intro v d' hd
    rcases h.complete v d' hd with hsub | ⟨k, hk, hcall⟩
    · exact .inl hsub
    · exact .inr ⟨k, List.mem_cons_of_mem _ hk, hcall⟩
  · intro v
    by_cases hvu : v = u
    · subst hvu
      refine (Finset.card_le_card fun e he ↦ ?_).trans (card_claims hcheck hroom)
      rw [Finset.mem_union, mem_pending] at he
      rw [Finset.mem_insert, Finset.mem_union, mem_pending]
      rcases he with hnoted | ⟨k, hk, hids⟩
      · exact .inr (.inl hnoted)
      · rcases List.mem_cons.mp hk with rfl | hk
        · exact .inl hids.2.symm
        · exact .inr (.inr ⟨k, hk, hids⟩)
    · refine h.claims_mono fun e he ↦ he.imp_right fun he ↦ ?_
      obtain ⟨k, hk, hids⟩ := mem_pending.mp he
      rcases List.mem_cons.mp hk with rfl | hk
      · exact absurd hids.1.symm hvu
      · exact mem_pending.mpr ⟨k, hk, hids⟩

section Calls

variable {call : SubscribeCall} {rest : List SubscribeCall}

/-- The calls are the one that goes on and the others. -/
private theorem mem_calls_iff {i : Nat} (hi : s.calls[i]? = some call) (k : SubscribeCall) :
    k ∈ s.calls ↔ k = call ∨ k ∈ s.calls.eraseIdx i := by
  obtain ⟨hlt, rfl⟩ := List.getElem?_eq_some_iff.mp hi
  rw [← (List.getElem_cons_eraseIdx_perm hlt).mem_iff, List.mem_cons]

/-- A call that only changes its phase is pending for what it was. -/
private theorem mem_pending_of_phase {hub : WsBroadcaster ρ} {phase : SubscribePhase}
    (hmem : ∀ k, k ∈ s.calls ↔ k = call ∨ k ∈ rest)
    (hd : d ∈ (HubState.mk hub ({ call with phase := phase } :: rest) s.owner).pending u) :
    d ∈ s.pending u := by
  obtain ⟨k, hk, hids⟩ := mem_pending.mp hd
  rcases List.mem_cons.mp hk with rfl | hk
  · exact mem_pending.mpr ⟨call, (hmem call).mpr (.inl rfl), hids⟩
  · exact mem_pending.mpr ⟨k, (hmem k).mpr (.inr hk), hids⟩

/-- A room that is there changes nothing. -/
theorem openRoom (hrm : rm.Lawful) (h : s.Inv rm) :
    (HubState.mk (s.hub.openRoom rm d) s.calls s.owner).Inv rm := by
  have hin : ∀ e r, (s.hub.openRoom rm d).InRoom rm e r ↔ s.hub.InRoom rm e r :=
    fun e r ↦ inRoom_openRoom hrm
  have hj : ∀ u d', (s.hub.openRoom rm d).Joined rm u d' ↔ s.hub.Joined rm u d' :=
    fun u d' ↦ exists_congr fun e ↦ and_congr_right fun _ ↦ hin e _
  refine ⟨⟨h.registry.users, h.registry.tracked⟩, h.owned, h.calls, ?_, ?_, ?_, ?_, ?_, ?_, ?_⟩
  · exact fun k hk hjoined ↦ (hin _ _).mpr (h.callsJoined k hk hjoined)
  · exact fun e r he ↦ h.tracks e r ((hin e r).mp he)
  · intro e r hr
    exact ⟨(hin e r).mpr (h.joins e r hr).1, (h.joins e r hr).2⟩
  · exact fun e r he ↦ h.members e r ((hin e r).mp he)
  · exact fun u d' hd ↦ (hj u d').mpr (h.sound u d' hd)
  · exact fun u d' hd ↦ h.complete u d' ((hj u d').mp hd)
  · exact h.limit

/-- Before its join a call goes on without a trace. -/
theorem goOn (h : s.Inv rm) (hmem : ∀ k, k ∈ s.calls ↔ k = call ∨ k ∈ rest)
    {phase : SubscribePhase} (hbefore : ¬ call.HasJoined)
    (hafter : ¬ { call with phase := phase }.HasJoined) :
    (HubState.mk s.hub ({ call with phase := phase } :: rest) s.owner).Inv rm := by
  refine ⟨h.registry, h.owned, ?_, ?_, ?_, h.joins, h.members, h.sound, ?_, ?_⟩
  · intro k hk
    rcases List.mem_cons.mp hk with rfl | hk
    · exact h.calls call ((hmem call).mpr (.inl rfl))
    · exact h.calls k ((hmem k).mpr (.inr hk))
  · intro k hk hjoined
    rcases List.mem_cons.mp hk with rfl | hk
    · exact absurd hjoined hafter
    · exact h.callsJoined k ((hmem k).mpr (.inr hk)) hjoined
  · intro e r hin hr
    rcases h.tracks e r hin hr with htracked | ⟨k, hk, hphase, hids⟩
    · exact .inl htracked
    · right
      rcases (hmem k).mp hk with rfl | hk
      · exact absurd (.inl hphase) hbefore
      · exact ⟨k, List.mem_cons_of_mem _ hk, hphase, hids⟩
  · intro u d hd
    rcases h.complete u d hd with hsub | ⟨k, hk, hjoined, hids⟩
    · exact .inl hsub
    · right
      rcases (hmem k).mp hk with rfl | hk
      · exact absurd hjoined hbefore
      · exact ⟨k, List.mem_cons_of_mem _ hk, hjoined, hids⟩
  · exact fun u ↦ h.claims_mono fun d hd ↦ hd.imp_right (mem_pending_of_phase hmem)

/-- The join itself. -/
theorem joinRoom (hrm : rm.Lawful) (h : s.Inv rm)
    (hmem : ∀ k, k ∈ s.calls ↔ k = call ∨ k ∈ rest) (hphase : call.phase = .joinRoom) :
    (HubState.mk (s.hub.joinRoom rm call.connectionId call.deploymentId)
      ({ call with phase := .trackRoom } :: rest) s.owner).Inv rm := by
  have hcu := h.calls call ((hmem call).mpr (.inl rfl))
  have hbefore : ¬ call.HasJoined := by
    rintro (hp | hp) <;> rw [hphase] at hp <;> cases hp
  have hafter : SubscribeCall.HasJoined { call with phase := .trackRoom } := .inl rfl
  have hin : ∀ e r, (s.hub.joinRoom rm call.connectionId call.deploymentId).InRoom rm e r ↔
      s.hub.InRoom rm e r ∨ r = deploymentRoomId call.deploymentId ∧ e = call.connectionId :=
    fun e r ↦ inRoom_joinRoom hrm
  have hj : ∀ u d, (s.hub.joinRoom rm call.connectionId call.deploymentId).Joined rm u d →
      s.hub.Joined rm u d ∨ u = call.userId ∧ d = call.deploymentId := by
    rintro u d ⟨e, he, hjoin⟩
    rcases (hin e _).mp hjoin with hold | ⟨hd, rfl⟩
    · exact .inl ⟨e, he, hold⟩
    · have hu : s.hub.connectionUsers call.connectionId = some u := he
      rw [hcu] at hu
      exact .inr ⟨(Option.some.inj hu).symm, deploymentRoomId_inj.mp hd⟩
  refine ⟨⟨h.registry.users, h.registry.tracked⟩, h.owned, ?_, ?_, ?_, ?_, ?_, ?_, ?_, ?_⟩
  · intro k hk
    rcases List.mem_cons.mp hk with rfl | hk
    · exact hcu
    · exact h.calls k ((hmem k).mpr (.inr hk))
  · intro k hk hjoined
    rcases List.mem_cons.mp hk with rfl | hk
    · exact (hin _ _).mpr (.inr ⟨rfl, rfl⟩)
    · exact (hin _ _).mpr (.inl (h.callsJoined k ((hmem k).mpr (.inr hk)) hjoined))
  · intro e r he hr
    rcases (hin e r).mp he with hold | ⟨rfl, rfl⟩
    · rcases h.tracks e r hold hr with htracked | ⟨k, hk, hp, hids⟩
      · exact .inl htracked
      · right
        rcases (hmem k).mp hk with rfl | hk
        · exact absurd (.inl hp) hbefore
        · exact ⟨k, List.mem_cons_of_mem _ hk, hp, hids⟩
    · exact .inr ⟨_, List.mem_cons_self, rfl, rfl, rfl⟩
  · intro e r hr
    exact ⟨(hin e r).mpr (.inl (h.joins e r hr).1), (h.joins e r hr).2⟩
  · intro e r he
    rcases (hin e r).mp he with hold | ⟨-, rfl⟩
    · exact h.members e r hold
    · exact (h.registry.tracked _).mpr ⟨_, hcu⟩
  · intro u d hd
    obtain ⟨e, he, hold⟩ := h.sound u d hd
    exact ⟨e, he, (hin e _).mpr (.inl hold)⟩
  · intro u d hd
    rcases hj u d hd with hold | ⟨rfl, rfl⟩
    · rcases h.complete u d hold with hsub | ⟨k, hk, hjoined, hids⟩
      · exact .inl hsub
      · right
        rcases (hmem k).mp hk with rfl | hk
        · exact absurd hjoined hbefore
        · exact ⟨k, List.mem_cons_of_mem _ hk, hjoined, hids⟩
    · exact .inr ⟨_, List.mem_cons_self, hafter, rfl, rfl⟩
  · exact fun u ↦ h.claims_mono fun d hd ↦ hd.imp_right (mem_pending_of_phase hmem)

/-- The room is noted for the connection. -/
theorem trackRoom (h : s.Inv rm) (hmem : ∀ k, k ∈ s.calls ↔ k = call ∨ k ∈ rest)
    (hphase : call.phase = .trackRoom) :
    (HubState.mk (s.hub.trackRoom call.connectionId call.deploymentId)
      ({ call with phase := .trackSubscription } :: rest) s.owner).Inv rm := by
  have hcall : call ∈ s.calls := (hmem call).mpr (.inl rfl)
  have hafter : SubscribeCall.HasJoined { call with phase := .trackSubscription } := .inr rfl
  refine ⟨⟨h.registry.users, h.registry.tracked⟩, h.owned, ?_, ?_, ?_, ?_, h.members, h.sound,
    ?_, ?_⟩
  · intro k hk
    rcases List.mem_cons.mp hk with rfl | hk
    · exact h.calls call hcall
    · exact h.calls k ((hmem k).mpr (.inr hk))
  · intro k hk hjoined
    rcases List.mem_cons.mp hk with rfl | hk
    · exact h.callsJoined call hcall (.inl hphase)
    · exact h.callsJoined k ((hmem k).mpr (.inr hk)) hjoined
  · intro e r hin hr
    dsimp only [WsBroadcaster.trackRoom]
    by_cases he : e = call.connectionId
    · subst he
      rw [Function.update_self]
      rcases h.tracks _ r hin hr with htracked | ⟨k, hk, hp, hids⟩
      · exact .inl (List.mem_insert_of_mem htracked)
      · rcases (hmem k).mp hk with rfl | hk
        · exact .inl (hids.2 ▸ List.mem_insert_self)
        · exact .inr ⟨k, List.mem_cons_of_mem _ hk, hp, hids⟩
    · rw [Function.update_of_ne he]
      rcases h.tracks e r hin hr with htracked | ⟨k, hk, hp, hids⟩
      · exact .inl htracked
      · rcases (hmem k).mp hk with rfl | hk
        · exact absurd hids.1.symm he
        · exact .inr ⟨k, List.mem_cons_of_mem _ hk, hp, hids⟩
  · intro e r hr
    dsimp only [WsBroadcaster.trackRoom] at hr
    by_cases he : e = call.connectionId
    · subst he
      rw [Function.update_self] at hr
      rcases List.mem_insert_iff.mp hr with rfl | hold
      · exact ⟨h.callsJoined call hcall (.inl hphase), deploymentRoomId_ne_system _⟩
      · exact h.joins _ r hold
    · rw [Function.update_of_ne he] at hr
      exact h.joins e r hr
  · intro u d hd
    rcases h.complete u d hd with hsub | ⟨k, hk, hjoined, hids⟩
    · exact .inl hsub
    · right
      rcases (hmem k).mp hk with rfl | hk
      · exact ⟨_, List.mem_cons_self, hafter, hids⟩
      · exact ⟨k, List.mem_cons_of_mem _ hk, hjoined, hids⟩
  · exact fun u ↦ h.claims_mono fun d hd ↦ hd.imp_right (mem_pending_of_phase hmem)

/-- The deployment is noted for the user, and the call is over. -/
theorem trackSubscription (h : s.Inv rm) (hmem : ∀ k, k ∈ s.calls ↔ k = call ∨ k ∈ rest)
    (hphase : call.phase = .trackSubscription) :
    (HubState.mk (s.hub.trackSubscription call.userId call.deploymentId) rest s.owner).Inv rm := by
  have hcall : call ∈ s.calls := (hmem call).mpr (.inl rfl)
  refine ⟨⟨h.registry.users, h.registry.tracked⟩, h.owned, ?_, ?_, ?_, h.joins, h.members, ?_,
    ?_, ?_⟩
  · exact fun k hk ↦ h.calls k ((hmem k).mpr (.inr hk))
  · exact fun k hk ↦ h.callsJoined k ((hmem k).mpr (.inr hk))
  · intro e r hin hr
    rcases h.tracks e r hin hr with htracked | ⟨k, hk, hp, hids⟩
    · exact .inl htracked
    · right
      rcases (hmem k).mp hk with rfl | hk
      · rw [hphase] at hp
        cases hp
      · exact ⟨k, hk, hp, hids⟩
  · intro u d hd
    dsimp only [WsBroadcaster.trackSubscription] at hd
    by_cases hu : u = call.userId
    · subst hu
      rw [Function.update_self, Finset.mem_insert] at hd
      rcases hd with rfl | hold
      · exact ⟨call.connectionId, h.calls call hcall, h.callsJoined call hcall (.inr hphase)⟩
      · exact h.sound _ d hold
    · rw [Function.update_of_ne hu] at hd
      exact h.sound u d hd
  · intro u d hd
    dsimp only [WsBroadcaster.trackSubscription]
    by_cases hu : u = call.userId
    · subst hu
      rw [Function.update_self, Finset.mem_insert]
      rcases h.complete _ d hd with hsub | ⟨k, hk, hjoined, hids⟩
      · exact .inl (.inr hsub)
      · rcases (hmem k).mp hk with rfl | hk
        · exact .inl (.inl hids.2.symm)
        · exact .inr ⟨k, hk, hjoined, hids⟩
    · rw [Function.update_of_ne hu]
      rcases h.complete u d hd with hsub | ⟨k, hk, hjoined, hids⟩
      · exact .inl hsub
      · rcases (hmem k).mp hk with rfl | hk
        · exact absurd hids.1.symm hu
        · exact .inr ⟨k, hk, hjoined, hids⟩
  · intro u
    apply h.claims_mono
    rintro d (hd | hd)
    · dsimp only [WsBroadcaster.trackSubscription] at hd
      by_cases hu : u = call.userId
      · subst hu
        rw [Function.update_self, Finset.mem_insert] at hd
        rcases hd with rfl | hold
        · exact .inr (mem_pending.mpr ⟨call, hcall, rfl, rfl⟩)
        · exact .inl hold
      · rw [Function.update_of_ne hu] at hd
        exact .inl hd
    · obtain ⟨k, hk, hids⟩ := mem_pending.mp hd
      exact .inr (mem_pending.mpr ⟨k, (hmem k).mpr (.inr hk), hids⟩)

theorem advance (hrm : rm.Lawful) (h : s.Inv rm) {i : Nat} (hi : s.calls[i]? = some call) :
    (HubState.mk (call.advance rm s.hub).1
      ((call.advance rm s.hub).2.toList ++ s.calls.eraseIdx i) s.owner).Inv rm := by
  have hmem := mem_calls_iff hi
  have hconn : call.connectionId ∈ s.hub.connections :=
    (h.registry.tracked _).mpr ⟨_, h.calls call ((hmem call).mpr (.inl rfl))⟩
  rw [SubscribeCall.advance]
  cases hphase : call.phase with
  | openRoom =>
    refine (h.openRoom hrm).goOn hmem ?_ ?_
    · rintro (hp | hp) <;> rw [hphase] at hp <;> cases hp
    · rintro (hp | hp) <;> cases hp
  | lookup =>
    rw [if_pos hconn]
    refine h.goOn hmem ?_ ?_
    · rintro (hp | hp) <;> rw [hphase] at hp <;> cases hp
    · rintro (hp | hp) <;> cases hp
  | joinRoom => exact h.joinRoom hrm hmem hphase
  | trackRoom => exact h.trackRoom hmem hphase
  | trackSubscription => exact h.trackSubscription hmem hphase

end Calls

/-- With no call going on the bookkeeping is consistent. -/
theorem consistent (h : s.Inv rm) (hidle : s.calls = []) : s.hub.Consistent rm := by
  refine ⟨h.registry, ?_, ?_, h.members, ?_⟩
  · exact fun u d ↦ ⟨h.sound u d, fun hd ↦ (h.complete u d hd).resolve_right (no_call hidle)⟩
  · intro c r hr
    exact ⟨fun hin ↦ (h.tracks c r hin hr).resolve_right (no_call hidle),
      fun hmem ↦ (h.joins c r hmem).1⟩
  · intro c hne
    obtain ⟨r, hr⟩ := List.exists_mem_of_ne_nil _ hne
    exact h.members c r (h.joins c r hr).1

end Inv

theorem idle_eq_some {hub : WsBroadcaster ρ} :
    s.idle hub = some t ↔ s.calls = [] ∧ t = ⟨hub, s.calls, s.owner⟩ := by
  rw [idle]
  split
  · next h => simp [h, eq_comm]
  · next h => simp [h]

/-- Orderly steps keep the invariant. -/
theorem inv_step (hrm : rm.Lawful) (h : s.Inv rm) {a : HubAction} (ht : step rm s a = some t)
    (hc : s.Orderly rm a) : t.Inv rm := by
  cases a with
  | registerConnection c u =>
    rw [step] at ht
    split at ht
    · next hfresh =>
      obtain ⟨hidle, rfl⟩ := idle_eq_some.mp ht
      exact h.registerConnection hrm hidle hfresh
    · cases ht
  | trySubscribe c u d =>
    rw [step] at ht
    split at ht
    · next howner =>
      cases hcheck : s.hub.checkSubscription u d with
      | some answer =>
        rw [hcheck] at ht
        obtain rfl := Option.some.inj ht
        exact h
      | none =>
        rw [hcheck] at ht
        obtain rfl := Option.some.inj ht
        exact h.trySubscribe howner hcheck hc
    · cases ht
  | advance i =>
    rw [step] at ht
    cases hi : s.calls[i]? with
    | none =>
      rw [hi] at ht
      cases ht
    | some call =>
      rw [hi] at ht
      obtain rfl := Option.some.inj ht
      exact h.advance hrm hi
  | unsubscribe c d =>
    obtain ⟨hidle, rfl⟩ := idle_eq_some.mp ht
    exact h.unsubscribe hrm hidle hc
  | removeConnection c =>
    obtain ⟨hidle, rfl⟩ := idle_eq_some.mp ht
    exact h.removeConnection hrm hidle hc
  | cleanupUser u =>
    obtain ⟨hidle, rfl⟩ := idle_eq_some.mp ht
    exact h.cleanupUser hrm hidle

/-- In every orderly run the bookkeeping is consistent whenever no call is going on, and no user
ever joins more deployments than the limit. -/
theorem consistent_of_orderly (hrm : rm.Lawful) {tr : List (Transition (HubState ρ) HubAction)}
    (h : Run (step rm) (init rm) tr s) (hc : ∀ x ∈ tr, x.before.Orderly rm x.action) :
    (s.calls = [] → s.hub.Consistent rm) ∧
      ∀ u, s.hub.JoinedAtMost rm maxSubscriptionsPerUser u := by
  have hinv : s.Inv rm := (h.safe_of_condition (C := fun x ↦ x.before.Orderly rm x.action)
    (P := fun _ ↦ True) (inv_init hrm)
    (fun s a t hs ht hx ↦ ⟨inv_step hrm hs ht hx, trivial⟩) hc).1
  exact ⟨hinv.consistent, hinv.joinedAtMost⟩

/-- Two tabs of a user subscribe to a deployment each, at the same time, and the second one
unsubscribes again. -/
private def twoTabs : List HubAction :=
  [.registerConnection "tab-1" "ann", .registerConnection "tab-2" "ann",
    .trySubscribe "tab-1" "ann" "shop", .trySubscribe "tab-2" "ann" "blog",
    .advance 0, .advance 0, .advance 0, .advance 1, .advance 1, .advance 0, .advance 0, .advance 0,
    .advance 0, .advance 0, .unsubscribe "tab-2" "blog"]

theorem consistent_twoTabs : ∃ s, execute (step .lists) (init .lists) twoTabs = some s ∧
    s.calls = [] ∧ s.hub.connectionUsers "tab-2" = some "ann" ∧
    (s.calls = [] → s.hub.Consistent .lists) ∧
    (∀ u, s.hub.JoinedAtMost .lists maxSubscriptionsPerUser u) ∧
    s.hub.Joined .lists "ann" "shop" := by
  have hrun : ∃ s, execute (step .lists) (init .lists) twoTabs = some s ∧ s.calls = [] ∧
      s.hub.connectionUsers "tab-2" = some "ann" ∧ s.hub.connectionUsers "tab-1" = some "ann" ∧
      s.hub.InRoom .lists "tab-1" (deploymentRoomId "shop") := ⟨_, rfl, by decide⟩
  obtain ⟨s, hexec, hidle, hsecond, hann, hin⟩ := hrun
  have horderly : ∀ x ∈ transitions (step .lists) (init .lists) twoTabs,
      x.before.Orderly .lists x.action := by
    -- Two calls pass their check, the second one beside the first; the advances ask for nothing.
    refine forall_mem_transitions_cons rfl trivial <| forall_mem_transitions_cons rfl trivial <|
      forall_mem_transitions_cons rfl (fun _ ↦ by decide) <|
      forall_mem_transitions_cons rfl (fun _ ↦ by decide) <|
      forall_mem_transitions_cons rfl trivial <| forall_mem_transitions_cons rfl trivial <|
      forall_mem_transitions_cons rfl trivial <| forall_mem_transitions_cons rfl trivial <|
      forall_mem_transitions_cons rfl trivial <| forall_mem_transitions_cons rfl trivial <|
      forall_mem_transitions_cons rfl trivial <| forall_mem_transitions_cons rfl trivial <|
      forall_mem_transitions_cons rfl trivial <| forall_mem_transitions_cons rfl trivial <|
      forall_mem_transitions_cons rfl ?_ (fun x hx ↦ by cases hx)
    intro u e _ _ hne hin
    have hmember : e ∈ ["tab-2"].toFinset := hin
    exact hne (by simpa using hmember)
  obtain ⟨hconsistent, hlimit⟩ :=
    consistent_of_orderly RoomManager.lists_lawful (Run.of_execute twoTabs hexec) horderly
  exact ⟨s, hexec, hidle, hsecond, hconsistent, hlimit, "tab-1", hann, hin⟩

/-- The second tab of a user is told that it is subscribed, and when it unsubscribes the user is no
longer counted as subscribed while the first tab is still in the room. -/
theorem not_consistent_unsubscribe : RoomManager.lists.Lawful ∧
    ∃ (tr : List (Transition (HubState (String → List String)) HubAction)) (s : HubState _),
      Run (step .lists) (init .lists) tr s ∧ s.calls = [] ∧
        s.hub.connectionUsers "tab-1" = some "ann" ∧
        s.hub.InRoom .lists "tab-1" (deploymentRoomId "shop") ∧
        "shop" ∉ s.hub.userSubscriptions "ann" ∧ ¬ s.hub.Consistent .lists := by
  have hrun : ∃ s, execute (step .lists) (init .lists)
      [.registerConnection "tab-1" "ann", .registerConnection "tab-2" "ann",
        .trySubscribe "tab-1" "ann" "shop", .advance 0, .advance 0, .advance 0, .advance 0,
        .advance 0, .trySubscribe "tab-2" "ann" "shop", .unsubscribe "tab-2" "shop"] = some s ∧
      s.calls = [] ∧ s.hub.connectionUsers "tab-1" = some "ann" ∧
        s.hub.InRoom .lists "tab-1" (deploymentRoomId "shop") ∧
        "shop" ∉ s.hub.userSubscriptions "ann" := ⟨_, rfl, by decide⟩
  obtain ⟨s, hexec, hidle, hann, hin, hout⟩ := hrun
  refine ⟨RoomManager.lists_lawful, _, s, Run.of_execute _ hexec, hidle, hann, hin, hout, ?_⟩
  intro hconsistent
  exact hout ((hconsistent.subscriptions "ann" "shop").mpr ⟨"tab-1", hann, hin⟩)

end HubState

end ReinhardtCloud.Dashboard
