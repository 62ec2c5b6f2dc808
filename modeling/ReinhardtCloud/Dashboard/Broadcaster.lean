import Mathlib.Data.Finset.Card
import Mathlib.Data.Finset.Dedup
import Mathlib.Data.Finset.Insert
import Mathlib.Logic.Function.Basic
import ReinhardtCloud.Dashboard.Permissions

/-!
# The WebSocket broadcaster

Library `Dashboard`. `WsBroadcaster` (`utils/realtime/broadcaster.rs`) with the six maps that it
keeps beside the rooms of the WebSocket library, and what each of its operations does to the
rooms. Absent map entries are empty sets; a set that the source iterates over is a list.
-/

namespace ReinhardtCloud.Dashboard

/-- What the broadcaster calls of the WebSocket library's `RoomManager` and its rooms. -/
structure RoomManager (ρ : Type) where
  new : ρ
  hasRoom : ρ → String → Bool
  members : ρ → String → Finset String
  getOrCreateRoom : ρ → String → ρ
  join : ρ → String → String → ρ
  leave : ρ → String → String → ρ
  cleanupEmptyRooms : ρ → ρ
  broadcast : ρ → String → List String

/-- A room is a set of connections, an empty one may go, and a broadcast puts one message on each
of them. -/
structure RoomManager.Lawful {ρ : Type} (rm : RoomManager ρ) : Prop where
  members_new : ∀ r, rm.members rm.new r = ∅
  hasRoom_of_mem : ∀ m r c, c ∈ rm.members m r → rm.hasRoom m r = true
  members_getOrCreateRoom : ∀ m r s, rm.members (rm.getOrCreateRoom m r) s = rm.members m s
  mem_join : ∀ m r c s e, e ∈ rm.members (rm.join m r c) s ↔
    e ∈ rm.members m s ∨ s = r ∧ e = c
  mem_leave : ∀ m r c s e, e ∈ rm.members (rm.leave m r c) s ↔
    e ∈ rm.members m s ∧ ¬ (s = r ∧ e = c)
  members_cleanupEmptyRooms : ∀ m s, rm.members (rm.cleanupEmptyRooms m) s = rm.members m s
  nodup_broadcast : ∀ m r, (rm.broadcast m r).Nodup
  mem_broadcast : ∀ m r c, c ∈ rm.broadcast m r ↔ c ∈ rm.members m r

/-- Rooms as lists of their connections. -/
def RoomManager.lists : RoomManager (String → List String) where
  new := fun _ ↦ []
  hasRoom := fun m r ↦ !(m r).isEmpty
  members := fun m r ↦ (m r).toFinset
  getOrCreateRoom := fun m _ ↦ m
  join := fun m r c ↦ Function.update m r ((m r).insert c)
  leave := fun m r c ↦ Function.update m r ((m r).filter (· ≠ c))
  cleanupEmptyRooms := fun m ↦ m
  broadcast := fun m r ↦ (m r).dedup

theorem RoomManager.lists_lawful : RoomManager.lists.Lawful where
  members_new := fun _ ↦ rfl
  hasRoom_of_mem := by
    intro m r c hc
    have hne : m r ≠ [] := List.ne_nil_of_mem (List.mem_toFinset.mp hc)
    simpa [RoomManager.lists] using hne
  members_getOrCreateRoom := fun _ _ _ ↦ rfl
  mem_join := by
    intro m r c s e
    by_cases hs : s = r
    · subst hs
      simp [RoomManager.lists, or_comm]
    · simp [RoomManager.lists, hs]
  mem_leave := by
    intro m r c s e
    by_cases hs : s = r
    · subst hs
      simp [RoomManager.lists]
    · simp [RoomManager.lists, hs]
  members_cleanupEmptyRooms := fun _ _ ↦ rfl
  nodup_broadcast := fun _ _ ↦ List.nodup_dedup _
  mem_broadcast := by
    intro m r c
    simp [RoomManager.lists]

/-- `DeploymentState`, `shared/ws_messages.rs:79–86`. -/
inductive DeploymentState where
  | deploying
  | running
  | degraded
  | failed
  | stopped
  deriving DecidableEq

/-- `DeploymentStatusPayload`, `shared/ws_messages.rs:64–76`. -/
structure DeploymentStatusPayload where
  deploymentId : String
  name : String
  (namespace' : String)
  status : DeploymentState
  readyReplicas : Nat
  desiredReplicas : Nat
  message : Option String
  timestamp : String
  deriving DecidableEq

/-- `WsBroadcaster`. -/
structure WsBroadcaster (ρ : Type) where
  roomManager : ρ
  userSubscriptions : String → Finset String
  connections : Finset String
  connectionUsers : String → Option String
  userConnections : String → List String
  connectionRooms : String → List String

/-- `SYSTEM_ROOM_ID`. -/
def systemRoomId : String := "system:all"

/-- `format!("deployment:{deployment_id}")`. -/
def deploymentRoomId (deploymentId : String) : String := "deployment:" ++ deploymentId

theorem deploymentRoomId_inj {d e : String} : deploymentRoomId d = deploymentRoomId e ↔ d = e := by
  rw [deploymentRoomId, deploymentRoomId, String.append_right_inj]

theorem deploymentRoomId_ne_system (d : String) : deploymentRoomId d ≠ systemRoomId := by
  intro h
  have hl := congrArg String.toList h
  simp [deploymentRoomId, systemRoomId] at hl

namespace WsBroadcaster

variable {ρ : Type} (rm : RoomManager ρ) (hub : WsBroadcaster ρ)

/-- `WsBroadcaster::new`, `broadcaster.rs:49–58`. -/
def new : WsBroadcaster ρ where
  roomManager := rm.new
  userSubscriptions := fun _ ↦ ∅
  connections := ∅
  connectionUsers := fun _ ↦ none
  userConnections := fun _ ↦ []
  connectionRooms := fun _ ↦ []

/-- `register_connection`, `broadcaster.rs:64–96`. -/
def registerConnection (connectionId userId : String) : WsBroadcaster ρ :=
  { hub with
    connections := insert connectionId hub.connections
    roomManager :=
      rm.join (rm.getOrCreateRoom hub.roomManager systemRoomId) systemRoomId connectionId
    connectionUsers := Function.update hub.connectionUsers connectionId (some userId)
    userConnections := Function.update hub.userConnections userId
      ((hub.userConnections userId).insert connectionId) }

/-- `room.leave(connection_id)` in the rooms of the list that exist. -/
def leaveRooms (m : ρ) (connectionId : String) (roomIds : List String) : ρ :=
  roomIds.foldl (fun m r ↦ if rm.hasRoom m r then rm.leave m r connectionId else m) m

/-- What `remove_connection` and `cleanup_user` both do for a connection: forget it and its user,
and leave its deployment rooms and the system room. -/
def forgetConnection (connectionId : String) : WsBroadcaster ρ :=
  { hub with
    connections := hub.connections.erase connectionId
    connectionUsers := Function.update hub.connectionUsers connectionId none
    roomManager := leaveRooms rm
      (leaveRooms rm hub.roomManager connectionId (hub.connectionRooms connectionId))
      connectionId [systemRoomId]
    connectionRooms := Function.update hub.connectionRooms connectionId [] }

/-- `self.room_manager.cleanup_empty_rooms()`. -/
def cleanupEmptyRooms : WsBroadcaster ρ :=
  { hub with roomManager := rm.cleanupEmptyRooms hub.roomManager }

/-- The end of `remove_connection`: the user's subscriptions go with the last connection. -/
def releaseUser (connectionId userId : String) : WsBroadcaster ρ :=
  let remaining := (hub.userConnections userId).filter (· ≠ connectionId)
  { hub with
    userConnections := Function.update hub.userConnections userId remaining
    userSubscriptions :=
      if hub.userConnections userId ≠ [] ∧ remaining = [] then
        Function.update hub.userSubscriptions userId ∅
      else hub.userSubscriptions }

/-- `remove_connection`, `broadcaster.rs:100–146`. -/
def removeConnection (connectionId : String) : WsBroadcaster ρ :=
  let left := hub.forgetConnection rm connectionId
  let released :=
    match hub.connectionUsers connectionId with
    | some userId => left.releaseUser connectionId userId
    | none => left
  released.cleanupEmptyRooms rm

/-- The room of the deployment exists from here on, `broadcaster.rs:153–154`. -/
def openRoom (deploymentId : String) : WsBroadcaster ρ :=
  { hub with roomManager := rm.getOrCreateRoom hub.roomManager (deploymentRoomId deploymentId) }

/-- `room.join(connection_id, connection)`, `broadcaster.rs:158`. -/
def joinRoom (connectionId deploymentId : String) : WsBroadcaster ρ :=
  { hub with
    roomManager := rm.join hub.roomManager (deploymentRoomId deploymentId) connectionId }

/-- The room is noted in `connection_rooms`, `broadcaster.rs:161–166`. -/
def trackRoom (connectionId deploymentId : String) : WsBroadcaster ρ :=
  { hub with
    connectionRooms := Function.update hub.connectionRooms connectionId
      ((hub.connectionRooms connectionId).insert (deploymentRoomId deploymentId)) }

/-- The deployment is noted in `user_subscriptions`, `broadcaster.rs:170–175`. -/
def trackSubscription (userId deploymentId : String) : WsBroadcaster ρ :=
  { hub with
    userSubscriptions := Function.update hub.userSubscriptions userId
      (insert deploymentId (hub.userSubscriptions userId)) }

/-- `subscribe`, `broadcaster.rs:152–176`. -/
def subscribe (connectionId userId deploymentId : String) : WsBroadcaster ρ :=
  let opened := hub.openRoom rm deploymentId
  let joined :=
    if connectionId ∈ hub.connections then
      (opened.joinRoom rm connectionId deploymentId).trackRoom connectionId deploymentId
    else opened
  joined.trackSubscription userId deploymentId

/-- The answer of `try_subscribe` under its read lock, when it has one there,
`broadcaster.rs:187–195`. -/
def checkSubscription (userId deploymentId : String) : Option Bool :=
  if deploymentId ∈ hub.userSubscriptions userId then some true
  else if maxSubscriptionsPerUser ≤ (hub.userSubscriptions userId).card then some false
  else none

/-- `try_subscribe`, `broadcaster.rs:180–200`. -/
def trySubscribe (connectionId userId deploymentId : String) : Bool × WsBroadcaster ρ :=
  match hub.checkSubscription userId deploymentId with
  | some answer => (answer, hub)
  | none => (true, hub.subscribe rm connectionId userId deploymentId)

/-- `unsubscribe`, `broadcaster.rs:203–233`. -/
def unsubscribe (connectionId deploymentId : String) : WsBroadcaster ρ :=
  let roomId := deploymentRoomId deploymentId
  let left :=
    { hub with
      roomManager := leaveRooms rm hub.roomManager connectionId [roomId]
      connectionRooms := Function.update hub.connectionRooms connectionId
        ((hub.connectionRooms connectionId).filter (· ≠ roomId)) }
  let untracked :=
    match hub.connectionUsers connectionId with
    | some userId =>
      { left with
        userSubscriptions := Function.update hub.userSubscriptions userId
          ((hub.userSubscriptions userId).erase deploymentId) }
    | none => left
  untracked.cleanupEmptyRooms rm

/-- `cleanup_user`, `broadcaster.rs:281–319`. -/
def cleanupUser (userId : String) : WsBroadcaster ρ :=
  let left := (hub.userConnections userId).foldl (fun h c ↦ h.forgetConnection rm c) hub
  let forgotten :=
    { left with
      userConnections := Function.update left.userConnections userId []
      userSubscriptions := Function.update left.userSubscriptions userId ∅ }
  forgotten.cleanupEmptyRooms rm

/-- `is_subscribed`, `broadcaster.rs:236–243`. -/
def isSubscribed (userId deploymentId : String) : Bool :=
  deploymentId ∈ hub.userSubscriptions userId

/-- The messages that `broadcast_deployment_status` puts on connections,
`broadcaster.rs:252–263`. -/
def broadcastDeploymentStatus (payload : DeploymentStatusPayload) :
    List (String × DeploymentStatusPayload) :=
  let roomId := deploymentRoomId payload.deploymentId
  if rm.hasRoom hub.roomManager roomId then
    (rm.broadcast hub.roomManager roomId).map fun c ↦ (c, payload)
  else []

/-! ## What each operation does to the rooms -/

/-- The connection has joined the room. -/
def InRoom (connectionId roomId : String) : Prop :=
  connectionId ∈ rm.members hub.roomManager roomId

instance (connectionId roomId : String) : Decidable (hub.InRoom rm connectionId roomId) :=
  inferInstanceAs (Decidable (_ ∈ _))

variable {rm hub} {c e u v d r : String}

theorem mem_leaveRooms (hrm : rm.Lawful) {m : ρ} {rooms : List String} :
    e ∈ rm.members (leaveRooms rm m c rooms) r ↔
      e ∈ rm.members m r ∧ ¬ (r ∈ rooms ∧ e = c) := by
  induction rooms generalizing m with
  | nil => simp [leaveRooms]
  | cons s rest ih =>
    have hstep : ∀ e r, e ∈ rm.members (if rm.hasRoom m s then rm.leave m s c else m) r ↔
        e ∈ rm.members m r ∧ ¬ (r = s ∧ e = c) := by
      intro e r
      by_cases hs : rm.hasRoom m s = true
      · rw [if_pos hs, hrm.mem_leave]
      · rw [if_neg hs]
        constructor
        · intro he
          refine ⟨he, ?_⟩
          rintro ⟨rfl, -⟩
          exact hs (hrm.hasRoom_of_mem _ _ _ he)
        · exact fun h ↦ h.1
    have hcons : leaveRooms rm m c (s :: rest) =
        leaveRooms rm (if rm.hasRoom m s then rm.leave m s c else m) c rest := rfl
    rw [hcons, ih, hstep, List.mem_cons]
    tauto

theorem not_inRoom_new (hrm : rm.Lawful) : ¬ (new rm).InRoom rm c r := by
  simp [InRoom, new, hrm.members_new]

theorem inRoom_registerConnection (hrm : rm.Lawful) :
    (hub.registerConnection rm c u).InRoom rm e r ↔
      hub.InRoom rm e r ∨ r = systemRoomId ∧ e = c := by
  simp [InRoom, registerConnection, hrm.mem_join, hrm.members_getOrCreateRoom]

theorem inRoom_forgetConnection (hrm : rm.Lawful) :
    (hub.forgetConnection rm c).InRoom rm e r ↔
      hub.InRoom rm e r ∧ (e = c → r ∉ hub.connectionRooms c ∧ r ≠ systemRoomId) := by
  simp only [InRoom, forgetConnection, mem_leaveRooms hrm, List.mem_singleton]
  tauto

@[simp] theorem inRoom_cleanupEmptyRooms (hrm : rm.Lawful) :
    (hub.cleanupEmptyRooms rm).InRoom rm e r ↔ hub.InRoom rm e r := by
  rw [InRoom, cleanupEmptyRooms, hrm.members_cleanupEmptyRooms, InRoom]

theorem inRoom_removeConnection (hrm : rm.Lawful) :
    (hub.removeConnection rm c).InRoom rm e r ↔
      hub.InRoom rm e r ∧ (e = c → r ∉ hub.connectionRooms c ∧ r ≠ systemRoomId) := by
  rw [← inRoom_forgetConnection hrm]
  simp only [removeConnection, inRoom_cleanupEmptyRooms hrm]
  split <;> rfl

theorem inRoom_openRoom (hrm : rm.Lawful) :
    (hub.openRoom rm d).InRoom rm e r ↔ hub.InRoom rm e r := by
  rw [InRoom, openRoom, hrm.members_getOrCreateRoom, InRoom]

theorem inRoom_joinRoom (hrm : rm.Lawful) :
    (hub.joinRoom rm c d).InRoom rm e r ↔
      hub.InRoom rm e r ∨ r = deploymentRoomId d ∧ e = c := by
  rw [InRoom, joinRoom, hrm.mem_join, InRoom]

theorem inRoom_subscribe (hrm : rm.Lawful) :
    (hub.subscribe rm c u d).InRoom rm e r ↔
      hub.InRoom rm e r ∨ c ∈ hub.connections ∧ r = deploymentRoomId d ∧ e = c := by
  by_cases hc : c ∈ hub.connections
  · have heq : (hub.subscribe rm c u d).InRoom rm e r ↔
        ((hub.openRoom rm d).joinRoom rm c d).InRoom rm e r := by
      rw [subscribe, if_pos hc]
      rfl
    rw [heq, inRoom_joinRoom hrm, inRoom_openRoom hrm]
    simp [hc]
  · have heq : (hub.subscribe rm c u d).InRoom rm e r ↔ (hub.openRoom rm d).InRoom rm e r := by
      rw [subscribe, if_neg hc]
      rfl
    rw [heq, inRoom_openRoom hrm]
    simp [hc]

theorem inRoom_unsubscribe (hrm : rm.Lawful) :
    (hub.unsubscribe rm c d).InRoom rm e r ↔
      hub.InRoom rm e r ∧ ¬ (r = deploymentRoomId d ∧ e = c) := by
  have hleave : (hub.unsubscribe rm c d).InRoom rm e r ↔
      e ∈ rm.members (leaveRooms rm hub.roomManager c [deploymentRoomId d]) r := by
    simp only [unsubscribe, inRoom_cleanupEmptyRooms hrm]
    split <;> rfl
  rw [hleave, mem_leaveRooms hrm, List.mem_singleton, InRoom]

theorem inRoom_cleanupUser (hrm : rm.Lawful) :
    (hub.cleanupUser rm u).InRoom rm e r ↔
      hub.InRoom rm e r ∧
        (e ∈ hub.userConnections u → r ∉ hub.connectionRooms e ∧ r ≠ systemRoomId) := by
  have hfold : ∀ (l : List String) (h : WsBroadcaster ρ),
      (l.foldl (fun h c ↦ h.forgetConnection rm c) h).InRoom rm e r ↔
        h.InRoom rm e r ∧ (e ∈ l → r ∉ h.connectionRooms e ∧ r ≠ systemRoomId) := by
    intro l
    induction l with
    | nil => simp
    | cons c rest ih =>
      intro h
      rw [List.foldl_cons, ih, inRoom_forgetConnection hrm]
      by_cases he : e = c
      · subst he
        simp [forgetConnection]
        tauto
      · simp [forgetConnection, he]
  have hleft : (hub.cleanupUser rm u).InRoom rm e r ↔
      ((hub.userConnections u).foldl (fun h c ↦ h.forgetConnection rm c) hub).InRoom rm e r := by
    simp only [cleanupUser, inRoom_cleanupEmptyRooms hrm]
    rfl
  rw [hleft, hfold]

/-- A status broadcast puts the message once on each connection in the deployment's room. -/
theorem count_broadcastDeploymentStatus (hrm : rm.Lawful) (payload : DeploymentStatusPayload) :
    (hub.broadcastDeploymentStatus rm payload).count (c, payload) =
      if hub.InRoom rm c (deploymentRoomId payload.deploymentId) then 1 else 0 := by
  have hinj : Function.Injective fun c : String ↦ (c, payload) :=
    fun a b hab ↦ (Prod.mk.injEq .. ▸ hab).1
  by_cases hin : hub.InRoom rm c (deploymentRoomId payload.deploymentId)
  · rw [if_pos hin, broadcastDeploymentStatus, if_pos (hrm.hasRoom_of_mem _ _ _ hin),
      List.count_map_of_injective _ _ hinj]
    exact List.count_eq_one_of_mem (hrm.nodup_broadcast _ _) ((hrm.mem_broadcast _ _ _).mpr hin)
  · rw [if_neg hin, broadcastDeploymentStatus]
    split
    · rw [List.count_map_of_injective _ _ hinj]
      exact List.count_eq_zero_of_not_mem fun h ↦ hin ((hrm.mem_broadcast _ _ _).mp h)
    · rfl

/-! ## Who is registered -/

/-- The three maps from and to connections agree. -/
structure Registry (hub : WsBroadcaster ρ) : Prop where
  users : ∀ c u, hub.connectionUsers c = some u ↔ c ∈ hub.userConnections u
  tracked : ∀ c, c ∈ hub.connections ↔ ∃ u, hub.connectionUsers c = some u

@[simp] theorem connectionUsers_removeConnection : (hub.removeConnection rm c).connectionUsers =
    Function.update hub.connectionUsers c none := by
  rw [removeConnection]
  split <;> rfl

@[simp] theorem connections_removeConnection :
    (hub.removeConnection rm c).connections = hub.connections.erase c := by
  rw [removeConnection]
  split <;> rfl

@[simp] theorem connectionRooms_removeConnection : (hub.removeConnection rm c).connectionRooms =
    Function.update hub.connectionRooms c [] := by
  rw [removeConnection]
  split <;> rfl

theorem userConnections_removeConnection : (hub.removeConnection rm c).userConnections =
    match hub.connectionUsers c with
    | some u => Function.update hub.userConnections u
        ((hub.userConnections u).filter (· ≠ c))
    | none => hub.userConnections := by
  rw [removeConnection]
  split <;> rfl

@[simp] theorem connectionUsers_subscribe :
    (hub.subscribe rm c u d).connectionUsers = hub.connectionUsers := by
  rw [subscribe]
  split <;> rfl

@[simp] theorem connections_subscribe :
    (hub.subscribe rm c u d).connections = hub.connections := by
  rw [subscribe]
  split <;> rfl

@[simp] theorem userConnections_subscribe :
    (hub.subscribe rm c u d).userConnections = hub.userConnections := by
  rw [subscribe]
  split <;> rfl

@[simp] theorem connectionUsers_unsubscribe :
    (hub.unsubscribe rm c d).connectionUsers = hub.connectionUsers := by
  rw [unsubscribe]
  split <;> rfl

@[simp] theorem connections_unsubscribe :
    (hub.unsubscribe rm c d).connections = hub.connections := by
  rw [unsubscribe]
  split <;> rfl

@[simp] theorem userConnections_unsubscribe :
    (hub.unsubscribe rm c d).userConnections = hub.userConnections := by
  rw [unsubscribe]
  split <;> rfl

@[simp] theorem connectionRooms_unsubscribe : (hub.unsubscribe rm c d).connectionRooms =
    Function.update hub.connectionRooms c
      ((hub.connectionRooms c).filter (· ≠ deploymentRoomId d)) := by
  rw [unsubscribe]
  split <;> rfl

private theorem foldl_forgetConnection (l : List String) (h : WsBroadcaster ρ) :
    let h' := l.foldl (fun h c ↦ h.forgetConnection rm c) h
    (∀ e, h'.connectionUsers e = if e ∈ l then none else h.connectionUsers e) ∧
      (∀ e, e ∈ h'.connections ↔ e ∈ h.connections ∧ e ∉ l) ∧
      (∀ e, h'.connectionRooms e = if e ∈ l then [] else h.connectionRooms e) ∧
      h'.userConnections = h.userConnections ∧ h'.userSubscriptions = h.userSubscriptions := by
  induction l generalizing h with
  | nil => simp
  | cons c rest ih =>
    obtain ⟨husers, hconns, hrooms, hlists, hsubs⟩ := ih (h.forgetConnection rm c)
    refine ⟨?_, ?_, ?_, hlists, hsubs⟩
    · intro e
      rw [List.foldl_cons, husers]
      by_cases he : e = c
      · subst he
        simp [forgetConnection]
      · simp [forgetConnection, he]
    · intro e
      rw [List.foldl_cons, hconns]
      simp only [forgetConnection, Finset.mem_erase, List.mem_cons]
      tauto
    · intro e
      rw [List.foldl_cons, hrooms]
      by_cases he : e = c
      · subst he
        simp [forgetConnection]
      · simp [forgetConnection, he]

theorem connectionUsers_cleanupUser (e : String) : (hub.cleanupUser rm u).connectionUsers e =
    if e ∈ hub.userConnections u then none else hub.connectionUsers e :=
  (foldl_forgetConnection _ hub).1 e

theorem mem_connections_cleanupUser (e : String) : e ∈ (hub.cleanupUser rm u).connections ↔
    e ∈ hub.connections ∧ e ∉ hub.userConnections u :=
  (foldl_forgetConnection _ hub).2.1 e

theorem connectionRooms_cleanupUser (e : String) : (hub.cleanupUser rm u).connectionRooms e =
    if e ∈ hub.userConnections u then [] else hub.connectionRooms e :=
  (foldl_forgetConnection _ hub).2.2.1 e

theorem userConnections_cleanupUser : (hub.cleanupUser rm u).userConnections =
    Function.update hub.userConnections u [] := by
  rw [cleanupUser, cleanupEmptyRooms]
  dsimp only
  rw [(foldl_forgetConnection _ hub).2.2.2.1]

theorem userSubscriptions_cleanupUser : (hub.cleanupUser rm u).userSubscriptions =
    Function.update hub.userSubscriptions u ∅ := by
  rw [cleanupUser, cleanupEmptyRooms]
  dsimp only
  rw [(foldl_forgetConnection _ hub).2.2.2.2]

theorem mem_userSubscriptions_releaseUser : d ∈ (hub.releaseUser c v).userSubscriptions u ↔
    d ∈ hub.userSubscriptions u ∧ ¬ (u = v ∧ hub.userConnections v ≠ [] ∧
      (hub.userConnections v).filter (· ≠ c) = []) := by
  rw [releaseUser]
  dsimp only
  split
  · next hlast =>
    by_cases huv : u = v
    · subst huv
      simpa using fun _ ↦ hlast
    · simp [huv]
  · next hlast => simp only [hlast, and_false, not_false_eq_true, and_true]

/-- The subscriptions of a user stay as long as another connection of the user does. -/
theorem mem_userSubscriptions_removeConnection (hr : hub.Registry) :
    d ∈ (hub.removeConnection rm c).userSubscriptions u ↔ d ∈ hub.userSubscriptions u ∧
      (hub.connectionUsers c = some u → ∃ e, e ≠ c ∧ hub.connectionUsers e = some u) := by
  have hlast : ∀ v, (hub.userConnections v).filter (· ≠ c) = [] ↔
      ¬ ∃ e, e ≠ c ∧ hub.connectionUsers e = some v := by
    intro v
    simp only [List.filter_eq_nil_iff, hr.users, decide_eq_true_eq, not_exists, not_and]
    constructor
    · exact fun h e hne he ↦ h e he hne
    · exact fun h e he hne ↦ h e hne he
  rw [removeConnection]
  cases hcu : hub.connectionUsers c with
  | none => simp [cleanupEmptyRooms, forgetConnection]
  | some v =>
    have hmem : hub.userConnections v ≠ [] := List.ne_nil_of_mem ((hr.users c v).mp hcu)
    have hrelease : d ∈ ((hub.forgetConnection rm c).releaseUser c v).userSubscriptions u ↔ _ :=
      mem_userSubscriptions_releaseUser
    refine hrelease.trans (and_congr_right fun _ ↦ ?_)
    rw [Option.some.injEq]
    constructor
    · rintro hnot rfl
      by_contra hother
      exact hnot ⟨rfl, hmem, (hlast v).mpr hother⟩
    · rintro hother ⟨rfl, -, hnil⟩
      exact (hlast u).mp hnil (hother rfl)

theorem mem_userSubscriptions_unsubscribe {f : String} :
    d ∈ (hub.unsubscribe rm c f).userSubscriptions u ↔
      d ∈ hub.userSubscriptions u ∧ ¬ (hub.connectionUsers c = some u ∧ d = f) := by
  rw [unsubscribe]
  cases hcu : hub.connectionUsers c with
  | none => simp [cleanupEmptyRooms]
  | some v =>
    by_cases huv : u = v
    · subst huv
      simp [cleanupEmptyRooms, and_comm]
    · simp [cleanupEmptyRooms, huv, Ne.symm huv]

theorem registry_new : (new rm).Registry :=
  ⟨fun c u ↦ by simp [new], fun c ↦ by simp [new]⟩

namespace Registry

theorem registerConnection (h : hub.Registry) (hfresh : hub.connectionUsers c = none) :
    (hub.registerConnection rm c u).Registry := by
  have hnot : ∀ v, c ∉ hub.userConnections v := by
    intro v hv
    rw [← h.users, hfresh] at hv
    cases hv
  constructor
  · intro e v
    by_cases he : e = c
    · subst he
      by_cases hv : v = u
      · subst hv
        simp [WsBroadcaster.registerConnection]
      · simp [WsBroadcaster.registerConnection, hv, hnot v, Ne.symm hv]
    · by_cases hv : v = u
      · subst hv
        simp [WsBroadcaster.registerConnection, he, h.users]
      · simp [WsBroadcaster.registerConnection, he, hv, h.users]
  · intro e
    by_cases he : e = c
    · subst he
      simp [WsBroadcaster.registerConnection]
    · simp [WsBroadcaster.registerConnection, he, h.tracked]

theorem removeConnection (h : hub.Registry) : (hub.removeConnection rm c).Registry := by
  constructor
  · intro e v
    rw [connectionUsers_removeConnection, userConnections_removeConnection]
    by_cases he : e = c
    · subst he
      have hout : ∀ w, hub.connectionUsers e ≠ some w → e ∉ hub.userConnections w :=
        fun w hw ↦ fun hin ↦ hw ((h.users e w).mpr hin)
      cases hu : hub.connectionUsers e with
      | none => simp [hout v (by simp [hu])]
      | some w =>
        by_cases hv : v = w
        · subst hv
          simp
        · simp [hv, hout v (by simp [hu, Ne.symm hv])]
    · cases hu : hub.connectionUsers c with
      | none => simp [he, h.users]
      | some w =>
        by_cases hv : v = w
        · subst hv
          simp [he, h.users]
        · simp [he, hv, h.users]
  · intro e
    by_cases he : e = c
    · subst he
      simp
    · simp [he, h.tracked]

theorem cleanupUser (h : hub.Registry) : (hub.cleanupUser rm u).Registry := by
  constructor
  · intro e v
    rw [connectionUsers_cleanupUser, userConnections_cleanupUser]
    by_cases hv : v = u
    · subst hv
      by_cases he : e ∈ hub.userConnections v
      · simp [he]
      · simp [he, h.users]
    · by_cases he : e ∈ hub.userConnections u
      · have hne : e ∉ hub.userConnections v := by
          intro hin
          have hu := (h.users e u).mpr he
          rw [(h.users e v).mpr hin] at hu
          exact hv (Option.some.inj hu)
        simp [he, hv, hne]
      · simp [he, hv, h.users]
  · intro e
    rw [mem_connections_cleanupUser, connectionUsers_cleanupUser, h.tracked]
    by_cases he : e ∈ hub.userConnections u <;> simp [he]

theorem subscribe (h : hub.Registry) : (hub.subscribe rm c u d).Registry :=
  ⟨by simpa using h.users, by simpa using h.tracked⟩

theorem unsubscribe (h : hub.Registry) : (hub.unsubscribe rm c d).Registry :=
  ⟨by simpa using h.users, by simpa using h.tracked⟩

end Registry

end WsBroadcaster

end ReinhardtCloud.Dashboard
