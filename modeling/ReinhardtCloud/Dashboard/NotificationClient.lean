import ReinhardtCloud.Base.Paging
import ReinhardtCloud.Base.Retries
import ReinhardtCloud.Dashboard.Manifest
import ReinhardtCloud.Dashboard.Permissions

/-!
# The browser's notification connection

Library `Dashboard`. `shared/client/ws.rs`: the thread-local state of the client, the sockets and
timers that the browser keeps for it, and what a page, a socket or a timer does next. The order in
which a `HashSet` is iterated is an argument. What an incoming message does to the page is left out.
-/

namespace ReinhardtCloud.Dashboard

open ReinhardtCloud.Base

deriving instance DecidableEq for WsClientMessage

/-- The deployments that a message names. -/
def WsClientMessage.deployments : WsClientMessage → List String
  | .subscribe deploymentIds => deploymentIds
  | .unsubscribe deploymentIds => deploymentIds
  | .subscribeBuildLogs _ => []
  | .subscribeAppLogs deploymentId => [deploymentId]
  | .unsubscribeLogs => []

/-- `WebSocket.readyState`. -/
inductive ReadyState where
  | connecting
  | opened
  | closing
  | closed
  deriving DecidableEq

/-- A socket of the page, and whether the callbacks of its `NotificationConnection` are set. -/
structure ClientSocket where
  readyState : ReadyState
  callbacks : Bool
  deriving DecidableEq

/-- Dropping a `NotificationConnection`, `ws.rs:54–62`. -/
def ClientSocket.drop (socket : ClientSocket) : ClientSocket where
  readyState := if socket.readyState = .closed then .closed else .closing
  callbacks := false

/-- The thread-local state of `ws.rs:36–43`, and what the browser keeps: the sockets that were
made, the timers that are to fire, and what was sent over which socket, oldest first. -/
structure NotificationClient where
  subscribedIds : List String
  appLogDeploymentId : Option String
  reconnectAttempts : Nat
  currentWs : Option Nat
  reconnectTimeout : Option Nat
  notificationsEnabled : Bool
  sockets : List ClientSocket
  timers : List Nat
  nextTimer : Nat
  sent : List (Nat × WsClientMessage)
  deriving DecidableEq

/-- `MAX_RECONNECT_ATTEMPTS`, `ws.rs:65`. -/
def maxReconnectAttempts : Nat := 10

/-- `should_connect_notifications_for_path`, `ws.rs:69–71`. -/
def shouldConnectNotificationsForPath (path : String) : Bool :=
  path = "/" || path = "/clusters" || path = "/deployments"

/-- What happens next at a page. The flags say whether `WebSocket::new` makes a socket. -/
inductive ClientAction where
  | visit (path : String) (made : Bool)
  | leave
  | track (deploymentIds : List String)
  | selectLogs (deploymentId : String) (made : Bool)
  | unselectLogs
  | socketOpens (i : Nat) (order : List String)
  | socketCloses (i : Nat)
  | timerFires (timer : Nat) (made : Bool)
  deriving DecidableEq

/-- The deployments that a page names. -/
def ClientAction.deployments : ClientAction → List String
  | .track deploymentIds => deploymentIds
  | .selectLogs deploymentId _ => [trim deploymentId]
  | _ => []

namespace NotificationClient

/-- A page that was just loaded. -/
def init : NotificationClient where
  subscribedIds := []
  appLogDeploymentId := none
  reconnectAttempts := 0
  currentWs := none
  reconnectTimeout := none
  notificationsEnabled := false
  sockets := []
  timers := []
  nextTimer := 0
  sent := []

variable (c : NotificationClient)

/-- `RECONNECT_TIMEOUT` is taken: its `Timeout` is dropped and does not fire. -/
def takeTimeout : NotificationClient :=
  { c with
    reconnectTimeout := none
    timers := c.timers.filter fun timer ↦ some timer ≠ c.reconnectTimeout }

/-- `CURRENT_WS` is taken and dropped. -/
def takeCurrent : NotificationClient :=
  match c.currentWs with
  | none => c
  | some i => { c with currentWs := none, sockets := c.sockets.modify i ClientSocket.drop }

/-- `connect_notifications`, `ws.rs:84–164`. -/
def connectNotifications (made : Bool) : NotificationClient :=
  if c.notificationsEnabled then
    let c := c.takeTimeout.takeCurrent
    if made then
      { c with currentWs := some c.sockets.length, sockets := c.sockets ++ [⟨.connecting, true⟩] }
    else c
  else c

/-- The ready state of the socket in `CURRENT_WS`. -/
def currentState : Option ReadyState :=
  c.currentWs.bind fun i ↦ (c.sockets[i]?).map (·.readyState)

/-- `on_open`, `ws.rs:109–133`: a message for each chunk of the ids, and one for the log. -/
def resubscription (order : List String) : List WsClientMessage :=
  ((List.range (pageCount order.length maxSubscriptionsPerUser)).map fun k ↦
    .subscribe (slice maxSubscriptionsPerUser k order)) ++
  c.appLogDeploymentId.toList.map .subscribeAppLogs

/-- `on_open`. -/
def onOpen (i : Nat) (order : List String) : NotificationClient :=
  { c with
    reconnectAttempts := 0
    sent := c.sent ++ (c.resubscription order).map (i, ·) }

/-- `on_close`, `ws.rs:148–162`. -/
def onClose : NotificationClient :=
  let c := { c with reconnectAttempts := c.reconnectAttempts + 1 }
  if c.reconnectAttempts ≤ maxReconnectAttempts ∧ c.notificationsEnabled then
    let c := c.takeTimeout
    { c with
      reconnectTimeout := some c.nextTimer
      timers := c.timers ++ [c.nextTimer]
      nextTimer := c.nextTimer + 1 }
  else c

/-- `ensure_notifications_connected`, `ws.rs:177–183`. -/
def ensureNotificationsConnected (made : Bool) : NotificationClient :=
  let c := { c with notificationsEnabled := true }
  if c.currentWs.isSome then c else c.connectNotifications made

/-- `disconnect_notifications`, `ws.rs:194–201`. -/
def disconnectNotifications : NotificationClient :=
  let c := { c with notificationsEnabled := false }.takeTimeout.takeCurrent
  { c with subscribedIds := [], appLogDeploymentId := none, reconnectAttempts := 0 }

/-- `track_subscriptions`, `ws.rs:209–216`. -/
def trackSubscriptions (deploymentIds : List String) : NotificationClient :=
  { c with subscribedIds := deploymentIds.foldl (fun ids id ↦ ids.insert id) c.subscribedIds }

/-- A message goes out if the socket in `CURRENT_WS` is open. -/
def sendIfOpen (message : WsClientMessage) : NotificationClient :=
  if c.currentState = some .opened then
    { c with sent := c.sent ++ c.currentWs.toList.map (·, message) }
  else c

/-- `unsubscribe_logs`, `ws.rs:246–258`. -/
def unsubscribeLogs : NotificationClient :=
  { c with appLogDeploymentId := none }.sendIfOpen .unsubscribeLogs

/-- `subscribe_app_logs`, `ws.rs:220–244`. -/
def subscribeAppLogs (deploymentId : String) (made : Bool) : NotificationClient :=
  let deploymentId := trim deploymentId
  if deploymentId = "" then c.unsubscribeLogs
  else
    let c := { c with appLogDeploymentId := some deploymentId }
    (c.ensureNotificationsConnected made).sendIfOpen (.subscribeAppLogs deploymentId)

/-- A socket changes its ready state. -/
def setState (i : Nat) (socket : ClientSocket) (state : ReadyState) : NotificationClient :=
  { c with sockets := c.sockets.set i { socket with readyState := state } }

/-- One step. A callback runs only while it is set. -/
def step (c : NotificationClient) : ClientAction → Option NotificationClient
  | .visit path made =>
    some (if shouldConnectNotificationsForPath path then c.ensureNotificationsConnected made else c)
  | .leave => some c.disconnectNotifications
  | .track deploymentIds => some (c.trackSubscriptions deploymentIds)
  | .selectLogs deploymentId made => some (c.subscribeAppLogs deploymentId made)
  | .unselectLogs => some c.unsubscribeLogs
  | .socketOpens i order =>
    match c.sockets[i]? with
    | none => none
    | some socket =>
      if socket.readyState = .connecting then
        let c := c.setState i socket .opened
        if socket.callbacks then
          if order.Perm c.subscribedIds then some (c.onOpen i order) else none
        else some c
      else none
  | .socketCloses i =>
    match c.sockets[i]? with
    | none => none
    | some socket =>
      if socket.readyState = .closed then none
      else
        let c := c.setState i socket .closed
        some (if socket.callbacks then c.onClose else c)
  | .timerFires timer made =>
    if timer ∈ c.timers then
      some ({ c with timers := c.timers.filter (· ≠ timer) }.connectNotifications made)
    else none

/-! ## How the connection stands -/

/-- The connection of the client, as a link that is retried. -/
def link : Link :=
  if c.notificationsEnabled then
    match c.currentWs with
    | none => .unconnected c.reconnectAttempts
    | some _ =>
      if c.currentState = some .closed then
        if c.reconnectTimeout.isSome then .waiting c.reconnectAttempts
        else .exhausted c.reconnectAttempts
      else .live c.reconnectAttempts
  else .off

/-- What an action is to the link. -/
def event : ClientAction → Option LinkEvent
  | .visit path made =>
    if shouldConnectNotificationsForPath path then some (.wanted made) else none
  | .leave => some .left
  | .selectLogs deploymentId made => if trim deploymentId = "" then none else some (.wanted made)
  | .socketOpens i _ => if c.currentWs = some i then some .opened else none
  | .socketCloses i => if c.currentWs = some i then some .lost else none
  | .timerFires _ made => some (.retried made)
  | _ => none

/-- What the thread-local state says about the browser. -/
structure Inv : Prop where
  current : ∀ i, c.currentWs = some i → i < c.sockets.length
  callbacks : ∀ i socket, c.sockets[i]? = some socket →
    (socket.callbacks = true ↔ c.currentWs = some i)
  timers : c.timers = c.reconnectTimeout.toList
  off : c.notificationsEnabled = false →
    c.currentWs = none ∧ c.reconnectTimeout = none ∧ c.reconnectAttempts = 0
  waiting : c.reconnectTimeout.isSome → c.currentState = some .closed
  nodup : c.subscribedIds.Nodup

theorem inv_init : init.Inv where
  current i h := by cases h
  callbacks i socket h := by cases h
  timers := rfl
  off _ := ⟨rfl, rfl, rfl⟩
  waiting h := by cases h
  nodup := List.nodup_nil

/-- What an action has done to the link, and how many sockets it has made. -/
structure Follows (c d : NotificationClient) (event : Option LinkEvent) : Prop where
  inv : d.Inv
  link : event.elim (some c.link) (c.link.next maxReconnectAttempts) = some d.link
  sockets : d.sockets.length = c.sockets.length + (event.elim false c.link.connects).toNat

variable {c d : NotificationClient} {i : Nat} {socket : ClientSocket} {made : Bool}

theorem currentState_of_getElem? (hcurrent : c.currentWs = some i)
    (hsocket : c.sockets[i]? = some socket) : c.currentState = some socket.readyState := by
  rw [currentState, hcurrent, Option.bind_some, hsocket]
  rfl

/-- A client that has a connection is enabled. -/
theorem Inv.enabled (h : c.Inv) (hcurrent : c.currentWs = some i) :
    c.notificationsEnabled = true := by
  by_contra hoff
  have hnone := (h.off (Bool.eq_false_of_not_eq_true hoff)).1
  rw [hnone] at hcurrent
  cases hcurrent

theorem Inv.no_timeout (h : c.Inv) (hopen : c.currentState ≠ some .closed) :
    c.reconnectTimeout = none := by
  cases htimeout : c.reconnectTimeout with
  | none => rfl
  | some timer =>
    have hclosed := h.waiting (by rw [htimeout]; rfl)
    exact absurd hclosed hopen

theorem link_of_none (c : NotificationClient) (hon : c.notificationsEnabled = true)
    (hcurrent : c.currentWs = none) :
    c.link = .unconnected c.reconnectAttempts := by
  simp only [link, hon, hcurrent, if_true]

theorem link_of_open (c : NotificationClient) (hon : c.notificationsEnabled = true)
    (hcurrent : c.currentWs = some i) (hstate : c.currentState ≠ some .closed) :
      c.link = .live c.reconnectAttempts := by
  simp only [link, hon, hcurrent, if_true, if_neg hstate]

theorem link_of_closed (c : NotificationClient) (hon : c.notificationsEnabled = true)
    (hcurrent : c.currentWs = some i) (hstate : c.currentState = some .closed) :
    c.link = if c.reconnectTimeout.isSome then .waiting c.reconnectAttempts
      else .exhausted c.reconnectAttempts := by
  simp only [link, hon, hcurrent, if_true, hstate]

theorem link_of_off (c : NotificationClient) (hoff : c.notificationsEnabled = false) :
    c.link = .off := by
  simp [link, hoff]

/-! ## What each operation does -/

/-- Messages and tracked ids say nothing about the link. -/
theorem Inv.follows_messages (h : c.Inv) {ids : List String} (appLog : Option String)
    (sent : List (Nat × WsClientMessage)) (hids : ids.Nodup) :
    c.Follows { c with subscribedIds := ids, appLogDeploymentId := appLog, sent := sent } none where
  inv := ⟨h.current, h.callbacks, h.timers, h.off, h.waiting, hids⟩
  link := rfl
  sockets := rfl

theorem sendIfOpen_eq (c : NotificationClient) (message : WsClientMessage) :
    ∃ sent, c.sendIfOpen message = { c with sent := sent } := by
  rw [sendIfOpen]
  split
  · exact ⟨_, rfl⟩
  · exact ⟨c.sent, rfl⟩

theorem Follows.sendIfOpen {event : Option LinkEvent} (h : c.Follows d event)
    (message : WsClientMessage) : c.Follows (d.sendIfOpen message) event := by
  obtain ⟨sent, hsent⟩ := sendIfOpen_eq d message
  rw [hsent]
  have hinv := h.inv.follows_messages d.appLogDeploymentId sent h.inv.nodup
  exact ⟨hinv.inv, h.link, h.sockets⟩

/-- What is enough for a connection to be made. -/
structure Loose (c : NotificationClient) : Prop where
  current : ∀ i, c.currentWs = some i → i < c.sockets.length
  callbacks : ∀ i socket, c.sockets[i]? = some socket →
    (socket.callbacks = true ↔ c.currentWs = some i)
  timers : ∀ timer ∈ c.timers, c.reconnectTimeout = some timer
  nodup : c.subscribedIds.Nodup

theorem Inv.loose (h : c.Inv) : c.Loose where
  current := h.current
  callbacks := h.callbacks
  timers timer htimer := by
    rw [h.timers] at htimer
    exact Option.mem_toList.mp htimer
  nodup := h.nodup

/-- With its connection and its timer dropped, a client has neither. -/
theorem Loose.drop (h : c.Loose) :
    ∃ sockets, c.takeTimeout.takeCurrent =
        { c with currentWs := none, reconnectTimeout := none, timers := [], sockets := sockets } ∧
      sockets.length = c.sockets.length ∧
      ∀ (j : Nat) socket, sockets[j]? = some socket → socket.callbacks = false := by
  have htimers : c.timers.filter (fun timer ↦ some timer ≠ c.reconnectTimeout) = [] := by
    apply List.filter_eq_nil_iff.mpr
    intro timer htimer
    simp [h.timers timer htimer]
  cases hcurrent : c.currentWs with
  | none =>
    refine ⟨c.sockets, ?_, rfl, ?_⟩
    · simp only [takeTimeout, takeCurrent, hcurrent, htimers]
    · intro j socket hsocket
      apply Bool.eq_false_of_not_eq_true
      intro hset
      have hsome := (h.callbacks j socket hsocket).mp hset
      rw [hcurrent] at hsome
      cases hsome
  | some i =>
    refine ⟨c.sockets.modify i ClientSocket.drop, ?_, List.length_modify .., ?_⟩
    · simp only [takeTimeout, takeCurrent, hcurrent, htimers]
    · intro j socket hsocket
      rw [List.getElem?_modify] at hsocket
      obtain ⟨old, hold, rfl⟩ := Option.map_eq_some_iff.mp hsocket
      by_cases hj : i = j
      · rw [if_pos hj]
        rfl
      · rw [if_neg hj]
        apply Bool.eq_false_of_not_eq_true
        intro hset
        have hsome := (h.callbacks j old hold).mp hset
        rw [hcurrent] at hsome
        exact hj (Option.some.inj hsome)

theorem Loose.connect (h : c.Loose) (hon : c.notificationsEnabled = true) (made : Bool) :
    (c.connectNotifications made).Inv ∧
      (c.connectNotifications made).link = Link.attempt c.reconnectAttempts made ∧
      (c.connectNotifications made).sockets.length = c.sockets.length + made.toNat := by
  obtain ⟨sockets, hdrop, hlength, hcallbacks⟩ := h.drop
  rw [connectNotifications, if_pos hon, hdrop]
  cases made with
  | false =>
    refine ⟨⟨?_, ?_, rfl, ?_, ?_, h.nodup⟩, link_of_none _ hon rfl, hlength⟩
    · intro i hi
      cases hi
    · intro i socket hsocket
      simp [hcallbacks i socket hsocket]
    · intro hoff
      rw [hon] at hoff
      cases hoff
    · intro hsome
      cases hsome
  | true =>
    have hnew : (sockets ++ [(⟨.connecting, true⟩ : ClientSocket)])[sockets.length]? =
        some ⟨.connecting, true⟩ := by
      simp
    refine ⟨⟨?_, ?_, rfl, ?_, ?_, h.nodup⟩, ?_, ?_⟩
    · intro i hi
      obtain rfl := Option.some.inj hi
      simp
    · intro i socket hsocket
      rcases Nat.lt_trichotomy i sockets.length with hlt | rfl | hlt
      · rw [if_pos rfl, List.getElem?_append_left hlt] at hsocket
        rw [hcallbacks i socket hsocket]
        have hne : sockets.length ≠ i := by omega
        simp [hne]
      · rw [if_pos rfl, hnew] at hsocket
        cases hsocket
        simp
      · rw [if_pos rfl, List.getElem?_eq_none (by simp; omega)] at hsocket
        cases hsocket
    · intro hoff
      rw [hon] at hoff
      cases hoff
    · intro hsome
      cases hsome
    · have hcurrent : (some sockets.length) = some sockets.length := rfl
      refine link_of_open _ hon hcurrent ?_
      rw [currentState_of_getElem? hcurrent hnew]
      decide
    · rw [if_pos rfl, List.length_append, hlength]
      rfl

/-- A client that has a connection does not ask for another. -/
theorem next_wanted (hon : c.notificationsEnabled = true) (hcurrent : c.currentWs = some i)
    (made : Bool) :
    c.link.next maxReconnectAttempts (.wanted made) = some c.link ∧
      c.link.connects (.wanted made) = false := by
  by_cases hclosed : c.currentState = some .closed
  · rw [link_of_closed _ hon hcurrent hclosed]
    split
    · exact ⟨rfl, rfl⟩
    · exact ⟨rfl, rfl⟩
  · rw [link_of_open _ hon hcurrent hclosed]
    exact ⟨rfl, rfl⟩

theorem Inv.follows_ensure (h : c.Inv) (made : Bool) :
    c.Follows (c.ensureNotificationsConnected made) (some (.wanted made)) := by
  cases hcurrent : c.currentWs with
  | some i =>
    have hon := h.enabled hcurrent
    have hsame : c.ensureNotificationsConnected made = c := by
      rw [ensureNotificationsConnected, if_pos (by rw [hcurrent]; rfl), ← hon]
    obtain ⟨hnext, hconnects⟩ := next_wanted hon hcurrent made
    rw [hsame]
    refine ⟨h, hnext, ?_⟩
    rw [Option.elim_some, hconnects]
    rfl
  | none =>
    have hloose : { c with notificationsEnabled := true }.Loose :=
      ⟨h.current, h.callbacks, h.loose.timers, h.nodup⟩
    have hconnect : c.ensureNotificationsConnected made =
        { c with notificationsEnabled := true }.connectNotifications made := by
      rw [ensureNotificationsConnected, if_neg (by rw [hcurrent]; decide)]
    obtain ⟨hinv, hlink, hsockets⟩ := hloose.connect rfl made
    rw [hconnect]
    refine ⟨hinv, ?_, ?_⟩
    · rw [hlink]
      cases hon : c.notificationsEnabled with
      | true =>
        rw [link_of_none _ hon hcurrent]
        rfl
      | false =>
        rw [link_of_off _ hon, (h.off hon).2.2]
        rfl
    · rw [hsockets]
      cases hon : c.notificationsEnabled with
      | true =>
        rw [link_of_none _ hon hcurrent]
        rfl
      | false =>
        rw [link_of_off _ hon]
        rfl

/-- What a client has after it left. -/
theorem Inv.disconnect_eq (h : c.Inv) :
    ∃ sockets, c.disconnectNotifications =
        { c with
          subscribedIds := []
          appLogDeploymentId := none
          reconnectAttempts := 0
          currentWs := none
          reconnectTimeout := none
          notificationsEnabled := false
          sockets := sockets
          timers := [] } ∧
      sockets.length = c.sockets.length ∧
      ∀ (j : Nat) socket, sockets[j]? = some socket → socket.callbacks = false := by
  have hloose : { c with notificationsEnabled := false }.Loose :=
    ⟨h.current, h.callbacks, h.loose.timers, h.nodup⟩
  obtain ⟨sockets, hdrop, hrest⟩ := hloose.drop
  refine ⟨sockets, ?_, hrest⟩
  rw [disconnectNotifications, hdrop]

theorem Inv.follows_disconnect (h : c.Inv) : c.Follows c.disconnectNotifications (some .left) := by
  obtain ⟨sockets, hleft, hlength, hcallbacks⟩ := h.disconnect_eq
  rw [hleft]
  refine ⟨⟨?_, ?_, rfl, fun _ ↦ ⟨rfl, rfl, rfl⟩, ?_, List.nodup_nil⟩, rfl, ?_⟩
  · intro i hi
    cases hi
  · intro i socket hsocket
    simp [hcallbacks i socket hsocket]
  · intro hsome
    cases hsome
  · show sockets.length = _
    rw [hlength]
    cases c.link <;> rfl

theorem Inv.follows_track (h : c.Inv) (deploymentIds : List String) :
    c.Follows (c.trackSubscriptions deploymentIds) none := by
  apply h.follows_messages
  have hnodup := h.nodup
  generalize c.subscribedIds = ids at hnodup
  induction deploymentIds generalizing ids with
  | nil => exact hnodup
  | cons id rest ih => exact ih (ids.insert id) hnodup.insert

theorem Inv.follows_unsubscribeLogs (h : c.Inv) : c.Follows c.unsubscribeLogs none :=
  (h.follows_messages _ _ h.nodup).sendIfOpen .unsubscribeLogs

theorem Inv.follows_subscribeAppLogs (h : c.Inv) (deploymentId : String) (made : Bool) :
    c.Follows (c.subscribeAppLogs deploymentId made)
      (c.event (.selectLogs deploymentId made)) := by
  rw [subscribeAppLogs, event]
  by_cases hempty : trim deploymentId = ""
  · rw [if_pos hempty, if_pos hempty]
    exact h.follows_unsubscribeLogs
  · rw [if_neg hempty, if_neg hempty]
    have hselect : c.Follows { c with appLogDeploymentId := some (trim deploymentId) } none :=
      h.follows_messages _ _ h.nodup
    have hensure := hselect.inv.follows_ensure made
    have hfollows : c.Follows ({ c with appLogDeploymentId := some (trim deploymentId) }
        |>.ensureNotificationsConnected made) (some (.wanted made)) :=
      ⟨hensure.inv, hensure.link, hensure.sockets⟩
    exact hfollows.sendIfOpen _

/-! ## What a socket and a timer do -/

theorem getElem?_setState {state : ReadyState} (hsocket : c.sockets[i]? = some socket) (j : Nat) :
    (c.setState i socket state).sockets[j]? =
      if i = j then some { socket with readyState := state } else c.sockets[j]? := by
  rw [setState, List.getElem?_set]
  by_cases hj : i = j
  · rw [if_pos hj, if_pos hj, if_pos (List.getElem?_eq_some_iff.mp hsocket).1]
  · rw [if_neg hj, if_neg hj]

theorem Inv.callbacks_setState (h : c.Inv) {state : ReadyState}
    (hsocket : c.sockets[i]? = some socket) (j : Nat) (other : ClientSocket)
    (hother : (c.setState i socket state).sockets[j]? = some other) :
    other.callbacks = true ↔ c.currentWs = some j := by
  rw [getElem?_setState hsocket] at hother
  by_cases hj : i = j
  · rw [if_pos hj] at hother
    cases hother
    rw [← hj]
    exact h.callbacks i socket hsocket
  · rw [if_neg hj] at hother
    exact h.callbacks j other hother

theorem currentState_setState {state : ReadyState} (hsocket : c.sockets[i]? = some socket) :
    (c.setState i socket state).currentState =
      if c.currentWs = some i then some state else c.currentState := by
  cases hcurrent : c.currentWs with
  | none =>
    rw [if_neg (by simp), currentState, currentState, hcurrent]
    show Option.bind c.currentWs _ = _
    rw [hcurrent]
    rfl
  | some j =>
    show Option.bind c.currentWs _ = _
    rw [hcurrent, Option.bind_some, getElem?_setState hsocket, currentState, hcurrent]
    by_cases hj : i = j
    · rw [if_pos hj, if_pos (by rw [hj])]
      rfl
    · rw [if_neg hj, if_neg (fun heq ↦ hj (Option.some.inj heq).symm)]
      rfl

/-- A socket that the client has dropped does nothing to it. -/
theorem Inv.follows_dropped (h : c.Inv) {state : ReadyState}
    (hsocket : c.sockets[i]? = some socket) (hdropped : c.currentWs ≠ some i) :
    c.Follows (c.setState i socket state) none := by
  have hstate : (c.setState i socket state).currentState = c.currentState := by
    rw [currentState_setState hsocket, if_neg hdropped]
  refine ⟨⟨?_, h.callbacks_setState hsocket, h.timers, h.off, ?_, h.nodup⟩, ?_, ?_⟩
  · intro j hj
    rw [setState, List.length_set]
    exact h.current j hj
  · intro hsome
    rw [hstate]
    exact h.waiting hsome
  · show some c.link = some (c.setState i socket state).link
    rw [link, link, hstate]
    rfl
  · rw [setState, List.length_set]
    rfl

theorem Inv.follows_open (h : c.Inv) (hsocket : c.sockets[i]? = some socket)
    (hcurrent : c.currentWs = some i) (hstate : socket.readyState = .connecting)
    (order : List String) :
    c.Follows ((c.setState i socket .opened).onOpen i order) (some .opened) := by
  have hon := h.enabled hcurrent
  have hbefore : c.currentState ≠ some .closed := by
    rw [currentState_of_getElem? hcurrent hsocket, hstate]
    decide
  have hafter : (c.setState i socket .opened).currentState = some .opened := by
    rw [currentState_setState hsocket, if_pos hcurrent]
  refine ⟨⟨?_, h.callbacks_setState hsocket, h.timers, ?_, ?_, h.nodup⟩, ?_, ?_⟩
  · intro j hj
    show j < (c.sockets.set i _).length
    rw [List.length_set]
    exact h.current j hj
  · intro hoff
    exact absurd (hon.symm.trans hoff) (by decide)
  · intro hsome
    have hnone := h.no_timeout hbefore
    exact absurd (congrArg Option.isSome hnone ▸ hsome) (by decide)
  · rw [link_of_open _ hon hcurrent hbefore]
    have hlink : ((c.setState i socket .opened).onOpen i order).link = .live 0 :=
      link_of_open _ hon hcurrent (fun hclosed ↦ by
        have hcontra : (c.setState i socket .opened).currentState = some .closed := hclosed
        rw [hafter] at hcontra
        cases hcontra)
    rw [hlink]
    rfl
  · rw [link_of_open _ hon hcurrent hbefore]
    exact List.length_set ..

theorem Inv.follows_close (h : c.Inv) (hsocket : c.sockets[i]? = some socket)
    (hcurrent : c.currentWs = some i) (hstate : socket.readyState ≠ .closed) :
    c.Follows (c.setState i socket .closed).onClose (some .lost) := by
  have hon := h.enabled hcurrent
  have hbefore : c.currentState ≠ some .closed := by
    rw [currentState_of_getElem? hcurrent hsocket]
    exact fun heq ↦ hstate (Option.some.inj heq)
  have hafter : (c.setState i socket .closed).currentState = some .closed := by
    rw [currentState_setState hsocket, if_pos hcurrent]
  have hnone := h.no_timeout hbefore
  have htimers : c.timers = [] := by
    rw [h.timers, hnone]
    rfl
  have hlength : (c.setState i socket .closed).sockets.length = c.sockets.length :=
    List.length_set ..
  have hrange : ∀ j, c.currentWs = some j → j < (c.setState i socket .closed).sockets.length := by
    intro j hj
    rw [hlength]
    exact h.current j hj
  have hlink := link_of_open _ hon hcurrent hbefore
  by_cases hagain : c.reconnectAttempts + 1 ≤ maxReconnectAttempts
  · have hclose : (c.setState i socket .closed).onClose =
        { c.setState i socket .closed with
          reconnectAttempts := c.reconnectAttempts + 1
          reconnectTimeout := some c.nextTimer
          timers := [c.nextTimer]
          nextTimer := c.nextTimer + 1 } := by
      simp only [onClose, setState, takeTimeout, hagain, hon, htimers, and_self, if_true,
        List.filter_nil, List.nil_append]
    rw [hclose]
    refine ⟨⟨hrange, h.callbacks_setState hsocket, rfl, ?_, fun _ ↦ hafter, h.nodup⟩, ?_, ?_⟩
    · intro hoff
      exact absurd (hon.symm.trans hoff) (by decide)
    · have hwaiting := link_of_closed { c.setState i socket .closed with
          reconnectAttempts := c.reconnectAttempts + 1
          reconnectTimeout := some c.nextTimer
          timers := [c.nextTimer]
          nextTimer := c.nextTimer + 1 } hon hcurrent hafter
      rw [hwaiting, hlink]
      exact if_pos hagain
    · rw [hlink]
      exact hlength
  · have hclose : (c.setState i socket .closed).onClose =
        { c.setState i socket .closed with
          reconnectAttempts := c.reconnectAttempts + 1 } := by
      simp only [onClose, setState, hagain, false_and, if_false]
    rw [hclose]
    refine ⟨⟨hrange, h.callbacks_setState hsocket, h.timers, ?_, fun _ ↦ hafter, h.nodup⟩, ?_,
      ?_⟩
    · intro hoff
      exact absurd (hon.symm.trans hoff) (by decide)
    · have hnoTimer : ¬ c.reconnectTimeout.isSome := by
        rw [hnone]
        decide
      have hexhausted := link_of_closed { c.setState i socket .closed with
          reconnectAttempts := c.reconnectAttempts + 1 } hon hcurrent hafter
      rw [hexhausted.trans (if_neg hnoTimer), hlink]
      exact if_neg hagain
    · rw [hlink]
      exact hlength

theorem Inv.follows_fire (h : c.Inv) {timer : Nat} (htimer : timer ∈ c.timers) (made : Bool) :
    c.Follows ({ c with timers := c.timers.filter (· ≠ timer) }.connectNotifications made)
      (some (.retried made)) := by
  have hpending : c.reconnectTimeout = some timer := h.loose.timers timer htimer
  have hclosed : c.currentState = some .closed := h.waiting (by rw [hpending]; rfl)
  have hloose : { c with timers := c.timers.filter (· ≠ timer) }.Loose :=
    ⟨h.current, h.callbacks, fun t ht ↦ h.loose.timers t (List.mem_filter.mp ht).1, h.nodup⟩
  obtain ⟨i, hcurrent, -⟩ := Option.bind_eq_some_iff.mp hclosed
  have hon := h.enabled hcurrent
  have hlink : c.link = .waiting c.reconnectAttempts := by
    rw [link_of_closed _ hon hcurrent hclosed, hpending]
    rfl
  obtain ⟨hinv, hconnected, hsockets⟩ := hloose.connect hon made
  refine ⟨hinv, ?_, ?_⟩
  · rw [hlink, hconnected]
    rfl
  · rw [hlink, hsockets]
    rfl

/-- A socket opens; the client hears of it if it has not dropped the socket. -/
theorem step_socketOpens {order : List String} (ha : step c (.socketOpens i order) = some d) :
    ∃ socket, c.sockets[i]? = some socket ∧ socket.readyState = .connecting ∧
      (socket.callbacks = true ∧ order.Perm c.subscribedIds ∧
          d = (c.setState i socket .opened).onOpen i order ∨
        socket.callbacks = false ∧ d = c.setState i socket .opened) := by
  rw [step] at ha
  cases hsocket : c.sockets[i]? with
  | none =>
    rw [hsocket] at ha
    cases ha
  | some socket =>
    rw [hsocket] at ha
    refine ⟨socket, rfl, ?_⟩
    by_cases hstate : socket.readyState = .connecting
    · refine ⟨hstate, ?_⟩
      simp only [hstate, if_true] at ha
      cases hset : socket.callbacks with
      | false =>
        rw [hset] at ha
        exact .inr ⟨rfl, (Option.some.inj ha).symm⟩
      | true =>
        rw [hset] at ha
        by_cases horder : order.Perm c.subscribedIds
        · have horder' : order.Perm (c.setState i socket .opened).subscribedIds := horder
          simp only [if_true, if_pos horder'] at ha
          exact .inl ⟨rfl, horder, (Option.some.inj ha).symm⟩
        · have horder' : ¬ order.Perm (c.setState i socket .opened).subscribedIds := horder
          simp only [if_true, if_neg horder'] at ha
          cases ha
    · simp only [hstate, if_false] at ha
      cases ha

/-- A socket closes; the client hears of it if it has not dropped the socket. -/
theorem step_socketCloses (ha : step c (.socketCloses i) = some d) :
    ∃ socket, c.sockets[i]? = some socket ∧ socket.readyState ≠ .closed ∧
      (socket.callbacks = true ∧ d = (c.setState i socket .closed).onClose ∨
        socket.callbacks = false ∧ d = c.setState i socket .closed) := by
  rw [step] at ha
  cases hsocket : c.sockets[i]? with
  | none =>
    rw [hsocket] at ha
    cases ha
  | some socket =>
    rw [hsocket] at ha
    refine ⟨socket, rfl, ?_⟩
    by_cases hstate : socket.readyState = .closed
    · simp only [hstate, if_true] at ha
      cases ha
    · refine ⟨hstate, ?_⟩
      simp only [hstate, if_false] at ha
      cases hset : socket.callbacks with
      | false =>
        rw [hset] at ha
        exact .inr ⟨rfl, (Option.some.inj ha).symm⟩
      | true =>
        rw [hset] at ha
        exact .inl ⟨rfl, (Option.some.inj ha).symm⟩

/-- What a step does to the link is what its event does. -/
theorem Inv.follows_step (h : c.Inv) {a : ClientAction} (ha : step c a = some d) :
    c.Follows d (c.event a) := by
  cases a with
  | visit path made =>
    obtain rfl := Option.some.inj ha
    rw [event]
    by_cases hpath : shouldConnectNotificationsForPath path
    · rw [if_pos hpath, if_pos hpath]
      exact h.follows_ensure made
    · rw [if_neg hpath, if_neg hpath]
      exact h.follows_messages _ _ h.nodup
  | leave =>
    obtain rfl := Option.some.inj ha
    exact h.follows_disconnect
  | track deploymentIds =>
    obtain rfl := Option.some.inj ha
    exact h.follows_track deploymentIds
  | selectLogs deploymentId made =>
    obtain rfl := Option.some.inj ha
    exact h.follows_subscribeAppLogs deploymentId made
  | unselectLogs =>
    obtain rfl := Option.some.inj ha
    exact h.follows_unsubscribeLogs
  | socketOpens i order =>
    obtain ⟨socket, hsocket, hstate, hopened⟩ := step_socketOpens ha
    have hcalls := h.callbacks i socket hsocket
    rw [event]
    rcases hopened with ⟨hset, -, rfl⟩ | ⟨hunset, rfl⟩
    · rw [if_pos (hcalls.mp hset)]
      exact h.follows_open hsocket (hcalls.mp hset) hstate order
    · have hdropped : c.currentWs ≠ some i := mt hcalls.mpr (by simp [hunset])
      rw [if_neg hdropped]
      exact h.follows_dropped hsocket hdropped
  | socketCloses i =>
    obtain ⟨socket, hsocket, hstate, hclosed⟩ := step_socketCloses ha
    have hcalls := h.callbacks i socket hsocket
    rw [event]
    rcases hclosed with ⟨hset, rfl⟩ | ⟨hunset, rfl⟩
    · rw [if_pos (hcalls.mp hset)]
      exact h.follows_close hsocket (hcalls.mp hset) hstate
    · have hdropped : c.currentWs ≠ some i := mt hcalls.mpr (by simp [hunset])
      rw [if_neg hdropped]
      exact h.follows_dropped hsocket hdropped
  | timerFires timer made =>
    rw [step] at ha
    by_cases htimer : timer ∈ c.timers
    · rw [if_pos htimer] at ha
      obtain rfl := Option.some.inj ha
      exact h.follows_fire htimer made
    · rw [if_neg htimer] at ha
      cases ha

/-! ## What is said -/

/-- The socket is past its handshake. -/
def Shaken (c : NotificationClient) (i : Nat) : Prop :=
  ∃ socket, c.sockets[i]? = some socket ∧ socket.readyState ≠ .connecting

/-- The message subscribes to deployments. -/
def Subscribes (message : WsClientMessage) : Prop := ∃ ids, message = .subscribe ids

/-- What an action has the client say, and over which socket. -/
structure Speaks (c d : NotificationClient) (a : ClientAction) : Prop where
  sent : ∃ later, d.sent = c.sent ++ later ∧ ∀ m ∈ later,
    d.currentWs = some m.1 ∧ d.Shaken m.1 ∧
      (Subscribes m.2 → c.event a = some .opened) ∧
      ∀ id ∈ m.2.deployments, id ∈ d.subscribedIds ∨ d.appLogDeploymentId = some id
  tracked : ∀ id ∈ d.subscribedIds, id ∈ c.subscribedIds ∨ id ∈ a.deployments
  appLog : ∀ id, d.appLogDeploymentId = some id →
    c.appLogDeploymentId = some id ∨ id ∈ a.deployments
  current : ∀ i, d.currentWs = some i → c.currentWs = some i ∨ i = c.sockets.length
  shaken : ∀ i, c.Shaken i → d.Shaken i

/-- The client keeps its ids and says nothing. -/
structure Silent (c d : NotificationClient) : Prop where
  sent : d.sent = c.sent
  tracked : d.subscribedIds = c.subscribedIds
  appLog : d.appLogDeploymentId = c.appLogDeploymentId
  current : ∀ i, d.currentWs = some i → c.currentWs = some i ∨ i = c.sockets.length
  shaken : ∀ i, c.Shaken i → d.Shaken i

theorem Silent.refl (c : NotificationClient) : c.Silent c :=
  ⟨rfl, rfl, rfl, fun _ h ↦ .inl h, fun _ h ↦ h⟩

theorem Silent.speaks {a : ClientAction} (h : c.Silent d) : c.Speaks d a where
  sent := ⟨[], by rw [h.sent, List.append_nil], fun _ hm ↦ absurd hm List.not_mem_nil⟩
  tracked id hid := .inl (h.tracked ▸ hid)
  appLog id hid := .inl (h.appLog ▸ hid)
  current := h.current
  shaken := h.shaken

theorem silent_takeTimeout (c : NotificationClient) : c.Silent c.takeTimeout :=
  ⟨rfl, rfl, rfl, fun _ h ↦ .inl h, fun _ h ↦ h⟩

/-- Dropping the connection leaves no current socket. -/
theorem silent_takeCurrent (c : NotificationClient) :
    c.Silent c.takeCurrent ∧ c.takeCurrent.sockets.length = c.sockets.length ∧
      c.takeCurrent.currentWs = none := by
  cases hcurrent : c.currentWs with
  | none =>
    simp only [takeCurrent, hcurrent]
    exact ⟨.refl c, trivial, trivial⟩
  | some i =>
    simp only [takeCurrent, hcurrent]
    refine ⟨⟨rfl, rfl, rfl, fun j hj ↦ (by cases hj), ?_⟩, List.length_modify .., trivial⟩
    rintro j ⟨socket, hsocket, hstate⟩
    have hget : (c.sockets.modify i ClientSocket.drop)[j]? =
        some (if i = j then socket.drop else socket) := by
      rw [List.getElem?_modify, hsocket]
      rfl
    refine ⟨_, hget, ?_⟩
    by_cases hj : i = j
    · rw [if_pos hj, ClientSocket.drop]
      split <;> simp
    · rw [if_neg hj]
      exact hstate

theorem silent_connectNotifications (c : NotificationClient) (made : Bool) :
    c.Silent (c.connectNotifications made) := by
  rw [connectNotifications]
  split
  · have htimeout := silent_takeTimeout c
    obtain ⟨hdrop, hlength, hnone⟩ := silent_takeCurrent c.takeTimeout
    cases made with
    | false =>
      refine ⟨hdrop.sent, hdrop.tracked, hdrop.appLog, ?_, fun i hi ↦ hdrop.shaken i hi⟩
      intro i hi
      rw [if_neg (by decide), hnone] at hi
      cases hi
    | true =>
      refine ⟨hdrop.sent, hdrop.tracked, hdrop.appLog, ?_, ?_⟩
      · intro i hi
        obtain rfl := Option.some.inj hi
        exact .inr hlength
      · intro i hi
        obtain ⟨socket, hsocket, hstate⟩ := hdrop.shaken i hi
        refine ⟨socket, ?_, hstate⟩
        rw [if_pos rfl]
        exact (List.getElem?_append_left (List.getElem?_eq_some_iff.mp hsocket).1).trans hsocket
  · exact .refl c

theorem silent_ensure (c : NotificationClient) (made : Bool) :
    c.Silent (c.ensureNotificationsConnected made) := by
  rw [ensureNotificationsConnected]
  split
  · exact ⟨rfl, rfl, rfl, fun _ h ↦ .inl h, fun _ h ↦ h⟩
  · have hconnect := silent_connectNotifications { c with notificationsEnabled := true } made
    exact ⟨hconnect.sent, hconnect.tracked, hconnect.appLog, hconnect.current, hconnect.shaken⟩

theorem silent_setState (state : ReadyState) (hsocket : c.sockets[i]? = some socket)
    (hstate : state ≠ .connecting) : c.Silent (c.setState i socket state) := by
  refine ⟨rfl, rfl, rfl, fun _ h ↦ .inl h, ?_⟩
  rintro j ⟨other, hother, hshaken⟩
  by_cases hj : i = j
  · exact ⟨_, (getElem?_setState hsocket j).trans (if_pos hj), hstate⟩
  · exact ⟨other, (getElem?_setState hsocket j).trans ((if_neg hj).trans hother), hshaken⟩

theorem Silent.onClose (h : c.Silent d) : c.Silent d.onClose := by
  rw [NotificationClient.onClose]
  split
  · exact ⟨h.sent, h.tracked, h.appLog, h.current, h.shaken⟩
  · exact ⟨h.sent, h.tracked, h.appLog, h.current, h.shaken⟩

/-- A message is sent over the current socket, which is open. -/
theorem sendIfOpen_sent (c : NotificationClient) (message : WsClientMessage) :
    ∃ later, c.sendIfOpen message = { c with sent := c.sent ++ later } ∧
      ∀ m ∈ later, c.currentWs = some m.1 ∧ c.Shaken m.1 ∧ m.2 = message := by
  rw [sendIfOpen]
  by_cases hopen : c.currentState = some .opened
  · rw [if_pos hopen]
    refine ⟨_, rfl, ?_⟩
    intro m hm
    obtain ⟨i, hi, rfl⟩ := List.mem_map.mp hm
    obtain ⟨j, hj, hsocket⟩ := Option.bind_eq_some_iff.mp hopen
    have hcurrent := Option.mem_toList.mp hi
    rw [hcurrent] at hj
    obtain rfl := Option.some.inj hj
    obtain ⟨socket, hget, hstate⟩ := Option.map_eq_some_iff.mp hsocket
    exact ⟨hcurrent, ⟨socket, hget, by rw [hstate]; decide⟩, rfl⟩
  · rw [if_neg hopen]
    exact ⟨[], by rw [List.append_nil], fun _ hm ↦ absurd hm List.not_mem_nil⟩

theorem speaks_unsubscribeLogs (c : NotificationClient) {a : ClientAction} :
    c.Speaks c.unsubscribeLogs a := by
  obtain ⟨later, heq, hlater⟩ :=
    sendIfOpen_sent { c with appLogDeploymentId := none } .unsubscribeLogs
  rw [unsubscribeLogs, heq]
  refine ⟨⟨later, rfl, ?_⟩, fun _ h ↦ .inl h, fun _ h ↦ (by cases h),
    fun _ h ↦ .inl h, fun _ h ↦ h⟩
  intro m hm
  obtain ⟨hcurrent, hshaken, hmessage⟩ := hlater m hm
  refine ⟨hcurrent, hshaken, ?_, ?_⟩
  · rintro ⟨ids, hids⟩
    rw [hmessage] at hids
    cases hids
  · intro id hid
    rw [hmessage] at hid
    exact absurd hid List.not_mem_nil

theorem speaks_subscribeAppLogs (c : NotificationClient) (deploymentId : String) (made : Bool) :
    c.Speaks (c.subscribeAppLogs deploymentId made) (.selectLogs deploymentId made) := by
  rw [subscribeAppLogs]
  split
  · exact speaks_unsubscribeLogs c
  · have hensure := silent_ensure
      { c with appLogDeploymentId := some (trim deploymentId) } made
    show c.Speaks (({ c with appLogDeploymentId := some (trim deploymentId) }
      |>.ensureNotificationsConnected made).sendIfOpen _) _
    generalize ({ c with appLogDeploymentId := some (trim deploymentId) }
      |>.ensureNotificationsConnected made) = d at hensure ⊢
    have hselected : d.appLogDeploymentId = some (trim deploymentId) := hensure.appLog
    obtain ⟨later, heq, hlater⟩ := sendIfOpen_sent d (.subscribeAppLogs (trim deploymentId))
    rw [heq]
    refine ⟨⟨later, congrArg (· ++ later) hensure.sent, ?_⟩, ?_, ?_, hensure.current,
      hensure.shaken⟩
    · intro m hm
      obtain ⟨hcurrent, hshaken, hmessage⟩ := hlater m hm
      refine ⟨hcurrent, hshaken, ?_, ?_⟩
      · rintro ⟨ids, hids⟩
        rw [hmessage] at hids
        cases hids
      · intro id hid
        rw [hmessage] at hid
        rw [List.mem_singleton.mp hid]
        exact .inr hselected
    · intro id hid
      exact .inl (hensure.tracked ▸ hid)
    · intro id hid
      have hid' : d.appLogDeploymentId = some id := hid
      rw [hselected] at hid'
      obtain rfl := Option.some.inj hid'
      exact .inr List.mem_cons_self

theorem mem_trackSubscriptions (c : NotificationClient) (deploymentIds : List String)
    (id : String) : id ∈ (c.trackSubscriptions deploymentIds).subscribedIds ↔
      id ∈ c.subscribedIds ∨ id ∈ deploymentIds := by
  show id ∈ deploymentIds.foldl (fun ids id ↦ ids.insert id) c.subscribedIds ↔ _
  generalize c.subscribedIds = ids
  induction deploymentIds generalizing ids with
  | nil => simp
  | cons first rest ih =>
    rw [List.foldl_cons, ih (ids.insert first), List.mem_insert_iff, List.mem_cons]
    tauto

/-- The chunks of the ids, as `on_open` sends them. -/
def subscriptionChunks (order : List String) : List (List String) :=
  (List.range (pageCount order.length maxSubscriptionsPerUser)).map
    (slice maxSubscriptionsPerUser · order)

theorem resubscription_eq (c : NotificationClient) (order : List String) :
    c.resubscription order = (subscriptionChunks order).map .subscribe ++
      c.appLogDeploymentId.toList.map .subscribeAppLogs := by
  rw [resubscription, subscriptionChunks, List.map_map]
  rfl

theorem subscriptionChunks_partition {order : List String} (h : c.Inv)
    (horder : order.Perm c.subscribedIds) :
    PagesPartition c.subscribedIds (subscriptionChunks order) := by
  rw [subscriptionChunks, horder.length_eq]
  exact slices_partition (by decide) (horder.nodup_iff.mpr h.nodup) horder

theorem length_le_of_mem_subscriptionChunks {order chunk : List String}
    (h : chunk ∈ subscriptionChunks order) : chunk.length ≤ maxSubscriptionsPerUser := by
  obtain ⟨k, -, rfl⟩ := List.mem_map.mp h
  exact length_slice_le ..

theorem Inv.speaks_open (h : c.Inv) (hsocket : c.sockets[i]? = some socket)
    (hcurrent : c.currentWs = some i) {order : List String}
    (horder : order.Perm c.subscribedIds) :
    c.Speaks ((c.setState i socket .opened).onOpen i order) (.socketOpens i order) := by
  have hsilent := silent_setState .opened hsocket (by decide)
  refine ⟨⟨_, rfl, ?_⟩, fun _ hid ↦ .inl hid, fun _ hid ↦ .inl hid, fun _ hi ↦ .inl hi,
    hsilent.shaken⟩
  intro m hm
  obtain ⟨message, hmessage, rfl⟩ := List.mem_map.mp hm
  refine ⟨hcurrent, ⟨_, (getElem?_setState hsocket i).trans (if_pos rfl), by simp⟩,
    fun _ ↦ if_pos hcurrent, ?_⟩
  intro id hid
  rw [resubscription_eq] at hmessage
  rcases List.mem_append.mp hmessage with hsub | hlog
  · obtain ⟨chunk, hchunk, rfl⟩ := List.mem_map.mp hsub
    have hmem : id ∈ (subscriptionChunks order).flatten :=
      List.mem_flatten.mpr ⟨chunk, hchunk, hid⟩
    exact .inl ((subscriptionChunks_partition h horder).once.mem_iff.mp hmem)
  · obtain ⟨deploymentId, hdeployment, rfl⟩ := List.mem_map.mp hlog
    obtain rfl := List.mem_singleton.mp hid
    exact .inr (Option.mem_toList.mp hdeployment)

theorem Inv.speaks_step (h : c.Inv) {a : ClientAction} (ha : step c a = some d) :
    c.Speaks d a := by
  cases a with
  | visit path made =>
    obtain rfl := Option.some.inj ha
    split
    · exact (silent_ensure c made).speaks
    · exact (Silent.refl c).speaks
  | leave =>
    obtain rfl := Option.some.inj ha
    have hdrop := (silent_takeCurrent ({ c with notificationsEnabled := false }.takeTimeout)).1
    exact ⟨⟨[], by rw [List.append_nil]; exact hdrop.sent, fun _ hm ↦ absurd hm List.not_mem_nil⟩,
      fun _ hid ↦ absurd hid List.not_mem_nil, fun _ hid ↦ (by cases hid), hdrop.current,
      hdrop.shaken⟩
  | track deploymentIds =>
    obtain rfl := Option.some.inj ha
    exact ⟨⟨[], by rw [List.append_nil]; rfl, fun _ hm ↦ absurd hm List.not_mem_nil⟩,
      fun id hid ↦ (mem_trackSubscriptions c deploymentIds id).mp hid, fun _ hid ↦ .inl hid,
      fun _ hi ↦ .inl hi, fun _ hi ↦ hi⟩
  | selectLogs deploymentId made =>
    obtain rfl := Option.some.inj ha
    exact speaks_subscribeAppLogs c deploymentId made
  | unselectLogs =>
    obtain rfl := Option.some.inj ha
    exact speaks_unsubscribeLogs c
  | socketOpens i order =>
    obtain ⟨socket, hsocket, -, hopened⟩ := step_socketOpens ha
    rcases hopened with ⟨hset, horder, rfl⟩ | ⟨-, rfl⟩
    · exact h.speaks_open hsocket ((h.callbacks i socket hsocket).mp hset) horder
    · exact (silent_setState .opened hsocket (by decide)).speaks
  | socketCloses i =>
    obtain ⟨socket, hsocket, -, hclosed⟩ := step_socketCloses ha
    have hsilent := silent_setState .closed hsocket (by decide)
    rcases hclosed with ⟨-, rfl⟩ | ⟨-, rfl⟩
    · exact hsilent.onClose.speaks
    · exact hsilent.speaks
  | timerFires timer made =>
    rw [step] at ha
    split at ha
    · obtain rfl := Option.some.inj ha
      have hconnect := silent_connectNotifications
        { c with timers := c.timers.filter (· ≠ timer) } made
      exact Silent.speaks
        ⟨hconnect.sent, hconnect.tracked, hconnect.appLog, hconnect.current, hconnect.shaken⟩
    · cases ha

/-! ## One session after another -/

/-- What a session keeps to: the sockets made from `first` on, and the deployments named in it. -/
structure Session (first : Nat) (before : List (Nat × WsClientMessage)) (named : String → Prop)
    (c : NotificationClient) : Prop where
  inv : c.Inv
  made : first ≤ c.sockets.length
  current : ∀ i, c.currentWs = some i → first ≤ i
  tracked : ∀ id ∈ c.subscribedIds, named id
  appLog : ∀ id, c.appLogDeploymentId = some id → named id
  sent : ∃ later, c.sent = before ++ later ∧
    ∀ m ∈ later, first ≤ m.1 ∧ ∀ id ∈ m.2.deployments, named id

variable {first : Nat} {before : List (Nat × WsClientMessage)} {named named' : String → Prop}

theorem Session.step (h : c.Session first before named) {a : ClientAction}
    (hnamed : ∀ id, named id → named' id) (haction : ∀ id ∈ a.deployments, named' id)
    (ha : NotificationClient.step c a = some d) : d.Session first before named' := by
  have hfollows := h.inv.follows_step ha
  have hspeaks := h.inv.speaks_step ha
  have hcurrent : ∀ i, d.currentWs = some i → first ≤ i := by
    intro i hi
    rcases hspeaks.current i hi with hold | rfl
    · exact h.current i hold
    · exact h.made
  have htracked : ∀ id ∈ d.subscribedIds, named' id := by
    intro id hid
    rcases hspeaks.tracked id hid with hold | hnew
    · exact hnamed id (h.tracked id hold)
    · exact haction id hnew
  have happLog : ∀ id, d.appLogDeploymentId = some id → named' id := by
    intro id hid
    rcases hspeaks.appLog id hid with hold | hnew
    · exact hnamed id (h.appLog id hold)
    · exact haction id hnew
  refine ⟨hfollows.inv, ?_, hcurrent, htracked, happLog, ?_⟩
  · rw [hfollows.sockets]
    exact Nat.le_add_right_of_le h.made
  · obtain ⟨later, hsent, hlater⟩ := h.sent
    obtain ⟨more, hmore, hsays⟩ := hspeaks.sent
    refine ⟨later ++ more, by rw [hmore, hsent, List.append_assoc], ?_⟩
    intro m hm
    rcases List.mem_append.mp hm with hm | hm
    · exact ⟨(hlater m hm).1, fun id hid ↦ hnamed id ((hlater m hm).2 id hid)⟩
    · obtain ⟨hwhere, -, -, hwhat⟩ := hsays m hm
      refine ⟨hcurrent m.1 hwhere, ?_⟩
      intro id hid
      rcases hwhat id hid with hid | hid
      · exact htracked id hid
      · exact happLog id hid

theorem Session.run {tr : List (Transition NotificationClient ClientAction)}
    (hinit : c.Session first before fun _ ↦ False) (h : Run NotificationClient.step c tr d) :
    d.Session first before fun id ↦ ∃ x ∈ tr, id ∈ x.action.deployments := by
  induction h with
  | nil =>
    exact ⟨hinit.inv, hinit.made, hinit.current, fun id hid ↦ (hinit.tracked id hid).elim,
      fun id hid ↦ (hinit.appLog id hid).elim, by
        obtain ⟨later, hsent, hlater⟩ := hinit.sent
        exact ⟨later, hsent, fun m hm ↦
          ⟨(hlater m hm).1, fun id hid ↦ ((hlater m hm).2 id hid).elim⟩⟩⟩
  | @snoc tr d e a _ ha ih =>
    refine ih.step ?_ ?_ ha
    · rintro id ⟨x, hx, hid⟩
      exact ⟨x, List.mem_append_left _ hx, hid⟩
    · intro id hid
      exact ⟨⟨d, a, e⟩, List.mem_append_right _ List.mem_cons_self, hid⟩

theorem Inv.run {tr : List (Transition NotificationClient ClientAction)} (h : c.Inv)
    (hrun : Run NotificationClient.step c tr d) : d.Inv :=
  Run.invariant h (fun _ _ _ hinv ha ↦ (hinv.follows_step ha).inv) hrun

/-- A client that leaves starts a session anew. -/
theorem Inv.session (h : c.Inv) :
    c.disconnectNotifications.Session c.sockets.length c.sent fun _ ↦ False := by
  have hinv := h.follows_disconnect.inv
  obtain ⟨sockets, hleft, hlength, -⟩ := h.disconnect_eq
  rw [hleft] at hinv ⊢
  refine ⟨hinv, hlength.ge, fun _ hi ↦ (by cases hi), fun _ hid ↦ absurd hid List.not_mem_nil,
    fun _ hid ↦ (by cases hid), [], (List.append_nil _).symm, fun _ hm ↦ absurd hm List.not_mem_nil⟩

theorem Inv.one_connection (h : c.Inv) {j : Nat} {other : ClientSocket}
    (hsocket : c.sockets[i]? = some socket) (hother : c.sockets[j]? = some other)
    (hset : socket.callbacks = true) (hset' : other.callbacks = true) : i = j := by
  have hi := (h.callbacks i socket hsocket).mp hset
  rw [(h.callbacks j other hother).mp hset'] at hi
  exact (Option.some.inj hi).symm

theorem Inv.one_timer (h : c.Inv) : c.timers.length ≤ 1 := by
  rw [h.timers]
  cases c.reconnectTimeout <;> simp

/-- A page that leaves its session is acted on by no socket and no timer of it, then or later, and
what it says after that goes over new sockets and names only deployments of the new session. It
never listens to two sockets or waits for two timers. -/
theorem notification_sessions_apart {tr₁ tr₂ : List (Transition NotificationClient ClientAction)}
    {s t u : NotificationClient} (h₁ : Run step init tr₁ s) (hleave : step s .leave = some t)
    (h₂ : Run step t tr₂ u) :
    (t.timers = [] ∧ ∀ socket ∈ t.sockets, socket.callbacks = false) ∧
    (∀ (i : Nat) socket, u.sockets[i]? = some socket → i < s.sockets.length →
      socket.callbacks = false) ∧
    (∃ later, u.sent = s.sent ++ later ∧ ∀ m ∈ later, s.sockets.length ≤ m.1 ∧
      ∀ id ∈ m.2.deployments, ∃ x ∈ tr₂, id ∈ x.action.deployments) ∧
    (∀ (i j : Nat) socket other, u.sockets[i]? = some socket → u.sockets[j]? = some other →
      socket.callbacks = true → other.callbacks = true → i = j) ∧
    u.timers.length ≤ 1 := by
  have hinv := inv_init.run h₁
  obtain rfl := Option.some.inj hleave
  have hafter := hinv.session.run h₂
  refine ⟨?_, fun i socket hi hold ↦ ?_, hafter.sent, fun i j _ _ hi hj hset hset' ↦
    hafter.inv.one_connection hi hj hset hset', hafter.inv.one_timer⟩
  · obtain ⟨sockets, hleft, -, hcallbacks⟩ := hinv.disconnect_eq
    rw [hleft]
    refine ⟨rfl, ?_⟩
    intro socket hsocket
    obtain ⟨i, hi⟩ := List.getElem?_of_mem hsocket
    exact hcallbacks i socket hi
  · by_contra hset
    have hcurrent := (hafter.inv.callbacks i socket hi).mp (Bool.eq_true_of_not_eq_false hset)
    exact Nat.not_lt_of_le (hafter.current i hcurrent) hold

/-- A page that shows deployment `1`, before it is left. -/
def firstVisit : List ClientAction :=
  [.visit "/deployments" true, .track ["1"], .socketOpens 0 ["1"]]

/-- A page that shows deployment `2`. -/
def secondVisit : List ClientAction :=
  [.visit "/deployments" true, .track ["2"], .socketCloses 0, .socketOpens 1 ["2"]]

theorem notification_sessions_apart_two : ∃ s t u, execute step init firstVisit = some s ∧
    step s .leave = some t ∧ execute step t secondVisit = some u ∧
    u.sent = [(0, .subscribe ["1"]), (1, .subscribe ["2"])] ∧
    ∃ later, u.sent = s.sent ++ later ∧ ∀ m ∈ later, s.sockets.length ≤ m.1 := by
  have hruns : ∃ s t u, execute step init firstVisit = some s ∧ step s .leave = some t ∧
      execute step t secondVisit = some u ∧
      u.sent = [(0, .subscribe ["1"]), (1, .subscribe ["2"])] := by
    refine ⟨_, _, _, rfl, rfl, rfl, ?_⟩
    decide
  obtain ⟨s, t, u, hs, ht, hu, hsent⟩ := hruns
  have hapart := notification_sessions_apart (Run.of_execute _ hs) ht (Run.of_execute _ hu)
  obtain ⟨later, hlater, hmade⟩ := hapart.2.2.1
  exact ⟨s, t, u, hs, ht, hu, hsent, later, hlater, fun m hm ↦ (hmade m hm).1⟩

/-! ## Reconnects -/

/-- The link of a client keeps within the limit. -/
theorem Follows.within {event : Option LinkEvent} (h : c.Follows d event)
    (hwithin : c.link.Within maxReconnectAttempts) : d.link.Within maxReconnectAttempts := by
  have hlink := h.link
  cases event with
  | none =>
    rw [← Option.some.inj hlink]
    exact hwithin
  | some event => exact Link.within_next hwithin hlink

/-- Only an open socket and leaving give the client new attempts. -/
theorem Follows.budget {event : Option LinkEvent} (h : c.Follows d event)
    (hwithin : c.link.Within maxReconnectAttempts) (hopened : event ≠ some .opened)
    (hleft : event ≠ some .left) :
    d.sockets.length + d.link.budget maxReconnectAttempts ≤
      c.sockets.length + c.link.budget maxReconnectAttempts := by
  have hlink := h.link
  rw [h.sockets]
  cases event with
  | none =>
    rw [← Option.some.inj hlink]
    exact Nat.le_refl _
  | some event =>
    have hnext := Link.budget_next hwithin hlink (fun heq ↦ hopened (congrArg some heq))
      fun heq ↦ hleft (congrArg some heq)
    rw [Option.elim_some]
    omega

/-- A client that has given up makes no socket before it leaves. -/
theorem Follows.exhausted {event : Option LinkEvent} (h : c.Follows d event) {attempts : Nat}
    (hexhausted : c.link = .exhausted attempts) (hleft : event ≠ some .left) :
    d.link = .exhausted attempts ∧ d.sockets.length = c.sockets.length := by
  have hlink := h.link
  have hsockets := h.sockets
  rw [hexhausted] at hlink hsockets
  cases event with
  | none => exact ⟨(Option.some.inj hlink).symm, hsockets⟩
  | some event =>
    refine ⟨Link.next_exhausted hlink fun heq ↦ hleft (congrArg some heq), ?_⟩
    rw [hsockets]
    cases event <;> rfl

theorem reconnectAttempts_of_link (h : c.Inv) (hwithin : c.link.Within maxReconnectAttempts) :
    c.reconnectAttempts ≤ maxReconnectAttempts + 1 := by
  cases hon : c.notificationsEnabled with
  | false =>
    rw [(h.off hon).2.2]
    exact Nat.zero_le _
  | true =>
    cases hcurrent : c.currentWs with
    | none =>
      rw [link_of_none _ hon hcurrent] at hwithin
      exact Nat.le_succ_of_le hwithin
    | some i =>
      by_cases hclosed : c.currentState = some .closed
      · rw [link_of_closed _ hon hcurrent hclosed] at hwithin
        split at hwithin
        · exact Nat.le_succ_of_le hwithin
        · exact Nat.le_of_eq hwithin
      · rw [link_of_open _ hon hcurrent hclosed] at hwithin
        exact Nat.le_succ_of_le hwithin

theorem within_run {tr : List (Transition NotificationClient ClientAction)}
    (h : Run step init tr c) : c.Inv ∧ c.link.Within maxReconnectAttempts := by
  induction h with
  | nil => exact ⟨inv_init, trivial⟩
  | snoc _ ha ih =>
    have hfollows := ih.1.follows_step ha
    exact ⟨hfollows.inv, hfollows.within ih.2⟩

/-- However a run goes on without an open socket and without leaving, at most eleven more sockets
are made; the counter does not pass eleven; a client that has given up makes no socket before it
leaves. -/
theorem notification_reconnects_bounded
    {tr tr' : List (Transition NotificationClient ClientAction)} {s t : NotificationClient}
    (h : Run step init tr s) (h' : Run step s tr' t)
    (hleft : ∀ x ∈ tr', x.before.event x.action ≠ some .left) :
    t.reconnectAttempts ≤ maxReconnectAttempts + 1 ∧
    ((∀ x ∈ tr', x.before.event x.action ≠ some .opened) →
      t.sockets.length ≤ s.sockets.length + s.link.budget maxReconnectAttempts ∧
      s.link.budget maxReconnectAttempts ≤ maxReconnectAttempts + 1) ∧
    ∀ attempts, s.link = .exhausted attempts →
      t.link = .exhausted attempts ∧ t.sockets.length = s.sockets.length := by
  obtain ⟨hinv, hwithin⟩ := within_run h
  have hgoesOn : (t.Inv ∧ t.link.Within maxReconnectAttempts) ∧
      ((∀ x ∈ tr', x.before.event x.action ≠ some .opened) →
        t.sockets.length + t.link.budget maxReconnectAttempts ≤
          s.sockets.length + s.link.budget maxReconnectAttempts) ∧
      ∀ attempts, s.link = .exhausted attempts →
        t.link = .exhausted attempts ∧ t.sockets.length = s.sockets.length := by
    induction h' with
    | nil => exact ⟨⟨hinv, hwithin⟩, fun _ ↦ Nat.le_refl _, fun _ hlink ↦ ⟨hlink, rfl⟩⟩
    | @snoc tr' t u a _ ha ih =>
      obtain ⟨⟨hinv', hwithin'⟩, hbudget, hgivenUp⟩ :=
        ih fun x hx ↦ hleft x (List.mem_append_left _ hx)
      have hlast : (⟨t, a, u⟩ : Transition NotificationClient ClientAction) ∈
          tr' ++ [⟨t, a, u⟩] := List.mem_append_right _ List.mem_cons_self
      have hfollows := hinv'.follows_step ha
      refine ⟨⟨hfollows.inv, hfollows.within hwithin'⟩, ?_, ?_⟩
      · intro hopened
        exact Nat.le_trans (hfollows.budget hwithin' (hopened _ hlast) (hleft _ hlast))
          (hbudget fun x hx ↦ hopened x (List.mem_append_left _ hx))
      · intro attempts hlink
        obtain ⟨hlink', hlength⟩ := hgivenUp attempts hlink
        obtain ⟨hlink'', hlength'⟩ := hfollows.exhausted hlink' (hleft _ hlast)
        exact ⟨hlink'', hlength'.trans hlength⟩
  refine ⟨reconnectAttempts_of_link hgoesOn.1.1 hgoesOn.1.2, ?_, hgoesOn.2.2⟩
  intro hopened
  have hbudget := hgoesOn.2.1 hopened
  exact ⟨by omega, Link.budget_le ..⟩

theorem notification_reconnects_bounded_once : ∃ s t, execute step init firstVisit = some s ∧
    execute step s [.socketCloses 0, .timerFires 0 true] = some t ∧
    t.sockets.length ≤ s.sockets.length + s.link.budget maxReconnectAttempts := by
  have hruns : ∃ s t, execute step init firstVisit = some s ∧
      execute step s [.socketCloses 0, .timerFires 0 true] = some t ∧
      ∀ x ∈ transitions step s [.socketCloses 0, .timerFires 0 true],
        x.before.event x.action ≠ some .left ∧ x.before.event x.action ≠ some .opened := by
    refine ⟨_, _, rfl, rfl, ?_⟩
    decide
  obtain ⟨s, t, hs, ht, hevents⟩ := hruns
  have hbounded := notification_reconnects_bounded (Run.of_execute _ hs) (Run.of_execute _ ht)
    fun x hx ↦ (hevents x hx).1
  exact ⟨s, t, hs, ht, (hbounded.2.1 fun x hx ↦ (hevents x hx).2).1⟩

/-! ## Subscribing anew -/

/-- What is sent goes over sockets that are past their handshake. -/
def SentShaken (c : NotificationClient) : Prop := ∀ m ∈ c.sent, c.Shaken m.1

theorem Speaks.sentShaken {a : ClientAction} (h : c.Speaks d a) (hsent : c.SentShaken) :
    d.SentShaken := by
  intro m hm
  obtain ⟨later, heq, hlater⟩ := h.sent
  rw [heq] at hm
  rcases List.mem_append.mp hm with hm | hm
  · exact h.shaken m.1 (hsent m hm)
  · exact (hlater m hm).2.1

/-- When the current socket opens, it has carried no message; what the client then sends over it
first is its tracked ids, each once, in messages of at most a hundred that the server reads as they
are, and the selected log. No other step subscribes to a deployment. -/
theorem notification_resubscribes {tr : List (Transition NotificationClient ClientAction)}
    {s : NotificationClient} (h : Run step init tr s) :
    (∀ x ∈ tr, ∀ i order, x.action = .socketOpens i order → x.before.currentWs = some i →
      (∀ m ∈ x.before.sent, m.1 ≠ i) ∧
      ∃ chunks : List (List String), PagesPartition x.before.subscribedIds chunks ∧
        (∀ chunk ∈ chunks, ∀ userId,
          parseClientMessage (some userId) (.subscribe chunk) = .subscribe chunk) ∧
        x.after.sent = x.before.sent ++ ((chunks.map WsClientMessage.subscribe ++
          x.before.appLogDeploymentId.toList.map WsClientMessage.subscribeAppLogs).map (i, ·))) ∧
    ∀ x ∈ tr, x.before.event x.action ≠ some .opened →
      ∃ later, x.after.sent = x.before.sent ++ later ∧ ∀ m ∈ later, ¬ Subscribes m.2 := by
  have hsafe := Run.safe_of_condition (C := fun _ ↦ True)
    (P := fun x ↦ step x.before x.action = some x.after) (I := fun c ↦ c.Inv ∧ c.SentShaken)
    ⟨inv_init, fun _ hm ↦ absurd hm List.not_mem_nil⟩
    (fun c a d hc ha _ ↦ ⟨⟨(hc.1.follows_step ha).inv, (hc.1.speaks_step ha).sentShaken hc.2⟩, ha⟩)
    h fun _ _ ↦ trivial
  refine ⟨?_, ?_⟩
  · intro x hx i order haction hcurrent
    obtain ⟨⟨hinv, hshaken⟩, hstep⟩ := hsafe.2 x hx
    rw [haction] at hstep
    obtain ⟨socket, hsocket, hstate, hopened⟩ := step_socketOpens hstep
    have hset := (hinv.callbacks i socket hsocket).mpr hcurrent
    have hfresh : ∀ m ∈ x.before.sent, m.1 ≠ i := by
      rintro m hm rfl
      obtain ⟨socket', hsocket', hstate'⟩ := hshaken m hm
      rw [hsocket] at hsocket'
      obtain rfl := Option.some.inj hsocket'
      exact hstate' hstate
    refine ⟨hfresh, ?_⟩
    rcases hopened with ⟨-, horder, hafter⟩ | ⟨hunset, -⟩
    · refine ⟨subscriptionChunks order, subscriptionChunks_partition hinv horder, ?_, ?_⟩
      · intro chunk hchunk userId
        have hlength := length_le_of_mem_subscriptionChunks hchunk
        rw [parseClientMessage, if_neg (by simp), if_neg (Nat.not_lt.mpr hlength)]
      · rw [hafter, ← resubscription_eq]
        rfl
    · rw [hset] at hunset
      cases hunset
  · intro x hx hevent
    obtain ⟨⟨hinv, -⟩, hstep⟩ := hsafe.2 x hx
    obtain ⟨later, hsent, hlater⟩ := (hinv.speaks_step hstep).sent
    exact ⟨later, hsent, fun m hm hsubscribes ↦ hevent ((hlater m hm).2.2.1 hsubscribes)⟩

theorem notification_resubscribes_one : ∃ s, execute step init firstVisit = some s ∧
    s.sent = [(0, .subscribe ["1"])] ∧
    ∀ x ∈ transitions step init firstVisit, x.before.event x.action ≠ some .opened →
      ∃ later, x.after.sent = x.before.sent ++ later ∧ ∀ m ∈ later, ¬ Subscribes m.2 := by
  have hends : ∃ s, execute step init firstVisit = some s ∧ s.sent = [(0, .subscribe ["1"])] := by
    refine ⟨_, rfl, ?_⟩
    decide
  obtain ⟨s, hs, hsent⟩ := hends
  exact ⟨s, hs, hsent, (notification_resubscribes (Run.of_execute _ hs)).2⟩

end NotificationClient

end ReinhardtCloud.Dashboard
