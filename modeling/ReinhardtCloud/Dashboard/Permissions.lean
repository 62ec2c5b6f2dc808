import ReinhardtCloud.Dashboard.Accounts

/-!
# Who may do what

Library `Dashboard`. The role × action matrix of `organizations/permissions/` and its guard, and
the messages that a client sends over the notification socket with what the consumer makes of
them (`utils/realtime/consumer.rs`).
-/

namespace ReinhardtCloud.Dashboard

open ReinhardtCloud.Base

/-- `Action`, `permissions/action.rs`. -/
inductive PermissionAction where
  | orgRead
  | orgUpdate
  | orgDelete
  | memberInvite
  | memberRemove
  | memberChangeRole
  | clusterCreate
  | clusterRead
  | clusterUpdate
  | clusterDelete
  | deploymentCreate
  | deploymentRead
  | deploymentUpdate
  | deploymentDelete
  | logsRead
  deriving DecidableEq

/-- `allowed`, `permissions/table.rs:29–95`. -/
def allowed : MembershipRole → PermissionAction → Bool
  | .owner, _ => true
  | .admin, .orgDelete => false
  | .admin, _ => true
  | .developer, .orgUpdate => false
  | .developer, .orgDelete => false
  | .developer, .memberInvite => false
  | .developer, .memberRemove => false
  | .developer, .memberChangeRole => false
  | .developer, _ => true
  | .viewer, .orgRead => true
  | .viewer, .clusterRead => true
  | .viewer, .deploymentRead => true
  | .viewer, .logsRead => true
  | .viewer, _ => false

/-- `as_db_str`, `organizations/roles.rs:54–61`. -/
def MembershipRole.asDbStr : MembershipRole → String
  | .owner => "owner"
  | .admin => "admin"
  | .developer => "developer"
  | .viewer => "viewer"

/-- `current_organization_id_for_user`, `organizations/helpers.rs:33–47`. -/
def currentOrganizationIdForUser (s : Accounts) (userId : Nat) : Except AppError Nat :=
  match oldest s.memberships fun m ↦ m.user = userId with
  | some (_, m) => .ok m.organization
  | none => .error (.notFound "user has no organization membership; re-register to provision one")

/-- `resolve_membership_role`, `permissions/guard.rs:44–68`. -/
def resolveMembershipRole (s : Accounts) (userId organizationId : Nat) : Option MembershipRole :=
  (s.memberships.first fun m ↦ m.user = userId && m.organization = organizationId).map
    fun m ↦ m.2.role

/-- `require_permission`, `permissions/guard.rs:93–111`. -/
def requirePermission (s : Accounts) (userId : Nat) (action : PermissionAction) :
    Except AppError Nat :=
  match currentOrganizationIdForUser s userId with
  | .error e => .error e
  | .ok organizationId =>
    match resolveMembershipRole s userId organizationId with
    | none => .error (.authorization "User is not a member of the target organization")
    | some role =>
      if !allowed role action then
        .error (.authorization s!"Role '{role.asDbStr}' is not permitted to perform this action")
      else .ok organizationId

/-! ## The notification socket -/

/-- `WsClientMessage`, `shared/ws_messages.rs:115–126`. -/
inductive WsClientMessage where
  | subscribe (deploymentIds : List String)
  | unsubscribe (deploymentIds : List String)
  | subscribeBuildLogs (buildId : String)
  | subscribeAppLogs (deploymentId : String)
  | unsubscribeLogs

/-- `MAX_SUBSCRIPTIONS_PER_USER`. -/
def maxSubscriptionsPerUser : Nat := 100

/-- `NotificationLevel`. -/
inductive NotificationLevel where
  | info
  | warning
  | critical
  deriving DecidableEq

/-- The answers that the consumer sends by itself. -/
inductive WsReply where
  | systemNotification (level : NotificationLevel) (title message : String)
  | logStreamAck (acknowledged : Bool) (message : String)
  deriving DecidableEq

/-- `log_stream_rejected`, `consumer.rs:317–322`. -/
def logStreamRejected (message : String) : WsReply := .logStreamAck false message

/-- `ParsedAction`. -/
inductive ParsedAction where
  | rejected (response : WsReply)
  | subscribe (deploymentIds : List String)
  | unsubscribe (deploymentIds : List String)
  | subscribeAppLogs (deploymentId : String)
  | unsubscribeLogs
  deriving DecidableEq

/-- `parse_client_message`, `consumer.rs:225–301`. -/
def parseClientMessage (userId : Option Nat) : WsClientMessage → ParsedAction
  | .subscribe deploymentIds =>
    if userId.isNone then
      .rejected (.systemNotification .critical "Authentication required"
        "You must be authenticated to subscribe")
    else if maxSubscriptionsPerUser < deploymentIds.length then
      .rejected (logStreamRejected "Too many deployment subscriptions requested")
    else .subscribe deploymentIds
  | .unsubscribe deploymentIds => .unsubscribe deploymentIds
  | .subscribeBuildLogs _ =>
    if userId.isNone then unauthorized
    else .rejected (logStreamRejected
      "Build log streaming is unavailable until build ownership can be verified")
  | .subscribeAppLogs deploymentId =>
    if userId.isNone then unauthorized else .subscribeAppLogs deploymentId
  | .unsubscribeLogs => if userId.isNone then unauthorized else .unsubscribeLogs
where
  unauthorized : ParsedAction :=
    .rejected (.systemNotification .warning "Unauthorized" "Authentication required")

/-- The value of decimal digits, at least one. -/
def parseDigits (digits : List Char) : Option Nat :=
  if digits.isEmpty || !(digits.all Char.isDigit) then none
  else some (digits.foldl (fun n c ↦ 10 * n + (c.toNat - '0'.toNat)) 0)

/-- `str::parse::<i64>`: decimal digits, with or without a sign. -/
def parseI64 (text : String) : Option Int :=
  let n : Option Int := match text.toList with
    | '+' :: rest => (parseDigits rest).map fun n ↦ (n : Int)
    | '-' :: rest => (parseDigits rest).map fun n ↦ -(n : Int)
    | chars => (parseDigits chars).map fun n ↦ (n : Int)
  n.filter fun n ↦ -0x8000000000000000 ≤ n && n < 0x8000000000000000

/-- The permission that `on_message` asks for before it carries an action out: for deployment status
at once (`authorize_deployment_subscriptions`), for logs once the id was read as a number
(`authorize_app_log_subscription`). -/
def ParsedAction.permission : ParsedAction → Option PermissionAction
  | .subscribe _ => some .deploymentRead
  | .subscribeAppLogs deploymentId => (parseI64 deploymentId).map fun _ ↦ .logsRead
  | _ => none

section Lemmas

variable {s : Accounts} {userId : Nat} {action : PermissionAction}

/-- The account is a member of some organization. -/
def Accounts.IsMember (s : Accounts) (userId : Nat) : Prop :=
  ∃ k m, s.memberships.get k = some m ∧ m.user = userId

/-- What every role may do is permitted to exactly the members of some organization. -/
theorem requirePermission_isOk_iff (s : Accounts) (userId : Nat)
    (hall : ∀ role, allowed role action = true) :
    (∃ organizationId, requirePermission s userId action = .ok organizationId) ↔
      s.IsMember userId := by
  unfold requirePermission currentOrganizationIdForUser
  cases hfirst : oldest s.memberships fun m ↦ m.user = userId with
  | none =>
    simp only [reduceCtorEq, exists_false, false_iff]
    rintro ⟨k, m, hget, hm⟩
    have hno := oldest_eq_none.mp hfirst k m hget
    simp [hm] at hno
  | some found =>
    obtain ⟨k, m⟩ := found
    obtain ⟨hget, hm⟩ := mem_of_oldest hfirst
    have hm : m.user = userId := by simpa using hm
    have hmember : s.IsMember userId := ⟨k, m, hget, hm⟩
    refine ⟨fun _ ↦ hmember, fun _ ↦ ⟨m.organization, ?_⟩⟩
    dsimp only
    unfold resolveMembershipRole
    cases hrole : s.memberships.first fun x ↦
        x.user = userId && x.organization = m.organization with
    | none =>
      have hno := Table.first_eq_none hrole hget
      simp [hm] at hno
    | some r => simp [hall]

/-- The consumer's two permissions are everybody's. -/
theorem ParsedAction.allowed_of_permission {a : ParsedAction} (h : a.permission = some action)
    (role : MembershipRole) : allowed role action = true := by
  cases a with
  | subscribe ids =>
    obtain rfl := Option.some.inj h
    cases role <;> rfl
  | subscribeAppLogs id =>
    obtain ⟨-, -, rfl⟩ := Option.map_eq_some_iff.mp h
    cases role <;> rfl
  | rejected r => cases h
  | unsubscribe ids => cases h
  | unsubscribeLogs => cases h

end Lemmas

end ReinhardtCloud.Dashboard
