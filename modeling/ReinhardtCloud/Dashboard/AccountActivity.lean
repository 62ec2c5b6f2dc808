import ReinhardtCloud.Base.Run
import ReinhardtCloud.Dashboard.Permissions

/-!
# Which accounts are served

Library `Dashboard`. Accounts, API keys, sessions and open notification sockets under any history
of requests, with an administrator who deactivates accounts and activates them again. Every request
loads the account it serves, except on the socket: there the account is looked up nowhere after the
session was created. A verification request loads its row and writes it back whole in a later step.
-/

namespace ReinhardtCloud.Dashboard

open ReinhardtCloud.Base

/-- `ApiKey`, `auth/models/api_key.rs`; the hash is the token that it was made from. -/
structure ApiKey where
  user : Nat
  tokenHash : String
  expiresAt : Option Int
  revokedAt : Option Int
  deriving DecidableEq

/-- `AuthState` of a request. -/
inductive AuthState where
  | anonymous
  | authenticated (userId : Nat) (isAdmin isActive : Bool)
  deriving DecidableEq

/-- The user that a request is authorised for. -/
def AuthState.userId? : AuthState → Option Nat
  | .anonymous => none
  | .authenticated userId _ _ => some userId

/-- The dashboard. `loaded` are the verification requests that have loaded their row, `issued` the
tokens sent by email, `deactivated` the accounts that an administrator has deactivated last. -/
structure ActivityState where
  accounts : Accounts
  apiKeys : Table ApiKey
  sessions : Table Nat
  connections : Table Nat
  loaded : List (Nat × User)
  issued : List TokenPayload
  deactivated : List Nat
  now : Int

/-- Nothing stored. -/
def ActivityState.init (now : Int) : ActivityState :=
  ⟨.empty, .empty, .empty, .empty, [], [], [], now⟩

/-- What happens next. A token text is the payload under the dashboard's signature, or what makes it
none. -/
inductive ActivityEvent where
  | tick (seconds : Nat)
  | register (username email password : String) (mail : MailOutcome) (o : AccountOutcome)
  | openVerification (token : Except TokenError TokenPayload)
  | writeVerification (i : Nat) (o : AccountOutcome)
  | login (username password : String) (o : AccountOutcome)
  | oauthLogin (provider : String) (claims : StandardClaims) (o : AccountOutcome)
  | oauthLink (session : Nat) (provider : String) (claims : StandardClaims) (o : AccountOutcome)
  | endSession (session : Nat)
  | generateApiKey (userId : Nat) (plaintext : String) (expiresAt : Option Int)
  | revokeApiKey (id : Nat)
  | request (session : Option Nat) (bearer : Option String)
  | connect (originAllowed : Bool) (session : Option Nat)
  | message (connection : Nat) (msg : WsClientMessage)
  | disconnect (connection : Nat)
  | setActive (userId : Nat) (isActive : Bool)

/-! ## Who is authorised -/

namespace ActivityState

variable (s : ActivityState)

/-- `validated_auth_state`, `middleware/validated_session.rs:27–57`. -/
def validatedAuthState (session : Option Nat) : AuthState :=
  match session.bind s.sessions.get with
  | none => .anonymous
  | some userId =>
    match s.accounts.users.get userId with
    | some user =>
      if user.isActive then .authenticated userId (user.isStaff || user.isSuperuser) true
      else .anonymous
    | none => .anonymous

/-- `verify_api_key`, `services/api_key.rs:84–115`. -/
def verifyApiKey (plaintext : String) : Option (Nat × User) :=
  match s.apiKeys.first fun key ↦ key.tokenHash = plaintext with
  | none => none
  | some (_, apiKey) =>
    if apiKey.revokedAt.isSome then none
    else if apiKey.expiresAt.any fun exp ↦ exp ≤ s.now then none
    else
      match s.accounts.users.get apiKey.user with
      | none => none
      | some user => if !user.isActive then none else some (apiKey.user, user)

/-- `resolve_auth_state_for_bearer`, `middleware/api_token.rs:47–58`. -/
def resolveAuthStateForBearer (plaintext : String) : AuthState :=
  match s.verifyApiKey plaintext with
  | some (userId, user) =>
    .authenticated userId (user.isStaff || user.isSuperuser) user.isActive
  | none => .anonymous

/-- The state that the two middlewares leave: a verified bearer token replaces the session's. -/
def authState (session : Option Nat) (bearer : Option String) : AuthState :=
  match bearer.map s.resolveAuthStateForBearer with
  | some (.authenticated userId isAdmin isActive) => .authenticated userId isAdmin isActive
  | _ => s.validatedAuthState session

/-- `verify_credentials`, `services/credentials.rs:21–50`, up to the organization. -/
def verifyCredentials (username password : String) : Except AppError (Nat × User) :=
  match s.accounts.users.first fun u ↦ u.username = trim username with
  | none => .error (.authentication "Invalid credentials")
  | some (userId, user) =>
    if user.passwordHash ≠ some password then .error (.authentication "Invalid credentials")
    else if !user.isActive then .error (.authorization "Email verification required")
    else .ok (userId, user)

/-- `current_user_for_account_link_intent`, `server_urls/oauth.rs:140–167`. -/
def currentUserForAccountLinkIntent (session : Nat) : Option (Nat × User) :=
  (s.sessions.get session).bind fun userId ↦
    ((s.accounts.users.get userId).filter User.isActive).map fun user ↦ (userId, user)

/-- `on_connect`, `consumer.rs:535–563`: the session's user, after the origin check. -/
def onConnect (originAllowed : Bool) (session : Option Nat) : Option Nat :=
  if !originAllowed then none else session.bind s.sessions.get

/-- What a socket message is authorised for: the user of the connection, when the permission guard
lets the action pass. -/
def authorizedMessage (connection : Nat) (msg : WsClientMessage) : Option Nat :=
  (s.connections.get connection).bind fun userId ↦
    (parseClientMessage (some userId) msg).permission.bind fun permission ↦
      match requirePermission s.accounts userId permission with
      | .ok _ => some userId
      | .error _ => none

/-- The user that an event serves. -/
def serves : ActivityEvent → Option Nat
  | .request session bearer => (s.authState session bearer).userId?
  | .connect originAllowed session => s.onConnect originAllowed session
  | .message connection msg => s.authorizedMessage connection msg
  | .login username password _ => (s.verifyCredentials username password).toOption.map Prod.fst
  | .oauthLink session _ _ _ => (s.currentUserForAccountLinkIntent session).map Prod.fst
  | _ => none

end ActivityState

/-! ## Steps -/

/-- The new user's token, when the registration has succeeded. -/
def issueToken (r : Except AppError Nat) (now : Int) : List TokenPayload :=
  match r with
  | .ok userId => [emailVerificationToken userId now]
  | .error _ => []

/-- A session for the user, when there is one. -/
def openSession (sessions : Table Nat) (userId : Option Nat) : Table Nat :=
  match userId with
  | some id => sessions.add id
  | none => sessions

/-- One step. -/
def activityStep (unicode : Unicode) (s : ActivityState) : ActivityEvent → Option ActivityState
  | .tick seconds => some { s with now := s.now + seconds }
  | .register username email password mail o =>
    let r := registerInactiveUser unicode s.accounts username email password mail o
    some { s with accounts := r.1, issued := s.issued ++ issueToken r.2 s.now }
  | .openVerification token =>
    -- a payload under the signature is one that was issued
    if token.toOption.all (· ∈ s.issued) then
      match loadForVerification s.accounts token s.now with
      | .error _ => some s
      | .ok p => some { s with loaded := s.loaded ++ [p] }
    else none
  | .writeVerification i o =>
    match s.loaded[i]? with
    | none => none
    | some (id, row) =>
      some { s with
        accounts := (activateVerified s.accounts id row o).1
        loaded := s.loaded.eraseIdx i }
  | .login username password o =>
    match s.verifyCredentials username password with
    | .error _ => some s
    | .ok (userId, user) =>
      let r := ensurePersonalOrganization s.accounts userId user.username o
      some { s with
        accounts := r.1
        sessions := openSession s.sessions (r.2.toOption.map fun _ ↦ userId) }
  | .oauthLogin provider claims o =>
    let r := linkOrCreateUser unicode s.accounts provider claims none o
    some { s with accounts := r.1, sessions := openSession s.sessions r.2.toOption }
  | .oauthLink session provider claims o =>
    match s.currentUserForAccountLinkIntent session with
    | none => some s
    | some (userId, user) =>
      some { s with accounts := (linkUserToProvider s.accounts provider claims userId user o).1 }
  | .endSession session => some { s with sessions := s.sessions.deleteWhere fun k _ ↦ k = session }
  | .generateApiKey userId plaintext expiresAt =>
    if (s.accounts.users.get userId).isNone ||
        (s.apiKeys.first fun key ↦ key.tokenHash = plaintext).isSome then some s
    else some { s with apiKeys := s.apiKeys.add ⟨userId, plaintext, expiresAt, none⟩ }
  | .revokeApiKey id =>
    match s.apiKeys.get id with
    | none => some s
    | some apiKey =>
      some { s with apiKeys := s.apiKeys.set id { apiKey with revokedAt := some s.now } }
  | .request _ _ => some s
  | .connect originAllowed session =>
    some { s with connections := openSession s.connections (s.onConnect originAllowed session) }
  | .message _ _ => some s
  | .disconnect connection =>
    some { s with connections := s.connections.deleteWhere fun k _ ↦ k = connection }
  | .setActive userId isActive =>
    match s.accounts.users.get userId with
    | none => some s
    | some user => some { s with
      accounts := s.accounts.updateUser userId { user with isActive }
      deactivated :=
        if isActive then s.deactivated.filter (· ≠ userId) else userId :: s.deactivated }

/-- An event and the states around it. -/
abbrev ActivityTransition := Transition ActivityState ActivityEvent

/-! ## The condition -/

/-- A handshake or a subscription is not served to an inactive account, and no verification writes
an account that an administrator has deactivated. -/
def SparesInactive (s : ActivityState) : ActivityEvent → Prop
  | .connect originAllowed session => originAllowed = true →
      ∀ id ∈ session, ∀ userId, s.sessions.get id = some userId → s.accounts.Active userId
  | .message connection msg => ∀ userId, s.connections.get connection = some userId →
      (parseClientMessage (some userId) msg).permission.isSome = true →
      s.accounts.IsMember userId → s.accounts.Active userId
  | .writeVerification i o => ∀ p ∈ s.loaded[i]?, p.2.isActive = false → o.userRefused = none →
      p.1 ∉ s.deactivated
  | _ => True

/-- The event serves active accounts only, and what an administrator has deactivated stays so. -/
structure ServesActive (x : ActivityTransition) : Prop where
  active : ∀ userId, x.before.serves x.action = some userId → x.before.accounts.Active userId
  deactivated : ∀ userId ∈ x.after.deactivated, ¬ x.after.accounts.Active userId

/-! ## Who is served -/

section Served

variable {s : ActivityState} {userId : Nat}

private theorem active_of_filter {session : Nat} {p : Nat × User}
    (h : s.currentUserForAccountLinkIntent session = some p) : s.accounts.Active p.1 := by
  obtain ⟨id, -, hmap⟩ := Option.bind_eq_some_iff.mp h
  obtain ⟨user, hfilter, rfl⟩ := Option.map_eq_some_iff.mp hmap
  obtain ⟨hget, hactive⟩ := Option.filter_eq_some_iff.mp hfilter
  exact ⟨user, hget, hactive⟩

/-- A session authorises its user while the account is active. -/
theorem validatedAuthState_active {session : Option Nat}
    (h : (s.validatedAuthState session).userId? = some userId) : s.accounts.Active userId := by
  unfold ActivityState.validatedAuthState at h
  split at h
  · cases h
  · split at h
    · next user hget =>
      split at h
      · next hactive =>
        obtain rfl := Option.some.inj h
        exact ⟨user, hget, hactive⟩
      · cases h
    · cases h

/-- An API key authorises its owner while the account is active. -/
theorem verifyApiKey_active {plaintext : String} {user : User}
    (h : s.verifyApiKey plaintext = some (userId, user)) : s.accounts.Active userId := by
  unfold ActivityState.verifyApiKey at h
  split at h
  · cases h
  · split at h
    · cases h
    · split at h
      · cases h
      · split at h
        · cases h
        · next row hget =>
          split at h
          · cases h
          · next hactive =>
            cases h
            exact ⟨user, hget, by simpa using hactive⟩

/-- The middlewares authorise active accounts only. -/
theorem authState_active {session : Option Nat} {bearer : Option String}
    (h : (s.authState session bearer).userId? = some userId) : s.accounts.Active userId := by
  unfold ActivityState.authState at h
  split at h
  · next id isAdmin isActive hbearer =>
    obtain rfl := Option.some.inj h
    obtain ⟨plaintext, -, hresolve⟩ := Option.map_eq_some_iff.mp hbearer
    unfold ActivityState.resolveAuthStateForBearer at hresolve
    split at hresolve
    · next owner user hkey =>
      cases hresolve
      exact verifyApiKey_active hkey
    · cases hresolve
  · exact validatedAuthState_active h

/-- Accepted credentials are of an active account. -/
theorem verifyCredentials_active {username password : String} {user : User}
    (h : s.verifyCredentials username password = .ok (userId, user)) :
    s.accounts.Active userId := by
  unfold ActivityState.verifyCredentials at h
  split at h
  · cases h
  · next hfirst =>
    split at h
    · cases h
    · split at h
      · cases h
      · next hactive =>
        cases h
        exact ⟨user, (Table.first_eq_some hfirst).1, by simpa using hactive⟩

/-- A message is authorised for the user of its connection exactly when it asks for a permission
and the user is a member of some organization. -/
theorem authorizedMessage_eq_some {connection : Nat} {msg : WsClientMessage} :
    s.authorizedMessage connection msg = some userId ↔
      s.connections.get connection = some userId ∧
        (parseClientMessage (some userId) msg).permission.isSome = true ∧
          s.accounts.IsMember userId := by
  unfold ActivityState.authorizedMessage
  cases hconnection : s.connections.get connection with
  | none => simp
  | some id =>
    rw [Option.bind_some]
    cases hpermission : (parseClientMessage (some id) msg).permission with
    | none =>
      rw [Option.bind_none]
      constructor
      · intro h
        cases h
      · rintro ⟨h, hsome, -⟩
        obtain rfl := Option.some.inj h
        simp [hpermission] at hsome
    | some permission =>
      have hiff := requirePermission_isOk_iff s.accounts id
        (ParsedAction.allowed_of_permission hpermission)
      rw [Option.bind_some]
      cases hguard : requirePermission s.accounts id permission with
      | error e =>
        constructor
        · intro h
          cases h
        · rintro ⟨h, -, hmember⟩
          obtain rfl := Option.some.inj h
          obtain ⟨o, ho⟩ := hiff.mpr hmember
          simp [hguard] at ho
      | ok o =>
        constructor
        · intro h
          obtain rfl := Option.some.inj h
          exact ⟨rfl, by rw [hpermission]; rfl, hiff.mp ⟨o, hguard⟩⟩
        · rintro ⟨h, -, -⟩
          exact h

/-- Whatever meets the condition serves active accounts only. -/
theorem serves_active {e : ActivityEvent} (hc : SparesInactive s e)
    (h : s.serves e = some userId) : s.accounts.Active userId := by
  cases e with
  | request session bearer => exact authState_active h
  | connect originAllowed session =>
    have hconnect : s.onConnect originAllowed session = some userId := h
    unfold ActivityState.onConnect at hconnect
    split at hconnect
    · cases hconnect
    · next horigin =>
      obtain ⟨id, hid, hget⟩ := Option.bind_eq_some_iff.mp hconnect
      exact hc (by simpa using horigin) id hid userId hget
  | message connection msg =>
    obtain ⟨hconnection, hpermission, hmember⟩ := authorizedMessage_eq_some.mp h
    exact hc userId hconnection hpermission hmember
  | login username password o =>
    obtain ⟨p, hp, rfl⟩ := Option.map_eq_some_iff.mp h
    cases hcheck : s.verifyCredentials username password with
    | error e => simp [hcheck, Except.toOption] at hp
    | ok q =>
      rw [hcheck] at hp
      obtain rfl := Option.some.inj hp
      exact verifyCredentials_active hcheck
  | oauthLink session provider claims o =>
    obtain ⟨p, hp, rfl⟩ := Option.map_eq_some_iff.mp h
    exact active_of_filter hp
  | tick => cases h
  | register => cases h
  | openVerification => cases h
  | writeVerification => cases h
  | oauthLogin => cases h
  | endSession => cases h
  | generateApiKey => cases h
  | revokeApiKey => cases h
  | disconnect => cases h
  | setActive => cases h

end Served

/-! ## What happens to the accounts -/

section Effects

variable {unicode : Unicode} {s t : ActivityState} {e : ActivityEvent}

/-- What a step can do to stored users and to the record of deactivations. -/
inductive UsersEffect (s : ActivityState) : ActivityEvent → ActivityState → Prop
  | keeps (e : ActivityEvent) (t : ActivityState) :
      s.accounts.users.Retains User.isActive t.accounts.users →
      t.deactivated = s.deactivated → UsersEffect s e t
  | activates (i : Nat) (o : AccountOutcome) (t : ActivityState) (id : Nat) (row : User) :
      s.loaded[i]? = some (id, row) → row.isActive = false → o.userRefused = none →
      t.accounts.users = s.accounts.users.set id { row with isActive := true } →
      t.deactivated = s.deactivated → UsersEffect s (.writeVerification i o) t
  | sets (userId : Nat) (isActive : Bool) (t : ActivityState) (user : User) :
      s.accounts.users.get userId = some user →
      t.accounts.users = s.accounts.users.set userId { user with isActive } →
      t.deactivated =
        (if isActive then s.deactivated.filter (· ≠ userId) else userId :: s.deactivated) →
      UsersEffect s (.setActive userId isActive) t

private theorem retains_of_eq {a b : Table User} (h : b = a) : a.Retains User.isActive b :=
  h ▸ Table.Retains.refl

/-- A registration leaves the stored users. -/
theorem registerInactiveUser_retains {a : Accounts} {username email password : String}
    {mail : MailOutcome} {o : AccountOutcome} :
    a.users.Retains User.isActive
      (registerInactiveUser unicode a username email password mail o).1.users := by
  unfold registerInactiveUser
  split
  · exact .refl
  · next b id hcreate =>
    obtain ⟨rfl, rfl, -⟩ := createUser_eq_ok hcreate
    split
    · exact Table.retains_add
    · split
      · intro k row hrow
        refine ⟨row, Table.get_deleteWhere.mpr ⟨Table.get_add_of_get hrow, decide_eq_false ?_⟩, rfl⟩
        have hlt := Table.lt_next_of_get hrow
        omega
      · exact Table.retains_add

/-- A linking call leaves the stored users. -/
theorem LinkOutcome.retains {provider sub : String} {May : Nat → User → Prop} {New : Prop}
    {a b : Accounts} {r : Except LinkError Nat} (h : LinkOutcome provider sub May New a b r) :
    a.users.Retains User.isActive b.users := by
  cases h with
  | refused _ husers _ => exact retains_of_eq husers
  | known _ husers _ _ => exact retains_of_eq husers
  | attached _ _ _ _ _ _ _ husers _ => exact retains_of_eq husers
  | abandoned _ _ _ husers _ => exact husers ▸ Table.retains_add
  | created _ _ _ _ _ _ husers _ => exact husers ▸ Table.retains_add

/-- Every step is of one of the three kinds. -/
theorem activityStep_effect (h : activityStep unicode s e = some t) : UsersEffect s e t := by
  cases e with
  | tick => cases h; exact .keeps _ _ .refl rfl
  | register => cases h; exact .keeps _ _ registerInactiveUser_retains rfl
  | openVerification token =>
    simp only [activityStep] at h
    split at h
    · split at h
      · cases h; exact .keeps _ _ .refl rfl
      · cases h; exact .keeps _ _ .refl rfl
    · cases h
  | writeVerification i o =>
    simp only [activityStep] at h
    split at h
    · cases h
    · next id row hloaded =>
      cases h
      unfold activateVerified
      split
      · exact .keeps _ _ (retains_of_eq (ensurePersonalOrganization_frame _ _ _ _).1) rfl
      · next hrow =>
        split
        · exact .keeps _ _ .refl rfl
        · next hrefused =>
          exact .activates i o _ id row hloaded (by simpa using hrow) hrefused
            (ensurePersonalOrganization_frame _ _ _ _).1 rfl
  | login username password o =>
    simp only [activityStep] at h
    split at h
    · cases h; exact .keeps _ _ .refl rfl
    · cases h; exact .keeps _ _ (retains_of_eq (ensurePersonalOrganization_frame _ _ _ _).1) rfl
  | oauthLogin => cases h; exact .keeps _ _ linkOrCreateUser_outcome.retains rfl
  | oauthLink session provider claims o =>
    simp only [activityStep] at h
    split at h
    · cases h; exact .keeps _ _ .refl rfl
    · cases h; exact .keeps _ _ linkUserToProvider_outcome.retains rfl
  | endSession => cases h; exact .keeps _ _ .refl rfl
  | generateApiKey userId plaintext expiresAt =>
    simp only [activityStep] at h
    split at h
    · cases h; exact .keeps _ _ .refl rfl
    · cases h; exact .keeps _ _ .refl rfl
  | revokeApiKey id =>
    simp only [activityStep] at h
    split at h
    · cases h; exact .keeps _ _ .refl rfl
    · cases h; exact .keeps _ _ .refl rfl
  | request => cases h; exact .keeps _ _ .refl rfl
  | connect => cases h; exact .keeps _ _ .refl rfl
  | message => cases h; exact .keeps _ _ .refl rfl
  | disconnect => cases h; exact .keeps _ _ .refl rfl
  | setActive userId isActive =>
    simp only [activityStep] at h
    split at h
    · cases h; exact .keeps _ _ .refl rfl
    · next user hget =>
      cases h
      exact .sets userId isActive _ user hget rfl rfl

/-- The deactivated accounts are stored, and inactive. -/
def ActivityState.Settled (s : ActivityState) : Prop :=
  ∀ userId ∈ s.deactivated, ∃ row, s.accounts.users.get userId = some row ∧ row.isActive = false

/-- The deactivated accounts are stored. -/
def ActivityState.Stored (s : ActivityState) : Prop :=
  ∀ userId ∈ s.deactivated, ∃ row, s.accounts.users.get userId = some row

private theorem not_active_of_inactive {a : Accounts} {userId : Nat} {row : User}
    (hget : a.users.get userId = some row) (h : row.isActive = false) : ¬ a.Active userId := by
  rintro ⟨other, hother, hactive⟩
  obtain rfl := Option.some.inj (hget.symm.trans hother)
  rw [h] at hactive
  cases hactive

/-- No step deletes a deactivated account. -/
theorem stored_step (hs : s.Stored) (h : activityStep unicode s e = some t) : t.Stored := by
  intro userId hmem
  cases activityStep_effect h with
  | keeps _ _ hretains hsame =>
    obtain ⟨row, hrow⟩ := hs userId (hsame ▸ hmem)
    obtain ⟨row', hrow', -⟩ := hretains userId row hrow
    exact ⟨row', hrow'⟩
  | activates i o _ id row _ _ _ husers hsame =>
    obtain ⟨old, hold⟩ := hs userId (hsame ▸ hmem)
    rw [husers, Table.get_set]
    split
    · next he => exact ⟨_, by rw [← he, hold]; rfl⟩
    · exact ⟨old, hold⟩
  | sets id isActive _ user hget husers hsame =>
    rw [husers, Table.get_set]
    split
    · next he => exact ⟨_, by rw [hget]; rfl⟩
    · next hne =>
      rw [hsame] at hmem
      split at hmem
      · exact hs userId (List.mem_filter.mp hmem).1
      · rcases List.mem_cons.mp hmem with rfl | hmem
        · exact absurd rfl hne
        · exact hs userId hmem

/-- A step that meets the condition leaves the deactivated accounts inactive. -/
theorem settled_step (hs : s.Settled) (hc : SparesInactive s e)
    (h : activityStep unicode s e = some t) : t.Settled := by
  intro userId hmem
  cases activityStep_effect h with
  | keeps _ _ hretains hsame =>
    obtain ⟨row, hrow, hinactive⟩ := hs userId (hsame ▸ hmem)
    obtain ⟨row', hrow', hactive⟩ := hretains userId row hrow
    exact ⟨row', hrow', hactive.trans hinactive⟩
  | activates i o _ id row hloaded hinactive hrefused husers hsame =>
    rw [hsame] at hmem
    have hne : userId ≠ id := fun he ↦ hc (id, row) hloaded hinactive hrefused (he ▸ hmem)
    rw [husers, Table.get_set_of_ne hne]
    exact hs userId hmem
  | sets id isActive _ user hget husers hsame =>
    rw [hsame] at hmem
    rw [husers]
    cases isActive with
    | true =>
      obtain ⟨hmem, hne⟩ := List.mem_filter.mp hmem
      rw [Table.get_set_of_ne (by simpa using hne)]
      exact hs userId hmem
    | false =>
      by_cases he : userId = id
      · subst he
        exact ⟨_, Table.get_set_self hget, rfl⟩
      · rw [Table.get_set_of_ne he]
        rcases List.mem_cons.mp hmem with rfl | hmem
        · exact absurd rfl he
        · exact hs userId hmem

/-- A step that breaks the condition serves an inactive account, or activates a deactivated one. -/
theorem spares_of_servesActive (hs : s.Stored) (h : activityStep unicode s e = some t)
    (hx : ServesActive ⟨s, e, t⟩) : SparesInactive s e := by
  cases e with
  | connect originAllowed session =>
    intro horigin id hid userId hget
    apply hx.active
    obtain rfl := Option.mem_def.mp hid
    simp [ActivityState.serves, ActivityState.onConnect, horigin, hget]
  | message connection msg =>
    intro userId hconnection hpermission hmember
    exact hx.active userId (authorizedMessage_eq_some.mpr ⟨hconnection, hpermission, hmember⟩)
  | writeVerification i o =>
    rintro ⟨id, row⟩ hloaded hinactive hrefused hmem
    obtain ⟨old, hold⟩ := hs id hmem
    simp only [activityStep, Option.mem_def.mp hloaded] at h
    cases h
    refine hx.deactivated id hmem ⟨{ row with isActive := true }, ?_, rfl⟩
    have hwrite : activateVerified s.accounts id row o = ensurePersonalOrganization
        (s.accounts.updateUser id { row with isActive := true }) id row.username o := by
      rw [activateVerified, if_neg (by simpa using hinactive), hrefused]
    rw [hwrite, (ensurePersonalOrganization_frame _ _ _ _).1]
    exact Table.get_set_self hold
  | tick => trivial
  | register => trivial
  | openVerification => trivial
  | login => trivial
  | oauthLogin => trivial
  | oauthLink => trivial
  | endSession => trivial
  | generateApiKey => trivial
  | revokeApiKey => trivial
  | request => trivial
  | disconnect => trivial
  | setActive => trivial

end Effects

/-! ## Runs -/

/-- Exactly the runs that spare inactive accounts serve active accounts only and never activate an
account that an administrator has deactivated. -/
theorem active_accounts_served_iff (unicode : Unicode) (now : Int) {tr : List ActivityTransition}
    {s : ActivityState} (h : Run (activityStep unicode) (.init now) tr s) :
    (∀ x ∈ tr, SparesInactive x.before x.action) ↔ ∀ x ∈ tr, ServesActive x := by
  constructor
  · intro hc
    have hrun := h.safe_of_condition (I := ActivityState.Settled)
      (C := fun x ↦ SparesInactive x.before x.action) (P := ServesActive)
      (by simp [ActivityState.Settled, ActivityState.init])
      (fun a e b ha hb hspares ↦ by
        have hsettled := settled_step ha hspares hb
        refine ⟨hsettled, fun userId hserved ↦ serves_active hspares hserved, ?_⟩
        intro userId hmem
        obtain ⟨row, hrow, hinactive⟩ := hsettled userId hmem
        exact not_active_of_inactive hrow hinactive) hc
    exact fun x hx ↦ (hrun.2 x hx).2
  · intro hserves x hx
    obtain ⟨hstored, hstep⟩ := h.forall_before (I := ActivityState.Stored)
      (by simp [ActivityState.Stored, ActivityState.init])
      (fun a e b ha hb ↦ stored_step ha hb) x hx
    exact spares_of_servesActive hstored hstep (hserves x hx)

section Examples

private def quietly : AccountOutcome := ⟨"alice", "alice-0a1b2c", none, none, none⟩

/-- Alice registers, verifies her email, signs in and opens a socket; an administrator deactivates
her account; she subscribes on the socket and opens the verification link once more. -/
def aliceStays : List ActivityEvent :=
  [.register "alice" "alice@example.com" "secret" ⟨true, true⟩ quietly,
    .openVerification (.ok (emailVerificationToken 0 0)), .writeVerification 0 quietly,
    .login "alice" "secret" quietly, .connect true (some 0), .setActive 0 false,
    .message 0 (.subscribe ["1"]), .openVerification (.ok (emailVerificationToken 0 0)),
    .writeVerification 0 quietly]

/-- The deactivated account is served on its socket, and its verification link activates it. -/
theorem deactivated_account_served :
    ∃ (tr : List ActivityTransition) (s : ActivityState),
      Run (activityStep asciiUnicode) (.init 0) tr s ∧
      (∃ x ∈ tr, x.before.serves x.action = some 0 ∧
        (x.before.accounts.users.get 0).map User.isActive = some false ∧ 0 ∈ x.before.deactivated) ∧
      0 ∈ s.deactivated ∧ (s.accounts.users.get 0).map User.isActive = some true := by
  have hrun : ∃ s, execute (activityStep asciiUnicode) (.init 0) aliceStays = some s ∧
      0 ∈ s.deactivated ∧ (s.accounts.users.get 0).map User.isActive = some true :=
    ⟨_, rfl, by decide, by decide⟩
  obtain ⟨s, hs, hmem, hactive⟩ := hrun
  refine ⟨_, s, Run.of_execute aliceStays hs, ?_, hmem, hactive⟩
  exact ⟨(transitions (activityStep asciiUnicode) (.init 0) aliceStays).get ⟨6, by decide⟩,
    List.get_mem _ _, by decide, by decide, by decide⟩

/-- Alice signs in at GitHub and uses the dashboard until an administrator deactivates her. -/
def aliceLeaves : List ActivityEvent :=
  [.oauthLogin "github" ⟨"1001", some "alice@example.com", some true, none, some "alice"⟩ quietly,
    .generateApiKey 0 "rct_1" none, .request (some 0) none, .request none (some "rct_1"),
    .setActive 0 false, .request (some 0) (some "rct_1")]

/-- Her requests are served, the last one is not. -/
theorem alice_served_while_active :
    ∃ (tr : List ActivityTransition) (s : ActivityState),
      Run (activityStep asciiUnicode) (.init 0) tr s ∧ s.deactivated = [0] ∧
        ∀ x ∈ tr, ServesActive x := by
  have hrun : ∃ s, execute (activityStep asciiUnicode) (.init 0) aliceLeaves = some s ∧
      s.deactivated = [0] := ⟨_, rfl, by decide⟩
  obtain ⟨s, hs, hdeactivated⟩ := hrun
  refine ⟨_, s, Run.of_execute aliceLeaves hs, hdeactivated,
    (active_accounts_served_iff asciiUnicode 0 (Run.of_execute aliceLeaves hs)).mp fun x hx ↦ ?_⟩
  have hmem := action_mem_of_mem_transitions hx
  generalize x.action = e at hmem
  simp only [aliceLeaves, List.mem_cons, List.not_mem_nil, or_false] at hmem
  rcases hmem with rfl | rfl | rfl | rfl | rfl | rfl <;> trivial

end Examples

end ReinhardtCloud.Dashboard
