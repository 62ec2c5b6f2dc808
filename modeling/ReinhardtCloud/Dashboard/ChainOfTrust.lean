import ReinhardtCloud.Dashboard.AccountActivity

/-!
# What a request proves

Library `Dashboard`. Every request that is served for a user goes back to something that only the
user can have: a password that they registered and an email that they opened, an identity that a
provider vouched for, or a key that was generated for them. The chain is read off the history.
-/

namespace ReinhardtCloud.Dashboard

open ReinhardtCloud.Base

/-- What a caller can show. -/
inductive Credential where
  | password (username text : String)
  | identity (provider sub : String)
  | session (id : Nat)
  | bearer (id : Nat) (text : String) (expiresAt : Option Int)
  | connection (id : Nat)
  deriving DecidableEq

/-- The event takes the credential back. -/
def Ends : ActivityEvent → Credential → Prop
  | .endSession session, .session id => session = id
  | .revokeApiKey key, .bearer id _ _ => key = id
  | .disconnect connection, .connection id => connection = id
  | _, _ => False

/-- The step creates the user. -/
def Creates (userId : Nat) (x : ActivityTransition) : Prop :=
  x.before.accounts.users.get userId = none ∧ (x.after.accounts.users.get userId).isSome

/-- The step registers the user, under the name and with the password. -/
def Registers (userId : Nat) (username password : String) (x : ActivityTransition) : Prop :=
  ∃ typed email mail o, x.action = .register typed email password mail o ∧
    trim typed = username ∧ Creates userId x

/-- The step sends the token to the email address that a user registers with. -/
def Mails (unicode : Unicode) (payload : TokenPayload) (x : ActivityTransition) : Prop :=
  ∃ username email password mail o userId, x.action = .register username email password mail o ∧
    (registerInactiveUser unicode x.before.accounts username email password mail o).2 =
      .ok userId ∧
    payload = emailVerificationToken userId x.before.now

/-- The token that was sent to the user's email address has been opened in time. -/
def Opened (unicode : Unicode) (history : List ActivityTransition) (userId : Nat) : Prop :=
  ∃ x ∈ history, ∃ payload, x.action = .openVerification (.ok payload) ∧ payload.userId = userId ∧
    x.before.now ≤ payload.expiryTs ∧ ∃ y ∈ history, Mails unicode payload y

/-- The user's account has been activated, by an administrator or by their email. -/
def Activated (unicode : Unicode) (history : List ActivityTransition) (userId : Nat) : Prop :=
  (∃ x ∈ history, x.action = .setActive userId true ∧
    (x.before.accounts.users.get userId).isSome) ∨ Opened unicode history userId

/-- The history vouches for the user of a credential. -/
inductive Vouched (unicode : Unicode) :
    List ActivityTransition → Credential → Nat → Prop
  /-- The name and password that an account was registered with which has been activated. -/
  | password {history : List ActivityTransition} {userId : Nat} {username text : String}
      (x : ActivityTransition) : x ∈ history → Registers userId username text x →
      Activated unicode history userId → Vouched unicode history (.password username text) userId
  /-- A sign-in with the identity linked it to the user, whom it created or whose email the
  provider has verified. -/
  | signedUp {history : List ActivityTransition} {userId : Nat} {claims : StandardClaims}
      (x : ActivityTransition) (provider : String) (o : AccountOutcome) : x ∈ history →
      x.action = .oauthLogin provider claims o →
      x.after.accounts.Linked provider claims.sub userId →
      (Creates userId x ∨ ∃ row, x.before.accounts.users.get userId = some row ∧
        MayAttach unicode claims none userId row) →
      Vouched unicode history (.identity provider claims.sub) userId
  /-- The user has linked the identity from a session of theirs. -/
  | linked {before after : List ActivityTransition} {userId : Nat} {claims : StandardClaims}
      (x : ActivityTransition) (session : Nat) (provider : String) (o : AccountOutcome) :
      x.action = .oauthLink session provider claims o →
      x.after.accounts.Linked provider claims.sub userId →
      Vouched unicode before (.session session) userId →
      Vouched unicode (before ++ x :: after) (.identity provider claims.sub) userId
  /-- A session was opened for the user with the name and password, and has not been ended. -/
  | login {before after : List ActivityTransition} {userId : Nat} {text : String}
      (x : ActivityTransition) (username : String) (o : AccountOutcome) :
      x.action = .login username text o →
      x.after.sessions.get x.before.sessions.next = some userId →
      Vouched unicode before (.password (trim username) text) userId →
      (∀ y ∈ after, ¬ Ends y.action (.session x.before.sessions.next)) →
      Vouched unicode (before ++ x :: after) (.session x.before.sessions.next) userId
  /-- A session was opened for the user with the identity, and has not been ended. -/
  | oauthLogin {before after : List ActivityTransition} {userId : Nat} {claims : StandardClaims}
      (x : ActivityTransition) (provider : String) (o : AccountOutcome) :
      x.action = .oauthLogin provider claims o →
      x.after.sessions.get x.before.sessions.next = some userId →
      Vouched unicode (before ++ [x]) (.identity provider claims.sub) userId →
      (∀ y ∈ after, ¬ Ends y.action (.session x.before.sessions.next)) →
      Vouched unicode (before ++ x :: after) (.session x.before.sessions.next) userId
  /-- A key was generated for the user, and has not been revoked. -/
  | generated {before after : List ActivityTransition} {userId : Nat} {text : String}
      {expiresAt : Option Int} (x : ActivityTransition) :
      x.action = .generateApiKey userId text expiresAt →
      x.after.apiKeys.get x.before.apiKeys.next = some ⟨userId, text, expiresAt, none⟩ →
      (∀ y ∈ after, ¬ Ends y.action (.bearer x.before.apiKeys.next text expiresAt)) →
      Vouched unicode (before ++ x :: after) (.bearer x.before.apiKeys.next text expiresAt) userId
  /-- A socket was opened from a session and an allowed origin, and has not been closed. -/
  | connected {before after : List ActivityTransition} {userId : Nat} (x : ActivityTransition)
      (session : Nat) : x.action = .connect true (some session) →
      x.after.connections.get x.before.connections.next = some userId →
      Vouched unicode before (.session session) userId →
      (∀ y ∈ after, ¬ Ends y.action (.connection x.before.connections.next)) →
      Vouched unicode (before ++ x :: after) (.connection x.before.connections.next) userId

/-- The credentials that an event shows; an expired key is none. -/
def Shows (now : Int) : ActivityEvent → Credential → Prop
  | .request session _, .session id => session = some id
  | .request _ bearer, .bearer _ text expiresAt => bearer = some text ∧ ∀ t ∈ expiresAt, now < t
  | .connect originAllowed session, .session id => originAllowed = true ∧ session = some id
  | .message connection _, .connection id => connection = id
  | .login typed password _, .password username text => trim typed = username ∧ password = text
  | .oauthLink session _ _ _, .session id => session = id
  | _, _ => False

/-! ## What stays vouched for -/

section Histories

variable {unicode : Unicode} {history : List ActivityTransition} {x : ActivityTransition}
  {userId : Nat}

theorem Opened.append (h : Opened unicode history userId) (x : ActivityTransition) :
    Opened unicode (history ++ [x]) userId := by
  obtain ⟨y, hy, payload, haction, huser, htime, z, hz, hmails⟩ := h
  exact ⟨y, List.mem_append_left _ hy, payload, haction, huser, htime, z, List.mem_append_left _ hz,
    hmails⟩

theorem Activated.append (h : Activated unicode history userId) (x : ActivityTransition) :
    Activated unicode (history ++ [x]) userId := by
  rcases h with ⟨y, hy, hactive⟩ | hopened
  · exact .inl ⟨y, List.mem_append_left _ hy, hactive⟩
  · exact .inr (hopened.append x)

/-- A credential stays until the event that ends it. -/
theorem Vouched.append {c : Credential} (h : Vouched unicode history c userId)
    (hends : ¬ Ends x.action c) : Vouched unicode (history ++ [x]) c userId := by
  have hafter {after : List ActivityTransition} (hkept : ∀ y ∈ after, ¬ Ends y.action c) :
      ∀ y ∈ after ++ [x], ¬ Ends y.action c := by
    intro y hy
    rcases List.mem_append.mp hy with hy | hy
    · exact hkept y hy
    · exact List.mem_singleton.mp hy ▸ hends
  cases h with
  | password y hy hregisters hactivated =>
    exact .password y (List.mem_append_left _ hy) hregisters (hactivated.append x)
  | signedUp y provider o hy haction hlinked hchosen =>
    exact .signedUp y provider o (List.mem_append_left _ hy) haction hlinked hchosen
  | linked y session provider o haction hlinked hsession =>
    rw [List.append_assoc, List.cons_append]
    exact .linked y session provider o haction hlinked hsession
  | login y username o haction hopened hpassword hkept =>
    rw [List.append_assoc, List.cons_append]
    exact .login y username o haction hopened hpassword (hafter hkept)
  | oauthLogin y provider o haction hopened hidentity hkept =>
    rw [List.append_assoc, List.cons_append]
    exact .oauthLogin y provider o haction hopened hidentity (hafter hkept)
  | generated y haction hstored hkept =>
    rw [List.append_assoc, List.cons_append]
    exact .generated y haction hstored (hafter hkept)
  | connected y session haction hopened hsession hkept =>
    rw [List.append_assoc, List.cons_append]
    exact .connected y session haction hopened hsession (hafter hkept)

end Histories

/-! ## What a step adds -/

section Steps

variable {unicode : Unicode} {s t : ActivityState} {e : ActivityEvent} {userId : Nat}

theorem ok_of_toOption {ε α : Type} {r : Except ε α} {a : α} (h : r.toOption = some a) :
    r = .ok a := by
  cases r with
  | error e => cases h
  | ok b => exact congrArg Except.ok (Option.some.inj h)

/-- Users that are registered have the name and password and are not active yet. -/
theorem get_registerInactiveUser {a : Accounts} {username email password : String}
    {mail : MailOutcome} {o : AccountOutcome} {row : User}
    (h : (registerInactiveUser unicode a username email password mail o).1.users.get userId =
      some row) :
    a.users.get userId = some row ∨
      a.users.next = userId ∧ row.username = trim username ∧ row.passwordHash = some password ∧
        row.isActive = false := by
  rw [registerInactiveUser] at h
  split at h
  · exact .inl h
  · next b id hcreate =>
    obtain ⟨rfl, rfl, -⟩ := createUser_eq_ok hcreate
    have hadded {row : User} (hget : (a.users.add ⟨trim username, unicode.toLowercase (trim email),
        some password, false, false, false⟩).get userId = some row) :
        a.users.get userId = some row ∨
          a.users.next = userId ∧ row.username = trim username ∧
            row.passwordHash = some password ∧ row.isActive = false := by
      rw [Table.get_add] at hget
      split at hget
      · next heq =>
        obtain rfl := Option.some.inj hget
        exact .inr ⟨heq.symm, rfl, rfl, rfl⟩
      · exact .inl hget
    split at h
    · exact hadded h
    · split at h
      · exact hadded (Table.get_deleteWhere.mp h).1
      · exact hadded h

/-- A registration leaves the stored users. -/
theorem keeps_registerInactiveUser {a : Accounts} {username email password : String}
    {mail : MailOutcome} {o : AccountOutcome} {row : User}
    (h : a.users.get userId = some row) :
    (registerInactiveUser unicode a username email password mail o).1.users.get userId =
      some row := by
  rw [registerInactiveUser]
  split
  · exact h
  · next b id hcreate =>
    obtain ⟨rfl, rfl, -⟩ := createUser_eq_ok hcreate
    split
    · exact Table.get_add_of_get h
    · split
      · refine Table.get_deleteWhere.mpr ⟨Table.get_add_of_get h, decide_eq_false ?_⟩
        have hlt := Table.lt_next_of_get h
        omega
      · exact Table.get_add_of_get h

/-- A registration adds no link. -/
theorem linked_registerInactiveUser {a : Accounts} {username email password provider sub : String}
    {mail : MailOutcome} {o : AccountOutcome}
    (h : (registerInactiveUser unicode a username email password mail o).1.Linked provider sub
      userId) : a.Linked provider sub userId := by
  rw [registerInactiveUser] at h
  split at h
  · exact h
  · next b id hcreate =>
    obtain ⟨rfl, rfl, -⟩ := createUser_eq_ok hcreate
    split at h
    · exact h
    · split at h
      · obtain ⟨k, link, hget, hlink⟩ := h
        exact ⟨k, link, (Table.get_deleteWhere.mp hget).1, hlink⟩
      · exact h

/-- Whoever an identity signs in is linked to it. -/
theorem LinkOutcome.linked_of_ok {provider sub : String} {May : Nat → User → Prop} {New : Prop}
    {a b : Accounts} (h : LinkOutcome provider sub May New a b (.ok userId)) :
    b.Linked provider sub userId := by
  cases h with
  | known _ _ hlinks hlinked => exact (linked_congr hlinks _ _ _).mpr hlinked
  | attached _ _ _ _ _ _ _ _ hlinks => exact (linked_add hlinks _ _ _).mpr (.inr ⟨rfl, rfl, rfl⟩)
  | created _ _ _ _ _ _ _ hlinks => exact (linked_add hlinks _ _ _).mpr (.inr ⟨rfl, rfl, rfl⟩)

/-- A user that a sign-in creates has no password. -/
theorem createOauthUser_passwordHash {a b : Accounts} {provider : String} {claims : StandardClaims}
    {o : AccountOutcome} (h : createOauthUser unicode a provider claims o = .ok (b, userId)) :
    ∃ row : User, row.passwordHash = none ∧ b = { a with users := a.users.add row } := by
  rw [createOauthUser] at h
  split at h
  · cases h
  · dsimp only at h
    split at h
    · cases h
    · split at h
      · cases h
      · next r hr =>
        cases h
        exact ⟨_, rfl, (createUser_eq_ok hr).1⟩

theorem users_ensureUserHasPersonalOrganization (a : Accounts) (id : Nat) (username : String)
    (o : AccountOutcome) : (ensureUserHasPersonalOrganization a id username o).1.users =
      a.users := by
  have husers := (ensurePersonalOrganization_frame a id username o).1
  rw [ensureUserHasPersonalOrganization]
  split
  · next b e hb =>
    rw [hb] at husers
    exact husers
  · next b hb =>
    rw [hb] at husers
    exact husers

theorem users_attachIdentity (a : Accounts) (provider : String) (claims : StandardClaims)
    (id : Nat) (username : String) (o : AccountOutcome) :
    (attachIdentity a provider claims id username o).1.users = a.users := by
  have husers := (ensurePersonalOrganization_frame a id username o).1
  rw [attachIdentity]
  split
  · next b e hb =>
    rw [hb] at husers
    exact husers
  · next b hb =>
    rw [hb] at husers
    split
    · exact husers
    · next c hc =>
      obtain ⟨-, -, -, rfl⟩ := createLink_eq_ok hc
      exact husers

/-- A sign-in with an identity leaves the users, or adds one without a password. -/
theorem users_linkOrCreateUser (a : Accounts) (provider : String) (claims : StandardClaims)
    (o : AccountOutcome) :
    (linkOrCreateUser unicode a provider claims none o).1.users = a.users ∨
      ∃ row : User, row.passwordHash = none ∧
        (linkOrCreateUser unicode a provider claims none o).1.users = a.users.add row := by
  rw [linkOrCreateUser]
  split
  · exact .inl rfl
  · split
    · split
      · exact .inl rfl
      · exact .inl (users_ensureUserHasPersonalOrganization a _ _ o)
    · split
      · exact .inl (users_attachIdentity a provider claims _ _ o)
      · split
        · exact .inl rfl
        · next b id hcreate =>
          obtain ⟨row, hrow, rfl⟩ := createOauthUser_passwordHash hcreate
          exact .inr ⟨row, hrow, users_attachIdentity _ provider claims _ _ o⟩

/-- Which events touch which part of the dashboard. -/
structure StepFrame (s : ActivityState) (e : ActivityEvent) (t : ActivityState) : Prop where
  sessions : t.sessions = s.sessions ∨ (∃ username password o, e = .login username password o) ∨
    (∃ provider claims o, e = .oauthLogin provider claims o) ∨ ∃ session, e = .endSession session
  apiKeys : t.apiKeys = s.apiKeys ∨
    (∃ user plaintext expiresAt, e = .generateApiKey user plaintext expiresAt) ∨
    ∃ key, e = .revokeApiKey key
  connections : t.connections = s.connections ∨
    (∃ originAllowed session, e = .connect originAllowed session) ∨
    ∃ connection, e = .disconnect connection
  loaded : t.loaded = s.loaded ∨ (∃ token, e = .openVerification token) ∨
    ∃ i o, e = .writeVerification i o
  issued : t.issued = s.issued ∨
    ∃ username email password mail o, e = .register username email password mail o
  links : t.accounts.socialAccounts = s.accounts.socialAccounts ∨
    (∃ username email password mail o, e = .register username email password mail o) ∨
    (∃ provider claims o, e = .oauthLogin provider claims o) ∨
    ∃ session provider claims o, e = .oauthLink session provider claims o
  users : t.accounts.users = s.accounts.users ∨
    (∃ username email password mail o, e = .register username email password mail o) ∨
    (∃ i o, e = .writeVerification i o) ∨
    (∃ provider claims o, e = .oauthLogin provider claims o) ∨
    ∃ user isActive, e = .setActive user isActive

/-- A step that touches nothing. -/
theorem StepFrame.refl (s : ActivityState) (e : ActivityEvent) : StepFrame s e s :=
  ⟨.inl rfl, .inl rfl, .inl rfl, .inl rfl, .inl rfl, .inl rfl, .inl rfl⟩

theorem stepFrame (h : activityStep unicode s e = some t) : StepFrame s e t := by
  cases e with
  | register username email password mail o =>
    cases h
    exact ⟨.inl rfl, .inl rfl, .inl rfl, .inl rfl, .inr ⟨_, _, _, _, _, rfl⟩,
      .inr (.inl ⟨_, _, _, _, _, rfl⟩), .inr (.inl ⟨_, _, _, _, _, rfl⟩)⟩
  | openVerification token =>
    rw [activityStep] at h
    split at h
    · split at h
      · cases h
        exact .refl s _
      · cases h
        exact ⟨.inl rfl, .inl rfl, .inl rfl, .inr (.inl ⟨_, rfl⟩), .inl rfl, .inl rfl, .inl rfl⟩
    · cases h
  | writeVerification i o =>
    rw [activityStep] at h
    split at h
    · cases h
    · next id row hloaded =>
      cases h
      refine ⟨.inl rfl, .inl rfl, .inl rfl, .inr (.inr ⟨_, _, rfl⟩), .inl rfl, .inl ?_,
        .inr (.inr (.inl ⟨_, _, rfl⟩))⟩
      show (activateVerified s.accounts id row o).1.socialAccounts = _
      rw [activateVerified]
      split
      · exact (ensurePersonalOrganization_frame _ _ _ _).2
      · split
        · rfl
        · exact (ensurePersonalOrganization_frame _ _ _ _).2
  | login username password o =>
    rw [activityStep] at h
    split at h
    · cases h
      exact .refl s _
    · cases h
      exact ⟨.inr (.inl ⟨_, _, _, rfl⟩), .inl rfl, .inl rfl, .inl rfl, .inl rfl,
        .inl (ensurePersonalOrganization_frame _ _ _ _).2,
        .inl (ensurePersonalOrganization_frame _ _ _ _).1⟩
  | oauthLogin provider claims o =>
    cases h
    exact ⟨.inr (.inr (.inl ⟨_, _, _, rfl⟩)), .inl rfl, .inl rfl, .inl rfl, .inl rfl,
      .inr (.inr (.inl ⟨_, _, _, rfl⟩)), .inr (.inr (.inr (.inl ⟨_, _, _, rfl⟩)))⟩
  | oauthLink session provider claims o =>
    rw [activityStep] at h
    split at h
    · cases h
      exact .refl s _
    · next id row hcurrent =>
      cases h
      refine ⟨.inl rfl, .inl rfl, .inl rfl, .inl rfl, .inl rfl,
        .inr (.inr (.inr ⟨_, _, _, _, rfl⟩)), .inl ?_⟩
      show (linkUserToProvider s.accounts provider claims id row o).1.users = _
      rw [linkUserToProvider]
      split
      · rfl
      · split
        · split
          · rfl
          · exact users_ensureUserHasPersonalOrganization _ _ _ o
        · exact users_attachIdentity _ _ _ _ _ o
  | generateApiKey user plaintext expiresAt =>
    rw [activityStep] at h
    split at h
    · cases h
      exact .refl s _
    · cases h
      exact ⟨.inl rfl, .inr (.inl ⟨_, _, _, rfl⟩), .inl rfl, .inl rfl, .inl rfl, .inl rfl, .inl rfl⟩
  | revokeApiKey key =>
    rw [activityStep] at h
    split at h
    · cases h
      exact .refl s _
    · cases h
      exact ⟨.inl rfl, .inr (.inr ⟨_, rfl⟩), .inl rfl, .inl rfl, .inl rfl, .inl rfl, .inl rfl⟩
  | setActive user isActive =>
    rw [activityStep] at h
    split at h
    · cases h
      exact .refl s _
    · cases h
      exact ⟨.inl rfl, .inl rfl, .inl rfl, .inl rfl, .inl rfl, .inl rfl,
        .inr (.inr (.inr (.inr ⟨_, _, rfl⟩)))⟩
  | endSession session =>
    cases h
    exact ⟨.inr (.inr (.inr ⟨_, rfl⟩)), .inl rfl, .inl rfl, .inl rfl, .inl rfl, .inl rfl, .inl rfl⟩
  | connect originAllowed session =>
    cases h
    exact ⟨.inl rfl, .inl rfl, .inr (.inl ⟨_, _, rfl⟩), .inl rfl, .inl rfl, .inl rfl, .inl rfl⟩
  | disconnect connection =>
    cases h
    exact ⟨.inl rfl, .inl rfl, .inr (.inr ⟨_, rfl⟩), .inl rfl, .inl rfl, .inl rfl, .inl rfl⟩
  | tick seconds =>
    cases h
    exact ⟨.inl rfl, .inl rfl, .inl rfl, .inl rfl, .inl rfl, .inl rfl, .inl rfl⟩
  | request session bearer =>
    cases h
    exact .refl s _
  | message connection msg =>
    cases h
    exact .refl s _

/-! ## Where credentials come from -/

theorem get_openSession {sessions : Table Nat} {opened : Option Nat} {id : Nat}
    (h : (openSession sessions opened).get id = some userId) :
    sessions.get id = some userId ∨ id = sessions.next ∧ opened = some userId := by
  cases opened with
  | none => exact .inl h
  | some other =>
    rw [openSession, Table.get_add] at h
    split at h
    · next heq => exact .inr ⟨heq, h⟩
    · exact .inl h

/-- A session is older than the step, and is not ended by it, or the step opens it. -/
theorem sessions_of_step {id : Nat} (h : activityStep unicode s e = some t)
    (hget : t.sessions.get id = some userId) :
    s.sessions.get id = some userId ∧ ¬ Ends e (.session id) ∨ id = s.sessions.next ∧
      ((∃ username password o user, e = .login username password o ∧
        s.verifyCredentials username password = .ok (userId, user)) ∨
      ∃ provider claims o, e = .oauthLogin provider claims o ∧
        t.accounts.Linked provider claims.sub userId) := by
  rcases (stepFrame h).sessions with hsame | ⟨username, password, o, rfl⟩ |
    ⟨provider, claims, o, rfl⟩ | ⟨session, rfl⟩
  · rw [hsame] at hget
    refine .inl ⟨hget, ?_⟩
    cases e with
    | endSession session =>
      cases h
      rintro rfl
      have hgone := (Table.get_deleteWhere.mp (hsame.symm ▸ hget)).2
      exact of_decide_eq_false hgone rfl
    | _ => exact fun hends ↦ hends
  · rw [activityStep] at h
    split at h
    · cases h
      exact .inl ⟨hget, fun hends ↦ hends⟩
    · next user hverified =>
      cases h
      rcases get_openSession hget with hold | ⟨hid, hopened⟩
      · exact .inl ⟨hold, fun hends ↦ hends⟩
      · obtain ⟨-, -, rfl⟩ := Option.map_eq_some_iff.mp hopened
        exact .inr ⟨hid, .inl ⟨username, password, o, user, rfl, hverified⟩⟩
  · cases h
    rcases get_openSession hget with hold | ⟨hid, hopened⟩
    · exact .inl ⟨hold, fun hends ↦ hends⟩
    · have houtcome := @linkOrCreateUser_outcome unicode s.accounts provider claims o none
      rw [ok_of_toOption hopened] at houtcome
      exact .inr ⟨hid, .inr ⟨provider, claims, o, rfl, houtcome.linked_of_ok⟩⟩
  · cases h
    obtain ⟨hold, hother⟩ := Table.get_deleteWhere.mp hget
    exact .inl ⟨hold, fun hends ↦ of_decide_eq_false hother hends.symm⟩

/-- A socket is older than the step, and is not closed by it, or the step opens it. -/
theorem connections_of_step {id : Nat} (h : activityStep unicode s e = some t)
    (hget : t.connections.get id = some userId) :
    s.connections.get id = some userId ∧ ¬ Ends e (.connection id) ∨
      id = s.connections.next ∧ ∃ session, e = .connect true (some session) ∧
        s.sessions.get session = some userId := by
  rcases (stepFrame h).connections with hsame | ⟨originAllowed, session, rfl⟩ | ⟨connection, rfl⟩
  · rw [hsame] at hget
    refine .inl ⟨hget, ?_⟩
    cases e with
    | disconnect connection =>
      cases h
      rintro rfl
      have hgone := (Table.get_deleteWhere.mp (hsame.symm ▸ hget)).2
      exact of_decide_eq_false hgone rfl
    | _ => exact fun hends ↦ hends
  · cases h
    rcases get_openSession hget with hold | ⟨hid, hopened⟩
    · exact .inl ⟨hold, fun hends ↦ hends⟩
    · rw [ActivityState.onConnect] at hopened
      cases originAllowed with
      | false => cases hopened
      | true =>
        obtain ⟨shown, rfl, hshown⟩ := Option.bind_eq_some_iff.mp hopened
        exact .inr ⟨hid, shown, rfl, hshown⟩
  · cases h
    obtain ⟨hold, hother⟩ := Table.get_deleteWhere.mp hget
    exact .inl ⟨hold, fun hends ↦ of_decide_eq_false hother hends.symm⟩

/-- A key that is not revoked is older than the step, and is not revoked by it, or the step
generates it. -/
theorem apiKeys_of_step {id : Nat} {key : ApiKey} (h : activityStep unicode s e = some t)
    (hget : t.apiKeys.get id = some key) (hrevoked : key.revokedAt = none) :
    s.apiKeys.get id = some key ∧ ¬ Ends e (.bearer id key.tokenHash key.expiresAt) ∨
      id = s.apiKeys.next ∧ e = .generateApiKey key.user key.tokenHash key.expiresAt := by
  have hrevoke {revoked : Nat} (h : activityStep unicode s (.revokeApiKey revoked) = some t) :
      s.apiKeys.get id = some key ∧ revoked ≠ id := by
    rw [activityStep] at h
    split at h
    · next hnone =>
      cases h
      refine ⟨hget, ?_⟩
      rintro rfl
      rw [hnone] at hget
      cases hget
    · next old hold =>
      cases h
      rw [Table.get_set] at hget
      split at hget
      · rw [hold] at hget
        obtain rfl := Option.some.inj hget
        cases hrevoked
      · next hother => exact ⟨hget, fun heq ↦ hother heq.symm⟩
  rcases (stepFrame h).apiKeys with hsame | ⟨user, plaintext, expiresAt, rfl⟩ | ⟨revoked, rfl⟩
  · cases e with
    | revokeApiKey revoked =>
      obtain ⟨hold, hother⟩ := hrevoke h
      exact .inl ⟨hold, hother⟩
    | _ => exact .inl ⟨hsame ▸ hget, fun hends ↦ hends⟩
  · rw [activityStep] at h
    split at h
    · cases h
      exact .inl ⟨hget, fun hends ↦ hends⟩
    · cases h
      rw [Table.get_add] at hget
      split at hget
      · next heq =>
        obtain rfl := Option.some.inj hget
        exact .inr ⟨heq, rfl⟩
      · exact .inl ⟨hget, fun hends ↦ hends⟩
  · obtain ⟨hold, hother⟩ := hrevoke h
    exact .inl ⟨hold, hother⟩

/-- A link is older than the step, or the step makes it, for the identity that it is about. -/
theorem links_of_step {provider sub : String} (h : activityStep unicode s e = some t)
    (hlinked : t.accounts.Linked provider sub userId) :
    s.accounts.Linked provider sub userId ∨
    (∃ claims o, e = .oauthLogin provider claims o ∧ claims.sub = sub ∧
      (Creates userId ⟨s, e, t⟩ ∨ ∃ row, s.accounts.users.get userId = some row ∧
        MayAttach unicode claims none userId row)) ∨
    ∃ session claims o, e = .oauthLink session provider claims o ∧ claims.sub = sub ∧
      s.sessions.get session = some userId := by
  by_cases hold : s.accounts.Linked provider sub userId
  · exact .inl hold
  refine .inr ?_
  rcases (stepFrame h).links with hsame | ⟨username, email, password, mail, o, rfl⟩ |
    ⟨provider', claims, o, rfl⟩ | ⟨session, provider', claims, o, rfl⟩
  · exact absurd ((linked_congr hsame _ _ _).mp hlinked) hold
  · cases h
    exact absurd (linked_registerInactiveUser hlinked) hold
  · cases h
    obtain ⟨rfl, rfl, hchosen⟩ :=
      (@linkOrCreateUser_outcome unicode s.accounts provider' claims o none).new_link hold hlinked
    refine .inl ⟨claims, o, rfl, rfl, ?_⟩
    rcases hchosen with hmay | ⟨-, hcreates⟩
    · exact .inr hmay
    · exact .inl hcreates
  · rw [activityStep] at h
    split at h
    · cases h
      exact absurd hlinked hold
    · next id row hcurrent =>
      cases h
      obtain ⟨rfl, rfl, hchosen⟩ := linkUserToProvider_outcome.new_link hold hlinked
      obtain ⟨-, -, rfl⟩ := hchosen.resolve_right fun hnew ↦ hnew.1
      obtain ⟨shown, hshown, hmap⟩ := Option.bind_eq_some_iff.mp hcurrent
      obtain ⟨user, -, heq⟩ := Option.map_eq_some_iff.mp hmap
      obtain ⟨rfl, -⟩ := Prod.mk.inj heq
      exact .inr ⟨session, claims, o, rfl, rfl, hshown⟩

/-- A token is older than the step, or the step sends it. -/
theorem issued_of_step {payload : TokenPayload} (h : activityStep unicode s e = some t)
    (hmem : payload ∈ t.issued) : payload ∈ s.issued ∨ Mails unicode payload ⟨s, e, t⟩ := by
  rcases (stepFrame h).issued with hsame | ⟨username, email, password, mail, o, rfl⟩
  · exact .inl (hsame ▸ hmem)
  · cases h
    rcases List.mem_append.mp hmem with hold | hnew
    · exact .inl hold
    · unfold issueToken at hnew
      split at hnew
      · next id hregistered =>
        exact .inr ⟨username, email, password, mail, o, id, rfl, hregistered,
          List.mem_singleton.mp hnew⟩
      · cases hnew

/-- A loaded row is older than the step, or the step loads it for the token that it opens. -/
theorem loaded_of_step {q : Nat × User} (h : activityStep unicode s e = some t)
    (hmem : q ∈ t.loaded) : q ∈ s.loaded ∨ ∃ payload, e = .openVerification (.ok payload) ∧
      payload ∈ s.issued ∧ payload.userId = q.1 ∧ s.now ≤ payload.expiryTs ∧
      s.accounts.users.get q.1 = some q.2 := by
  rcases (stepFrame h).loaded with hsame | ⟨token, rfl⟩ | ⟨i, o, rfl⟩
  · exact .inl (hsame ▸ hmem)
  · rw [activityStep] at h
    split at h
    · next hissued =>
      split at h
      · cases h
        exact .inl hmem
      · next p hload =>
        cases h
        rcases List.mem_append.mp hmem with hold | hnew
        · exact .inl hold
        · obtain rfl := List.mem_singleton.mp hnew
          refine .inr ?_
          have hverified : ∃ id, verifyToken token .emailVerification "" s.now = .ok id ∧
              s.accounts.users.get id = some q.2 ∧ q.1 = id := by
            rw [loadForVerification] at hload
            split at hload
            · cases hload
            · cases hload
            · next id hid =>
              split at hload
              · cases hload
              · next row hrow =>
                cases hload
                exact ⟨id, hid, hrow, rfl⟩
          obtain ⟨id, hid, hrow, hq⟩ := hverified
          cases token with
          | error error => cases hid
          | ok payload =>
            have hpayload : payload.userId = id ∧ s.now ≤ payload.expiryTs := by
              rw [verifyToken] at hid
              split at hid
              · cases hid
              · split at hid
                · cases hid
                · next hexpiry =>
                  split at hid
                  · cases hid
                  · cases hid
                    exact ⟨rfl, Int.not_lt.mp hexpiry⟩
            refine ⟨payload, rfl, of_decide_eq_true hissued, ?_, hpayload.2, hq ▸ hrow⟩
            rw [hq]
            exact hpayload.1
    · cases h
  · rw [activityStep] at h
    split at h
    · cases h
    · cases h
      exact .inl (List.mem_of_mem_eraseIdx hmem)

/-- What a login compares. -/
def User.credentials (user : User) : String × Option String := (user.username, user.passwordHash)

/-- The rows that verifications have loaded have the names and passwords of the stored ones. -/
def LoadedFresh (s : ActivityState) : Prop :=
  ∀ q ∈ s.loaded, ∃ row, s.accounts.users.get q.1 = some row ∧ row.credentials = q.2.credentials

/-- What becomes of a stored user: name and password stay, and the account is activated by an
administrator or by a verification. -/
theorem users_of_step {row : User} {text : String} (h : activityStep unicode s e = some t)
    (hloaded : LoadedFresh s) (hget : t.accounts.users.get userId = some row)
    (hpassword : row.passwordHash = some text) :
    (∃ old, s.accounts.users.get userId = some old ∧ old.credentials = row.credentials ∧
      (row.isActive = true → old.isActive = true ∨ e = .setActive userId true ∨
        ∃ q ∈ s.loaded, q.1 = userId)) ∨
    Registers userId row.username text ⟨s, e, t⟩ ∧ row.isActive = false := by
  have hsame (hget : s.accounts.users.get userId = some row) : ∃ old,
      s.accounts.users.get userId = some old ∧ old.credentials = row.credentials ∧
        (row.isActive = true → old.isActive = true ∨ e = .setActive userId true ∨
          ∃ q ∈ s.loaded, q.1 = userId) := ⟨row, hget, rfl, .inl⟩
  rcases (stepFrame h).users with husers | ⟨username, email, password, mail, o, rfl⟩ |
    ⟨i, o, rfl⟩ | ⟨provider, claims, o, rfl⟩ | ⟨user, isActive, rfl⟩
  · exact .inl (hsame (husers ▸ hget))
  · cases h
    rcases get_registerInactiveUser hget with hold | ⟨hnext, hname, hhash, hinactive⟩
    · exact .inl (hsame hold)
    · obtain rfl := Option.some.inj (hhash.symm.trans hpassword)
      exact .inr ⟨⟨username, email, mail, o, rfl, hname.symm,
        Table.get_eq_none_of_next_le hnext.le, Option.isSome_iff_exists.mpr ⟨row, hget⟩⟩, hinactive⟩
  · rw [activityStep] at h
    split at h
    · cases h
    · next id loaded hrow =>
      cases h
      rw [activateVerified] at hget
      split at hget
      · rw [(ensurePersonalOrganization_frame _ _ _ _).1] at hget
        exact .inl (hsame hget)
      · split at hget
        · exact .inl (hsame hget)
        · rw [(ensurePersonalOrganization_frame _ _ _ _).1, Accounts.updateUser,
            Table.get_set] at hget
          split at hget
          · next heq =>
            subst heq
            obtain ⟨old, hold, hsame'⟩ := hloaded _ (List.mem_of_getElem? hrow)
            rw [hold] at hget
            obtain rfl := Option.some.inj hget
            exact .inl ⟨old, hold, hsame',
              fun _ ↦ .inr (.inr ⟨_, List.mem_of_getElem? hrow, rfl⟩)⟩
          · exact .inl (hsame hget)
  · cases h
    rcases users_linkOrCreateUser s.accounts provider claims o with husers | ⟨new, hhash, husers⟩
    · exact .inl (hsame (husers ▸ hget))
    · rw [husers, Table.get_add] at hget
      split at hget
      · obtain rfl := Option.some.inj hget
        rw [hhash] at hpassword
        cases hpassword
      · exact .inl (hsame hget)
  · rw [activityStep] at h
    split at h
    · cases h
      exact .inl (hsame hget)
    · next old hold =>
      cases h
      rw [Accounts.updateUser, Table.get_set] at hget
      split at hget
      · next heq =>
        subst heq
        rw [hold] at hget
        obtain rfl := Option.some.inj hget
        refine .inl ⟨old, hold, rfl, ?_⟩
        rintro rfl
        exact .inr (.inl rfl)
      · exact .inl (hsame hget)

/-- Stored users stay, with their names and passwords. -/
theorem retains_credentials (h : activityStep unicode s e = some t) (hloaded : LoadedFresh s) :
    s.accounts.users.Retains User.credentials t.accounts.users := by
  rcases (stepFrame h).users with husers | ⟨username, email, password, mail, o, rfl⟩ |
    ⟨i, o, rfl⟩ | ⟨provider, claims, o, rfl⟩ | ⟨user, isActive, rfl⟩
  · rw [husers]
    exact .refl
  · cases h
    exact fun k row hrow ↦ ⟨row, keeps_registerInactiveUser hrow, rfl⟩
  · rw [activityStep] at h
    split at h
    · cases h
    · next id loaded hrow =>
      cases h
      rw [activateVerified]
      split
      · rw [(ensurePersonalOrganization_frame _ _ _ _).1]
        exact .refl
      · split
        · exact .refl
        · rw [(ensurePersonalOrganization_frame _ _ _ _).1]
          apply Table.retains_set
          intro old hold
          obtain ⟨stored, hstored, hsame⟩ := hloaded _ (List.mem_of_getElem? hrow)
          obtain rfl := Option.some.inj (hold.symm.trans hstored)
          exact hsame.symm
  · cases h
    rcases users_linkOrCreateUser s.accounts provider claims o with husers | ⟨new, -, husers⟩
    · rw [husers]
      exact .refl
    · rw [husers]
      exact Table.retains_add
  · rw [activityStep] at h
    split at h
    · cases h
      exact .refl
    · next old hold =>
      cases h
      apply Table.retains_set
      intro other hother
      rw [hold] at hother
      obtain rfl := Option.some.inj hother
      rfl

end Steps

/-! ## Runs -/

/-- Alice signs in at GitHub and generates a key. -/
def aliceSignsUp : List ActivityEvent :=
  [.oauthLogin "github" ⟨"1001", some "alice@example.com", some true, none, some "alice"⟩
      ⟨"alice", "alice-0a1b2c", none, none, none⟩,
    .generateApiKey 0 "rct_1" none]

section Runs

variable {unicode : Unicode} {history : List ActivityTransition} {s t : ActivityState}
  {e : ActivityEvent} {userId : Nat}

/-- The history accounts for everything that the dashboard trusts. -/
structure Trusted (unicode : Unicode) (history : List ActivityTransition) (s : ActivityState) :
    Prop where
  issued : ∀ payload ∈ s.issued, ∃ x ∈ history, Mails unicode payload x
  fresh : LoadedFresh s
  loaded : ∀ q ∈ s.loaded, Opened unicode history q.1
  password : ∀ userId row text, s.accounts.users.get userId = some row →
    row.passwordHash = some text → (∃ x ∈ history, Registers userId row.username text x) ∧
      (row.isActive = true → Activated unicode history userId)
  identity : ∀ provider sub userId, s.accounts.Linked provider sub userId →
    Vouched unicode history (.identity provider sub) userId
  session : ∀ id userId, s.sessions.get id = some userId →
    Vouched unicode history (.session id) userId
  apiKey : ∀ id key, s.apiKeys.get id = some key → key.revokedAt = none →
    Vouched unicode history (.bearer id key.tokenHash key.expiresAt) key.user
  connection : ∀ id userId, s.connections.get id = some userId →
    Vouched unicode history (.connection id) userId

theorem trusted_init (now : Int) : Trusted unicode [] (.init now) where
  issued _ h := absurd h List.not_mem_nil
  fresh _ h := absurd h List.not_mem_nil
  loaded _ h := absurd h List.not_mem_nil
  password _ _ _ h := by cases h
  identity := by
    rintro _ _ _ ⟨k, link, hget, -⟩
    cases hget
  session _ _ h := by cases h
  apiKey _ _ h := by cases h
  connection _ _ h := by cases h

/-- An active account vouches for its name and password. -/
theorem Trusted.vouched_password (h : Trusted unicode history s) {username text : String}
    {user : User} (hverified : s.verifyCredentials username text = .ok (userId, user)) :
    Vouched unicode history (.password (trim username) text) userId := by
  rw [ActivityState.verifyCredentials] at hverified
  split at hverified
  · cases hverified
  · next id row hfirst =>
    split at hverified
    · cases hverified
    · next hhash =>
      split at hverified
      · cases hverified
      · next hactive =>
        cases hverified
        obtain ⟨hget, hname⟩ := Table.first_eq_some hfirst
        obtain ⟨⟨x, hx, hregisters⟩, hactivated⟩ :=
          h.password userId user text hget (not_not.mp hhash)
        rw [of_decide_eq_true hname] at hregisters
        exact .password x hx hregisters (hactivated (by simpa using hactive))

/-- Every step keeps that. -/
theorem Trusted.step (h : Trusted unicode history s) (hstep : activityStep unicode s e = some t) :
    Trusted unicode (history ++ [⟨s, e, t⟩]) t := by
  have hlast : (⟨s, e, t⟩ : ActivityTransition) ∈ history ++ [⟨s, e, t⟩] :=
    List.mem_append_right _ List.mem_cons_self
  have hmails {payload : TokenPayload} (hmem : payload ∈ s.issued) :
      ∃ x ∈ history ++ [⟨s, e, t⟩], Mails unicode payload x := by
    obtain ⟨x, hx, hmails⟩ := h.issued payload hmem
    exact ⟨x, List.mem_append_left _ hx, hmails⟩
  have hidentity : ∀ provider sub userId, t.accounts.Linked provider sub userId →
      Vouched unicode (history ++ [⟨s, e, t⟩]) (.identity provider sub) userId := by
    intro provider sub userId hlinked
    rcases links_of_step hstep hlinked with hold | ⟨claims, o, rfl, rfl, hchosen⟩ |
      ⟨session, claims, o, rfl, rfl, hsession⟩
    · exact (h.identity provider sub userId hold).append fun hends ↦ by cases e <;> exact hends
    · exact .signedUp _ provider o hlast rfl hlinked hchosen
    · exact .linked _ session provider o rfl hlinked (h.session session userId hsession)
  refine ⟨?_, ?_, ?_, ?_, hidentity, ?_, ?_, ?_⟩
  · intro payload hmem
    rcases issued_of_step hstep hmem with hold | hnew
    · exact hmails hold
    · exact ⟨_, hlast, hnew⟩
  · intro q hq
    have hstored : ∃ row, s.accounts.users.get q.1 = some row ∧
        row.credentials = q.2.credentials := by
      rcases loaded_of_step hstep hq with hold | ⟨payload, -, -, -, -, hrow⟩
      · exact h.fresh q hold
      · exact ⟨q.2, hrow, rfl⟩
    obtain ⟨row, hrow, hsame⟩ := hstored
    obtain ⟨row', hrow', hsame'⟩ := retains_credentials hstep h.fresh q.1 row hrow
    exact ⟨row', hrow', hsame'.trans hsame⟩
  · intro q hq
    rcases loaded_of_step hstep hq with hold | ⟨payload, rfl, hissued, huser, htime, -⟩
    · exact (h.loaded q hold).append _
    · exact ⟨_, hlast, payload, rfl, huser, htime, hmails hissued⟩
  · intro userId row text hget hhash
    rcases users_of_step hstep h.fresh hget hhash with ⟨old, hold, hsame, hactive⟩ |
      ⟨hregisters, hinactive⟩
    · obtain ⟨hname, hhash'⟩ := Prod.mk.inj hsame
      obtain ⟨⟨x, hx, hregisters⟩, hactivated⟩ :=
        h.password userId old text hold (hhash'.trans hhash)
      refine ⟨⟨x, List.mem_append_left _ hx, hname ▸ hregisters⟩, ?_⟩
      intro hrow
      rcases hactive hrow with hbefore | rfl | ⟨q, hq, rfl⟩
      · exact (hactivated hbefore).append _
      · exact .inl ⟨_, hlast, rfl, Option.isSome_iff_exists.mpr ⟨old, hold⟩⟩
      · exact .inr ((h.loaded q hq).append _)
    · refine ⟨⟨_, hlast, hregisters⟩, ?_⟩
      intro hrow
      rw [hinactive] at hrow
      cases hrow
  · intro id userId hget
    rcases sessions_of_step hstep hget with ⟨hold, hends⟩ |
      ⟨rfl, ⟨username, password, o, user, rfl, hverified⟩ | ⟨provider, claims, o, rfl, hlinked⟩⟩
    · exact (h.session id userId hold).append hends
    · exact .login _ username o rfl hget (h.vouched_password hverified) fun _ hy ↦ by cases hy
    · exact .oauthLogin _ provider o rfl hget (hidentity provider claims.sub userId hlinked)
        fun _ hy ↦ by cases hy
  · intro id key hget hrevoked
    rcases apiKeys_of_step hstep hget hrevoked with ⟨hold, hends⟩ | ⟨rfl, rfl⟩
    · exact (h.apiKey id key hold hrevoked).append hends
    · refine .generated _ rfl ?_ fun _ hy ↦ by cases hy
      rw [← hrevoked]
      exact hget
  · intro id userId hget
    rcases connections_of_step hstep hget with ⟨hold, hends⟩ | ⟨rfl, session, rfl, hsession⟩
    · exact (h.connection id userId hold).append hends
    · exact .connected _ session rfl hget (h.session session userId hsession)
        fun _ hy ↦ by cases hy

theorem trusted_of_run {now : Int} (h : Run (activityStep unicode) (.init now) history s) :
    Trusted unicode history s := by
  induction h with
  | nil => exact trusted_init now
  | snoc _ hstep ih => exact ih.step hstep

/-- A key that is accepted is stored, not revoked and not expired. -/
theorem verifyApiKey_eq_some {text : String} {user : User}
    (h : s.verifyApiKey text = some (userId, user)) : ∃ id key, s.apiKeys.get id = some key ∧
      key.tokenHash = text ∧ key.user = userId ∧ key.revokedAt = none ∧
        ∀ expiry ∈ key.expiresAt, s.now < expiry := by
  rw [ActivityState.verifyApiKey] at h
  split at h
  · cases h
  · next id key hfirst =>
    obtain ⟨hget, hhash⟩ := Table.first_eq_some hfirst
    split at h
    · cases h
    · next hrevoked =>
      split at h
      · cases h
      · next hexpired =>
        refine ⟨id, key, hget, of_decide_eq_true hhash, ?_,
          Option.not_isSome_iff_eq_none.mp hrevoked, ?_⟩
        · split at h
          · cases h
          · split at h
            · cases h
            · cases h
              rfl
        · intro expiry hexpiry
          by_contra hlate
          refine hexpired ((Option.any_eq_true _ _).mpr ⟨expiry, hexpiry, ?_⟩)
          exact decide_eq_true (Int.not_lt.mp hlate)

/-- The middlewares authorise the owner of the key, or the user of the session. -/
theorem authState_cases {session : Option Nat} {bearer : Option String}
    (h : (s.authState session bearer).userId? = some userId) :
    (∃ text, bearer = some text ∧ ∃ user, s.verifyApiKey text = some (userId, user)) ∨
      session.bind s.sessions.get = some userId := by
  rw [ActivityState.authState] at h
  split at h
  · next id isAdmin isActive hbearer =>
    obtain rfl := Option.some.inj h
    obtain ⟨text, rfl, hresolved⟩ := Option.map_eq_some_iff.mp hbearer
    rw [ActivityState.resolveAuthStateForBearer] at hresolved
    split at hresolved
    · next owner user hkey =>
      cases hresolved
      exact .inl ⟨text, rfl, user, hkey⟩
    · cases hresolved
  · rw [ActivityState.validatedAuthState] at h
    split at h
    · cases h
    · next id hsession =>
      split at h
      · split at h
        · obtain rfl := Option.some.inj h
          exact .inr hsession
        · cases h
      · cases h

/-- Whatever event is served for a user in whatever state of the dashboard shows a credential that
the history vouches for: a session, key or socket that was not taken back, and which goes back to a
name and password registered for an account that was activated, to an identity that signed the user
up, that has their verified email or that they linked themselves, or to a generated key. -/
theorem served_by_proof {now : Int} (h : Run (activityStep unicode) (.init now) history s)
    (hserves : s.serves e = some userId) :
    ∃ c, Shows s.now e c ∧ Vouched unicode history c userId := by
  have htrusted := trusted_of_run h
  have hshown {session : Option Nat} (hsession : session.bind s.sessions.get = some userId) :
      ∃ id, session = some id ∧ Vouched unicode history (.session id) userId := by
    obtain ⟨id, rfl, hget⟩ := Option.bind_eq_some_iff.mp hsession
    exact ⟨id, rfl, htrusted.session id userId hget⟩
  cases e with
  | request session bearer =>
    rcases authState_cases hserves with ⟨text, rfl, user, hkey⟩ | hsession
    · obtain ⟨id, key, hget, rfl, rfl, hrevoked, hexpiry⟩ := verifyApiKey_eq_some hkey
      exact ⟨.bearer id key.tokenHash key.expiresAt, ⟨rfl, hexpiry⟩,
        htrusted.apiKey id key hget hrevoked⟩
    · obtain ⟨id, rfl, hvouched⟩ := hshown hsession
      exact ⟨.session id, rfl, hvouched⟩
  | connect originAllowed session =>
    replace hserves : s.onConnect originAllowed session = some userId := hserves
    rw [ActivityState.onConnect] at hserves
    split at hserves
    · cases hserves
    · next horigin =>
      obtain ⟨id, rfl, hvouched⟩ := hshown hserves
      exact ⟨.session id, ⟨by simpa using horigin, rfl⟩, hvouched⟩
  | message connection msg =>
    obtain ⟨hconnection, -, -⟩ := authorizedMessage_eq_some.mp hserves
    exact ⟨.connection connection, rfl, htrusted.connection connection userId hconnection⟩
  | login username password o =>
    obtain ⟨⟨id, user⟩, hverified, rfl⟩ := Option.map_eq_some_iff.mp hserves
    exact ⟨.password (trim username) password, ⟨rfl, rfl⟩,
      htrusted.vouched_password (ok_of_toOption hverified)⟩
  | oauthLink session provider claims o =>
    obtain ⟨⟨id, user⟩, hcurrent, rfl⟩ := Option.map_eq_some_iff.mp hserves
    obtain ⟨shown, hsession, hmap⟩ := Option.bind_eq_some_iff.mp hcurrent
    obtain ⟨row, -, heq⟩ := Option.map_eq_some_iff.mp hmap
    obtain ⟨rfl, -⟩ := Prod.mk.inj heq
    exact ⟨.session session, rfl, htrusted.session session _ hsession⟩
  | _ => cases hserves

/-- Alice has signed in at GitHub and generated a key: the requests with her session and with the
key are hers. -/
theorem served_by_proof_alice : ∃ s, execute (activityStep asciiUnicode) (.init 0) aliceSignsUp =
      some s ∧ ∀ e ∈ [.request (some 0) none, .request none (some "rct_1")],
        s.serves e = some 0 ∧ ∃ c, Shows s.now e c ∧
          Vouched asciiUnicode (transitions (activityStep asciiUnicode) (.init 0) aliceSignsUp) c
            0 := by
  have hrun : ∃ s, execute (activityStep asciiUnicode) (.init 0) aliceSignsUp = some s ∧
      s.serves (.request (some 0) none) = some 0 ∧
      s.serves (.request none (some "rct_1")) = some 0 := ⟨_, rfl, by decide, by decide⟩
  obtain ⟨s, hs, hsession, hkey⟩ := hrun
  have hproof {e : ActivityEvent} (hserves : s.serves e = some 0) :=
    served_by_proof (Run.of_execute aliceSignsUp hs) hserves
  refine ⟨s, hs, List.forall_mem_cons.mpr ⟨⟨hsession, hproof hsession⟩, ?_⟩⟩
  exact List.forall_mem_singleton.mpr ⟨hkey, hproof hkey⟩

end Runs

end ReinhardtCloud.Dashboard
