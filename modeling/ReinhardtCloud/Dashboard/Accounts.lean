import Mathlib.Data.List.MinMax
import ReinhardtCloud.Base.Table
import ReinhardtCloud.Dashboard.Manifest

/-!
# User accounts

Library `Dashboard`. Users, their links to provider identities and their personal organizations
(`dashboard/src/apps/auth/`, `apps/organizations/`), with the constraints of the tables. A call
returns what it has stored even when it fails. Ids are numbers, timestamps and display columns are
left out, and a password hash is the password itself: Argon2 accepts the password it hashed.
-/

namespace ReinhardtCloud.Dashboard

open ReinhardtCloud.Base

/-- `User`, `auth/models/user.rs`. -/
structure User where
  username : String
  email : String
  passwordHash : Option String
  isActive : Bool
  isStaff : Bool
  isSuperuser : Bool
  deriving DecidableEq

/-- `SocialAccount`, `auth/models/social_account.rs`. -/
structure SocialAccount where
  user : Nat
  provider : String
  providerUserId : String
  providerUsername : Option String
  deriving DecidableEq

/-- `Organization`, `organizations/models/organization.rs`. -/
structure Organization where
  slug : String
  name : String
  createdBy : Nat
  deriving DecidableEq

/-- `MembershipRole`, `organizations/roles.rs:24–29`. -/
inductive MembershipRole where
  | viewer
  | developer
  | admin
  | owner
  deriving DecidableEq

/-- `OrganizationMembership`; the `CHECK` on the column admits no other text than the roles'. -/
structure OrganizationMembership where
  organization : Nat
  user : Nat
  role : MembershipRole
  deriving DecidableEq

/-- The tables. -/
structure Accounts where
  users : Table User
  socialAccounts : Table SocialAccount
  organizations : Table Organization
  memberships : Table OrganizationMembership

/-- Nothing stored. -/
def Accounts.empty : Accounts := ⟨.empty, .empty, .empty, .empty⟩

/-- Why the database refuses a write. -/
inductive DatabaseError where
  | uniqueViolation
  | foreignKeyViolation
  | other (message : String)
  deriving DecidableEq

/-- `AppError` of the handlers. -/
inductive AppError where
  | validation (message : String)
  | authentication (message : String)
  | authorization (message : String)
  | notFound (message : String)
  | internal (message : String)
  | database (error : DatabaseError)
  deriving DecidableEq

/-- What one call draws and meets: the slugs derived from the username and random UUIDs, and the
writes that the database refuses for reasons of its own. -/
structure AccountOutcome where
  slug : String
  retrySlug : String
  userRefused : Option DatabaseError
  organizationRefused : Option DatabaseError
  linkRefused : Option DatabaseError

/-- A call that draws two slugs and meets no failure. -/
def AccountOutcome.quiet (slug : String) : AccountOutcome :=
  ⟨slug, slug ++ "-0a1b2c", none, none, none⟩

/-- The Unicode tables of the standard library. -/
structure Unicode where
  toLowercase : String → String
  isAlphanumeric : Char → Bool

/-- The tables for ASCII text. -/
def asciiUnicode : Unicode :=
  ⟨fun text ↦ String.ofList (text.toList.map Char.toLower), Char.isAlphanum⟩

/-! ## Rows -/

namespace Accounts

variable (s : Accounts)

/-- Insert a user; username and email are unique, also an empty email. -/
def createUser (row : User) (o : AccountOutcome) : Except DatabaseError (Accounts × Nat) :=
  match o.userRefused with
  | some e => .error e
  | none =>
    if (s.users.first fun u ↦ u.username = row.username || u.email = row.email).isSome then
      .error .uniqueViolation
    else .ok ({ s with users := s.users.add row }, s.users.next)

/-- A full-row update of a user. -/
def updateUser (id : Nat) (row : User) : Accounts := { s with users := s.users.set id row }

/-- Delete a user with all that belongs to them. -/
def deleteUser (id : Nat) : Accounts where
  users := s.users.deleteWhere fun k _ ↦ k = id
  socialAccounts := s.socialAccounts.deleteWhere fun _ row ↦ row.user = id
  organizations := s.organizations.deleteWhere fun _ row ↦ row.createdBy = id
  memberships := s.memberships.deleteWhere fun _ row ↦
    row.user = id || (s.organizations.get row.organization).any fun org ↦ org.createdBy = id

end Accounts

/-! ## Personal organizations -/

/-- The oldest row that meets the filter. -/
def oldest {Row : Type} (t : Table Row) (p : Row → Bool) : Option (Nat × Row) :=
  (t.all p).argmin Prod.fst

/-- `provision_personal_organization_tx`, `services/registration.rs:167–242`; a failed transaction
leaves nothing. -/
def provisionPersonalOrganizationTx (s : Accounts) (userId : Nat) (username slug : String)
    (o : AccountOutcome) : Except AppError Accounts :=
  match o.organizationRefused with
  | some e => .error (.database e)
  | none =>
    if (s.users.get userId).isNone then .error (.internal "Personal Org user no longer exists")
    else
      match oldest s.organizations fun org ↦ org.createdBy = userId with
      | some (organization, _) =>
        match s.memberships.first fun m ↦ m.organization = organization && m.user = userId with
        | some (_, membership) =>
          if membership.role = .owner then .ok s
          else .error (.internal "Personal Organization membership is not owner")
        | none =>
          .error (.authorization "Personal Organization membership is no longer active")
      | none =>
        if (s.organizations.first fun org ↦ org.slug = slug).isSome then
          .error (.database .uniqueViolation)
        else .ok { s with
          organizations := s.organizations.add ⟨slug, username, userId⟩
          memberships := s.memberships.add ⟨s.organizations.next, userId, .owner⟩ }

/-- `ensure_personal_organization`, `services/registration.rs:111–165`: a slug that is taken is
retried once with a suffix. -/
def ensurePersonalOrganization (s : Accounts) (userId : Nat) (username : String)
    (o : AccountOutcome) : Accounts × Except AppError Unit :=
  let attempt := provisionPersonalOrganizationTx s userId username
  let result :=
    match attempt o.slug o with
    | .error (.database .uniqueViolation) => attempt o.retrySlug o
    | r => r
  match result with
  | .ok t => (t, .ok ())
  | .error (.authorization message) => (s, .error (.authorization message))
  | .error _ => (s, .error (.internal "Internal server error"))

/-! ## Registration and email verification -/

/-- What the mail server and the deletion after a failed mail answer. -/
structure MailOutcome where
  sent : Bool
  rolledBack : Bool

/-- `register_inactive_user`, `services/registration.rs:43–96`. -/
def registerInactiveUser (unicode : Unicode) (s : Accounts) (username email password : String)
    (mail : MailOutcome) (o : AccountOutcome) : Accounts × Except AppError Nat :=
  match s.createUser ⟨trim username, unicode.toLowercase (trim email), some password,
      false, false, false⟩ o with
  | .error e => (s, .error (.database e))
  | .ok (t, id) =>
    if mail.sent then (t, .ok id)
    else (if mail.rolledBack then t.deleteUser id else t,
      .error (.internal "Registration failed - please try again later"))

/-- `TokenPurpose`, `services/token.rs:25–30`. -/
inductive TokenPurpose where
  | emailVerification
  | passwordReset
  deriving DecidableEq

/-- What a token says under the HMAC of the dashboard's key, `services/token.rs:84–106`. -/
structure TokenPayload where
  purpose : TokenPurpose
  userId : Nat
  expiryTs : Int
  hashPrefix : String
  deriving DecidableEq

/-- `TokenError`, `services/token.rs:52–64`. -/
inductive TokenError where
  | expired
  | invalidSignature
  | malformedToken
  | purposeMismatch
  deriving DecidableEq

/-- `generate_token` of an email verification. -/
def emailVerificationToken (userId : Nat) (now : Int) : TokenPayload :=
  ⟨.emailVerification, userId, now + 86400, ""⟩

/-- `verify_token`, `services/token.rs:112–159`; a text that is not of the token format, or not
under the dashboard's signature, has no payload. -/
def verifyToken (token : Except TokenError TokenPayload) (expectedPurpose : TokenPurpose)
    (hashPrefix : String) (now : Int) : Except TokenError Nat :=
  match token with
  | .error e => .error e
  | .ok payload =>
    if payload.purpose ≠ expectedPurpose then .error .purposeMismatch
    else if payload.expiryTs < now then .error .expired
    else if payload.hashPrefix ≠ hashPrefix then .error .invalidSignature
    else .ok payload.userId

/-- The checks of `verify_email` and the row it loads, `server_urls/account.rs:22–41`. -/
def loadForVerification (s : Accounts) (token : Except TokenError TokenPayload) (now : Int) :
    Except AppError (Nat × User) :=
  match verifyToken token .emailVerification "" now with
  | .error .expired => .error (.validation "Verification link has expired")
  | .error _ => .error (.validation "Invalid verification link")
  | .ok userId =>
    match s.users.get userId with
    | none => .error (.validation "Invalid verification link")
    | some row => .ok (userId, row)

/-- What `verify_email` writes for the row it has loaded, `server_urls/account.rs:43–54`. -/
def activateVerified (s : Accounts) (id : Nat) (row : User) (o : AccountOutcome) :
    Accounts × Except AppError Unit :=
  if row.isActive then ensurePersonalOrganization s id row.username o
  else
    match o.userRefused with
    | some _ => (s, .error (.internal "Internal server error"))
    | none => ensurePersonalOrganization (s.updateUser id { row with isActive := true }) id
        row.username o

/-- `verify_email`, `server_urls/account.rs:18–63`. -/
def verifyEmail (s : Accounts) (token : Except TokenError TokenPayload) (now : Int)
    (o : AccountOutcome) : Accounts × Except AppError Unit :=
  match loadForVerification s token now with
  | .error e => (s, .error e)
  | .ok (id, row) => activateVerified s id row o

/-! ## Linking provider identities -/

/-- `StandardClaims`: what the provider says about the user. -/
structure StandardClaims where
  sub : String
  email : Option String
  emailVerified : Option Bool
  name : Option String
  login : Option String
  deriving DecidableEq

/-- `LinkError`, `services/oauth/linking.rs:44–72`; `Database` keeps the error it is made from. -/
inductive LinkError where
  | missingClaim (field : String)
  | storage (error : DatabaseError)
  | database (error : AppError)
  | orphanedLink (userId : Nat)
  | noUniqueUsername
  | emailConflict (email provider : String)
  | providerAlreadyLinked (provider : String)
  | userAlreadyLinked (provider : String)
  deriving DecidableEq

section Linking

variable (unicode : Unicode) (s : Accounts) (provider : String) (claims : StandardClaims)

/-- `find_by_provider_and_uid` of the storage. -/
def Accounts.findByProviderAndUid (providerUserId : String) : Option (Nat × SocialAccount) :=
  s.socialAccounts.first fun link ↦
    link.provider = provider && link.providerUserId = providerUserId

/-- `display_name_from_claims`, `linking.rs:248–257`. -/
def displayNameFromClaims : Option String := claims.login.or claims.name

/-- `truncate_username`, `linking.rs:305–307`. -/
def truncateUsername (name : String) : String := String.ofList (name.toList.take 150)

/-- `sanitize_username`, `linking.rs:287–303`. -/
def sanitizeUsername (input : String) : String :=
  let cleaned := input.toList.map fun c ↦
    if unicode.isAlphanumeric c || c = '-' || c = '_' || c = '.' then c else '_'
  let cut (c : Char) : Bool := c = '_' || c = '.' || c = '-'
  let trimmed := ((cleaned.dropWhile cut).reverse.dropWhile cut).reverse
  truncateUsername (if trimmed.isEmpty then "user" else String.ofList trimmed)

/-- `username_exists`, `linking.rs:276–283`. -/
def usernameExists (name : String) : Bool := (s.users.first fun u ↦ u.username = name).isSome

/-- `generate_unique_username`, `linking.rs:259–274`. -/
def generateUniqueUsername : Except LinkError String :=
  let base := sanitizeUsername unicode ((displayNameFromClaims claims).getD claims.sub)
  if !usernameExists s base then .ok base
  else
    match ((List.range' 1 9999).map fun i ↦ truncateUsername s!"{base}_{i}").find? fun candidate ↦
        !usernameExists s candidate with
    | some candidate => .ok candidate
    | none => .error .noUniqueUsername

/-- `create_oauth_user`, `linking.rs:149–180`. -/
def createOauthUser (o : AccountOutcome) : Except LinkError (Accounts × Nat) :=
  match generateUniqueUsername unicode s claims with
  | .error e => .error e
  | .ok username =>
    let email := unicode.toLowercase (claims.email.getD "")
    if email ≠ "" && (s.users.first fun u ↦ u.email = email).isSome then
      .error (.emailConflict email provider)
    else
      match s.createUser ⟨username, email, none, true, false, false⟩ o with
      | .error e => .error (.database (.database e))
      | .ok r => .ok r

/-- `create_link`, `linking.rs:204–246`: the user has no link to the provider yet, and no user has
this identity. -/
def createLink (userId : Nat) (o : AccountOutcome) : Except LinkError Accounts :=
  if (s.socialAccounts.first fun link ↦ link.user = userId && link.provider = provider).isSome then
    .error (.userAlreadyLinked provider)
  else
    match o.linkRefused with
    | some e => .error (.storage e)
    | none =>
      if (s.findByProviderAndUid provider claims.sub).isSome then .error (.storage .uniqueViolation)
      else if (s.users.get userId).isNone then .error (.storage .foreignKeyViolation)
      else .ok { s with
        socialAccounts :=
          s.socialAccounts.add ⟨userId, provider, claims.sub, displayNameFromClaims claims⟩ }

/-- The end of both linking functions: the organization first, then the link. -/
def attachIdentity (userId : Nat) (username : String) (o : AccountOutcome) :
    Accounts × Except LinkError Nat :=
  match ensurePersonalOrganization s userId username o with
  | (t, .error e) => (t, .error (.database e))
  | (t, .ok _) =>
    match createLink t provider claims userId o with
    | .error e => (t, .error e)
    | .ok u => (u, .ok userId)

/-- `ensure_user_has_personal_organization`, `linking.rs:182–185`. -/
def ensureUserHasPersonalOrganization (userId : Nat) (username : String) (o : AccountOutcome) :
    Accounts × Except LinkError Nat :=
  match ensurePersonalOrganization s userId username o with
  | (t, .error e) => (t, .error (.database e))
  | (t, .ok _) => (t, .ok userId)

/-- `link_user_to_provider`, `linking.rs:80–105`, for a user and the row it was loaded with. -/
def linkUserToProvider (userId : Nat) (user : User) (o : AccountOutcome) :
    Accounts × Except LinkError Nat :=
  if claims.sub = "" then (s, .error (.missingClaim "sub"))
  else
    match s.findByProviderAndUid provider claims.sub with
    | some (_, link) =>
      if link.user ≠ userId then (s, .error (.providerAlreadyLinked provider))
      else ensureUserHasPersonalOrganization s userId user.username o
    | none => attachIdentity s provider claims userId user.username o

/-- The user with the email that the provider says it has verified, `linking.rs:128–138`. -/
def verifiedEmailMatch : Option (Nat × User) :=
  if claims.emailVerified = some true then
    match claims.email with
    | some email => s.users.first fun u ↦ u.email = unicode.toLowercase email
    | none => none
  else none

/-- `link_or_create_user`, `linking.rs:112–147`. -/
def linkOrCreateUser (currentUser : Option (Nat × User)) (o : AccountOutcome) :
    Accounts × Except LinkError Nat :=
  if claims.sub = "" then (s, .error (.missingClaim "sub"))
  else
    match s.findByProviderAndUid provider claims.sub with
    | some (_, link) =>
      match s.users.get link.user with
      | none => (s, .error (.orphanedLink link.user))
      | some user => ensureUserHasPersonalOrganization s link.user user.username o
    | none =>
      match currentUser.or (verifiedEmailMatch unicode s claims) with
      | some (userId, user) => attachIdentity s provider claims userId user.username o
      | none =>
        match createOauthUser unicode s provider claims o with
        | .error e => (s, .error e)
        | .ok (t, userId) =>
          attachIdentity t provider claims userId
            ((t.users.get userId).elim "" User.username) o

end Linking

/-! ## What the calls leave -/

section Lemmas

variable {unicode : Unicode} {s t : Accounts} {provider : String} {claims : StandardClaims}
  {id : Nat} {o : AccountOutcome}

/-- The identity is linked to the user. -/
def Accounts.Linked (s : Accounts) (provider sub : String) (id : Nat) : Prop :=
  ∃ k link, s.socialAccounts.get k = some link ∧ link.provider = provider ∧
    link.providerUserId = sub ∧ link.user = id

/-- The account is stored and active. -/
def Accounts.Active (s : Accounts) (id : Nat) : Prop :=
  ∃ row, s.users.get id = some row ∧ row.isActive = true

theorem mem_of_oldest {Row : Type} {t : Table Row} {p : Row → Bool} {k : Nat} {row : Row}
    (h : oldest t p = some (k, row)) : t.get k = some row ∧ p row = true :=
  Table.mem_all.mp (List.argmin_mem h)

theorem oldest_eq_none {Row : Type} {t : Table Row} {p : Row → Bool} :
    oldest t p = none ↔ ∀ k row, t.get k = some row → p row = false := by
  rw [oldest, List.argmin_eq_none, List.eq_nil_iff_forall_not_mem]
  constructor
  · intro h k row hrow
    by_contra hp
    exact h (k, row) (Table.mem_all.mpr ⟨hrow, by simpa using hp⟩)
  · rintro h ⟨k, row⟩ hmem
    obtain ⟨hrow, hp⟩ := Table.mem_all.mp hmem
    rw [h k row hrow] at hp
    cases hp

/-- A found identity is linked to the user of its row. -/
theorem linked_of_find {sub : String} {k : Nat} {link : SocialAccount}
    (h : s.findByProviderAndUid provider sub = some (k, link)) :
    s.Linked provider sub link.user := by
  obtain ⟨hget, hp⟩ := Table.first_eq_some h
  simp only [Bool.and_eq_true, decide_eq_true_eq] at hp
  exact ⟨k, link, hget, hp.1, hp.2, rfl⟩

/-- An identity that is not found is linked to nobody. -/
theorem not_linked_of_find {sub : String} (h : s.findByProviderAndUid provider sub = none) :
    ¬ s.Linked provider sub id := by
  rintro ⟨k, link, hget, hprovider, hsub, -⟩
  have hno := Table.first_eq_none h hget
  simp [hprovider, hsub] at hno

/-- The same rows are the same links. -/
theorem linked_congr (h : t.socialAccounts = s.socialAccounts) (p b : String) (u : Nat) :
    t.Linked p b u ↔ s.Linked p b u := by
  rw [Accounts.Linked, Accounts.Linked, h]

/-- An added row is one more link. -/
theorem linked_add {sub : String} {name : Option String}
    (h : t.socialAccounts = s.socialAccounts.add ⟨id, provider, sub, name⟩) (p b : String)
    (u : Nat) : t.Linked p b u ↔ s.Linked p b u ∨ p = provider ∧ b = sub ∧ u = id := by
  simp only [Accounts.Linked, h]
  constructor
  · rintro ⟨k, link, hget, hp, hb, hu⟩
    rw [Table.get_add] at hget
    split at hget
    · obtain rfl := Option.some.inj hget
      exact .inr ⟨hp.symm, hb.symm, hu.symm⟩
    · exact .inl ⟨k, link, hget, hp, hb, hu⟩
  · rintro (⟨k, link, hget, hp, hb, hu⟩ | ⟨rfl, rfl, rfl⟩)
    · exact ⟨k, link, Table.get_add_of_get hget, hp, hb, hu⟩
    · exact ⟨_, _, Table.get_add_next, rfl, rfl, rfl⟩

private theorem provision_frame {username slug : String}
    (h : provisionPersonalOrganizationTx s id username slug o = .ok t) :
    t.users = s.users ∧ t.socialAccounts = s.socialAccounts := by
  unfold provisionPersonalOrganizationTx at h
  split at h
  · cases h
  · split at h
    · cases h
    · split at h
      · split at h
        · split at h
          · cases h
            exact ⟨rfl, rfl⟩
          · cases h
        · cases h
      · split at h
        · cases h
        · cases h
          exact ⟨rfl, rfl⟩

/-- Organizations and memberships are all that provisioning touches. -/
theorem ensurePersonalOrganization_frame (s : Accounts) (id : Nat) (username : String)
    (o : AccountOutcome) :
    (ensurePersonalOrganization s id username o).1.users = s.users ∧
      (ensurePersonalOrganization s id username o).1.socialAccounts = s.socialAccounts := by
  unfold ensurePersonalOrganization
  dsimp only
  split
  · next t ht =>
    split at ht
    · exact provision_frame ht
    · exact provision_frame ht
  · exact ⟨rfl, rfl⟩
  · exact ⟨rfl, rfl⟩

/-- A created user takes the next key; username and email were free. -/
theorem createUser_eq_ok {row : User} {id : Nat} (h : s.createUser row o = .ok (t, id)) :
    t = { s with users := s.users.add row } ∧ id = s.users.next ∧
      ∀ k other, s.users.get k = some other →
        other.username ≠ row.username ∧ other.email ≠ row.email := by
  unfold Accounts.createUser at h
  split at h
  · cases h
  · split at h
    · cases h
    · next hfree =>
      cases h
      refine ⟨rfl, rfl, fun k other hother ↦ ?_⟩
      have hno := Table.first_eq_none (Option.not_isSome_iff_eq_none.mp hfree) hother
      simpa using hno

/-- A created link is new to its identity and to its user and provider. -/
theorem createLink_eq_ok (h : createLink s provider claims id o = .ok t) :
    (∀ u, ¬ s.Linked provider claims.sub u) ∧ (∀ sub, ¬ s.Linked provider sub id) ∧
      (∃ row, s.users.get id = some row) ∧
      t = { s with
        socialAccounts :=
          s.socialAccounts.add ⟨id, provider, claims.sub, displayNameFromClaims claims⟩ } := by
  unfold createLink at h
  split at h
  · cases h
  · next hfree =>
    split at h
    · cases h
    · split at h
      · cases h
      · next hnew =>
        split at h
        · cases h
        · next hrow =>
          cases h
          refine ⟨fun u ↦ not_linked_of_find (Option.not_isSome_iff_eq_none.mp hnew), ?_,
            Option.ne_none_iff_exists'.mp (by simpa using hrow), rfl⟩
          rintro sub ⟨k, link, hget, hprovider, -, huser⟩
          have hno := Table.first_eq_none (Option.not_isSome_iff_eq_none.mp hfree) hget
          simp [hprovider, huser] at hno

/-- What a linking call can do: `May` are the stored users that it may choose, `New` whether it may
create one. -/
inductive LinkOutcome (provider sub : String) (May : Nat → User → Prop) (New : Prop)
    (s t : Accounts) : Except LinkError Nat → Prop
  | refused (e : LinkError) : t.users = s.users → t.socialAccounts = s.socialAccounts →
      LinkOutcome provider sub May New s t (.error e)
  | known (id : Nat) : t.users = s.users → t.socialAccounts = s.socialAccounts →
      s.Linked provider sub id → LinkOutcome provider sub May New s t (.ok id)
  | attached (id : Nat) (row : User) (name : Option String) : s.users.get id = some row →
      May id row → (∀ u, ¬ s.Linked provider sub u) → (∀ sub', ¬ s.Linked provider sub' id) →
      t.users = s.users → t.socialAccounts = s.socialAccounts.add ⟨id, provider, sub, name⟩ →
      LinkOutcome provider sub May New s t (.ok id)
  | abandoned (row : User) (e : LinkError) : New → t.users = s.users.add row →
      t.socialAccounts = s.socialAccounts → LinkOutcome provider sub May New s t (.error e)
  | created (row : User) (name : Option String) : New → row.isActive = true →
      (∀ u, ¬ s.Linked provider sub u) → (∀ sub', ¬ s.Linked provider sub' s.users.next) →
      t.users = s.users.add row →
      t.socialAccounts = s.socialAccounts.add ⟨s.users.next, provider, sub, name⟩ →
      LinkOutcome provider sub May New s t (.ok s.users.next)

variable {May : Nat → User → Prop} {New : Prop}

/-- The only new link is the identity's, to a user that may be chosen or to one that the call has
created. -/
theorem LinkOutcome.new_link {sub p b : String} {u : Nat} {r : Except LinkError Nat}
    (h : LinkOutcome provider sub May New s t r) (hold : ¬ s.Linked p b u)
    (hnew : t.Linked p b u) :
    p = provider ∧ b = sub ∧
      ((∃ row, s.users.get u = some row ∧ May u row) ∨
        New ∧ s.users.get u = none ∧ (t.users.get u).isSome) := by
  cases h with
  | refused e _ hlinks => exact absurd ((linked_congr hlinks _ _ _).mp hnew) hold
  | known id _ hlinks _ => exact absurd ((linked_congr hlinks _ _ _).mp hnew) hold
  | attached id row name hrow hmay _ _ _ hlinks =>
    rcases (linked_add hlinks _ _ _).mp hnew with h | ⟨rfl, rfl, rfl⟩
    · exact absurd h hold
    · exact ⟨rfl, rfl, .inl ⟨row, hrow, hmay⟩⟩
  | abandoned row e _ _ hlinks => exact absurd ((linked_congr hlinks _ _ _).mp hnew) hold
  | created row name hcreates _ _ _ husers hlinks =>
    rcases (linked_add hlinks _ _ _).mp hnew with h | ⟨rfl, rfl, rfl⟩
    · exact absurd h hold
    · refine ⟨rfl, rfl, .inr ⟨hcreates, Table.get_eq_none_of_next_le (Nat.le_refl _), ?_⟩⟩
      rw [husers, Table.get_add_next]
      rfl

private theorem ensure_known {username : String} (h : s.Linked provider claims.sub id) :
    LinkOutcome provider claims.sub May New s (ensureUserHasPersonalOrganization s id username o).1
      (ensureUserHasPersonalOrganization s id username o).2 := by
  obtain ⟨husers, hlinks⟩ := ensurePersonalOrganization_frame s id username o
  unfold ensureUserHasPersonalOrganization
  split
  · next t e ht =>
    rw [ht] at husers hlinks
    exact .refused _ husers hlinks
  · next t ht =>
    rw [ht] at husers hlinks
    exact .known id husers hlinks h

/-- The end of a linking call refuses, or links the identity to the user. -/
private theorem attachIdentity_cases (s : Accounts) (provider : String) (claims : StandardClaims)
    (id : Nat) (username : String) (o : AccountOutcome) :
    (attachIdentity s provider claims id username o).1.users = s.users ∧
      ((∃ e, (attachIdentity s provider claims id username o).2 = .error e ∧
        (attachIdentity s provider claims id username o).1.socialAccounts = s.socialAccounts) ∨
      (∃ row, s.users.get id = some row) ∧
        (attachIdentity s provider claims id username o).2 = .ok id ∧
        (∀ u, ¬ s.Linked provider claims.sub u) ∧ (∀ sub, ¬ s.Linked provider sub id) ∧
        (attachIdentity s provider claims id username o).1.socialAccounts =
          s.socialAccounts.add ⟨id, provider, claims.sub, displayNameFromClaims claims⟩) := by
  obtain ⟨husers, hlinks⟩ := ensurePersonalOrganization_frame s id username o
  unfold attachIdentity
  split
  · next t e ht =>
    rw [ht] at husers hlinks
    exact ⟨husers, .inl ⟨_, rfl, hlinks⟩⟩
  · next t ht =>
    rw [ht] at husers hlinks
    split
    · exact ⟨husers, .inl ⟨_, rfl, hlinks⟩⟩
    · next u hu =>
      obtain ⟨hidentity, huser, hrow, rfl⟩ := createLink_eq_ok hu
      refine ⟨husers, .inr ⟨by rwa [← husers], rfl, ?_, ?_, congrArg (Table.add · _) hlinks⟩⟩
      · intro v hv
        exact hidentity v ((linked_congr hlinks _ _ _).mpr hv)
      · intro sub hsub
        exact huser sub ((linked_congr hlinks _ _ _).mpr hsub)

/-- Attaching to a stored user that may be chosen. -/
private theorem attachIdentity_outcome {username : String}
    (hmay : ∀ row, s.users.get id = some row → May id row) :
    LinkOutcome provider claims.sub May New s (attachIdentity s provider claims id username o).1
      (attachIdentity s provider claims id username o).2 := by
  obtain ⟨husers, ⟨e, he, hlinks⟩ | ⟨⟨row, hrow⟩, hok, hidentity, huser, hlinks⟩⟩ :=
    attachIdentity_cases s provider claims id username o
  · rw [he]
    exact .refused e husers hlinks
  · rw [hok]
    exact .attached id row _ hrow (hmay row hrow) hidentity huser husers hlinks

/-- `link_user_to_provider` chooses nobody but its user. -/
theorem linkUserToProvider_outcome {user : User} :
    LinkOutcome provider claims.sub (fun u _ ↦ u = id) False s
      (linkUserToProvider s provider claims id user o).1
      (linkUserToProvider s provider claims id user o).2 := by
  unfold linkUserToProvider
  split
  · exact .refused _ rfl rfl
  · split
    · next k link hfind =>
      split
      · exact .refused _ rfl rfl
      · next huser =>
        have hlinked := linked_of_find hfind
        rw [not_not.mp huser] at hlinked
        exact ensure_known hlinked
    · exact attachIdentity_outcome fun _ _ ↦ rfl

/-- A user found by email has the email that the provider has verified. -/
theorem verifiedEmailMatch_eq_some {row : User}
    (h : verifiedEmailMatch unicode s claims = some (id, row)) :
    s.users.get id = some row ∧ claims.emailVerified = some true ∧
      ∃ email, claims.email = some email ∧ row.email = unicode.toLowercase email := by
  unfold verifiedEmailMatch at h
  split at h
  · next hverified =>
    split at h
    · next email hemail =>
      obtain ⟨hget, hp⟩ := Table.first_eq_some h
      exact ⟨hget, hverified, email, hemail, by simpa using hp⟩
    · cases h
  · cases h

/-- A user that is created is active and the next row. -/
theorem createOauthUser_eq_ok {id : Nat}
    (h : createOauthUser unicode s provider claims o = .ok (t, id)) :
    ∃ row, row.isActive = true ∧ t = { s with users := s.users.add row } ∧ id = s.users.next := by
  unfold createOauthUser at h
  split at h
  · cases h
  · dsimp only at h
    split at h
    · cases h
    · split at h
      · cases h
      · next r hr =>
        cases h
        obtain ⟨ht, hid, -⟩ := createUser_eq_ok hr
        exact ⟨_, rfl, ht, hid⟩

/-- Whom `link_or_create_user` may choose among the stored users. -/
def MayAttach (unicode : Unicode) (claims : StandardClaims) (current : Option Nat) (id : Nat)
    (row : User) : Prop :=
  current = some id ∨ claims.emailVerified = some true ∧
    ∃ email, claims.email = some email ∧ row.email = unicode.toLowercase email

/-- `link_or_create_user` chooses the current user, one with the verified email, or a new one. -/
theorem linkOrCreateUser_outcome {current : Option (Nat × User)} :
    LinkOutcome provider claims.sub (MayAttach unicode claims (current.map Prod.fst)) True s
      (linkOrCreateUser unicode s provider claims current o).1
      (linkOrCreateUser unicode s provider claims current o).2 := by
  unfold linkOrCreateUser
  split
  · exact .refused _ rfl rfl
  · split
    · next k link hfind =>
      split
      · exact .refused _ rfl rfl
      · exact ensure_known (linked_of_find hfind)
    · split
      · next id user hchosen =>
        apply attachIdentity_outcome
        intro row hrow
        cases current with
        | some u =>
          obtain rfl := Option.some.inj hchosen
          exact .inl rfl
        | none =>
          obtain ⟨hget, hverified, email, hemail, hequal⟩ := verifiedEmailMatch_eq_some hchosen
          obtain rfl := Option.some.inj (hrow.symm.trans hget)
          exact .inr ⟨hverified, email, hemail, hequal⟩
      · split
        · exact .refused _ rfl rfl
        · next t id hcreated =>
          obtain ⟨row, hactive, rfl, rfl⟩ := createOauthUser_eq_ok hcreated
          obtain ⟨husers, ⟨e, he, hlinks⟩ | ⟨-, hok, hidentity, huser, hlinks⟩⟩ :=
            attachIdentity_cases { s with users := s.users.add row } provider claims s.users.next
              (((s.users.add row).get s.users.next).elim "" User.username) o
          · rw [he]
            exact .abandoned row e trivial husers hlinks
          · rw [hok]
            exact .created row _ trivial hactive hidentity huser husers hlinks

end Lemmas

end ReinhardtCloud.Dashboard
