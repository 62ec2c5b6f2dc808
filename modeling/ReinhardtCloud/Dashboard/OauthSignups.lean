import ReinhardtCloud.Dashboard.Accounts

/-!
# Sign-ups through a provider

Library `Dashboard`. What `link_or_create_user` leaves of an identity that no user has
(`auth/services/oauth/linking.rs:107–180, 259–305`), with the widths of the columns that it writes
(`migrations/auth/0001_initial.rs`, `migrations/organizations/0001_initial.rs`).
-/

namespace ReinhardtCloud.Dashboard

open ReinhardtCloud.Base

/-- What a `VARCHAR` column of the width takes: no NUL, and nothing but spaces behind the width. -/
def storable (width : Nat) (text : String) : Bool :=
  !text.toList.contains (Char.ofNat 0) && (text.toList.drop width).all fun c ↦ c = ' '

/-- The claims that fill display columns only. -/
structure DisplayClaims where
  givenName : Option String
  familyName : Option String

/-- The names that `generate_unique_username` tries, in its order. -/
def usernameCandidate (base : String) (i : Nat) : String :=
  if i = 0 then base else truncateUsername s!"{base}_{i}"

/-- The name that it starts from. -/
def usernameBase (unicode : Unicode) (claims : StandardClaims) : String :=
  sanitizeUsername unicode ((displayNameFromClaims claims).getD claims.sub)

/-- The email that a new user gets. -/
def signUpEmail (unicode : Unicode) (claims : StandardClaims) : String :=
  unicode.toLowercase (claims.email.getD "")

/-- An organization has the slug. -/
def slugTaken (s : Accounts) (slug : String) : Bool :=
  (s.organizations.first fun org ↦ org.slug = slug).isSome

/-- Links and organizations are of stored users. -/
structure Accounts.ForeignKeys (s : Accounts) : Prop where
  link : ∀ k link, s.socialAccounts.get k = some link → (s.users.get link.user).isSome
  organization : ∀ k org, s.organizations.get k = some org → (s.users.get org.createdBy).isSome

section SignUp

variable (unicode : Unicode) (s : Accounts) (provider : String) (claims : StandardClaims)
  (display : DisplayClaims) (o : AccountOutcome)

/-- An identity with a subject that is not linked, and with an email that no user has, if any. -/
structure NewIdentity : Prop where
  sub : claims.sub ≠ ""
  identity : s.findByProviderAndUid provider claims.sub = none
  email : ∀ email, claims.email = some email →
    ∀ k row, s.users.get k = some row → row.email ≠ unicode.toLowercase email

/-- The database refuses what does not fit its column, and nothing else. -/
structure Undisturbed : Prop where
  user : ∀ username, generateUniqueUsername unicode s claims = .ok username →
    (o.userRefused = none ↔ storable 150 username = true ∧
      storable 254 (signUpEmail unicode claims) = true ∧
      storable 150 (display.givenName.getD "") = true ∧
      storable 150 (display.familyName.getD "") = true)
  organization : ∀ username, generateUniqueUsername unicode s claims = .ok username →
    (o.organizationRefused = none ↔ storable 100 username = true)
  link : o.linkRefused = none ↔ storable 32 provider = true ∧ storable 255 claims.sub = true ∧
    (displayNameFromClaims claims).all (storable 255) = true

/-- The user is created when nothing is in the way, and stays only when the call succeeds. -/
structure SucceedsOrRollsBack : Prop where
  succeeds : Undisturbed unicode s provider claims display o →
    (linkOrCreateUser unicode s provider claims none o).2 = .ok s.users.next ∧
      ∃ row, (linkOrCreateUser unicode s provider claims none o).1.users = s.users.add row
  rollsBack : ∀ r e, createOauthUser unicode s provider claims o = .ok r →
    (linkOrCreateUser unicode s provider claims none o).2 = .error e →
    (linkOrCreateUser unicode s provider claims none o).1.users = s.users

/-- The user can be created: the empty email is free if there is no other, and so is a name. -/
structure CanCreate : Prop where
  email : claims.email = none →
    ∀ k row, s.users.get k = some row → row.email ≠ unicode.toLowercase ""
  username : ∃ i ≤ 9999,
    usernameExists s (usernameCandidate (usernameBase unicode claims) i) = false
  stored : o.userRefused = none

/-- What comes after the user can be written. -/
structure CanFinish : Prop where
  organization : o.organizationRefused = none
  slug : slugTaken s o.slug = false ∨ slugTaken s o.retrySlug = false
  link : o.linkRefused = none

end SignUp

section Lemmas

variable {unicode : Unicode} {s : Accounts} {provider : String} {claims : StandardClaims}
  {display : DisplayClaims} {o : AccountOutcome}

theorem usernameExists_eq_false {name : String} :
    usernameExists s name = false ↔
      ∀ k row, s.users.get k = some row → row.username ≠ name := by
  rw [usernameExists, Option.isSome_eq_false_iff, Option.isNone_iff_eq_none]
  constructor
  · intro h k row hrow
    have hno := Table.first_eq_none h hrow
    exact of_decide_eq_false hno
  · intro h
    cases hfirst : s.users.first fun u ↦ u.username = name with
    | none => rfl
    | some found =>
      obtain ⟨hget, hname⟩ := Table.first_eq_some hfirst
      exact absurd (of_decide_eq_true hname) (h _ _ hget)

theorem usernameCandidate_zero (base : String) : usernameCandidate base 0 = base := if_pos rfl

theorem usernameCandidate_pos (base : String) {i : Nat} (hi : 1 ≤ i) :
    usernameCandidate base i = truncateUsername s!"{base}_{i}" := if_neg (by omega)

/-- A name is found exactly when one of the candidates is free. -/
theorem generateUniqueUsername_ok_iff :
    (∃ username, generateUniqueUsername unicode s claims = .ok username) ↔
      ∃ i ≤ 9999, usernameExists s (usernameCandidate (usernameBase unicode claims) i) = false := by
  rw [generateUniqueUsername, ← usernameBase]
  by_cases hbase : usernameExists s (usernameBase unicode claims) = false
  · rw [hbase]
    refine iff_of_true ⟨_, rfl⟩ ⟨0, Nat.zero_le _, ?_⟩
    rw [usernameCandidate_zero]
    exact hbase
  · rw [Bool.not_eq_false] at hbase
    simp only [hbase, Bool.not_true, Bool.false_eq_true, ↓reduceIte]
    constructor
    · rintro ⟨username, h⟩
      split at h
      · next candidate hfind =>
        have hfree := List.find?_some hfind
        obtain ⟨i, hi, rfl⟩ := List.mem_map.mp (List.mem_of_find?_eq_some hfind)
        rw [List.mem_range'_1] at hi
        refine ⟨i, by omega, ?_⟩
        rw [usernameCandidate_pos _ hi.1]
        simpa using hfree
      · cases h
    · rintro ⟨i, hi, hfree⟩
      have hpos : 1 ≤ i := by
        by_contra hzero
        obtain rfl : i = 0 := by omega
        rw [usernameCandidate_zero, hbase] at hfree
        cases hfree
      rw [usernameCandidate_pos _ hpos] at hfree
      split
      · exact ⟨_, rfl⟩
      · next hnone =>
        have hno := List.find?_eq_none.mp hnone _
          (List.mem_map_of_mem (List.mem_range'_1.mpr ⟨hpos, by omega⟩))
        rw [hfree] at hno
        exact absurd rfl hno

/-- The name that is found is free. -/
theorem usernameExists_of_generate {username : String}
    (h : generateUniqueUsername unicode s claims = .ok username) :
    usernameExists s username = false := by
  rw [generateUniqueUsername, ← usernameBase] at h
  by_cases hbase : usernameExists s (usernameBase unicode claims) = false
  · simp only [hbase, Bool.not_false, ↓reduceIte, Except.ok.injEq] at h
    rw [← h]
    exact hbase
  · rw [Bool.not_eq_false] at hbase
    simp only [hbase, Bool.not_true, Bool.false_eq_true, ↓reduceIte] at h
    split at h
    · next candidate hfind =>
      cases h
      simpa using List.find?_some hfind
    · cases h

/-- A user whose name and email are free is stored unless the database refuses it. -/
theorem createUser_of_free {row : User} (hstored : o.userRefused = none)
    (hfree : ∀ k other, s.users.get k = some other →
      other.username ≠ row.username ∧ other.email ≠ row.email) :
    s.createUser row o = .ok ({ s with users := s.users.add row }, s.users.next) := by
  have hnone : (s.users.first fun u ↦ u.username = row.username || u.email = row.email) = none := by
    cases hfirst : s.users.first fun u ↦ u.username = row.username || u.email = row.email with
    | none => rfl
    | some found =>
      obtain ⟨hget, hp⟩ := Table.first_eq_some hfirst
      rw [Bool.or_eq_true, decide_eq_true_eq, decide_eq_true_eq] at hp
      rcases hp with hname | hemail
      · exact absurd hname (hfree _ _ hget).1
      · exact absurd hemail (hfree _ _ hget).2
  rw [Accounts.createUser, hstored]
  simp [hnone]

/-- The email of the new user is free if the claims' email is, or the empty one. -/
theorem NewIdentity.email_free_iff (h : NewIdentity unicode s provider claims) :
    (∀ k row, s.users.get k = some row → row.email ≠ signUpEmail unicode claims) ↔
      (claims.email = none →
        ∀ k row, s.users.get k = some row → row.email ≠ unicode.toLowercase "") := by
  rw [signUpEmail]
  cases hemail : claims.email with
  | none => exact ⟨fun h _ ↦ h, fun h ↦ h rfl⟩
  | some email => exact iff_of_true (h.email email hemail) fun hnone ↦ nomatch hnone

/-- The user is created exactly when nothing is in the way, and takes the next key. -/
theorem createOauthUser_ok_iff (h : NewIdentity unicode s provider claims) :
    (∃ r, createOauthUser unicode s provider claims o = .ok r) ↔ CanCreate unicode s claims o := by
  constructor
  · rintro ⟨r, hr⟩
    rw [createOauthUser] at hr
    split at hr
    · cases hr
    · next username husername =>
      dsimp only at hr
      split at hr
      · cases hr
      · split at hr
        · cases hr
        · next r' hr' =>
          obtain ⟨-, -, hfree⟩ := createUser_eq_ok hr'
          refine ⟨h.email_free_iff.mp fun k row hrow ↦ (hfree k row hrow).2,
            generateUniqueUsername_ok_iff.mp ⟨username, husername⟩, ?_⟩
          rw [Accounts.createUser] at hr'
          split at hr'
          · cases hr'
          · next hstored => exact hstored
  · intro hcan
    obtain ⟨username, husername⟩ := generateUniqueUsername_ok_iff.mpr hcan.username
    have hemail := h.email_free_iff.mpr hcan.email
    have hnone : (s.users.first fun u ↦ u.email = signUpEmail unicode claims) = none := by
      cases hfirst : s.users.first fun u ↦ u.email = signUpEmail unicode claims with
      | none => rfl
      | some found =>
        obtain ⟨hget, hp⟩ := Table.first_eq_some hfirst
        exact absurd (of_decide_eq_true hp) (hemail _ _ hget)
    have hcreate := @createUser_of_free s o
      ⟨username, signUpEmail unicode claims, none, true, false, false⟩ hcan.stored
      fun k other hother ↦ ⟨usernameExists_eq_false.mp (usernameExists_of_generate husername) k
        other hother, hemail k other hother⟩
    refine ⟨({ s with
      users := s.users.add ⟨username, signUpEmail unicode claims, none, true, false, false⟩ },
      s.users.next), ?_⟩
    rw [createOauthUser, husername]
    dsimp only
    rw [← signUpEmail, hnone, hcreate]
    simp

/-- A user without an organization gets one under a slug that is free. -/
theorem provision_new {id : Nat} {username slug : String} (hid : (s.users.get id).isSome)
    (hnew : ∀ k org, s.organizations.get k = some org → org.createdBy ≠ id)
    (hstored : o.organizationRefused = none) :
    provisionPersonalOrganizationTx s id username slug o =
      if slugTaken s slug then .error (.database .uniqueViolation)
      else .ok { s with
        organizations := s.organizations.add ⟨slug, username, id⟩
        memberships := s.memberships.add ⟨s.organizations.next, id, .owner⟩ } := by
  have hnone : oldest s.organizations (fun org ↦ org.createdBy = id) = none :=
    oldest_eq_none.mpr fun k org horg ↦ decide_eq_false (hnew k org horg)
  obtain ⟨row, hrow⟩ := Option.isSome_iff_exists.mp hid
  rw [provisionPersonalOrganizationTx, hstored]
  simp only [hrow, Option.isNone_some, Bool.false_eq_true, ↓reduceIte, hnone, slugTaken]
  rfl

/-- Provisioning for such a user succeeds exactly when the database takes the organization and one
of the two slugs is free; else it leaves everything as it is. -/
theorem ensurePersonalOrganization_new {id : Nat} {username : String}
    (hid : (s.users.get id).isSome)
    (hnew : ∀ k org, s.organizations.get k = some org → org.createdBy ≠ id) :
    (o.organizationRefused = none ∧ (slugTaken s o.slug = false ∨ slugTaken s o.retrySlug = false) ∧
        (ensurePersonalOrganization s id username o).2 = .ok ()) ∨
      ¬ (o.organizationRefused = none ∧
          (slugTaken s o.slug = false ∨ slugTaken s o.retrySlug = false)) ∧
        ∃ e, (ensurePersonalOrganization s id username o).2 = .error e := by
  unfold ensurePersonalOrganization
  dsimp only
  cases hrefused : o.organizationRefused with
  | some e =>
    refine .inr ⟨(nomatch ·.1), ?_⟩
    have herror (slug : String) : provisionPersonalOrganizationTx s id username slug o =
        .error (.database e) := by
      rw [provisionPersonalOrganizationTx, hrefused]
    cases e <;> simp [herror]
  | none =>
    have hattempt (slug : String) := @provision_new s o id username slug hid hnew hrefused
    by_cases hslug : slugTaken s o.slug = true
    · by_cases hretry : slugTaken s o.retrySlug = true
      · simp [hattempt, hslug, hretry]
      · simp [hattempt, hslug, hretry]
    · simp [hattempt, hslug]

/-- Nothing refers to a user that is not stored yet. -/
theorem Accounts.ForeignKeys.link_ne_next (hs : s.ForeignKeys) {k : Nat} {link : SocialAccount}
    (h : s.socialAccounts.get k = some link) : link.user ≠ s.users.next := by
  intro hnext
  have hstored := hs.link k link h
  rw [hnext, Table.get_eq_none_of_next_le (Nat.le_refl _)] at hstored
  cases hstored

theorem Accounts.ForeignKeys.organization_ne_next (hs : s.ForeignKeys) {k : Nat}
    {org : Organization} (h : s.organizations.get k = some org) : org.createdBy ≠ s.users.next := by
  intro hnext
  have hstored := hs.organization k org h
  rw [hnext, Table.get_eq_none_of_next_le (Nat.le_refl _)] at hstored
  cases hstored

/-- The first link of a new user to an identity without one is stored unless the database refuses
it. -/
theorem createLink_new {t : Accounts} {row : User} (hs : s.ForeignKeys)
    (hidentity : s.findByProviderAndUid provider claims.sub = none)
    (husers : t.users = s.users.add row) (hlinks : t.socialAccounts = s.socialAccounts) :
    (o.linkRefused = none ∧ ∃ u, createLink t provider claims s.users.next o = .ok u) ∨
      o.linkRefused ≠ none ∧ ∃ e, createLink t provider claims s.users.next o = .error e := by
  have hnone : (t.socialAccounts.first fun link ↦
      link.user = s.users.next && link.provider = provider) = none := by
    rw [hlinks]
    cases hfirst : s.socialAccounts.first fun link ↦
        link.user = s.users.next && link.provider = provider with
    | none => rfl
    | some found =>
      obtain ⟨hget, hp⟩ := Table.first_eq_some hfirst
      rw [Bool.and_eq_true, decide_eq_true_eq] at hp
      exact absurd hp.1 (hs.link_ne_next hget)
  have hfind : t.findByProviderAndUid provider claims.sub = none := by
    rw [Accounts.findByProviderAndUid, hlinks]
    exact hidentity
  rw [createLink, hnone]
  cases hrefused : o.linkRefused with
  | some e => exact .inr ⟨Option.some_ne_none e, .storage e, rfl⟩
  | none =>
    refine .inl ⟨rfl, ?_⟩
    simp [hfind, husers]

/-- The rest of the call for a new user succeeds exactly when nothing refuses it, and keeps the
user in both cases. -/
theorem attachIdentity_new {row : User} (hs : s.ForeignKeys)
    (hidentity : s.findByProviderAndUid provider claims.sub = none) (username : String) :
    (attachIdentity { s with users := s.users.add row } provider claims s.users.next username
        o).1.users = s.users.add row ∧
      ((CanFinish s o ∧ (attachIdentity { s with users := s.users.add row } provider claims
          s.users.next username o).2 = .ok s.users.next) ∨
        ¬ CanFinish s o ∧ ∃ e, (attachIdentity { s with users := s.users.add row } provider claims
          s.users.next username o).2 = .error e) := by
  obtain ⟨husers, hlinks⟩ := ensurePersonalOrganization_frame
    { s with users := s.users.add row } s.users.next username o
  have hensure := @ensurePersonalOrganization_new { s with users := s.users.add row } o s.users.next
    username (by simp) fun k org horg ↦ hs.organization_ne_next horg
  unfold attachIdentity
  split
  · next t e ht =>
    rw [ht] at husers hlinks hensure
    refine ⟨husers, .inr ⟨?_, _, rfl⟩⟩
    rcases hensure with ⟨-, -, hok⟩ | ⟨hno, -⟩
    · cases hok
    · exact fun h ↦ hno ⟨h.organization, h.slug⟩
  · next t u ht =>
    rw [ht] at husers hlinks hensure
    rcases hensure with ⟨horg, hslug, -⟩ | ⟨-, e, he⟩
    · rcases createLink_new (o := o) hs hidentity husers hlinks with
        ⟨hlink, u, hu⟩ | ⟨hlink, e, he⟩
      · obtain ⟨-, -, -, rfl⟩ := createLink_eq_ok hu
        rw [hu]
        exact ⟨husers, .inl ⟨⟨horg, hslug, hlink⟩, rfl⟩⟩
      · rw [he]
        exact ⟨husers, .inr ⟨fun h ↦ hlink h.link, e, rfl⟩⟩
    · cases he

/-- No stored user is chosen for a new identity. -/
theorem NewIdentity.verifiedEmailMatch (h : NewIdentity unicode s provider claims) :
    verifiedEmailMatch unicode s claims = none := by
  cases hfound : Dashboard.verifiedEmailMatch unicode s claims with
  | none => rfl
  | some found =>
    obtain ⟨hget, -, email, hemail, hrow⟩ := verifiedEmailMatch_eq_some hfound
    exact absurd hrow (h.email email hemail _ _ hget)

theorem linkOrCreateUser_of_error (h : NewIdentity unicode s provider claims) {e : LinkError}
    (hcreate : createOauthUser unicode s provider claims o = .error e) :
    linkOrCreateUser unicode s provider claims none o = (s, .error e) := by
  rw [linkOrCreateUser, if_neg h.sub, h.identity]
  simp only [h.verifiedEmailMatch, Option.or_none, hcreate]

/-- What comes after the creation is the rest of the call for the new user. -/
theorem linkOrCreateUser_of_ok (h : NewIdentity unicode s provider claims) {t : Accounts}
    {id : Nat} (hcreate : createOauthUser unicode s provider claims o = .ok (t, id)) :
    linkOrCreateUser unicode s provider claims none o =
      attachIdentity t provider claims id ((t.users.get id).elim "" User.username) o := by
  rw [linkOrCreateUser, if_neg h.sub, h.identity]
  simp only [h.verifiedEmailMatch, Option.or_none, hcreate]

/-- A base that fills the column leaves no room for a suffix: every candidate is the base. -/
theorem usernameCandidate_of_full {base : String} (hbase : base.toList.length = 150) (i : Nat) :
    usernameCandidate base i = base := by
  by_cases hi : 1 ≤ i
  · have hlist : s!"{base}_{i}".toList = base.toList ++ s!"_{i}".toList := by
      simp [toString]
    rw [usernameCandidate_pos _ hi, truncateUsername, hlist, ← hbase, List.take_left,
      String.ofList_toList]
  · obtain rfl : i = 0 := by omega
    exact usernameCandidate_zero base

/-- Whoever has a display name of full length bars it to everyone else. -/
theorem not_canCreate_of_full (hbase : (usernameBase unicode claims).toList.length = 150)
    (htaken : usernameExists s (usernameBase unicode claims) = true) :
    ¬ CanCreate unicode s claims o := by
  rintro ⟨-, ⟨i, -, hfree⟩, -⟩
  rw [usernameCandidate_of_full hbase, htaken] at hfree
  cases hfree

/-- A sign-up succeeds or leaves nothing behind exactly when the user can be created and the rest
of the call refuses nothing, or the user cannot be created and the database was disturbed. -/
theorem oauth_signup_safe_iff (hs : s.ForeignKeys) (h : NewIdentity unicode s provider claims) :
    SucceedsOrRollsBack unicode s provider claims display o ↔
      (CanCreate unicode s claims o ∧ CanFinish s o) ∨
        (¬ CanCreate unicode s claims o ∧ ¬ Undisturbed unicode s provider claims display o) := by
  cases hcreate : createOauthUser unicode s provider claims o with
  | error e =>
    have hcan : ¬ CanCreate unicode s claims o := by
      rw [← createOauthUser_ok_iff h, hcreate]
      rintro ⟨r, ⟨⟩⟩
    have hcall := linkOrCreateUser_of_error h hcreate
    constructor
    · intro hsafe
      refine .inr ⟨hcan, fun hundisturbed ↦ ?_⟩
      have hok := (hsafe.succeeds hundisturbed).1
      rw [hcall] at hok
      cases hok
    · rintro (⟨hcan', -⟩ | ⟨-, hdisturbed⟩)
      · exact absurd hcan' hcan
      · refine ⟨fun hundisturbed ↦ absurd hundisturbed hdisturbed, ?_⟩
        intro r e' hr
        rw [hcreate] at hr
        cases hr
  | ok r =>
    have hcan : CanCreate unicode s claims o := (createOauthUser_ok_iff h).mp ⟨r, hcreate⟩
    obtain ⟨t, id⟩ := r
    obtain ⟨row, -, rfl, rfl⟩ := createOauthUser_eq_ok hcreate
    have hcall := linkOrCreateUser_of_ok h hcreate
    obtain ⟨husers, hrest⟩ := @attachIdentity_new s provider claims o row hs h.identity
      (((s.users.add row).get s.users.next).elim "" User.username)
    rw [← hcall] at husers hrest
    constructor
    · intro hsafe
      rcases hrest with ⟨hfinish, -⟩ | ⟨-, e, he⟩
      · exact .inl ⟨hcan, hfinish⟩
      · -- the user stays although the call fails
        have hrolled := hsafe.rollsBack _ e hcreate he
        have hnext := congrArg Table.next (husers.symm.trans hrolled)
        rw [Table.next_add] at hnext
        omega
    · rintro (⟨-, hfinish⟩ | ⟨hcannot, -⟩)
      · rcases hrest with ⟨-, hok⟩ | ⟨hno, -⟩
        · refine ⟨fun _ ↦ ⟨hok, row, husers⟩, ?_⟩
          intro r' e _ he
          rw [hok] at he
          cases he
        · exact absurd hfinish hno
      · exact absurd hcan hcannot

end Lemmas

/-- The claims of a provider account that shows no email. -/
def hiddenEmail (sub login : String) : StandardClaims := ⟨sub, none, none, none, some login⟩

/-- No display names. -/
def noDisplay : DisplayClaims := ⟨none, none⟩

theorem newIdentity_empty (provider login : String) {sub : String} (hsub : sub ≠ "") :
    NewIdentity asciiUnicode Accounts.empty provider (hiddenEmail sub login) :=
  ⟨hsub, rfl, fun _ h ↦ nomatch h⟩

theorem foreignKeys_empty : Accounts.empty.ForeignKeys :=
  ⟨fun _ _ h ↦ (nomatch h), fun _ _ h ↦ (nomatch h)⟩

/-- The first of two identities without an email. -/
theorem oauth_signup_safe_iff_first :
    SucceedsOrRollsBack asciiUnicode .empty "github" (hiddenEmail "1001" "alice") noDisplay
      (.quiet "alice") := by
  refine (oauth_signup_safe_iff foreignKeys_empty (newIdentity_empty _ _ (by decide))).mpr
    (.inl ⟨⟨fun _ _ _ h ↦ (nomatch h), ⟨0, by decide, rfl⟩, rfl⟩, ⟨rfl, .inl rfl, rfl⟩⟩)

/-- After the first of two identities without an email. -/
def aliceSignedUp : Accounts :=
  (linkOrCreateUser asciiUnicode .empty "github" (hiddenEmail "1001" "alice") none
    (.quiet "alice")).1

theorem aliceSignedUp_eq : aliceSignedUp =
    ⟨Table.empty.add ⟨"alice", "", none, true, false, false⟩,
      Table.empty.add ⟨0, "github", "1001", some "alice"⟩,
      Table.empty.add ⟨"alice", "alice", 0⟩, Table.empty.add ⟨0, 0, .owner⟩⟩ := rfl

/-- The second of two identities without an email is refused, for the email that neither has. -/
theorem second_signup_without_email_fails :
    ¬ ∀ (unicode : Unicode) (s : Accounts) (provider : String) (claims : StandardClaims)
      (display : DisplayClaims) (o : AccountOutcome), s.ForeignKeys →
      NewIdentity unicode s provider claims →
      SucceedsOrRollsBack unicode s provider claims display o := by
  intro h
  have hkeys : aliceSignedUp.ForeignKeys := by
    rw [aliceSignedUp_eq]
    constructor
    · intro k link hget
      rw [Table.get_add] at hget
      split at hget
      · cases hget
        rfl
      · cases hget
    · intro k org hget
      rw [Table.get_add] at hget
      split at hget
      · cases hget
        rfl
      · cases hget
  have hundisturbed : Undisturbed asciiUnicode aliceSignedUp "github" (hiddenEmail "1002" "bob")
      noDisplay (.quiet "bob") := by
    have hname : generateUniqueUsername asciiUnicode aliceSignedUp (hiddenEmail "1002" "bob") =
        .ok "bob" := rfl
    constructor
    · intro username husername
      cases hname.symm.trans husername
      decide
    · intro username husername
      cases hname.symm.trans husername
      decide
    · decide
  have hok := ((h asciiUnicode aliceSignedUp "github" (hiddenEmail "1002" "bob") noDisplay
    (.quiet "bob") hkeys ⟨by decide, rfl, fun _ h ↦ nomatch h⟩).succeeds hundisturbed).1
  cases hok

end ReinhardtCloud.Dashboard
