import ReinhardtCloud.Base.Run
import ReinhardtCloud.Dashboard.Accounts

/-!
# Provider identities over runs

Library `Dashboard`. Registrations, email verifications and the two linking functions follow each
other in any order with any claims. Links are only ever added, one for an identity and one for a
user and provider; from that an identity keeps its user, and a user that was there before is chosen
only as the current one or by an email that the provider has verified.
-/

namespace ReinhardtCloud.Dashboard

open ReinhardtCloud.Base

/-- One call of the account services. -/
inductive AccountCall where
  | registerInactiveUser (username email password : String) (mail : MailOutcome)
      (o : AccountOutcome)
  | verifyEmail (token : Except TokenError TokenPayload) (now : Int) (o : AccountOutcome)
  | linkOrCreateUser (provider : String) (claims : StandardClaims)
      (currentUser : Option (Nat × User)) (o : AccountOutcome)
  | linkUserToProvider (provider : String) (claims : StandardClaims) (userId : Nat) (user : User)
      (o : AccountOutcome)

namespace AccountCall

variable (unicode : Unicode)

/-- The tables after a call. -/
def perform (s : Accounts) : AccountCall → Accounts
  | .registerInactiveUser username email password mail o =>
    (Dashboard.registerInactiveUser unicode s username email password mail o).1
  | .verifyEmail token now o => (Dashboard.verifyEmail s token now o).1
  | .linkOrCreateUser provider claims current o =>
    (Dashboard.linkOrCreateUser unicode s provider claims current o).1
  | .linkUserToProvider provider claims userId user o =>
    (Dashboard.linkUserToProvider s provider claims userId user o).1

/-- The identity that a call is about and the user that it returns. -/
def returned (s : Accounts) : AccountCall → Option (String × String × Nat)
  | .linkOrCreateUser provider claims current o =>
    (Dashboard.linkOrCreateUser unicode s provider claims current o).2.toOption.map
      fun id ↦ (provider, claims.sub, id)
  | .linkUserToProvider provider claims userId user o =>
    (Dashboard.linkUserToProvider s provider claims userId user o).2.toOption.map
      fun id ↦ (provider, claims.sub, id)
  | _ => none

/-- The user of the current session, as the caller passes it on. -/
def sessionUser : AccountCall → Option Nat
  | .linkOrCreateUser _ _ current _ => current.map Prod.fst
  | .linkUserToProvider _ _ userId _ _ => some userId
  | _ => none

/-- The claims that a call is about. -/
def claims? : AccountCall → Option StandardClaims
  | .linkOrCreateUser _ claims _ _ => some claims
  | .linkUserToProvider _ claims _ _ _ => some claims
  | _ => none

end AccountCall

/-- One call after the other. -/
def accountStep (unicode : Unicode) (s : Accounts) (call : AccountCall) : Option Accounts :=
  some (call.perform unicode s)

/-- A call and the tables around it. -/
abbrev AccountTransition := Transition Accounts AccountCall

/-- The constraints on the links: one for an identity, one for a user and provider, and none of a
user that is not stored. -/
structure Accounts.LinksConsistent (s : Accounts) : Prop where
  identity : ∀ provider sub u v, s.Linked provider sub u → s.Linked provider sub v → u = v
  provider : ∀ provider sub sub' u, s.Linked provider sub u → s.Linked provider sub' u → sub = sub'
  user : ∀ provider sub u, s.Linked provider sub u → u < s.users.next

theorem Accounts.linksConsistent_empty : Accounts.empty.LinksConsistent := by
  have hnone (provider sub : String) (u : Nat) : ¬ Accounts.empty.Linked provider sub u := by
    rintro ⟨k, link, hget, -⟩
    cases hget
  exact ⟨fun p s u v h _ ↦ absurd h (hnone p s u), fun p s s' u h _ ↦ absurd h (hnone p s u),
    fun p s u h ↦ absurd h (hnone p s u)⟩

section Steps

variable {unicode : Unicode} {s t : Accounts} {provider sub : String} {u v : Nat}

/-- The links stay as they are, and no key of a user is handed out again. -/
structure LinksSame (s t : Accounts) : Prop where
  linked : ∀ provider sub u, t.Linked provider sub u ↔ s.Linked provider sub u
  next : s.users.next ≤ t.users.next

theorem LinksSame.refl : LinksSame s s := ⟨fun _ _ _ ↦ Iff.rfl, Nat.le_refl _⟩

/-- What one call does to the links: nothing, or one new link of a user and provider without. -/
inductive LinksStep (s t : Accounts) : Prop
  | same (h : LinksSame s t)
  | new (provider sub : String) (id : Nat) (hidentity : ∀ u, ¬ s.Linked provider sub u)
      (huser : ∀ sub', ¬ s.Linked provider sub' id) (hid : id < t.users.next)
      (hnext : s.users.next ≤ t.users.next)
      (h : ∀ p b u, t.Linked p b u ↔ s.Linked p b u ∨ p = provider ∧ b = sub ∧ u = id)

/-- A linking call adds one link at most. -/
theorem LinkOutcome.linksStep {May : Nat → User → Prop} {New : Prop}
    {r : Except LinkError Nat}
    (h : LinkOutcome provider sub May New s t r) : LinksStep s t := by
  cases h with
  | refused e husers hlinks => exact .same ⟨linked_congr hlinks, by rw [husers]⟩
  | known id husers hlinks _ => exact .same ⟨linked_congr hlinks, by rw [husers]⟩
  | attached id row name hrow _ hidentity huser husers hlinks =>
    refine .new provider sub id hidentity huser ?_ (by rw [husers]) (linked_add hlinks)
    rw [husers]
    exact Table.lt_next_of_get hrow
  | abandoned row e _ husers hlinks =>
    exact .same ⟨linked_congr hlinks, by simp [husers]⟩
  | created row name _ _ hidentity huser husers hlinks =>
    exact .new provider sub _ hidentity huser (by simp [husers]) (by simp [husers])
      (linked_add hlinks)

/-- A registration touches no link, also when the new user is deleted again. -/
theorem registerInactiveUser_links (hs : s.LinksConsistent) {username email password : String}
    {mail : MailOutcome} {o : AccountOutcome} :
    LinksSame s (registerInactiveUser unicode s username email password mail o).1 := by
  unfold registerInactiveUser
  split
  · exact .refl
  · next t id hcreate =>
    obtain ⟨rfl, rfl, -⟩ := createUser_eq_ok hcreate
    split
    · exact ⟨fun _ _ _ ↦ Iff.rfl, Nat.le_succ _⟩
    · split
      · refine ⟨fun p b w ↦ ?_, Nat.le_succ _⟩
        constructor
        · rintro ⟨k, link, hget, hlink⟩
          exact ⟨k, link, (Table.get_deleteWhere.mp hget).1, hlink⟩
        · rintro ⟨k, link, hget, hp, hb, hw⟩
          refine ⟨k, link, Table.get_deleteWhere.mpr ⟨hget, decide_eq_false ?_⟩, hp, hb, hw⟩
          -- the links of stored users do not go with the new one
          have hbound := hs.user p b w ⟨k, link, hget, hp, hb, hw⟩
          omega
      · exact ⟨fun _ _ _ ↦ Iff.rfl, Nat.le_succ _⟩

/-- A verification touches no link. -/
theorem verifyEmail_links {token : Except TokenError TokenPayload} {now : Int}
    {o : AccountOutcome} : LinksSame s (verifyEmail s token now o).1 := by
  have hensure (r : Accounts) (id : Nat) (username : String)
      (hr : r.users.next = s.users.next ∧ r.socialAccounts = s.socialAccounts) :
      LinksSame s (ensurePersonalOrganization r id username o).1 := by
    obtain ⟨husers, hlinks⟩ := ensurePersonalOrganization_frame r id username o
    exact ⟨linked_congr (hlinks.trans hr.2), by rw [husers, hr.1]⟩
  unfold verifyEmail
  split
  · exact .refl
  · unfold activateVerified
    split
    · exact hensure s _ _ ⟨rfl, rfl⟩
    · split
      · exact .refl
      · exact hensure _ _ _ ⟨Table.next_set, rfl⟩

/-- One call does nothing else to the links. -/
theorem AccountCall.linksStep (unicode : Unicode) (hs : s.LinksConsistent) (call : AccountCall) :
    LinksStep s (call.perform unicode s) := by
  cases call with
  | registerInactiveUser username email password mail o =>
    exact .same (registerInactiveUser_links hs)
  | verifyEmail token now o => exact .same verifyEmail_links
  | linkOrCreateUser provider claims current o => exact linkOrCreateUser_outcome.linksStep
  | linkUserToProvider provider claims userId user o => exact linkUserToProvider_outcome.linksStep

/-- The constraints stay. -/
theorem LinksStep.consistent (h : LinksStep s t) (hs : s.LinksConsistent) : t.LinksConsistent := by
  cases h with
  | same h =>
    obtain ⟨h, hnext⟩ := h
    refine ⟨fun p b u v hu hv ↦ ?_, fun p b b' u hb hb' ↦ ?_, fun p b u hu ↦ ?_⟩
    · exact hs.identity p b u v ((h p b u).mp hu) ((h p b v).mp hv)
    · exact hs.provider p b b' u ((h p b u).mp hb) ((h p b' u).mp hb')
    · exact Nat.lt_of_lt_of_le (hs.user p b u ((h p b u).mp hu)) hnext
  | new provider sub id hidentity huser hid hnext h =>
    refine ⟨fun p b u v hu hv ↦ ?_, fun p b b' u hb hb' ↦ ?_, fun p b u hu ↦ ?_⟩
    · rcases (h p b u).mp hu with hu | ⟨rfl, rfl, rfl⟩
      · rcases (h p b v).mp hv with hv | ⟨rfl, rfl, rfl⟩
        · exact hs.identity p b u v hu hv
        · exact absurd hu (hidentity u)
      · rcases (h p b v).mp hv with hv | ⟨-, -, rfl⟩
        · exact absurd hv (hidentity v)
        · rfl
    · rcases (h p b u).mp hb with hb | ⟨rfl, rfl, rfl⟩
      · rcases (h p b' u).mp hb' with hb' | ⟨rfl, rfl, rfl⟩
        · exact hs.provider p b b' u hb hb'
        · exact absurd hb (huser b)
      · rcases (h p b' u).mp hb' with hb' | ⟨-, rfl, -⟩
        · exact absurd hb' (huser b')
        · rfl
    · rcases (h p b u).mp hu with hu | ⟨-, -, rfl⟩
      · exact Nat.lt_of_lt_of_le (hs.user p b u hu) hnext
      · exact hid

/-- Links stay. -/
theorem LinksStep.kept (h : LinksStep s t) (hl : s.Linked provider sub u) :
    t.Linked provider sub u := by
  cases h with
  | same h => exact (h.linked _ _ _).mpr hl
  | new _ _ _ _ _ _ _ h => exact (h _ _ _).mpr (.inl hl)

private theorem LinkOutcome.linked {May : Nat → User → Prop} {New : Prop} {id : Nat}
    (h : LinkOutcome provider sub May New s t (.ok id)) : t.Linked provider sub id := by
  cases h with
  | known _ _ hlinks hl => exact (linked_congr hlinks _ _ _).mpr hl
  | attached _ _ _ _ _ _ _ _ hlinks => exact (linked_add hlinks _ _ _).mpr (.inr ⟨rfl, rfl, rfl⟩)
  | created _ _ _ _ _ _ _ hlinks => exact (linked_add hlinks _ _ _).mpr (.inr ⟨rfl, rfl, rfl⟩)

private theorem eq_ok_of_toOption {ε : Type} {r : Except ε Nat} {id : Nat}
    (h : r.toOption = some id) : r = .ok id := by
  cases r with
  | error e => cases h
  | ok a => exact congrArg Except.ok (Option.some.inj h)

/-- The returned user is the one that the identity is linked to afterwards. -/
theorem AccountCall.linked_of_returned {call : AccountCall}
    (h : call.returned unicode s = some (provider, sub, u)) :
    (call.perform unicode s).Linked provider sub u := by
  cases call with
  | registerInactiveUser => cases h
  | verifyEmail => cases h
  | linkOrCreateUser p claims current o =>
    obtain ⟨id, hid, he⟩ := Option.map_eq_some_iff.mp h
    cases he
    have houtcome : LinkOutcome provider claims.sub
        (MayAttach unicode claims (current.map Prod.fst)) True s
        (Dashboard.linkOrCreateUser unicode s provider claims current o).1
        (Dashboard.linkOrCreateUser unicode s provider claims current o).2 :=
      linkOrCreateUser_outcome
    rw [eq_ok_of_toOption hid] at houtcome
    exact houtcome.linked
  | linkUserToProvider p claims userId user o =>
    obtain ⟨id, hid, he⟩ := Option.map_eq_some_iff.mp h
    cases he
    have houtcome : LinkOutcome provider claims.sub (fun v _ ↦ v = userId) False s
        (Dashboard.linkUserToProvider s provider claims userId user o).1
        (Dashboard.linkUserToProvider s provider claims userId user o).2 :=
      linkUserToProvider_outcome
    rw [eq_ok_of_toOption hid] at houtcome
    exact houtcome.linked

/-- A call attaches an identity to a user that was there before: the user of the session, or the
one with the email that the provider has verified. -/
def AccountCall.Entitled (unicode : Unicode) (call : AccountCall) (id : Nat) (row : User) : Prop :=
  call.sessionUser = some id ∨ ∃ claims email, call.claims? = some claims ∧
    claims.emailVerified = some true ∧ claims.email = some email ∧
    row.email = unicode.toLowercase email

/-- No call attaches an identity to a stored user without being entitled to. -/
theorem AccountCall.entitled_of_attached {call : AccountCall} {row : User}
    (hs : s.LinksConsistent) (hold : ¬ s.Linked provider sub u)
    (hnew : (call.perform unicode s).Linked provider sub u) (hrow : s.users.get u = some row) :
    call.Entitled unicode u row := by
  cases call with
  | registerInactiveUser username email password mail o =>
    exact absurd (((registerInactiveUser_links hs).linked _ _ _).mp hnew) hold
  | verifyEmail token now o => exact absurd ((verifyEmail_links.linked _ _ _).mp hnew) hold
  | linkOrCreateUser p claims current o =>
    obtain ⟨-, -, ⟨row', hrow', hmay⟩ | ⟨-, hnone, -⟩⟩ :=
      linkOrCreateUser_outcome.new_link hold hnew
    · obtain rfl := Option.some.inj (hrow.symm.trans hrow')
      rcases hmay with h | ⟨hverified, email, he, hequal⟩
      · exact .inl h
      · exact .inr ⟨claims, email, rfl, hverified, he, hequal⟩
    · rw [hnone] at hrow
      cases hrow
  | linkUserToProvider p claims userId user o =>
    obtain ⟨-, -, ⟨_, _, rfl⟩ | ⟨hfalse, -⟩⟩ := linkUserToProvider_outcome.new_link hold hnew
    · exact .inl rfl
    · exact hfalse.elim

end Steps

/-! ## Runs -/

/-- Whatever the calls and their order: an identity keeps the user it was resolved to, an identity
is attached to a stored user only by its session or by an email that the provider has verified, and
a user has one identity of a provider. -/
theorem identities_resolve_safely (unicode : Unicode) {init s : Accounts}
    {tr : List AccountTransition} (hinit : init.LinksConsistent)
    (h : Run (accountStep unicode) init tr s) :
    (tr.Pairwise fun x y ↦ ∀ provider sub u v,
      x.action.returned unicode x.before = some (provider, sub, u) →
      y.action.returned unicode y.before = some (provider, sub, v) → v = u) ∧
    (∀ x ∈ tr, ∀ provider sub id row, ¬ x.before.Linked provider sub id →
      x.after.Linked provider sub id → x.before.users.get id = some row →
      x.action.Entitled unicode id row) ∧
    ∀ provider sub sub' id, s.Linked provider sub id → s.Linked provider sub' id → sub = sub' := by
  have hstep (a : Accounts) (c : AccountCall) (b : Accounts) (ha : a.LinksConsistent)
      (hb : accountStep unicode a c = some b) : b.LinksConsistent := by
    obtain rfl := Option.some.inj hb
    exact (c.linksStep unicode ha).consistent ha
  have hs : s.LinksConsistent := h.invariant hinit hstep
  have hbefore := h.forall_before hinit hstep
  refine ⟨?_, fun x hx provider sub id row hold hnew hrow ↦ ?_, hs.provider⟩
  · -- what a call has returned is linked in every later state
    suffices hall : tr.Pairwise (fun x y ↦ ∀ provider sub u v,
        x.action.returned unicode x.before = some (provider, sub, u) →
        y.action.returned unicode y.before = some (provider, sub, v) → v = u) ∧
        ∀ x ∈ tr, ∀ provider sub u,
          x.action.returned unicode x.before = some (provider, sub, u) →
          s.Linked provider sub u from hall.1
    clear hs hbefore
    induction h with
    | nil => exact ⟨.nil, by simp⟩
    | @snoc tr a b c hrun hb ih =>
      obtain ⟨hpairs, hlinked⟩ := ih
      have ha : a.LinksConsistent := hrun.invariant hinit hstep
      obtain rfl := Option.some.inj hb
      have hkept := (c.linksStep unicode ha).consistent ha
      refine ⟨List.pairwise_append.mpr ⟨hpairs, List.pairwise_singleton _ _, ?_⟩, ?_⟩
      · intro x hx y hy provider sub u v hu hv
        obtain rfl := List.mem_singleton.mp hy
        exact hkept.identity provider sub v u (AccountCall.linked_of_returned hv)
          ((c.linksStep unicode ha).kept (hlinked x hx provider sub u hu))
      · intro x hx provider sub u hu
        rcases List.mem_append.mp hx with hx | hx
        · exact (c.linksStep unicode ha).kept (hlinked x hx provider sub u hu)
        · obtain rfl := List.mem_singleton.mp hx
          exact AccountCall.linked_of_returned hu
  · obtain ⟨hx, hafter⟩ := hbefore x hx
    obtain hafter := Option.some.inj hafter
    rw [← hafter] at hnew
    exact AccountCall.entitled_of_attached hx hold hnew hrow

section Examples

/-- Alice's identity at GitHub, with her verified email. -/
def aliceClaims : StandardClaims := ⟨"1001", some "alice@example.com", some true, none,
    some "alice"⟩

/-- Somebody registers with Alice's email, which is never verified, and Alice signs in at GitHub. -/
def squatted : List AccountCall :=
  [.registerInactiveUser "mallory" "alice@example.com" "secret" ⟨true, true⟩ (.quiet "mallory"),
    .linkOrCreateUser "github" aliceClaims none (.quiet "alice")]

/-- An identity is attached to an account that existed before, whose email nobody has verified: the
provider's word about the email is enough. -/
theorem link_to_unverified_account :
    ∃ (tr : List AccountTransition) (s : Accounts),
      Run (accountStep asciiUnicode) .empty tr s ∧
      (∀ y ∈ tr, ∀ token now o, y.action ≠ .verifyEmail token now o) ∧
      ∃ x ∈ tr, x.action.sessionUser = none ∧ ¬ x.before.Linked "github" "1001" 0 ∧
        x.after.Linked "github" "1001" 0 ∧
        (x.before.users.get 0).map User.isActive = some false := by
  have hrun : execute (accountStep asciiUnicode) .empty squatted =
      some (squatted.foldl (fun s c ↦ c.perform asciiUnicode s) .empty) := rfl
  refine ⟨_, _, Run.of_execute squatted hrun, ?_, ?_⟩
  · intro y hy token now o he
    have hmem := action_mem_of_mem_transitions hy
    rw [he] at hmem
    simp [squatted] at hmem
  · refine ⟨_, List.mem_cons_of_mem _ (List.mem_singleton_self _), rfl, ?_,
      ⟨0, ⟨0, "github", "1001", some "alice"⟩, by decide, rfl, rfl, rfl⟩, by decide⟩
    rintro ⟨k, link, hget, -⟩
    cases hget

/-- Bob registers and verifies his email, signs in at GitHub with it and again later. -/
def bobSignsIn : List AccountCall :=
  [.registerInactiveUser "bob" "bob@example.com" "secret" ⟨true, true⟩ (.quiet "bob"),
    .verifyEmail (.ok (emailVerificationToken 0 0)) 60 (.quiet "bob"),
    .linkOrCreateUser "github" ⟨"7", some "Bob@example.com", some true, none, none⟩ none
      (.quiet "bob"),
    .linkOrCreateUser "github" ⟨"7", none, none, none, none⟩ none (.quiet "bob")]

/-- The laws along that run. -/
theorem bob_resolved :
    ∃ (tr : List AccountTransition) (s : Accounts),
      Run (accountStep asciiUnicode) .empty tr s ∧ s.Linked "github" "7" 0 ∧
      ((tr.Pairwise fun x y ↦ ∀ provider sub u v,
        x.action.returned asciiUnicode x.before = some (provider, sub, u) →
        y.action.returned asciiUnicode y.before = some (provider, sub, v) → v = u) ∧
      (∀ x ∈ tr, ∀ provider sub id row, ¬ x.before.Linked provider sub id →
        x.after.Linked provider sub id → x.before.users.get id = some row →
        x.action.Entitled asciiUnicode id row) ∧
      ∀ provider sub sub' id, s.Linked provider sub id → s.Linked provider sub' id →
        sub = sub') := by
  have hexecuted : execute (accountStep asciiUnicode) .empty bobSignsIn =
      some (bobSignsIn.foldl (fun s c ↦ c.perform asciiUnicode s) .empty) := rfl
  have hrun := Run.of_execute bobSignsIn hexecuted
  exact ⟨_, _, hrun, ⟨0, ⟨0, "github", "7", none⟩, by decide, rfl, rfl, rfl⟩,
    identities_resolve_safely asciiUnicode Accounts.linksConsistent_empty hrun⟩

end Examples

end ReinhardtCloud.Dashboard
