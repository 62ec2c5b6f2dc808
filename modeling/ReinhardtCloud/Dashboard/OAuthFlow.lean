import ReinhardtCloud.Base.Json
import ReinhardtCloud.Base.Pool
import ReinhardtCloud.Dashboard.Accounts

/-!
# Linking a provider identity from a browser session

Library `Dashboard`. `oauth_start` and `oauth_callback`
(`dashboard/src/apps/auth/server_urls/oauth.rs`) as processes that go on by one query at a time
beside any other activity on accounts and sessions. The framework keeps a flow under its state with
the binding and the context, and gives it out once, to a callback with the same binding. What was
checked for a link, and when, is read off the history of the run.
-/

namespace ReinhardtCloud.Dashboard

open ReinhardtCloud.Base

/-- What `validate_session` has found: the user of the session. -/
structure SessionCheck where
  session : String
  userId : Nat
  deriving DecidableEq

/-- `AccountLinkSession`: a session and its user, who was found active. -/
structure AccountLinkSession extends SessionCheck where
  user : User
  deriving DecidableEq

/-- `GET /oauth/{provider_id}/start/`. -/
structure OAuthStart where
  provider : String
  intent : Option String
  session : Option String

/-- `GET /oauth/{provider_id}/callback/`, with the state cookie and the session cookie. -/
structure OAuthCallback where
  provider : String
  state : Nat
  cookie : Option String
  session : Option String

/-- A flow that the framework keeps. -/
structure OAuthFlow where
  binding : String
  context : Option Nat

/-- The tables, the valid sessions and the pending flows by state. -/
structure OAuthStore where
  accounts : Accounts
  sessions : String → Option Nat
  flows : Table OAuthFlow

/-- What the handlers answer instead of going on; a `LinkError` becomes a validation error of its
text. -/
inductive OAuthFailure where
  | app (error : AppError)
  | link (error : LinkError)

/-! ## The handlers' decisions -/

/-- `requests_account_link`, `oauth.rs:41–50`. -/
def OAuthStart.requestsAccountLink (r : OAuthStart) : Except AppError Bool :=
  match r.intent with
  | none => .ok false
  | some intent =>
    if intent = "link" then .ok true else .error (.validation "Unsupported OAuth flow intent")

/-- `OAUTH_LINK_INTENT_PREFIX`. -/
def oauthLinkIntentPrefix : String := "link."

/-- `starts_with` the prefix. -/
def hasLinkIntent (nonce : String) : Bool :=
  oauthLinkIntentPrefix.toList.isPrefixOf nonce.toList

/-- `oauth_state_binding`, `oauth.rs:102–113`; the bytes are the UTF-8 of this text. -/
def oauthStateBinding (nonce : String) (session : Option String) : Except AppError String :=
  if nonce = "" then .error (.validation "OAuth state cookie is missing or expired")
  else .ok (jsonPair (nonce, session))

/-- `oauth_account_link_user`, `oauth.rs:116–129`. -/
def oauthAccountLinkUser (context currentUserId : Option Nat) : Except AppError (Option Nat) :=
  if context ≠ currentUserId then
    .error (.authentication "OAuth account-link session no longer matches its intent")
  else .ok context

/-! ## The steps -/

/-- Where a handler stands. -/
inductive OAuthPhase where
  | start (r : OAuthStart)
  | startLoading (r : OAuthStart) (check : SessionCheck)
  | startReady (r : OAuthStart) (link : Option AccountLinkSession)
  | redirected (nonce : String) (state : Nat)
  | callback (r : OAuthCallback)
  | callbackLoading (r : OAuthCallback) (nonce : String) (check : SessionCheck)
  | callbackReady (r : OAuthCallback) (nonce : String) (live : Option AccountLinkSession)
  | rechecking (r : OAuthCallback) (claims : StandardClaims) (userId : Nat)
  | linking (r : OAuthCallback) (claims : StandardClaims) (userId : Nat) (user : User)
  | resolving (r : OAuthCallback) (claims : StandardClaims)
  | signingIn (r : OAuthCallback) (userId : Nat)
  | linked (userId : Nat)
  | signedIn (userId : Nat) (session : String)
  | failed (e : OAuthFailure)

/-- What the environment answers at one step. -/
structure OAuthOutcome where
  uuid : String
  refusal : Option AppError
  exchange : Except AppError (Option StandardClaims)
  sessionId : Option String
  account : AccountOutcome

/-- A request. -/
inductive OAuthRequest where
  | start (r : OAuthStart)
  | callback (r : OAuthCallback)

/-- A request begins. -/
def OAuthRequest.begin : OAuthRequest → OAuthPhase
  | .start r => .start r
  | .callback r => .callback r

section Advance

variable (unicode : Unicode) (configured : String → Bool) (s : OAuthStore)

/-- The answer to a request for a provider that is not configured, `oauth.rs:71–80`. -/
def providerNotConfigured (provider : String) : OAuthPhase :=
  .failed (.app (.notFound s!"OAuth provider not configured: {provider}"))

/-- `current_user_for_account_link_intent`, first half: `validate_session`. -/
def OAuthStore.validateSession (session : String) : Option SessionCheck :=
  (s.sessions session).map fun userId ↦ ⟨session, userId⟩

/-- `current_user_for_account_link_intent`, second half: the user of the session, if active. -/
def OAuthStore.loadSessionUser (check : SessionCheck) : Option AccountLinkSession :=
  ((s.accounts.users.get check.userId).filter User.isActive).map fun user ↦ ⟨check, user⟩

/-- `begin_auth_with_context` and the redirect, `oauth.rs:207–230`. -/
def beginAuth (r : OAuthStart) (link : Option AccountLinkSession) (o : OAuthOutcome) :
    OAuthStore × OAuthPhase :=
  if !configured r.provider then (s, providerNotConfigured r.provider)
  else
    let nonce := if link.isSome then oauthLinkIntentPrefix ++ o.uuid else o.uuid
    match oauthStateBinding nonce (link.map fun l ↦ l.session) with
    | .error e => (s, .failed (.app e))
    | .ok binding =>
      match o.refusal with
      | some e => (s, .failed (.app e))
      | none =>
        ({ s with flows := s.flows.add ⟨binding, link.map fun l ↦ l.userId⟩ },
          .redirected nonce s.flows.next)

/-- `handle_callback_with_context` and the checks of its result, `oauth.rs:266–290`. The flow is
consumed with the exchange that follows. -/
def handleCallback (r : OAuthCallback) (nonce : String) (live : Option AccountLinkSession)
    (o : OAuthOutcome) : OAuthStore × OAuthPhase :=
  match oauthStateBinding nonce (live.map fun l ↦ l.session) with
  | .error e => (s, .failed (.app e))
  | .ok binding =>
    if !configured r.provider then (s, providerNotConfigured r.provider)
    else
      match s.flows.get r.state with
      | none => (s, .failed (.app (o.refusal.getD (.validation "Invalid state"))))
      | some flow =>
        if flow.binding ≠ binding then
          (s, .failed (.app (o.refusal.getD (.validation "Invalid state"))))
        else
          let consumed := { s with flows := s.flows.deleteWhere fun k _ ↦ k = r.state }
          match o.exchange with
          | .error e => (consumed, .failed (.app e))
          | .ok claims =>
            match oauthAccountLinkUser flow.context (live.map fun l ↦ l.userId) with
            | .error e => (consumed, .failed (.app e))
            | .ok linkUser =>
              match claims, linkUser with
              | none, _ => (consumed, .failed (.app
                  (.validation "OAuth provider did not return user claims")))
              | some claims, some userId => (consumed, .rechecking r claims userId)
              | some claims, none => (consumed, .resolving r claims)

/-- One step of a handler. -/
def OAuthPhase.advance (o : OAuthOutcome) : OAuthPhase → Option (OAuthStore × OAuthPhase)
  | .start r =>
    match r.requestsAccountLink with
    | .error e => some (s, .failed (.app e))
    | .ok false => some (s, .startReady r none)
    | .ok true =>
      match r.session.bind s.validateSession with
      | none => some (s, signIn)
      | some check => some (s, .startLoading r check)
  | .startLoading r check =>
    match s.loadSessionUser check with
    | none => some (s, signIn)
    | some link => some (s, .startReady r (some link))
  | .startReady r link => some (beginAuth configured s r link o)
  | .callback r =>
    match r.cookie with
    | none => some (s, .failed (.app (.validation "OAuth state cookie is missing or expired")))
    | some nonce =>
      if hasLinkIntent nonce then
        match r.session.bind s.validateSession with
        | none => some (s, expired)
        | some check => some (s, .callbackLoading r nonce check)
      else some (s, .callbackReady r nonce none)
  | .callbackLoading r nonce check =>
    match s.loadSessionUser check with
    | none => some (s, expired)
    | some live => some (s, .callbackReady r nonce (some live))
  | .callbackReady r nonce live => some (handleCallback configured s r nonce live o)
  | .rechecking r claims userId =>
    -- `active_user_for_account_link_intent`
    match s.accounts.users.get userId with
    | some user =>
      if user.isActive then some (s, .linking r claims userId user) else some (s, gone)
    | none => some (s, gone)
  | .linking r claims userId user =>
    let q := linkUserToProvider s.accounts r.provider claims userId user o.account
    match q.2 with
    | .error e => some ({ s with accounts := q.1 }, .failed (.link e))
    | .ok id => some ({ s with accounts := q.1 }, .linked id)
  | .resolving r claims =>
    let q := linkOrCreateUser unicode s.accounts r.provider claims none o.account
    match q.2 with
    | .error e => some ({ s with accounts := q.1 }, .failed (.link e))
    | .ok id => some ({ s with accounts := q.1 }, .signingIn r id)
  | .signingIn _ userId =>
    match o.sessionId with
    | none => some (s, .failed (.app (.internal "Internal server error")))
    | some session => some ({ s with sessions := Function.update s.sessions session (some userId) },
        .signedIn userId session)
  | .redirected _ _ => none
  | .linked _ => none
  | .signedIn _ _ => none
  | .failed _ => none
where
  signIn : OAuthPhase :=
    .failed (.app (.authentication "Sign in before linking an OAuth account"))
  expired : OAuthPhase :=
    .failed (.app (.authentication "OAuth account-link session is missing, inactive, or expired"))
  gone : OAuthPhase :=
    .failed (.app (.authentication "OAuth account-link intent is no longer valid"))

end Advance

/-- What happens beside the handlers: registrations, changes and deletions of accounts; logins,
logouts, expiry and swaps of sessions; expiry of flows. -/
inductive OAuthEvent where
  | changeAccounts (accounts : Accounts)
  | changeSessions (sessions : String → Option Nat)
  | expireFlow (state : Nat)

/-- An event happens. -/
def OAuthEvent.occur (s : OAuthStore) : OAuthEvent → Option OAuthStore
  | .changeAccounts accounts => some { s with accounts }
  | .changeSessions sessions => some { s with sessions }
  | .expireFlow state => some { s with flows := s.flows.deleteWhere fun k _ ↦ k = state }

/-- An action of the system. -/
abbrev OAuthAction := PoolAction OAuthRequest OAuthOutcome OAuthEvent

/-- One step of the system. -/
def oauthStep (unicode : Unicode) (configured : String → Bool) :
    Pool OAuthStore OAuthPhase → OAuthAction → Option (Pool OAuthStore OAuthPhase) :=
  Pool.step OAuthRequest.begin (fun s p o ↦ p.advance unicode configured s o) OAuthEvent.occur

/-- An action and the states around it. -/
abbrev OAuthTransition := Transition (Pool OAuthStore OAuthPhase) OAuthAction

/-! ## What a history says -/

/-- The process has started a flow with intent link in the session, and found that it is a session
of the user and the user active. -/
structure StartedInSession (history : List OAuthTransition) (i : Nat) (r : OAuthStart)
    (session : String) (userId : Nat) : Prop where
  intent : r.intent = some "link"
  presented : r.session = some session
  valid : Pool.Took (fun s p ↦ p = .start r ∧ s.sessions session = some userId) history i
  active : Pool.Took (fun s p ↦ p = .startLoading r ⟨session, userId⟩ ∧ s.accounts.Active userId)
    history i

/-- The callback presents the session, and the process has found that it is a session of the user
and the user active. -/
structure PresentsSession (history : List OAuthTransition) (i : Nat) (r : OAuthCallback)
    (session : String) (userId : Nat) : Prop where
  presented : r.session = some session
  valid : Pool.Took (fun s p ↦ p = .callback r ∧ s.sessions session = some userId) history i
  active : Pool.Took (fun s p ↦ (∃ nonce, p = .callbackLoading r nonce ⟨session, userId⟩) ∧
    s.accounts.Active userId) history i

/-- The process keeps a flow under the state with the step. -/
def Begins (state : Nat) (r : OAuthStart) (link : Option AccountLinkSession) (i : Nat)
    (x : OAuthTransition) : Prop :=
  (∃ o, x.action = .advance i o) ∧ x.before.procs[i]? = some (.startReady r link) ∧
    x.before.store.flows.next = state ∧ (x.after.store.flows.get state).isSome

/-- The flow under the state was started with intent link, in the session of the user. -/
def LinkFlow (history : List OAuthTransition) (state : Nat) (session : String) (userId : Nat) :
    Prop :=
  ∃ before x after i r user, history = before ++ x :: after ∧
    Begins state r (some ⟨⟨session, userId⟩, user⟩) i x ∧
    StartedInSession before i r session userId

/-- The flow under the state was started without intent. -/
def LoginFlow (history : List OAuthTransition) (state : Nat) : Prop :=
  ∃ before x after i r, history = before ++ x :: after ∧ Begins state r none i x ∧ r.intent = none

/-- The binding and the context of a pending flow say in which session it was started. -/
def OAuthFlow.Known (history : List OAuthTransition) (state : Nat) (flow : OAuthFlow) : Prop :=
  ∃ nonce,
    (∃ session userId, flow.binding = jsonPair (nonce, some session) ∧
      flow.context = some userId ∧ LinkFlow history state session userId) ∨
    flow.binding = jsonPair (nonce, none) ∧ flow.context = none ∧ LoginFlow history state

/-- What a process has checked at each of its points. -/
def OAuthPhase.Known (history : List OAuthTransition) (i : Nat) : OAuthPhase → Prop
  | .startLoading r check => r.intent = some "link" ∧ r.session = some check.session ∧
      Pool.Took (fun s p ↦ p = .start r ∧ s.sessions check.session = some check.userId) history i
  | .startReady r none => r.intent = none
  | .startReady r (some link) => StartedInSession history i r link.session link.userId
  | .callbackLoading r _ check => r.session = some check.session ∧
      Pool.Took (fun s p ↦ p = .callback r ∧ s.sessions check.session = some check.userId)
        history i
  | .callbackReady r _ (some live) => PresentsSession history i r live.session live.userId
  | .rechecking r _ userId => ∃ session, LinkFlow history r.state session userId ∧
      PresentsSession history i r session userId
  | .linking r claims userId _ => (∃ session, LinkFlow history r.state session userId ∧
      PresentsSession history i r session userId) ∧
        Pool.Took (fun s p ↦ p = .rechecking r claims userId ∧ s.accounts.Active userId) history i
  | .resolving r _ => LoginFlow history r.state
  | _ => True

/-- Every pending flow is known. -/
def OAuthStore.Known (history : List OAuthTransition) (s : OAuthStore) : Prop :=
  ∀ k flow, s.flows.get k = some flow → flow.Known history k

section Histories

variable {history : List OAuthTransition} {x : OAuthTransition} {i : Nat}

theorem LinkFlow.append {state : Nat} {session : String} {userId : Nat}
    (h : LinkFlow history state session userId) (x : OAuthTransition) :
    LinkFlow (history ++ [x]) state session userId := by
  obtain ⟨before, y, after, j, r, user, rfl, hbegins, hstarted⟩ := h
  exact ⟨before, y, after ++ [x], j, r, user, by simp, hbegins, hstarted⟩

theorem LoginFlow.append {state : Nat} (h : LoginFlow history state) (x : OAuthTransition) :
    LoginFlow (history ++ [x]) state := by
  obtain ⟨before, y, after, j, r, rfl, hbegins, hintent⟩ := h
  exact ⟨before, y, after ++ [x], j, r, by simp, hbegins, hintent⟩

theorem OAuthStore.Known.append {s : OAuthStore} (h : s.Known history) (x : OAuthTransition) :
    s.Known (history ++ [x]) := by
  intro k flow hget
  obtain ⟨nonce, ⟨session, userId, hbinding, hcontext, hflow⟩ | ⟨hbinding, hcontext, hflow⟩⟩ :=
    h k flow hget
  · exact ⟨nonce, .inl ⟨session, userId, hbinding, hcontext, hflow.append x⟩⟩
  · exact ⟨nonce, .inr ⟨hbinding, hcontext, hflow.append x⟩⟩

theorem OAuthStore.Known.deleteWhere {s : OAuthStore} (h : s.Known history)
    {f : Nat → OAuthFlow → Bool} :
    ({ s with flows := s.flows.deleteWhere f } : OAuthStore).Known history :=
  fun k flow hget ↦ h k flow (Table.get_deleteWhere.mp hget).1

theorem StartedInSession.append {r : OAuthStart} {session : String} {userId : Nat}
    (h : StartedInSession history (x.action.placeBefore i) r session userId) :
    StartedInSession (history ++ [x]) i r session userId :=
  ⟨h.intent, h.presented, h.valid.earlier, h.active.earlier⟩

theorem PresentsSession.append {r : OAuthCallback} {session : String} {userId : Nat}
    (h : PresentsSession history (x.action.placeBefore i) r session userId) :
    PresentsSession (history ++ [x]) i r session userId :=
  ⟨h.presented, h.valid.earlier, h.active.earlier⟩

/-- What a process has checked stays checked. -/
theorem OAuthPhase.Known.append {p : OAuthPhase} (h : p.Known history (x.action.placeBefore i)) :
    p.Known (history ++ [x]) i := by
  cases p with
  | startLoading r check => exact ⟨h.1, h.2.1, h.2.2.earlier⟩
  | startReady r link =>
    cases link with
    | none => exact h
    | some link => exact StartedInSession.append h
  | callbackLoading r nonce check => exact ⟨h.1, h.2.earlier⟩
  | callbackReady r nonce live =>
    cases live with
    | none => trivial
    | some live => exact PresentsSession.append h
  | rechecking r claims userId =>
    obtain ⟨session, hflow, hpresents⟩ := h
    exact ⟨session, hflow.append x, hpresents.append⟩
  | linking r claims userId user =>
    obtain ⟨⟨session, hflow, hpresents⟩, hactive⟩ := h
    exact ⟨⟨session, hflow.append x, hpresents.append⟩, hactive.earlier⟩
  | resolving r claims => exact LoginFlow.append h x
  | start r => trivial
  | redirected nonce state => trivial
  | callback r => trivial
  | signingIn r userId => trivial
  | linked userId => trivial
  | signedIn userId session => trivial
  | failed e => trivial

end Histories

/-! ## What a step adds to it -/

section Steps

variable {unicode : Unicode} {configured : String → Bool} {s t : OAuthStore} {o : OAuthOutcome}
  {p p' : OAuthPhase}

private theorem validateSession_eq_some {session : String} {check : SessionCheck}
    (h : s.validateSession session = some check) :
    check.session = session ∧ s.sessions session = some check.userId := by
  obtain ⟨userId, huser, rfl⟩ := Option.map_eq_some_iff.mp h
  exact ⟨rfl, huser⟩

private theorem loadSessionUser_eq_some {check : SessionCheck} {link : AccountLinkSession}
    (h : s.loadSessionUser check = some link) :
    link.toSessionCheck = check ∧ s.accounts.Active check.userId := by
  obtain ⟨user, huser, rfl⟩ := Option.map_eq_some_iff.mp h
  obtain ⟨hget, hactive⟩ := Option.filter_eq_some_iff.mp huser
  exact ⟨rfl, user, hget, hactive⟩

private theorem checked_session {session : Option String} {check : SessionCheck}
    (h : session.bind s.validateSession = some check) :
    session = some check.session ∧ s.sessions check.session = some check.userId := by
  obtain ⟨text, htext, hcheck⟩ := Option.bind_eq_some_iff.mp h
  obtain ⟨rfl, hvalid⟩ := validateSession_eq_some hcheck
  exact ⟨htext, hvalid⟩

private theorem requestsAccountLink_eq_ok {r : OAuthStart} {link : Bool}
    (h : r.requestsAccountLink = .ok link) :
    if link then r.intent = some "link" else r.intent = none := by
  unfold OAuthStart.requestsAccountLink at h
  split at h
  · next hintent =>
    cases h
    exact hintent
  · next intent hintent =>
    split at h
    · next hlink =>
      cases h
      exact hlink ▸ hintent
    · cases h

private theorem oauthStateBinding_eq_ok {nonce binding : String} {session : Option String}
    (h : oauthStateBinding nonce session = .ok binding) : binding = jsonPair (nonce, session) := by
  unfold oauthStateBinding at h
  split at h
  · cases h
  · exact (Except.ok.inj h).symm

section Known

variable {history : List OAuthTransition} {b b' : Pool OAuthStore OAuthPhase} {i : Nat}

/-- A step of a process that is at a point. -/
private theorem took_last {P : OAuthStore → OAuthPhase → Prop} (hp : b.procs[i]? = some p)
    (h : P b.store p) : Pool.Took P (history ++ [⟨b, .advance i o, b'⟩]) i :=
  .last rfl hp h

private theorem took_earlier {P : OAuthStore → OAuthPhase → Prop}
    (h : Pool.Took P history i) : Pool.Took P (history ++ [⟨b, .advance i o, b'⟩]) i :=
  .earlier h

/-- A flow that begins is known. -/
theorem beginAuth_known {r : OAuthStart} {link : Option AccountLinkSession}
    (hs : b.store.Known history) (hknown : OAuthPhase.Known history i (.startReady r link))
    (hp : b.procs[i]? = some (.startReady r link))
    (h : beginAuth configured b.store r link o = (t, p')) (hafter : b'.store = t) :
    t.Known (history ++ [⟨b, .advance i o, b'⟩]) ∧
      p'.Known (history ++ [⟨b, .advance i o, b'⟩]) i := by
  unfold beginAuth at h
  split at h
  · cases h
    exact ⟨hs.append _, trivial⟩
  · dsimp only at h
    split at h
    · cases h
      exact ⟨hs.append _, trivial⟩
    · next binding hbinding =>
      split at h
      · cases h
        exact ⟨hs.append _, trivial⟩
      · cases h
        refine ⟨fun k flow hget ↦ ?_, trivial⟩
        rw [Table.get_add] at hget
        split at hget
        · next hnew =>
          cases hget
          have hbegins : Begins k r link i ⟨b, .advance i o, b'⟩ := by
            refine ⟨⟨o, rfl⟩, hp, hnew.symm, ?_⟩
            show (b'.store.flows.get k).isSome
            rw [hafter, hnew, Table.get_add_next]
            rfl
          cases link with
          | none =>
            exact ⟨_, .inr ⟨oauthStateBinding_eq_ok hbinding, rfl, history, _, [], i, r, rfl,
              hbegins, hknown⟩⟩
          | some link =>
            exact ⟨_, .inl ⟨link.session, link.userId, oauthStateBinding_eq_ok hbinding, rfl,
              history, _, [], i, r, link.user, rfl, hbegins, hknown⟩⟩
        · exact hs.append _ k flow hget

/-- A callback that has got its flow is of the flow's session, or both are of none. -/
theorem handleCallback_known {r : OAuthCallback} {nonce : String}
    {live : Option AccountLinkSession} (hs : b.store.Known history)
    (hlive : OAuthPhase.Known history i (.callbackReady r nonce live))
    (h : handleCallback configured b.store r nonce live o = (t, p')) :
    t.Known (history ++ [⟨b, .advance i o, b'⟩]) ∧
      p'.Known (history ++ [⟨b, .advance i o, b'⟩]) i := by
  have hdeleted {f : Nat → OAuthFlow → Bool} := (hs.deleteWhere (f := f)).append
    ⟨b, .advance i o, b'⟩
  unfold handleCallback at h
  split at h
  · cases h
    exact ⟨hs.append _, trivial⟩
  · next binding hbinding =>
    split at h
    · cases h
      exact ⟨hs.append _, trivial⟩
    · split at h
      · cases h
        exact ⟨hs.append _, trivial⟩
      · next flow hflow =>
        split at h
        · cases h
          exact ⟨hs.append _, trivial⟩
        · next hequal =>
          dsimp only at h
          split at h
          · cases h
            exact ⟨hdeleted, trivial⟩
          · split at h
            · cases h
              exact ⟨hdeleted, trivial⟩
            · next linkUser hlinkUser =>
              have hbound : flow.binding = jsonPair (nonce, live.map fun l ↦ l.session) :=
                (not_not.mp hequal).trans (oauthStateBinding_eq_ok hbinding)
              have huser : flow.context = live.map (fun l ↦ l.userId) ∧
                linkUser = flow.context := by
                unfold oauthAccountLinkUser at hlinkUser
                split at hlinkUser
                · cases hlinkUser
                · next hsame => exact ⟨not_not.mp hsame, (Except.ok.inj hlinkUser).symm⟩
              split at h
              · cases h
                exact ⟨hdeleted, trivial⟩
              · next claims userId =>
                cases h
                refine ⟨hdeleted, ?_⟩
                obtain ⟨begun, ⟨session, userId', hbegun, hcontext, hstarted⟩ | ⟨-, hnone, -⟩⟩ :=
                  hs _ _ hflow
                · -- equal bindings are bindings of one session
                  have hsession : some session = live.map fun l ↦ l.session :=
                    (Prod.mk.inj (jsonPair_injective (hbegun.symm.trans hbound))).2
                  obtain ⟨current, rfl, rfl⟩ := Option.map_eq_some_iff.mp hsession.symm
                  obtain rfl := Option.some.inj (huser.2.trans hcontext)
                  obtain hsame := Option.some.inj (hcontext.symm.trans huser.1)
                  rw [hsame] at hstarted ⊢
                  exact ⟨current.session, hstarted.append _,
                    hlive.presented, took_earlier hlive.valid, took_earlier hlive.active⟩
                · rw [hnone] at huser
                  cases huser.2
              · next claims =>
                cases h
                refine ⟨hdeleted, ?_⟩
                obtain ⟨begun, ⟨session, userId', -, hcontext, -⟩ | ⟨-, -, hstarted⟩⟩ :=
                  hs _ _ hflow
                · rw [hcontext] at huser
                  cases huser.2
                · exact hstarted.append _

/-- A step adds what it has checked. -/
theorem OAuthPhase.advance_known (hs : b.store.Known history) (hknown : p.Known history i)
    (hp : b.procs[i]? = some p) (h : p.advance unicode configured b.store o = some (t, p'))
    (hafter : b'.store = t) :
    t.Known (history ++ [⟨b, .advance i o, b'⟩]) ∧
      p'.Known (history ++ [⟨b, .advance i o, b'⟩]) i := by
  cases p with
  | start r =>
    simp only [OAuthPhase.advance] at h
    split at h
    · cases h
      exact ⟨hs.append _, trivial⟩
    · next hlink =>
      cases h
      exact ⟨hs.append _, requestsAccountLink_eq_ok hlink⟩
    · next hlink =>
      split at h
      · cases h
        exact ⟨hs.append _, trivial⟩
      · next check hcheck =>
        cases h
        obtain ⟨hpresented, hvalid⟩ := checked_session hcheck
        exact ⟨hs.append _, requestsAccountLink_eq_ok hlink, hpresented,
          took_last hp ⟨rfl, hvalid⟩⟩
  | startLoading r check =>
    simp only [OAuthPhase.advance] at h
    split at h
    · cases h
      exact ⟨hs.append _, trivial⟩
    · next link hlink =>
      cases h
      obtain ⟨rfl, hactive⟩ := loadSessionUser_eq_some hlink
      exact ⟨hs.append _, hknown.1, hknown.2.1, took_earlier hknown.2.2,
        took_last hp ⟨rfl, hactive⟩⟩
  | startReady r link =>
    obtain h := Option.some.inj h
    exact beginAuth_known hs hknown hp h hafter
  | redirected nonce state => cases h
  | callback r =>
    simp only [OAuthPhase.advance] at h
    split at h
    · cases h
      exact ⟨hs.append _, trivial⟩
    · split at h
      · split at h
        · cases h
          exact ⟨hs.append _, trivial⟩
        · next check hcheck =>
          cases h
          obtain ⟨hpresented, hvalid⟩ := checked_session hcheck
          exact ⟨hs.append _, hpresented, took_last hp ⟨rfl, hvalid⟩⟩
      · cases h
        exact ⟨hs.append _, trivial⟩
  | callbackLoading r nonce check =>
    simp only [OAuthPhase.advance] at h
    split at h
    · cases h
      exact ⟨hs.append _, trivial⟩
    · next live hlive =>
      cases h
      obtain ⟨rfl, hactive⟩ := loadSessionUser_eq_some hlive
      exact ⟨hs.append _, hknown.1, took_earlier hknown.2,
        took_last hp ⟨⟨nonce, rfl⟩, hactive⟩⟩
  | callbackReady r nonce live =>
    obtain h := Option.some.inj h
    exact handleCallback_known hs hknown h
  | rechecking r claims userId =>
    simp only [OAuthPhase.advance] at h
    split at h
    · next user huser =>
      split at h
      · next hactive =>
        cases h
        exact ⟨hs.append _, OAuthPhase.Known.append (p := .rechecking r claims userId) hknown,
          took_last hp ⟨rfl, user, huser, hactive⟩⟩
      · cases h
        exact ⟨hs.append _, trivial⟩
    · cases h
      exact ⟨hs.append _, trivial⟩
  | linking r claims userId user =>
    simp only [OAuthPhase.advance] at h
    split at h
    · cases h
      exact ⟨OAuthStore.Known.append hs _, trivial⟩
    · cases h
      exact ⟨OAuthStore.Known.append hs _, trivial⟩
  | resolving r claims =>
    simp only [OAuthPhase.advance] at h
    split at h
    · cases h
      exact ⟨OAuthStore.Known.append hs _, trivial⟩
    · cases h
      exact ⟨OAuthStore.Known.append hs _, trivial⟩
  | signingIn r userId =>
    simp only [OAuthPhase.advance] at h
    split at h
    · cases h
      exact ⟨hs.append _, trivial⟩
    · cases h
      exact ⟨OAuthStore.Known.append hs _, trivial⟩
  | linked userId => cases h
  | signedIn userId session => cases h
  | failed e => cases h

end Known

private theorem oauth_recalls (unicode : Unicode) (configured : String → Bool) :
    Pool.Recalls OAuthRequest.begin (fun s p o ↦ OAuthPhase.advance unicode configured s o p)
      OAuthEvent.occur OAuthStore.Known OAuthPhase.Known where
  store _ _ _ h := h.append _
  procs _ _ _ _ h := h.append
  start _ _ r := by cases r <;> trivial
  advance _ _ _ _ _ _ _ _ hs hknown hp h hafter := OAuthPhase.advance_known hs hknown hp h hafter
  environment history x s e t hs h := by
    cases e with
    | changeAccounts accounts =>
      cases h
      exact OAuthStore.Known.append hs x
    | changeSessions sessions =>
      cases h
      exact OAuthStore.Known.append hs x
    | expireFlow state =>
      cases h
      exact hs.deleteWhere.append x

/-! ## Which links a callback adds -/

/-- The process links the identity next, to the user of a session: its flow was started with intent
link in the session that the callback presents, which was the user's then and at the callback, and
the user was active, also when it was looked up last. -/
def OAuthPhase.LinksFromSession (history : List OAuthTransition) (i : Nat) (p : OAuthPhase)
    (provider sub : String) (userId : Nat) : Prop :=
  ∃ r claims user session, p = .linking r claims userId user ∧ r.provider = provider ∧
    claims.sub = sub ∧ LinkFlow history r.state session userId ∧
    PresentsSession history i r session userId ∧
    Pool.Took (fun s p ↦ p = .rechecking r claims userId ∧ s.accounts.Active userId) history i

/-- The process resolves the claims of a flow without intent next: the step creates the user, or the
user has the email that the provider has verified. -/
def OAuthPhase.LinksFromClaims (unicode : Unicode) (history : List OAuthTransition)
    (p : OAuthPhase) (old new : Accounts) (provider sub : String) (userId : Nat) : Prop :=
  ∃ r claims, p = .resolving r claims ∧ r.provider = provider ∧ claims.sub = sub ∧
    LoginFlow history r.state ∧
    (old.users.get userId = none ∧ (new.users.get userId).isSome ∨
      ∃ row email, old.users.get userId = some row ∧ claims.emailVerified = some true ∧
        claims.email = some email ∧ row.email = unicode.toLowercase email)

/-- The two steps that resolve an identity. -/
def OAuthPhase.Resolves : OAuthPhase → Prop
  | .linking _ _ _ _ => True
  | .resolving _ _ => True
  | _ => False

private theorem beginAuth_accounts (configured : String → Bool) (s : OAuthStore) (r : OAuthStart)
    (link : Option AccountLinkSession) (o : OAuthOutcome) :
    (beginAuth configured s r link o).1.accounts = s.accounts := by
  unfold beginAuth
  dsimp only
  repeat' split
  all_goals rfl

private theorem handleCallback_accounts (configured : String → Bool) (s : OAuthStore)
    (r : OAuthCallback) (nonce : String) (live : Option AccountLinkSession) (o : OAuthOutcome) :
    (handleCallback configured s r nonce live o).1.accounts = s.accounts := by
  unfold handleCallback
  dsimp only
  repeat' split
  all_goals rfl

/-- The other steps leave the tables. -/
theorem OAuthPhase.advance_accounts (h : p.advance unicode configured s o = some (t, p'))
    (hp : ¬ p.Resolves) : t.accounts = s.accounts := by
  cases p with
  | start r =>
    simp only [OAuthPhase.advance] at h
    split at h
    · cases h; rfl
    · cases h; rfl
    · split at h
      · cases h; rfl
      · cases h; rfl
  | startLoading r check =>
    simp only [OAuthPhase.advance] at h
    split at h
    · cases h; rfl
    · cases h; rfl
  | startReady r link =>
    obtain h := Option.some.inj h
    have haccounts := beginAuth_accounts configured s r link o
    rwa [h] at haccounts
  | redirected nonce state => cases h
  | callback r =>
    simp only [OAuthPhase.advance] at h
    split at h
    · cases h; rfl
    · split at h
      · split at h
        · cases h; rfl
        · cases h; rfl
      · cases h; rfl
  | callbackLoading r nonce check =>
    simp only [OAuthPhase.advance] at h
    split at h
    · cases h; rfl
    · cases h; rfl
  | callbackReady r nonce live =>
    obtain h := Option.some.inj h
    have haccounts := handleCallback_accounts configured s r nonce live o
    rwa [h] at haccounts
  | rechecking r claims userId =>
    simp only [OAuthPhase.advance] at h
    split at h
    · split at h
      · cases h; rfl
      · cases h; rfl
    · cases h; rfl
  | linking => exact absurd trivial hp
  | resolving => exact absurd trivial hp
  | signingIn r userId =>
    simp only [OAuthPhase.advance] at h
    split at h
    · cases h; rfl
    · cases h; rfl
  | linked userId => cases h
  | signedIn userId session => cases h
  | failed e => cases h

/-- Only two steps of a handler add links. -/
theorem OAuthPhase.advance_links {history : List OAuthTransition} {i : Nat}
    {provider sub : String} {userId : Nat} (hknown : p.Known history i)
    (h : p.advance unicode configured s o = some (t, p'))
    (hold : ¬ s.accounts.Linked provider sub userId)
    (hnew : t.accounts.Linked provider sub userId) :
    p.LinksFromSession history i provider sub userId ∨
      p.LinksFromClaims unicode history s.accounts t.accounts provider sub userId := by
  have hother (hp : ¬ p.Resolves) : False := hold (advance_accounts h hp ▸ hnew)
  cases p with
  | linking r claims id user =>
    obtain ⟨⟨session, hflow, hpresents⟩, hactive⟩ := hknown
    have haccounts : t.accounts =
        (linkUserToProvider s.accounts r.provider claims id user o.account).1 := by
      simp only [OAuthPhase.advance] at h
      split at h
      · cases h
        rfl
      · cases h
        rfl
    rw [haccounts] at hnew
    obtain ⟨rfl, rfl, ⟨_, _, rfl⟩ | ⟨hfalse, -⟩⟩ := linkUserToProvider_outcome.new_link hold hnew
    · exact .inl ⟨r, claims, user, session, rfl, rfl, rfl, hflow, hpresents, hactive⟩
    · exact hfalse.elim
  | resolving r claims =>
    have haccounts : t.accounts =
        (linkOrCreateUser unicode s.accounts r.provider claims none o.account).1 := by
      simp only [OAuthPhase.advance] at h
      split at h
      · cases h
        rfl
      · cases h
        rfl
    rw [haccounts] at hnew ⊢
    obtain ⟨rfl, rfl, ⟨row, hrow, hmay⟩ | ⟨-, hcreated⟩⟩ :=
      linkOrCreateUser_outcome.new_link hold hnew
    · rcases hmay with hcurrent | ⟨hverified, email, hemail, hequal⟩
      · cases hcurrent
      · exact .inr ⟨r, claims, rfl, rfl, rfl, hknown,
          .inr ⟨row, email, hrow, hverified, hemail, hequal⟩⟩
    · exact .inr ⟨r, claims, rfl, rfl, rfl, hknown, .inl hcreated⟩
  | start r => exact (hother id).elim
  | startLoading r check => exact (hother id).elim
  | startReady r link => exact (hother id).elim
  | redirected nonce state => exact (hother id).elim
  | callback r => exact (hother id).elim
  | callbackLoading r nonce check => exact (hother id).elim
  | callbackReady r nonce live => exact (hother id).elim
  | rechecking r claims id => exact (hother fun h ↦ h).elim
  | signingIn r id => exact (hother fun h ↦ h).elim
  | linked id => exact (hother fun h ↦ h).elim
  | signedIn id session => exact (hother fun h ↦ h).elim
  | failed e => exact (hother id).elim

end Steps

/-! ## Runs -/

/-- Whenever a callback links an identity to a user, its flow was started with intent link in the
session that the callback presents, which the store held for that user, an active one, at the start
and at the callback; or it was started without intent, and the user is created by the callback or
has the email that the provider has verified, whatever the session of the browser. -/
theorem identity_links_bound (unicode : Unicode) (configured : String → Bool) (accounts : Accounts)
    (sessions : String → Option Nat) {tr : List OAuthTransition} {s : Pool OAuthStore OAuthPhase}
    (h : Run (oauthStep unicode configured) ⟨⟨accounts, sessions, .empty⟩, []⟩ tr s) :
    ∀ before x after, tr = before ++ x :: after → ∀ i o, x.action = .advance i o →
      ∀ provider sub userId, ¬ x.before.store.accounts.Linked provider sub userId →
      x.after.store.accounts.Linked provider sub userId →
      ∃ p, x.before.procs[i]? = some p ∧ (p.LinksFromSession before i provider sub userId ∨
        p.LinksFromClaims unicode before x.before.store.accounts x.after.store.accounts provider
          sub userId) := by
  rintro before x after rfl i o haction provider sub userId hold hnew
  obtain ⟨hbefore, hstep⟩ := h.split
  have hinit : (⟨accounts, sessions, .empty⟩ : OAuthStore).Known [] :=
    fun k flow hget ↦ (nomatch hget)
  obtain ⟨-, hknown⟩ := (oauth_recalls unicode configured).run hinit hbefore
  rw [haction] at hstep
  obtain ⟨p, t, p', hp, hadvance, hafter⟩ := Pool.step_advance hstep
  rw [hafter] at hnew ⊢
  exact ⟨p, hp, OAuthPhase.advance_links (hknown i p hp) hadvance hold hnew⟩

section Examples

/-- Alice, and nobody else. -/
private def aliceAccounts : Accounts :=
  { Accounts.empty with
    users := Table.empty.add ⟨"alice", "alice@example.com", some "secret", true, false, false⟩ }

/-- Her browser's session. -/
private def aliceSession (session : String) : Option Nat := if session = "s1" then some 0 else none

private def providerAnswers (uuid : String) : OAuthOutcome :=
  ⟨uuid, none, .ok (some ⟨"1001", some "alice@example.com", some true, none, some "alice"⟩),
    some "s2", ⟨"alice", "alice-0a1b2c", none, none, none⟩⟩

private def goOn (i n : Nat) : List OAuthAction :=
  List.replicate n (.advance i (providerAnswers "6f1c"))

/-- Alice's browser, signed in, runs a login flow. -/
def loginWhileSignedIn : List OAuthAction :=
  .start (.start ⟨"github", none, some "s1"⟩) :: goOn 0 2 ++
    .start (.callback ⟨"github", 0, some "6f1c", some "s1"⟩) :: goOn 1 3

/-- A flow without intent links an identity to the user of the browser's session: the provider has
verified her email. -/
theorem login_links_session_user :
    ∃ (tr : List OAuthTransition) (s : Pool OAuthStore OAuthPhase),
      Run (oauthStep asciiUnicode fun _ ↦ true) ⟨⟨aliceAccounts, aliceSession, .empty⟩, []⟩ tr s ∧
      ∃ before x after, tr = before ++ x :: after ∧ ∃ o r claims, x.action = .advance 1 o ∧
        x.before.procs[1]? = some (.resolving r claims) ∧ LoginFlow before r.state ∧
        ¬ x.before.store.accounts.Linked "github" "1001" 0 ∧
        x.after.store.accounts.Linked "github" "1001" 0 ∧
        r.session = some "s1" ∧ x.before.store.sessions "s1" = some 0 := by
  have hrun : ∃ s, execute (oauthStep asciiUnicode fun _ ↦ true)
      ⟨⟨aliceAccounts, aliceSession, .empty⟩, []⟩ loginWhileSignedIn = some s := ⟨_, rfl⟩
  obtain ⟨s, hs⟩ := hrun
  -- The third step keeps the flow, the last one resolves its claims.
  refine ⟨_, s, Run.of_execute loginWhileSignedIn hs, [_, _, _, _, _, _], _, [], rfl, _, _, _, rfl,
    rfl, ⟨[_, _], _, [_, _, _], 0, _, rfl, ⟨⟨_, rfl⟩, rfl, rfl, rfl⟩, rfl⟩, ?_,
    ⟨0, ⟨0, "github", "1001", some "alice"⟩, rfl, rfl, rfl, rfl⟩, rfl, rfl⟩
  rintro ⟨k, link, hget, -⟩
  cases hget

/-- Alice links her GitHub identity from her session. -/
def linkFromSession : List OAuthAction :=
  .start (.start ⟨"github", some "link", some "s1"⟩) :: goOn 0 3 ++
    .start (.callback ⟨"github", 0, some "link.6f1c", some "s1"⟩) :: goOn 1 5

/-- The law along that run, the last step of which links the identity. -/
theorem link_from_session_bound :
    ∃ (before : List OAuthTransition) (x : OAuthTransition) (s : Pool OAuthStore OAuthPhase),
      Run (oauthStep asciiUnicode fun _ ↦ true) ⟨⟨aliceAccounts, aliceSession, .empty⟩, []⟩
        (before ++ [x]) s ∧
      ∃ p, x.before.procs[1]? = some p ∧ (p.LinksFromSession before 1 "github" "1001" 0 ∨
        p.LinksFromClaims asciiUnicode before x.before.store.accounts x.after.store.accounts
          "github" "1001" 0) := by
  have hrun : ∃ s, execute (oauthStep asciiUnicode fun _ ↦ true)
      ⟨⟨aliceAccounts, aliceSession, .empty⟩, []⟩ linkFromSession = some s := ⟨_, rfl⟩
  obtain ⟨s, hs⟩ := hrun
  have htrace : ∃ before x, transitions (oauthStep asciiUnicode fun _ ↦ true)
      ⟨⟨aliceAccounts, aliceSession, .empty⟩, []⟩ linkFromSession = before ++ [x] ∧
        (∃ o, x.action = .advance 1 o) ∧ x.before.store.accounts.socialAccounts = .empty ∧
        x.after.store.accounts.socialAccounts.get 0 = some ⟨0, "github", "1001", some "alice"⟩ :=
    ⟨[_, _, _, _, _, _, _, _, _], _, rfl, ⟨_, rfl⟩, rfl, rfl⟩
  obtain ⟨before, x, htr, ⟨o, haction⟩, hnone, hlink⟩ := htrace
  have hrun := Run.of_execute linkFromSession hs
  rw [htr] at hrun
  refine ⟨before, x, s, hrun, identity_links_bound asciiUnicode (fun _ ↦ true) aliceAccounts
    aliceSession hrun before x [] rfl 1 o haction "github" "1001" 0 ?_ ⟨0, _, hlink, rfl, rfl, rfl⟩⟩
  rintro ⟨k, link, hget, -⟩
  rw [hnone] at hget
  cases hget

end Examples

end ReinhardtCloud.Dashboard
