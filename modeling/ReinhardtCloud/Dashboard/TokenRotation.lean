import ReinhardtCloud.Dashboard.ClusterTokens

/-!
# Finality of token rotation

Library `Dashboard`. When a rotated token stops being accepted and its streams stop being served.
The form and the rotation both write the whole row back, so the one can undo the other; and rotation
leaves the streams of the old token open. Without such a stale write, without two tokens of one
second, and without a command for an agent whose stream a replaced token has opened, rotation is
final.
-/

namespace ReinhardtCloud.Dashboard

open ReinhardtCloud.Base ReinhardtCloud.Grpc.ControlPlane

/-! ## What rotation is to guarantee -/

namespace ClusterStore

/-- No token that a completed rotation has replaced is accepted. -/
def RotationFinal (s : ClusterStore) : Prop :=
  ∀ token ∈ s.revoked, verifyPersistedAgentToken s.clusters token ≠ .ok ()

/-- No token of a cluster is accepted while the last completed update has it inactive. -/
def InactiveRefused (s : ClusterStore) : Prop :=
  ∀ (token : AgentToken) (k : Nat), clusterPkFromAgentClaim token.clusterId = some (k : Int) →
    s.lastUpdate k = some false → verifyPersistedAgentToken s.clusters token ≠ .ok ()

end ClusterStore

/-- A command goes to no stream that was authenticated with a token replaced before the command was
issued. -/
def DeliversCurrent (x : ClusterTransition) : Prop :=
  ∀ i d replaced, x.action = .environment (.plane (.deliver i)) →
    x.after.store.plane.delivered = d :: x.before.store.plane.delivered →
    x.before.store.revokedAtIssue[i]? = some replaced →
    ∀ token ∈ replaced, x.before.store.authenticatedWith d.channel ≠ some token

/-- A form that writes finds the token hash that it has read; a rotation finds the activity that it
has read, and its token is not among the replaced ones. -/
def ClusterPhase.WritesFresh (s : ClusterStore) : ClusterPhase → Prop
  | .updating request loaded => ∀ stored ∈ s.clusters.get request.clusterId,
      stored.tokenHash = loaded.tokenHash
  | .storing clusterId loaded token earlier =>
      (∀ stored ∈ s.clusters.get clusterId, stored.isActive = loaded.isActive) ∧
        token ∉ earlier ++ s.revoked
  | _ => True

/-- The stream that a call is about to announce: its token and its agent. -/
def ClusterPhase.opens : ClusterPhase → Option (AgentToken × Grpc.Uuid)
  | .authenticated token info => some (token, info.agentId)
  | _ => none

/-- No stream of the agent, reachable or about to be announced, was authenticated with a replaced
token. -/
def NoReplacedStream (s : ClusterState) (agentId : Grpc.Uuid) : Prop :=
  ∀ token ∈ s.store.revoked,
    (∀ c < s.store.plane.nextChannel, s.store.authenticatedWith c = some token →
      ¬ s.store.plane.Reachable c agentId) ∧
    ∀ p ∈ s.procs, p.opens ≠ some (token, agentId)

/-- Writes are fresh, and commands are issued for agents without streams of replaced tokens. -/
def KeepsRotation (s : ClusterState) : ClusterAction → Prop
  | .advance i _ => ∀ p ∈ s.procs[i]?, p.WritesFresh s.store
  | .environment (.plane (.lookup _ _ agentId)) => NoReplacedStream s agentId
  | _ => True

/-! ## The invariant -/

namespace ClusterStore

/-- A command in flight for the agent was issued after the token had been replaced. -/
def Barred (s : ClusterStore) (agentId : Grpc.Uuid) (token : AgentToken) : Prop :=
  ∃ (i : Nat) (p : Grpc.PendingCommand) (replaced : List AgentToken),
    s.plane.pending[i]? = some p ∧ s.revokedAtIssue[i]? = some replaced ∧
      p.agentId = agentId ∧ token ∈ replaced

/-- The part of the invariant about the cluster table. -/
structure TableSound (s : ClusterStore) : Prop where
  limit : s.clusters.next ≤ pkLimit
  issued : ∀ token ∈ s.issued, ∃ k < s.clusters.next, token.clusterId = clusterIdFromPk k
  revoked : ∀ token ∈ s.revoked, token ∈ s.issued
  stored : ∀ k row token, s.clusters.get k = some row → row.tokenHash = some token →
    token.clusterId = clusterIdFromPk k ∧ token ∉ s.revoked
  inactive : ∀ k, s.lastUpdate k = some false → k < s.clusters.next ∧
    ∀ row, s.clusters.get k = some row → row.isActive = false

/-- The part about the streams and the commands in flight. -/
structure StreamsSound (s : ClusterStore) : Prop where
  wf : s.plane.Wf
  noted : s.revokedAtIssue.length = s.plane.pending.length
  atIssue : ∀ replaced ∈ s.revokedAtIssue, ∀ token ∈ replaced, token ∈ s.revoked
  reachable : ∀ c agentId token, s.plane.Reachable c agentId →
    s.authenticatedWith c = some token → ¬ s.Barred agentId token

/-- The table and the streams are as they should be. -/
def Sound (s : ClusterStore) : Prop := s.TableSound ∧ s.StreamsSound

/-- The tokens were issued for the cluster. -/
def Earlier (s : ClusterStore) (clusterId : Nat) (earlier : List AgentToken) : Prop :=
  ∀ token ∈ earlier, token ∈ s.issued ∧ token.clusterId = clusterIdFromPk clusterId

theorem sound_init : init.Sound := by
  refine ⟨⟨Nat.zero_le _, ?_, ?_, ?_, ?_⟩, ⟨Grpc.ControlPlane.wf_init, rfl, ?_, ?_⟩⟩
  · exact fun token h ↦ (nomatch h)
  · exact fun token h ↦ (nomatch h)
  · exact fun k row token h ↦ (nomatch h)
  · exact fun k h ↦ (nomatch h)
  · exact fun replaced h ↦ (nomatch h)
  · exact fun c agentId token _ h ↦ (nomatch h)

/-- What a call relies on survives: keys and issued tokens stay, and nothing more is barred. -/
structure Grows (s t : ClusterStore) : Prop where
  next : s.clusters.next ≤ t.clusters.next
  issued : ∀ token ∈ s.issued, token ∈ t.issued
  barred : ∀ agentId token, t.Barred agentId token → s.Barred agentId token

variable {s t : ClusterStore}

theorem Grows.earlier (h : Grows s t) {clusterId : Nat} {earlier : List AgentToken}
    (he : s.Earlier clusterId earlier) : t.Earlier clusterId earlier :=
  fun token hmem ↦ ⟨h.issued token (he token hmem).1, (he token hmem).2⟩

/-- Barred tokens have been replaced. -/
theorem StreamsSound.revoked_of_barred (h : s.StreamsSound) {agentId : Grpc.Uuid}
    {token : AgentToken}
    (hb : s.Barred agentId token) : token ∈ s.revoked := by
  obtain ⟨i, p, replaced, -, hr, -, hmem⟩ := hb
  exact h.atIssue replaced (List.mem_of_getElem? hr) token hmem

/-- An accepted token has not been replaced. -/
theorem TableSound.rotationFinal (h : s.TableSound) : s.RotationFinal := by
  intro token hrevoked haccepted
  obtain ⟨k, row, -, hrow, -, hhash⟩ := accepted_cases haccepted
  exact (h.stored k row token hrow hhash).2 hrevoked

theorem TableSound.inactiveRefused (h : s.TableSound) : s.InactiveRefused := by
  intro token k hpk hlast haccepted
  obtain ⟨j, row, hpk', hrow, hactive, -⟩ := accepted_cases haccepted
  obtain rfl : k = j := by
    have heq := Option.some.inj (hpk.symm.trans hpk')
    exact Int.ofNat.inj heq
  rw [(h.inactive k hlast).2 row hrow] at hactive
  cases hactive

/-- A table whose streams are left alone keeps them sound when no replaced token comes back. -/
theorem StreamsSound.of_same (h : s.StreamsSound) (hplane : t.plane = s.plane)
    (hat : t.revokedAtIssue = s.revokedAtIssue) (hauth : t.authenticatedWith = s.authenticatedWith)
    (hrevoked : ∀ token ∈ s.revoked, token ∈ t.revoked) : t.StreamsSound := by
  refine ⟨hplane ▸ h.wf, by rw [hat, hplane, h.noted], ?_, ?_⟩
  · intro replaced hr token hmem
    exact hrevoked token (h.atIssue replaced (hat ▸ hr) token hmem)
  · intro c agentId token hc ha hb
    rw [hplane] at hc
    rw [hauth] at ha
    rw [Barred, hplane, hat] at hb
    exact h.reachable c agentId token hc ha hb

end ClusterStore

/-- What a call in progress relies on. -/
def ClusterPhase.Sound (s : ClusterStore) : ClusterPhase → Prop
  | .updating request _ => request.clusterId < s.clusters.next
  | .loading _ clusterId earlier => s.Earlier clusterId earlier
  | .issuing clusterId _ earlier => clusterId < s.clusters.next ∧ s.Earlier clusterId earlier
  | .storing clusterId _ token earlier => clusterId < s.clusters.next ∧
      s.Earlier clusterId earlier ∧ token.clusterId = clusterIdFromPk clusterId
  | .authenticated token info => ¬ s.Barred info.agentId token
  | _ => True

theorem ClusterPhase.Sound.mono {s t : ClusterStore} {p : ClusterPhase} (h : p.Sound s)
    (hgrows : s.Grows t) : p.Sound t := by
  cases p with
  | updating request loaded => exact Nat.lt_of_lt_of_le h hgrows.next
  | loading organization clusterId earlier => exact hgrows.earlier h
  | issuing clusterId loaded earlier =>
    exact ⟨Nat.lt_of_lt_of_le h.1 hgrows.next, hgrows.earlier h.2⟩
  | storing clusterId loaded token earlier =>
    exact ⟨Nat.lt_of_lt_of_le h.1 hgrows.next, hgrows.earlier h.2.1, h.2.2⟩
  | authenticated token info => exact fun hb ↦ h (hgrows.barred info.agentId token hb)
  | _ => trivial

/-! ## One step -/

namespace ClusterStore

variable {s t : ClusterStore}

/-- Steps that leave the streams alone bar nothing. -/
theorem Grows.of_same (hnext : s.clusters.next ≤ t.clusters.next)
    (hissued : ∀ token ∈ s.issued, token ∈ t.issued) (hplane : t.plane = s.plane)
    (hat : t.revokedAtIssue = s.revokedAtIssue) : s.Grows t :=
  ⟨hnext, hissued, fun _ _ hb ↦ by rwa [Barred, hplane, hat] at hb⟩

theorem Grows.refl : s.Grows s := ⟨Nat.le_refl _, fun _ h ↦ h, fun _ _ h ↦ h⟩

/-- A new cluster has a key of its own, so its token is none of the replaced ones. -/
theorem TableSound.create (h : s.TableSound) (hlimit : s.clusters.next < pkLimit)
    (cluster : Cluster) (mintedAt rotatedAt : Timestamp) :
    ({ s with
      clusters := s.clusters.add ⟨cluster,
        some (issueAgentToken (clusterIdFromPk s.clusters.next) mintedAt), some rotatedAt⟩
      issued := issueAgentToken (clusterIdFromPk s.clusters.next) mintedAt :: s.issued } :
        ClusterStore).TableSound where
  limit := hlimit
  issued := by
    intro token hmem
    rcases List.mem_cons.mp hmem with rfl | hmem
    · exact ⟨s.clusters.next, Nat.lt_succ_self _, rfl⟩
    · obtain ⟨k, hk, heq⟩ := h.issued token hmem
      exact ⟨k, Nat.lt_succ_of_lt hk, heq⟩
  revoked := fun token hmem ↦ List.mem_cons_of_mem _ (h.revoked token hmem)
  stored := by
    intro k row token hrow hhash
    rw [Table.get_add] at hrow
    split at hrow
    · next hk =>
      obtain rfl := Option.some.inj hrow
      obtain rfl := Option.some.inj hhash
      refine ⟨hk ▸ rfl, fun hrevoked ↦ ?_⟩
      obtain ⟨j, hj, heq⟩ := h.issued _ (h.revoked _ hrevoked)
      have hkey := clusterIdFromPk_injective hlimit (Nat.lt_trans hj hlimit) heq
      omega
    · exact h.stored k row token hrow hhash
  inactive := by
    intro k hlast
    obtain ⟨hk, hrows⟩ := h.inactive k hlast
    refine ⟨Nat.lt_succ_of_lt hk, fun row hrow ↦ ?_⟩
    rw [Table.get_add, if_neg (Nat.ne_of_lt hk)] at hrow
    exact hrows row hrow

/-- A form that finds the token hash it has read leaves the tokens as they are. -/
theorem TableSound.update (h : s.TableSound) {request : UpdateClusterFormRequest}
    {loaded : ClusterRow} (hk : request.clusterId < s.clusters.next)
    (hfresh : ∀ stored ∈ s.clusters.get request.clusterId, stored.tokenHash = loaded.tokenHash) :
    ({ s with
      clusters := s.clusters.set request.clusterId { loaded with
        name := request.name, apiUrl := request.apiUrl, isActive := request.isActive }
      lastUpdate := Function.update s.lastUpdate request.clusterId (some request.isActive) } :
        ClusterStore).TableSound where
  limit := by rw [Table.next_set]; exact h.limit
  issued := by rw [Table.next_set]; exact h.issued
  revoked := h.revoked
  stored := by
    intro k row token hrow hhash
    rw [Table.get_set] at hrow
    split at hrow
    · next heq =>
      subst heq
      obtain ⟨old, hold, rfl⟩ := Option.map_eq_some_iff.mp hrow
      exact h.stored _ old token hold ((hfresh old hold).trans hhash)
    · exact h.stored k row token hrow hhash
  inactive := by
    intro k hlast
    simp only [Function.update_apply] at hlast
    rw [Table.next_set]
    by_cases heq : k = request.clusterId
    · subst heq
      rw [if_pos rfl] at hlast
      refine ⟨hk, fun row hrow ↦ ?_⟩
      rw [Table.get_set, if_pos rfl] at hrow
      obtain ⟨old, -, rfl⟩ := Option.map_eq_some_iff.mp hrow
      exact Option.some.inj hlast
    · rw [if_neg heq] at hlast
      obtain ⟨hlt, hrows⟩ := h.inactive k hlast
      refine ⟨hlt, fun row hrow ↦ ?_⟩
      rw [Table.get_set_of_ne heq] at hrow
      exact hrows row hrow

theorem TableSound.delete (h : s.TableSound) (p : Nat → ClusterRow → Bool) :
    ({ s with clusters := s.clusters.deleteWhere p } : ClusterStore).TableSound where
  limit := h.limit
  issued := h.issued
  revoked := h.revoked
  stored := by
    intro k row token hrow hhash
    exact h.stored k row token (Table.get_deleteWhere.mp hrow).1 hhash
  inactive := by
    intro k hlast
    refine ⟨(h.inactive k hlast).1, fun row hrow ↦ ?_⟩
    exact (h.inactive k hlast).2 row (Table.get_deleteWhere.mp hrow).1

theorem TableSound.issue (h : s.TableSound) {k : Nat} (hk : k < s.clusters.next)
    (now : Timestamp) :
    ({ s with issued := issueAgentToken (clusterIdFromPk k) now :: s.issued } :
      ClusterStore).TableSound where
  limit := h.limit
  issued := by
    intro token hmem
    rcases List.mem_cons.mp hmem with rfl | hmem
    · exact ⟨k, hk, rfl⟩
    · exact h.issued token hmem
  revoked := fun token hmem ↦ List.mem_cons_of_mem _ (h.revoked token hmem)
  stored := h.stored
  inactive := h.inactive

/-- A rotation with a fresh token replaces the tokens of its own cluster only. -/
theorem TableSound.store (h : s.TableSound) {clusterId : Nat} {loaded : ClusterRow}
    {token : AgentToken} {earlier : List AgentToken} (hk : clusterId < s.clusters.next)
    (hearlier : s.Earlier clusterId earlier) (htoken : token.clusterId = clusterIdFromPk clusterId)
    (hactive : ∀ stored ∈ s.clusters.get clusterId, stored.isActive = loaded.isActive)
    (hfresh : token ∉ earlier ++ s.revoked) (rotatedAt : Timestamp) :
    ({ s with
      clusters := s.clusters.set clusterId { loaded with
        tokenHash := some token, tokenLastRotatedAt := some rotatedAt }
      revoked := earlier ++ s.revoked } : ClusterStore).TableSound where
  limit := by rw [Table.next_set]; exact h.limit
  issued := by rw [Table.next_set]; exact h.issued
  revoked := by
    intro token hmem
    rcases List.mem_append.mp hmem with hmem | hmem
    · exact (hearlier token hmem).1
    · exact h.revoked token hmem
  stored := by
    intro k row hash hrow hhash
    rw [Table.get_set] at hrow
    split at hrow
    · next heq =>
      obtain ⟨old, -, rfl⟩ := Option.map_eq_some_iff.mp hrow
      obtain rfl := Option.some.inj hhash
      exact ⟨heq ▸ htoken, hfresh⟩
    · next hne =>
      obtain ⟨hown, hkept⟩ := h.stored k row hash hrow hhash
      refine ⟨hown, fun hmem ↦ ?_⟩
      rcases List.mem_append.mp hmem with hmem | hmem
      · apply hne
        exact clusterIdFromPk_injective
          (Nat.lt_of_lt_of_le (Table.lt_next_of_get hrow) h.limit) (Nat.lt_of_lt_of_le hk h.limit)
          (hown.symm.trans (hearlier hash hmem).2)
      · exact hkept hmem
  inactive := by
    intro k hlast
    rw [Table.next_set]
    obtain ⟨hlt, hrows⟩ := h.inactive k hlast
    refine ⟨hlt, fun row hrow ↦ ?_⟩
    rw [Table.get_set] at hrow
    split at hrow
    · next heq =>
      subst heq
      obtain ⟨old, hold, rfl⟩ := Option.map_eq_some_iff.mp hrow
      exact (hactive old hold).symm.trans (hrows old hold)
    · exact hrows row hrow

/-- What an event bars: nothing new, or the replaced tokens for the agent of the command it
issues. -/
theorem StreamsSound.barred_cases (h : s.StreamsSound) {a : Grpc.Action} {plane : Grpc.ControlPlane}
    (hstep : Grpc.step s.plane a = some plane) {agentId : Grpc.Uuid} {token : AgentToken}
    (hb : ({ s with plane, revokedAtIssue := noteRevoked s.revoked s.revokedAtIssue a } :
      ClusterStore).Barred agentId token) :
    s.Barred agentId token ∨
      ∃ clusterId command, a = .lookup clusterId command agentId ∧ token ∈ s.revoked := by
  obtain ⟨i, p, replaced, hp, hr, hid, hmem⟩ := hb
  have hcases := Grpc.step_cases hstep
  cases a with
  | lookup clusterId command agentId' =>
    cases hcases with
    | lookup _ _ _ entry he hbound =>
      simp only [noteRevoked] at hp hr
      rcases Nat.lt_or_ge i s.plane.pending.length with hi | hi
      · rw [List.getElem?_append_left hi] at hp
        rw [List.getElem?_append_left (h.noted ▸ hi)] at hr
        exact .inl ⟨i, p, replaced, hp, hr, hid, hmem⟩
      · rw [List.getElem?_append_right hi] at hp
        rw [List.getElem?_append_right (h.noted ▸ hi)] at hr
        obtain rfl := List.mem_singleton.mp (List.mem_of_getElem? hp)
        obtain rfl := List.mem_singleton.mp (List.mem_of_getElem? hr)
        exact .inr ⟨clusterId, command, by rw [← hid], hmem⟩
  | deliver j =>
    have herase : plane.pending = s.plane.pending.eraseIdx j := by
      cases hcases with
      | undelivered _ _ => rfl
      | deliver _ _ _ _ _ _ _ _ => rfl
    simp only [noteRevoked, herase, List.getElem?_eraseIdx] at hp hr
    split at hp
    · next hlt => exact .inl ⟨i, p, replaced, hp, by rwa [if_pos hlt] at hr, hid, hmem⟩
    · next hlt => exact .inl ⟨i + 1, p, replaced, hp, by rwa [if_neg hlt] at hr, hid, hmem⟩
  | _ =>
    rw [show plane.pending = s.plane.pending from
      hcases.pending_kept (fun _ _ _ ↦ by simp) (fun _ ↦ by simp)] at hp
    exact .inl ⟨i, p, replaced, hp, hr, hid, hmem⟩

private theorem noteRevoked_length {revoked : List AgentToken} {atIssue : List (List AgentToken)}
    {a : Grpc.Action} {before after : Grpc.ControlPlane} (hstep : Grpc.step before a = some after)
    (h : atIssue.length = before.pending.length) :
    (noteRevoked revoked atIssue a).length = after.pending.length := by
  have hcases := Grpc.step_cases hstep
  cases a with
  | lookup clusterId command agentId =>
    cases hcases with
    | lookup => simp [noteRevoked, h]
  | deliver j =>
    cases hcases with
    | undelivered => simp [noteRevoked, List.length_eraseIdx, h]
    | deliver => simp [noteRevoked, List.length_eraseIdx, h]
  | _ =>
    rw [hcases.pending_kept (fun _ _ _ ↦ by simp) (fun _ ↦ by simp)]
    exact h

private theorem noteRevoked_mem {revoked replaced : List AgentToken}
    {atIssue : List (List AgentToken)} {a : Grpc.Action}
    (h : replaced ∈ noteRevoked revoked atIssue a) : replaced ∈ atIssue ∨ replaced = revoked := by
  cases a with
  | lookup =>
    rcases List.mem_append.mp h with h | h
    · exact .inl h
    · exact .inr (List.mem_singleton.mp h)
  | deliver i => exact .inl (List.mem_of_mem_eraseIdx h)
  | _ => exact .inl h

/-- An event keeps the streams sound when it issues no command for an agent with a stream of a
replaced token. -/
theorem StreamsSound.event (h : s.StreamsSound) {a : Grpc.Action} {plane : Grpc.ControlPlane}
    (hstep : Grpc.step s.plane a = some plane)
    (hserved : ∀ clusterId info now, a ≠ .announce clusterId info now)
    (hcurrent : ∀ clusterId command agentId, a = .lookup clusterId command agentId →
      ∀ token ∈ s.revoked, ∀ c < s.plane.nextChannel, s.authenticatedWith c = some token →
        ¬ s.plane.Reachable c agentId) :
    ({ s with plane, revokedAtIssue := noteRevoked s.revoked s.revokedAtIssue a } :
      ClusterStore).StreamsSound where
  wf := (Grpc.step_cases hstep).wf h.wf
  noted := noteRevoked_length hstep h.noted
  atIssue := by
    intro replaced hr token hmem
    rcases noteRevoked_mem hr with hr | rfl
    · exact h.atIssue replaced hr token hmem
    · exact hmem
  reachable := by
    intro c agentId token hc hauth hb
    have hbefore : s.plane.Reachable c agentId := by
      rcases (Grpc.step_cases hstep).reachable_cases h.wf hc with hc |
        ⟨-, clusterId, info, now, ha, -⟩
      · exact hc
      · exact absurd ha (hserved clusterId info now)
    rcases h.barred_cases hstep hb with hb | ⟨clusterId, command, ha, hrevoked⟩
    · exact h.reachable c agentId token hbefore hauth hb
    · have hlt : c < s.plane.nextChannel := by
        by_contra hge
        obtain ⟨conn, hconn, -⟩ := hbefore
        rw [h.wf.fresh c (Nat.le_of_not_lt hge)] at hconn
        cases hconn
      exact hcurrent clusterId command agentId ha token hrevoked c hlt hauth hbefore

/-- A stream announced with a token that is not barred keeps the streams sound. -/
theorem StreamsSound.announce (h : s.StreamsSound) {token : AgentToken} {info : Grpc.AgentInfo}
    {now : Grpc.DateTime} {plane : Grpc.ControlPlane}
    (hstep : Grpc.step s.plane (.announce token.clusterId info now) = some plane)
    (hfree : ¬ s.Barred info.agentId token) :
    ({ s with plane, authenticatedWith :=
        Function.update s.authenticatedWith s.plane.nextChannel (some token) } :
      ClusterStore).StreamsSound ∧
    s.Grows { s with plane, authenticatedWith :=
        Function.update s.authenticatedWith s.plane.nextChannel (some token) } := by
  have hcases := Grpc.step_cases hstep
  have hpending : plane.pending = s.plane.pending :=
    hcases.pending_kept (fun _ _ _ ↦ by simp) (fun _ ↦ by simp)
  have hbarred (agentId : Grpc.Uuid) (token' : AgentToken)
      (hb : ({ s with plane, authenticatedWith :=
        Function.update s.authenticatedWith s.plane.nextChannel (some token) } :
          ClusterStore).Barred agentId token') : s.Barred agentId token' := by
    simpa only [Barred, hpending] using hb
  refine ⟨⟨hcases.wf h.wf, by simp only [hpending]; exact h.noted, h.atIssue, ?_⟩,
    ⟨Nat.le_refl _, fun _ hmem ↦ hmem, hbarred⟩⟩
  intro c agentId token' hc hauth hb
  simp only [Function.update_apply] at hauth
  rcases hcases.reachable_cases h.wf hc with hold | ⟨hnew, _, info', _, ha, hid⟩
  · have hne : c ≠ s.plane.nextChannel := by
      rintro rfl
      obtain ⟨conn, hconn, -⟩ := hold
      rw [h.wf.fresh _ (Nat.le_refl _)] at hconn
      cases hconn
    rw [if_neg hne] at hauth
    exact h.reachable c agentId token' hold hauth (hbarred agentId token' hb)
  · rw [if_pos hnew] at hauth
    obtain rfl := Option.some.inj hauth
    obtain ⟨-, rfl, -⟩ := Grpc.Action.announce.inj ha
    exact hfree (hid ▸ hbarred agentId token hb)

end ClusterStore

/-- One access of a call whose writes are fresh keeps the store and the call sound. -/
theorem ClusterPhase.advance_keeps {s t : ClusterStore} {p p' : ClusterPhase} {o : Unit}
    (hs : s.Sound) (hp : p.Sound s) (hfresh : p.WritesFresh s)
    (h : p.advance s o = some (t, p')) : t.Sound ∧ p'.Sound t ∧ s.Grows t := by
  obtain ⟨htable, hstreams⟩ := hs
  have hread : s.Sound ∧ s.Grows s := ⟨⟨htable, hstreams⟩, .refl⟩
  cases p with
  | called call =>
    cases call with
    | create organization name apiUrl =>
      cases h
      exact ⟨hread.1, trivial, hread.2⟩
    | update organization request =>
      simp only [ClusterPhase.advance] at h
      split at h <;> cases h
      · next row hrow =>
        have hget := (Option.filter_eq_some_iff.mp hrow).1
        exact ⟨hread.1, Table.lt_next_of_get hget, hread.2⟩
      · exact ⟨hread.1, trivial, hread.2⟩
    | delete organization clusterId =>
      simp only [ClusterPhase.advance] at h
      split at h <;> cases h <;> exact ⟨hread.1, trivial, hread.2⟩
    | rotate organization clusterId =>
      cases h
      refine ⟨hread.1, fun token hmem ↦ ?_, hread.2⟩
      obtain ⟨hissued, hid⟩ := List.mem_filter.mp hmem
      exact ⟨hissued, by simpa using hid⟩
    | connect token info =>
      simp only [ClusterPhase.advance] at h
      split at h <;> cases h
      · next haccepted =>
        refine ⟨hread.1, fun hb ↦ ?_, hread.2⟩
        exact htable.rotationFinal token (hstreams.revoked_of_barred hb) haccepted
      · exact ⟨hread.1, trivial, hread.2⟩
  | creating organization name apiUrl mintedAt =>
    simp only [ClusterPhase.advance] at h
    split at h
    · next hlimit =>
      cases h
      exact ⟨⟨htable.create hlimit ⟨organization, name, apiUrl, true⟩ mintedAt s.now,
        hstreams.of_same rfl rfl rfl fun _ h ↦ h⟩, trivial,
        .of_same (Nat.le_succ _) (fun _ hmem ↦ List.mem_cons_of_mem _ hmem) rfl rfl⟩
    · cases h
  | updating request loaded =>
    cases h
    exact ⟨⟨htable.update hp hfresh, hstreams.of_same rfl rfl rfl fun _ h ↦ h⟩, trivial,
      .of_same (Nat.le_of_eq Table.next_set.symm) (fun _ hmem ↦ hmem) rfl rfl⟩
  | deleting clusterId =>
    cases h
    exact ⟨⟨htable.delete _, hstreams.of_same rfl rfl rfl fun _ h ↦ h⟩, trivial,
      .of_same (Nat.le_refl _) (fun _ hmem ↦ hmem) rfl rfl⟩
  | loading organization clusterId earlier =>
    simp only [ClusterPhase.advance] at h
    split at h <;> cases h
    · next row hrow =>
      have hget := (Option.filter_eq_some_iff.mp hrow).1
      exact ⟨hread.1, ⟨Table.lt_next_of_get hget, hp⟩, hread.2⟩
    · exact ⟨hread.1, trivial, hread.2⟩
  | issuing clusterId loaded earlier =>
    cases h
    have hgrows : s.Grows { s with
        issued := issueAgentToken (clusterIdFromPk clusterId) s.now :: s.issued } :=
      .of_same (Nat.le_refl _) (fun _ hmem ↦ List.mem_cons_of_mem _ hmem) rfl rfl
    exact ⟨⟨htable.issue hp.1 s.now, hstreams.of_same rfl rfl rfl fun _ h ↦ h⟩,
      ⟨hp.1, hgrows.earlier hp.2, rfl⟩, hgrows⟩
  | storing clusterId loaded token earlier =>
    cases h
    obtain ⟨hk, hearlier, htoken⟩ := hp
    exact ⟨⟨htable.store hk hearlier htoken hfresh.1 hfresh.2 s.now,
      hstreams.of_same rfl rfl rfl fun _ hmem ↦ List.mem_append_right earlier hmem⟩, trivial,
      .of_same (Nat.le_of_eq Table.next_set.symm) (fun _ hmem ↦ hmem) rfl rfl⟩
  | authenticated token info =>
    rw [ClusterPhase.advance] at h
    obtain ⟨plane, hstep, heq⟩ := Option.map_eq_some_iff.mp h
    cases heq
    obtain ⟨hstreams', hgrows⟩ := hstreams.announce hstep hp
    exact ⟨⟨⟨htable.limit, htable.issued, htable.revoked, htable.stored, htable.inactive⟩,
      hstreams'⟩, trivial, hgrows⟩
  | returned result => cases h

/-- An event keeps the store and every call sound. -/
theorem ClusterEvent.occur_keeps {s : ClusterState} {t : ClusterStore} {e : ClusterEvent}
    (hs : s.store.Sound) (hprocs : ∀ p ∈ s.procs, p.Sound s.store)
    (hc : KeepsRotation s (.environment e)) (h : e.occur s.store = some t) :
    t.Sound ∧ ∀ p ∈ s.procs, p.Sound t := by
  cases e with
  | tick microseconds =>
    cases h
    refine ⟨⟨⟨hs.1.limit, hs.1.issued, hs.1.revoked, hs.1.stored, hs.1.inactive⟩,
      hs.2.of_same rfl rfl rfl fun _ h ↦ h⟩, fun p hp ↦ (hprocs p hp).mono ?_⟩
    exact .of_same (Nat.le_refl _) (fun _ h ↦ h) rfl rfl
  | plane a =>
    have hserved : (∀ clusterId info now, a ≠ .announce clusterId info now) ∧
        ∃ plane, Grpc.step s.store.plane a = some plane ∧
          t = { s.store with
            plane, revokedAtIssue := noteRevoked s.store.revoked s.store.revokedAtIssue a } := by
      cases a with
      | announce clusterId info now => cases h
      | _ =>
        simp only [ClusterEvent.occur] at h
        obtain ⟨plane, hstep, heq⟩ := Option.map_eq_some_iff.mp h
        exact ⟨fun _ _ _ ↦ by simp, plane, hstep, heq.symm⟩
    obtain ⟨hannounce, plane, hstep, rfl⟩ := hserved
    have hcurrent (clusterId : Grpc.Uuid) (command : Grpc.AgentCommand) (agentId : Grpc.Uuid)
        (ha : a = .lookup clusterId command agentId) : NoReplacedStream s agentId := by
      subst ha
      exact hc
    refine ⟨⟨⟨hs.1.limit, hs.1.issued, hs.1.revoked, hs.1.stored, hs.1.inactive⟩,
      hs.2.event hstep hannounce fun clusterId command agentId ha token hmem ↦
        (hcurrent clusterId command agentId ha token hmem).1⟩, fun p hp ↦ ?_⟩
    have hbefore := hprocs p hp
    cases p with
    | authenticated token info =>
      intro hb
      rcases hs.2.barred_cases hstep hb with hb | ⟨clusterId, command, ha, hrevoked⟩
      · exact hbefore hb
      · exact (hcurrent clusterId command info.agentId ha token hrevoked).2 _ hp rfl
    | _ => exact hbefore

theorem keeps_sound : Pool.Keeps .called (fun s p ↦ ClusterPhase.advance s p) ClusterEvent.occur
    ClusterStore.Sound (fun s p ↦ p.Sound s) (fun _ _ ↦ True) KeepsRotation where
  symm := fun _ _ h ↦ h
  start := fun _ _ _ _ ↦ ⟨trivial, fun _ _ ↦ trivial⟩
  advance := by
    intro s i p o t p' hs hp hc h
    obtain ⟨ht, hp', hgrows⟩ := ClusterPhase.advance_keeps hs.store
      (hs.procs p (List.mem_of_getElem? hp)) (hc p hp) h
    exact ⟨ht, hp', fun j q _ hq ↦ ⟨(hs.procs q (List.mem_of_getElem? hq)).mono hgrows, trivial⟩⟩
  environment := fun s e t hs hc h ↦ ClusterEvent.occur_keeps hs.store hs.procs hc h

/-- A command goes to the stream that its agent is registered with. -/
theorem deliversCurrent_of_sound {x : ClusterTransition} (hs : x.before.store.Sound)
    (hstep : clusterStep x.before x.action = some x.after) : DeliversCurrent x := by
  intro i d replaced ha hdelivered hr token hmem hauth
  rw [ha] at hstep
  obtain ⟨t, ht, hafter⟩ := Option.map_eq_some_iff.mp hstep
  obtain ⟨plane, hplane, rfl⟩ := Option.map_eq_some_iff.mp ht
  rw [← hafter] at hdelivered
  rcases (Grpc.step_cases hplane).delivered_cases with
    ⟨hsame, -⟩ | ⟨j, p, entry, conn, hj, hp, hentry, hconn, hopen, hnew⟩
  · have hlen := congrArg List.length (hsame.symm.trans hdelivered)
    simp at hlen
  · obtain rfl := Grpc.Action.deliver.inj hj
    obtain ⟨rfl, -⟩ := List.cons.inj (hnew.symm.trans hdelivered)
    obtain ⟨hid, conn', hconn', -, hinfo, -⟩ := hs.2.wf.owner p.agentId entry hentry
    obtain rfl := Option.some.inj (hconn.symm.trans hconn')
    have hreach : x.before.store.plane.Reachable entry.commandTx p.agentId :=
      ⟨conn, hconn, by rw [hinfo, hid], hopen, .inr ⟨entry, hentry, rfl⟩⟩
    exact hs.2.reachable entry.commandTx p.agentId token hreach hauth
      ⟨i, p, replaced, hp, hr, rfl, hmem⟩

/-- In every interleaving whose writes are fresh and that issues no command for an agent with a
stream of a replaced token: replaced tokens and tokens of clusters made inactive are never accepted,
and no command goes to a stream of a token replaced before the command was issued. -/
theorem token_rotation_final {tr : List ClusterTransition} {s : ClusterState}
    (h : Run clusterStep ⟨.init, []⟩ tr s) (hc : ∀ x ∈ tr, KeepsRotation x.before x.action) :
    ∀ x ∈ tr, x.after.store.RotationFinal ∧ x.after.store.InactiveRefused ∧ DeliversCurrent x := by
  intro x hx
  obtain ⟨hbefore, hstep, hafter⟩ := (keeps_sound.run ClusterStore.sound_init h hc).2 x hx
  exact ⟨hafter.store.1.rotationFinal, hafter.store.1.inactiveRefused,
    deliversCurrent_of_sound hbefore.store hstep⟩

/-! ## A form around a rotation -/

instance (s : Grpc.ControlPlane) (c : Grpc.ChannelId) (agentId : Grpc.Uuid) :
    Decidable (s.Reachable c agentId) :=
  inferInstanceAs (Decidable (∃ conn ∈ s.connections c, conn.entry.info.agentId = agentId ∧
    conn.closed = false ∧
    (conn.phase = .announced ∨ ∃ e ∈ s.registry.agents agentId, e.commandTx = c)))

instance (s : ClusterStore) : (p : ClusterPhase) → Decidable (p.WritesFresh s)
  | .updating request loaded => inferInstanceAs (Decidable
      (∀ stored ∈ s.clusters.get request.clusterId, stored.tokenHash = loaded.tokenHash))
  | .storing clusterId loaded token earlier => inferInstanceAs (Decidable
      ((∀ stored ∈ s.clusters.get clusterId, stored.isActive = loaded.isActive) ∧
        token ∉ earlier ++ s.revoked))
  | .called _ => .isTrue trivial
  | .creating _ _ _ _ => .isTrue trivial
  | .deleting _ => .isTrue trivial
  | .loading _ _ _ => .isTrue trivial
  | .issuing _ _ _ => .isTrue trivial
  | .authenticated _ _ => .isTrue trivial
  | .returned _ => .isTrue trivial

instance (s : ClusterState) (agentId : Grpc.Uuid) : Decidable (NoReplacedStream s agentId) :=
  inferInstanceAs (Decidable (∀ token ∈ s.store.revoked, _ ∧ _))

instance (s : ClusterState) : (a : ClusterAction) → Decidable (KeepsRotation s a)
  | .advance i _ => inferInstanceAs (Decidable (∀ p ∈ s.procs[i]?, p.WritesFresh s.store))
  | .environment (.plane (.lookup _ _ agentId)) =>
    inferInstanceAs (Decidable (NoReplacedStream s agentId))
  | .environment (.plane (.announce _ _ _)) => .isTrue trivial
  | .environment (.plane (.insert _)) => .isTrue trivial
  | .environment (.plane (.heartbeatEvent _ _ _)) => .isTrue trivial
  | .environment (.plane (.otherEvent _)) => .isTrue trivial
  | .environment (.plane (.cleanup _)) => .isTrue trivial
  | .environment (.plane (.receive _)) => .isTrue trivial
  | .environment (.plane (.dropReceiver _)) => .isTrue trivial
  | .environment (.plane (.reportHealth _ _ _)) => .isTrue trivial
  | .environment (.plane (.evictStaleAgents _)) => .isTrue trivial
  | .environment (.plane (.deliver _)) => .isTrue trivial
  | .environment (.tick _) => .isTrue trivial
  | .start _ => .isTrue trivial
  | .cancel _ => .isTrue trivial

/-- A call goes on by some accesses. -/
def callGoesOn (i accesses : Nat) : List ClusterAction := List.replicate accesses (.advance i ())

/-- The first cluster, two seconds old. -/
def createdCluster : List ClusterAction :=
  .start (.create 1 "prod" "https://k8s") :: callGoesOn 0 2 ++ [.environment (.tick 2000000)]

/-- The cluster is renamed while its token is rotated: the form loads, the rotation runs, the form
writes. -/
def renameAroundRotation : List ClusterAction :=
  createdCluster ++ [.start (.update 1 ⟨0, "prod-eu", "https://k8s", true⟩), .advance 1 (),
    .start (.rotate 1 0)] ++ callGoesOn 2 4

/-- The form writes the old hash back, and the token that the rotation has replaced is accepted. -/
theorem rename_revives_token : ∃ tr s, Run clusterStep ⟨.init, []⟩ tr s ∧
    ∃ x ∈ tr, ¬ x.after.store.RotationFinal := by
  have hstate : (execute clusterStep ⟨.init, []⟩ renameAroundRotation).bind (fun s ↦
      (clusterStep s (.advance 1 ())).map fun t ↦ (t.store.revoked,
        (verifyPersistedAgentToken t.store.clusters ⟨clusterIdFromPk 0, 0⟩).isOk)) =
      some ([⟨clusterIdFromPk 0, 0⟩], true) := by decide
  obtain ⟨s, hs, hlast⟩ := Option.bind_eq_some_iff.mp hstate
  obtain ⟨t, ht, hend⟩ := Option.map_eq_some_iff.mp hlast
  obtain ⟨hrevoked, hok⟩ := Prod.mk.inj hend
  refine ⟨_, t, (Run.of_execute _ hs).snoc ht, ⟨s, .advance 1 (), t⟩, by simp, fun hfinal ↦ ?_⟩
  apply hfinal ⟨clusterIdFromPk 0, 0⟩ (by rw [hrevoked]; exact List.mem_singleton_self _)
  cases hverify : verifyPersistedAgentToken t.store.clusters ⟨clusterIdFromPk 0, 0⟩ with
  | ok u => rfl
  | error e =>
    rw [hverify] at hok
    cases hok

/-- An agent connects, its stream ends, the token is rotated, the agent connects with the new token
and gets a command. -/
def reconnectAfterRotation : List ClusterAction :=
  createdCluster ++ [.start (.connect ⟨clusterIdFromPk 0, 0⟩ ⟨7, "prod", "", "", 0⟩)] ++
    callGoesOn 1 2 ++ [.environment (.plane (.insert 0)), .environment (.plane (.dropReceiver 0)),
    .start (.rotate 1 0)] ++ callGoesOn 2 4 ++
    [.start (.connect ⟨clusterIdFromPk 0, 2⟩ ⟨7, "prod", "", "", 0⟩)] ++ callGoesOn 3 2 ++
    [.environment (.plane (.insert 1)),
      .environment (.plane (.lookup (clusterIdFromPk 0) (.restart "web") 7)),
      .environment (.plane (.deliver 0))]

/-- A rotation without a stale write or an open stream of the old token is final. -/
theorem reconnect_after_rotation : ∃ s,
    execute clusterStep ⟨.init, []⟩ reconnectAfterRotation = some s ∧
    s.store.revoked = [⟨clusterIdFromPk 0, 0⟩] ∧
    s.store.plane.delivered = [⟨clusterIdFromPk 0, .restart "web", 1⟩] ∧
    ∀ x ∈ transitions clusterStep ⟨.init, []⟩ reconnectAfterRotation,
      x.after.store.RotationFinal ∧ x.after.store.InactiveRefused ∧ DeliversCurrent x := by
  have hstate : (execute clusterStep ⟨.init, []⟩ reconnectAfterRotation).map (fun s ↦
      (s.store.revoked, s.store.plane.delivered)) =
      some ([⟨clusterIdFromPk 0, 0⟩], [⟨clusterIdFromPk 0, .restart "web", 1⟩]) := by decide
  obtain ⟨s, hs, hend⟩ := Option.map_eq_some_iff.mp hstate
  obtain ⟨hrevoked, hdelivered⟩ := Prod.mk.inj hend
  exact ⟨s, hs, hrevoked, hdelivered, token_rotation_final (Run.of_execute _ hs) (by decide)⟩

end ReinhardtCloud.Dashboard
