import ReinhardtCloud.Base.Pool
import ReinhardtCloud.Dashboard.Records
import ReinhardtCloud.Grpc.Routing

/-!
# Cluster rows and agent tokens

Library `Dashboard`. The cluster calls of `dashboard/src/apps/clusters/server_fn.rs:186–333`, the
check of an agent's token (`dashboard/src/config/grpc.rs:32–66`) and the streams it lets in, as
concurrent calls over one store; every ORM read, update and transaction is one step. A stored hash
is named by the one token it accepts. The signature and expiry of a token are checked before and
left out, as are the permission checks; a refused write (a duplicate name, a foreign key) ends its
call without effect, like a cancellation.
-/

namespace ReinhardtCloud.Dashboard

open ReinhardtCloud.Base

/-- An agent JWT: cluster, subject, issue and expiry times follow from these two
(`agent_claims.rs:37–70`), and so does the signed text. -/
structure AgentToken where
  clusterId : Grpc.Uuid
  issuedAt : Nat
  deriving DecidableEq

/-- `Cluster`, `models/cluster.rs`, with its token columns. -/
structure ClusterRow extends Cluster where
  tokenHash : Option AgentToken
  tokenLastRotatedAt : Option Timestamp
  deriving DecidableEq

/-- The bytes of `RHCL-CID`. -/
def clusterIdPrefix : BitVec 64 := 0x5248434C2D434944

/-- `cluster_id_from_pk`, `server_fn.rs:97–105`. -/
def clusterIdFromPk (pk : Nat) : Grpc.Uuid := clusterIdPrefix ++ BitVec.ofNat 64 pk

/-- `cluster_pk_from_agent_claim`, `grpc.rs:32–39`: a signed 64-bit key. -/
def clusterPkFromAgentClaim (clusterId : Grpc.Uuid) : Option Int :=
  if clusterId.extractLsb' 64 64 = clusterIdPrefix then some (clusterId.extractLsb' 0 64).toInt
  else none

/-- Primary keys are `i64`. -/
def pkLimit : Nat := 2 ^ 63

theorem clusterPk_clusterId {pk : Nat} (h : pk < pkLimit) :
    clusterPkFromAgentClaim (clusterIdFromPk pk) = some (pk : Int) := by
  have hprefix : (clusterIdFromPk pk).extractLsb' 64 64 = clusterIdPrefix :=
    BitVec.extractLsb'_append_eq_left
  have hkey : (clusterIdFromPk pk).extractLsb' 0 64 = BitVec.ofNat 64 pk :=
    BitVec.extractLsb'_append_eq_right
  have hlt : pk < 2 ^ 63 := h
  have hint : (BitVec.ofNat 64 pk).toInt = (pk : Int) := by
    rw [BitVec.toInt_ofNat']
    exact Int.bmod_eq_of_le (by omega) (by omega)
  rw [clusterPkFromAgentClaim, if_pos hprefix, hkey, hint]

/-- Different keys have different cluster identifiers. -/
theorem clusterIdFromPk_injective {j k : Nat} (hj : j < pkLimit) (hk : k < pkLimit)
    (h : clusterIdFromPk j = clusterIdFromPk k) : j = k := by
  have hpk := clusterPk_clusterId hj
  rw [h, clusterPk_clusterId hk] at hpk
  have heq := Option.some.inj hpk
  omega

/-- The row under a claimed key. -/
def clusterByPk (clusters : Table ClusterRow) : Int → Option ClusterRow
  | .ofNat k => clusters.get k
  | .negSucc _ => none

/-- `verify_persisted_agent_token`, `grpc.rs:41–66`. -/
def verifyPersistedAgentToken (clusters : Table ClusterRow) (token : AgentToken) :
    Except String Unit :=
  match clusterPkFromAgentClaim token.clusterId with
  | none => .error "Invalid agent cluster_id"
  | some pk =>
    match clusterByPk clusters pk with
    | none => .error "Agent cluster not found"
    | some cluster =>
      if !cluster.isActive then .error "Agent cluster is inactive"
      else match cluster.tokenHash with
        | none => .error "Agent token is not registered"
        | some hash => if hash = token then .ok () else .error "Agent token has been revoked"

/-- What it takes for a token to be accepted. -/
theorem accepted_cases {clusters : Table ClusterRow} {token : AgentToken}
    (h : verifyPersistedAgentToken clusters token = .ok ()) :
    ∃ k row, clusterPkFromAgentClaim token.clusterId = some (Int.ofNat k) ∧
      clusters.get k = some row ∧ row.isActive = true ∧ row.tokenHash = some token := by
  rw [verifyPersistedAgentToken] at h
  split at h
  · cases h
  · next pk hpk =>
    split at h
    · cases h
    · next row hrow =>
      split at h
      · cases h
      · next hactive =>
        split at h
        · cases h
        · next hash hhash =>
          split at h
          · next heq =>
            cases pk with
            | ofNat k => exact ⟨k, row, hpk, hrow, by simpa using hactive, heq ▸ hhash⟩
            | negSucc k => cases hrow
          · cases h

/-- `AgentTokenService::issue`: claims count seconds, the clock microseconds. -/
def issueAgentToken (clusterId : Grpc.Uuid) (now : Timestamp) : AgentToken :=
  ⟨clusterId, now / 1000000⟩

/-- `UpdateClusterFormRequest`, normalized and validated. -/
structure UpdateClusterFormRequest where
  clusterId : Nat
  name : String
  apiUrl : String
  isActive : Bool

/-- The cluster table and the control plane. The rest is history that no step reads: the token each
stream was authenticated with, the tokens issued, those that a rotation has replaced, those replaced
when each command in flight was issued, and the activity last stored for each cluster. -/
structure ClusterStore where
  clusters : Table ClusterRow
  plane : Grpc.ControlPlane
  now : Timestamp
  authenticatedWith : Grpc.ChannelId → Option AgentToken
  issued : List AgentToken
  revoked : List AgentToken
  revokedAtIssue : List (List AgentToken)
  lastUpdate : Nat → Option Bool

namespace ClusterStore

/-- No cluster and no agent. -/
def init : ClusterStore :=
  ⟨.empty, .init, 0, fun _ ↦ none, [], [], [], fun _ ↦ none⟩

/-- The cluster of an organization, as the calls look it up. -/
def cluster (s : ClusterStore) (organization id : Nat) : Option ClusterRow :=
  (s.clusters.get id).filter fun row ↦ row.organization = organization

/-- The tokens issued for a cluster so far. -/
def issuedFor (s : ClusterStore) (id : Nat) : List AgentToken :=
  s.issued.filter fun token ↦ token.clusterId = clusterIdFromPk id

end ClusterStore

/-- A call of the dashboard on a cluster, or an agent that opens its stream. -/
inductive ClusterCall where
  | create (organization : Nat) (name apiUrl : String)
  | update (organization : Nat) (request : UpdateClusterFormRequest)
  | delete (organization clusterId : Nat)
  | rotate (organization clusterId : Nat)
  | connect (token : AgentToken) (info : Grpc.AgentInfo)

/-- Progress of a call. `earlier` is history: the tokens issued for the cluster when the rotation
began. -/
inductive ClusterPhase where
  | called (call : ClusterCall)
  | creating (organization : Nat) (name apiUrl : String) (mintedAt : Timestamp)
  | updating (request : UpdateClusterFormRequest) (loaded : ClusterRow)
  | deleting (clusterId : Nat)
  | loading (organization clusterId : Nat) (earlier : List AgentToken)
  | issuing (clusterId : Nat) (loaded : ClusterRow) (earlier : List AgentToken)
  | storing (clusterId : Nat) (loaded : ClusterRow) (token : AgentToken) (earlier : List AgentToken)
  | authenticated (token : AgentToken) (info : Grpc.AgentInfo)
  | returned (result : Except String (Option AgentToken))

/-- Let a call go on by one access. -/
def ClusterPhase.advance (s : ClusterStore) :
    ClusterPhase → Unit → Option (ClusterStore × ClusterPhase)
  | .called (.create organization name apiUrl), _ =>
    some (s, .creating organization name apiUrl s.now)
  | .creating organization name apiUrl mintedAt, _ =>
    if s.clusters.next < pkLimit then
      let token := issueAgentToken (clusterIdFromPk s.clusters.next) mintedAt
      some ({ s with
        clusters := s.clusters.add ⟨⟨organization, name, apiUrl, true⟩, some token, some s.now⟩
        issued := token :: s.issued }, .returned (.ok (some token)))
    else none
  | .called (.update organization request), _ =>
    match s.cluster organization request.clusterId with
    | some row => some (s, .updating request row)
    | none => some (s, .returned (.error "The selected cluster is not available"))
  | .updating request loaded, _ =>
    -- all columns are written back, the token columns among them
    some ({ s with
      clusters := s.clusters.set request.clusterId { loaded with
        name := request.name, apiUrl := request.apiUrl, isActive := request.isActive }
      lastUpdate := Function.update s.lastUpdate request.clusterId (some request.isActive) },
      .returned (.ok none))
  | .called (.delete organization clusterId), _ =>
    match s.cluster organization clusterId with
    | some _ => some (s, .deleting clusterId)
    | none => some (s, .returned (.error "Cluster not found"))
  | .deleting clusterId, _ =>
    some ({ s with clusters := s.clusters.deleteWhere fun k _ ↦ k = clusterId },
      .returned (.ok none))
  | .called (.rotate organization clusterId), _ =>
    some (s, .loading organization clusterId (s.issuedFor clusterId))
  | .loading organization clusterId earlier, _ =>
    match s.cluster organization clusterId with
    | some row => some (s, .issuing clusterId row earlier)
    | none => some (s, .returned (.error "Cluster not found"))
  | .issuing clusterId loaded earlier, _ =>
    let token := issueAgentToken (clusterIdFromPk clusterId) s.now
    some ({ s with issued := token :: s.issued }, .storing clusterId loaded token earlier)
  | .storing clusterId loaded token earlier, _ =>
    some ({ s with
      clusters := s.clusters.set clusterId { loaded with
        tokenHash := some token, tokenLastRotatedAt := some s.now }
      revoked := earlier ++ s.revoked }, .returned (.ok (some token)))
  | .called (.connect token info), _ =>
    match verifyPersistedAgentToken s.clusters token with
    | .ok () => some (s, .authenticated token info)
    | .error e => some (s, .returned (.error e))
  | .authenticated token info, _ =>
    (Grpc.step s.plane (.announce token.clusterId info (s.now * 1000))).map fun plane ↦
      ({ s with plane, authenticatedWith :=
        Function.update s.authenticatedWith s.plane.nextChannel (some token) },
      .returned (.ok none))
  | .returned _, _ => none

/-- What happens beside the calls: time passes, and the control plane serves the streams it has. -/
inductive ClusterEvent where
  | tick (microseconds : Nat)
  | plane (action : Grpc.Action)

/-- The tokens replaced so far are noted for each command that is issued. -/
def noteRevoked (revoked : List AgentToken) (atIssue : List (List AgentToken)) :
    Grpc.Action → List (List AgentToken)
  | .lookup _ _ _ => atIssue ++ [revoked]
  | .deliver i => atIssue.eraseIdx i
  | _ => atIssue

/-- One event; streams are announced by calls only. -/
def ClusterEvent.occur (s : ClusterStore) : ClusterEvent → Option ClusterStore
  | .tick microseconds => some { s with now := s.now + microseconds }
  | .plane (.announce _ _ _) => none
  | .plane a => (Grpc.step s.plane a).map fun plane ↦
      { s with plane, revokedAtIssue := noteRevoked s.revoked s.revokedAtIssue a }

/-- The store and the calls in progress. -/
abbrev ClusterState := Pool ClusterStore ClusterPhase

abbrev ClusterAction := PoolAction ClusterCall Unit ClusterEvent

abbrev ClusterTransition := Transition ClusterState ClusterAction

/-- One step of the calls and their surroundings. -/
abbrev clusterStep : ClusterState → ClusterAction → Option ClusterState :=
  Pool.step .called (fun s p ↦ p.advance s) ClusterEvent.occur

end ReinhardtCloud.Dashboard
