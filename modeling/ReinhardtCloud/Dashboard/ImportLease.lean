import Mathlib.Order.Basic
import ReinhardtCloud.Dashboard.Service
import ReinhardtCloud.Dashboard.WebhookReading

/-!
# The import lease

Library `Dashboard`. An import claims its repository row by a compare-and-swap on `selected`,
renews the lease while it works and releases it on an error; a stale lease is recovered by the next
import. As long as live leases stay fresh, two things break it: a listing writes back, whole, a row
that it read before the claim, and a deletion clears the lease of the import at work. Without them
at most one import holds a row, over all interleavings.
-/

namespace ReinhardtCloud.Dashboard

open ReinhardtCloud.Base

variable {Text : Type}

/-- The row that a claimed import which has not returned holds, with its lease. -/
def Handler.lease : Handler Text → Option (Nat × Timestamp)
  | .importing p => p.lease
  | _ => none

/-- The row that a listing has read as unselected and is about to write back whole, with the
object it writes. -/
def Handler.wholeWrite : Handler Text → Option (Nat × GitHubRepository)
  | .sync (.updateRow _ id existing _ _) => some (id, existing)
  | _ => none

/-- The row that an import is about to claim. -/
def Handler.claims : Handler Text → Option Nat
  | .importing (.claim job _) => some job.request.repositoryId
  | _ => none

/-- The organization and the deployment that a transaction is about to delete. -/
def Handler.deletes : Handler Text → Option (Nat × Nat)
  | .delete (.transaction organization deployment) => some (organization, deployment)
  | _ => none

/-- Every live import has renewed its lease within the TTL. -/
def FreshLeases (s : ServiceState Text) : Prop :=
  ∀ p ∈ s.procs, ∀ l ∈ p.lease, githubImportClaimIsStale l.2 s.store.now = false

/-- A listing is about to write the row back whole. -/
def AboutToWrite (s : ServiceState Text) (id : Nat) : Prop :=
  ∃ p ∈ s.procs, p.wholeWrite.map Prod.fst = some id

/-- A live import holds the row. -/
def HeldByImport (s : ServiceState Text) (id : Nat) : Prop :=
  ∃ p ∈ s.procs, p.lease.map Prod.fst = some id

/-- The project whose repository a deletion releases. -/
def Records.projectOf (s : Records Text) (organization deployment : Nat) :
    Option (Nat × GitHubProject) :=
  s.projects.first fun p ↦ p.deployment = deployment && p.organization = organization

/-- No import claims a row that a listing is about to write back whole, and no deletion clears the
lease columns of such a row or of a row that a live import holds. -/
def KeepsClear (s : ServiceState Text) : ServiceAction Text → Prop
  | .advance i o => o.fault = none → ∀ p ∈ s.procs[i]?,
    (∀ id ∈ p.claims, ¬ AboutToWrite s id) ∧
    ∀ d ∈ p.deletes, ∀ project ∈ s.store.projectOf d.1 d.2,
      ¬ HeldByImport s project.2.repository ∧
        (AboutToWrite s project.2.repository →
          ∀ row ∈ s.store.repositories.get project.2.repository, row.importClaimedAt = none)
  | _ => True

/-- The lease columns of two rows are the same. -/
def SameLease (row row' : GitHubRepository) : Prop :=
  row'.selected = row.selected ∧ row'.importClaimedAt = row.importClaimedAt

/-- No two live imports hold the same row. -/
def ExclusiveLeases (s : ServiceState Text) : Prop :=
  ∀ (i j : Nat) p q r claimedAt claimedAt', i ≠ j → s.procs[i]? = some p → s.procs[j]? = some q →
    p.lease = some (r, claimedAt) → q.lease ≠ some (r, claimedAt')

/-- The step of a listing leaves the lease columns of every row. -/
def SyncKeepsLeases (x : ServiceTransition Text) : Prop :=
  ∀ i o phase, x.action = .advance i o → x.before.procs[i]? = some (.sync phase) →
    ∀ id row, x.before.store.repositories.get id = some row →
      ∃ row', x.after.store.repositories.get id = some row' ∧ SameLease row row'

/-! ## The invariant -/

/-- What holds of a handler beside the records: the row of a lease carries it, the row of a whole
write is unselected and has the lease columns it was read with, and a claim to be recovered is
stale. -/
structure LeaseRecorded (s : Records Text) (p : Handler Text) : Prop where
  lease : ∀ r claimedAt, p.lease = some (r, claimedAt) → ∃ row, s.repositories.get r = some row ∧
    row.selected = true ∧ row.importClaimedAt = some claimedAt
  whole : ∀ id existing, p.wholeWrite = some (id, existing) → existing.selected = false ∧
    ∃ row, s.repositories.get id = some row ∧ SameLease existing row
  recover : ∀ job, p = .importing (.recover job) → ∀ claimedAt,
    job.repository.importClaimedAt = some claimedAt →
      githubImportClaimIsStale claimedAt s.now = true

/-- Two handlers hold different rows. -/
def LeasesApart (p q : Handler Text) : Prop :=
  ∀ r claimedAt claimedAt', p.lease = some (r, claimedAt) → q.lease ≠ some (r, claimedAt')

theorem LeasesApart.symm {p q : Handler Text} (h : LeasesApart p q) : LeasesApart q p :=
  fun r claimedAt claimedAt' hq hp ↦ h r claimedAt' claimedAt hp hq

/-- A handler without a lease holds no row of another's. -/
theorem leasesApart_of_none {p q : Handler Text} (h : q.lease = none) : LeasesApart p q :=
  fun r claimedAt claimedAt' _ hq ↦ by simp [h] at hq

/-- The rows whose lease columns a handler relies on. -/
def Handler.Watches (p : Handler Text) (id : Nat) : Prop :=
  (∃ claimedAt, p.lease = some (id, claimedAt)) ∨ ∃ existing, p.wholeWrite = some (id, existing)

/-- The lease columns of the stored rows with the property stay, and the clock does not go back. -/
def LeasesKept (s t : Records Text) (P : Nat → Prop) : Prop :=
  s.now ≤ t.now ∧ ∀ id row, P id → s.repositories.get id = some row →
    ∃ row', t.repositories.get id = some row' ∧ SameLease row row'

theorem LeasesKept.of_repositories_eq {s t : Records Text} {P : Nat → Prop} (hnow : s.now ≤ t.now)
    (h : t.repositories = s.repositories) : LeasesKept s t P := by
  refine ⟨hnow, fun id row _ hrow ↦ ⟨row, ?_, rfl, rfl⟩⟩
  rw [h, hrow]

/-- An update of some columns keeps the leases of all rows but the one that meets its filters. -/
theorem leasesKept_updateRepositoryFields {s : Records Text} {r : Nat}
    {filters : GitHubRepository → Bool} {assign : GitHubRepository → GitHubRepository}
    {P : Nat → Prop} (h : P r → ∀ row, s.repositories.get r = some row → filters row = true →
      SameLease row (assign row)) :
    LeasesKept s (s.updateRepositoryFields r filters assign).1 P := by
  refine ⟨(congrArg Records.now Records.updateRepositoryFields_frame).ge, fun id row hid hrow ↦ ?_⟩
  rw [Records.get_updateRepositoryFields]
  by_cases hr : id = r
  · subst hr
    rw [if_pos rfl, hrow]
    by_cases hf : filters row
    · refine ⟨assign row, ?_, h hid row hrow hf⟩
      simp [hf]
    · refine ⟨row, ?_, rfl, rfl⟩
      simp [hf]
  · rw [if_neg hr, hrow]
    exact ⟨row, rfl, rfl, rfl⟩

/-- A stale claim stays stale. -/
theorem isStale_mono {claimedAt now later : Timestamp} (hle : now ≤ later)
    (h : githubImportClaimIsStale claimedAt now = true) :
    githubImportClaimIsStale claimedAt later = true := by
  rw [githubImportClaimIsStale, decide_eq_true_eq] at h ⊢
  exact h.trans hle

/-- A handler relies only on the rows it watches. -/
theorem LeaseRecorded.keep {s t : Records Text} {p : Handler Text} (hp : LeaseRecorded s p)
    (h : LeasesKept s t p.Watches) : LeaseRecorded t p := by
  constructor
  · intro r claimedAt hlease
    obtain ⟨row, hrow, hselected, hclaimed⟩ := hp.lease r claimedAt hlease
    obtain ⟨row', hrow', hs, hc⟩ := h.2 r row (.inl ⟨claimedAt, hlease⟩) hrow
    exact ⟨row', hrow', hs.trans hselected, hc.trans hclaimed⟩
  · intro id existing hwhole
    obtain ⟨hselected, row, hrow, hs, hc⟩ := hp.whole id existing hwhole
    obtain ⟨row', hrow', hs', hc'⟩ := h.2 id row (.inr ⟨existing, hwhole⟩) hrow
    exact ⟨hselected, row', hrow', hs'.trans hs, hc'.trans hc⟩
  · intro job hjob claimedAt hclaimed
    exact isStale_mono h.1 (hp.recover job hjob claimedAt hclaimed)

/-- A watched row is selected exactly when it is watched through a lease. -/
theorem LeaseRecorded.not_watches {s : Records Text} {p : Handler Text} (hp : LeaseRecorded s p)
    {id : Nat} {row : GitHubRepository} (hrow : s.repositories.get id = some row)
    (hlease : ∀ claimedAt, p.lease = some (id, claimedAt) → row.selected = true →
      row.importClaimedAt = some claimedAt → False)
    (hwhole : ∀ existing, p.wholeWrite = some (id, existing) → row.selected = false → False) :
    ¬ p.Watches id := by
  rintro (⟨claimedAt, h⟩ | ⟨existing, h⟩)
  · obtain ⟨row', hrow', hs, hc⟩ := hp.lease id claimedAt h
    obtain rfl := Option.some.inj (hrow.symm.trans hrow')
    exact hlease claimedAt h hs hc
  · obtain ⟨hs, row', hrow', hs', -⟩ := hp.whole id existing h
    obtain rfl := Option.some.inj (hrow.symm.trans hrow')
    exact hwhole existing h (hs'.trans hs)

/-! ## One step -/

/-- The invariant of the machine. -/
def LeaseInv (s : ServiceState Text) : Prop :=
  s.Inv (fun _ ↦ True) LeaseRecorded LeasesApart

section Steps

variable {codec : ManifestCodec Text} {s : ServiceState Text} {t : Records Text} {i : Nat}
  {o : Outcome}

/-- A handler with neither lease, whole write nor recovery needs nothing. -/
theorem leaseRecorded_of_none {p : Handler Text} (hlease : p.lease = none)
    (hwhole : p.wholeWrite = none) (hrecover : ∀ job, p ≠ .importing (.recover job)) :
    LeaseRecorded t p where
  lease := fun r claimedAt h ↦ by simp [hlease] at h
  whole := fun id existing h ↦ by simp [hwhole] at h
  recover := fun job h ↦ absurd h (hrecover job)

/-- Only a stale claim is recovered. -/
theorem isStale_of_recoversClaim {repository : GitHubRepository} {now claimedAt : Timestamp}
    (h : recoversClaim repository now = true) (hc : repository.importClaimedAt = some claimedAt) :
    githubImportClaimIsStale claimedAt now = true := by
  unfold recoversClaim observedClaimedAt at h
  rw [hc, Bool.and_eq_true, Option.some_or, Option.any_some] at h
  exact h.2

/-- A recovery takes no row that a handler watches: the row of a fresh lease carries a claim that is
not stale, and a row about to be written whole is unselected. -/
theorem leasesKept_recover {q : Handler Text} {job : ImportJob}
    (hp : LeaseRecorded s.store (.importing (.recover job))) (hq : LeaseRecorded s.store q)
    (hfresh : ∀ r claimedAt, q.lease = some (r, claimedAt) →
      githubImportClaimIsStale claimedAt s.store.now = false) :
    LeasesKept s.store (s.store.recoverGithubImportClaim job.request.repositoryId
      job.repository.importClaimedAt job.repository.updatedAt).1 q.Watches := by
  apply leasesKept_updateRepositoryFields
  intro hwatch row hrow hfilter
  rw [Bool.and_eq_true] at hfilter
  refine absurd hwatch (hq.not_watches hrow ?_ ?_)
  · intro claimedAt hlease _ hclaimed
    have hmatch := hfilter.2
    split at hmatch
    · next observed hobserved =>
      have hstale := hp.recover job rfl observed hobserved
      rw [decide_eq_true_eq, hclaimed, Option.some.injEq] at hmatch
      rw [← hmatch, hfresh _ _ hlease] at hstale
      cases hstale
    · simp [hclaimed] at hmatch
  · intro existing _ hselected
    rw [hselected] at hfilter
    cases hfilter.1

/-- A row that one import holds is watched by no other handler. -/
theorem leasesKept_of_own {p : ImportPhase Text} {q : Handler Text} {j r : Nat}
    {claimedAt : Timestamp} {row : GitHubRepository} {filters : GitHubRepository → Bool}
    {assign : GitHubRepository → GitHubRepository} (hs : LeaseInv s)
    (hp : s.procs[i]? = some (.importing p)) (hq : s.procs[j]? = some q) (hj : j ≠ i)
    (hlease : p.lease = some (r, claimedAt)) (hrow : s.store.repositories.get r = some row)
    (hselected : row.selected = true) :
    LeasesKept s.store (s.store.updateRepositoryFields r filters assign).1 q.Watches := by
  apply leasesKept_updateRepositoryFields
  intro hwatch row' hrow' _
  refine absurd hwatch ((hs.procs q (List.mem_of_getElem? hq)).not_watches hrow ?_ ?_)
  · intro claimedAt' hlease' _ _
    exact hs.pairs j i q _ hj hq hp r claimedAt' claimedAt hlease' hlease
  · intro existing _ hunselected
    cases hselected.symm.trans hunselected

/-- A step of an import: the rows that the others watch keep their lease, and a claimed row is held
by this import alone. -/
theorem ImportPhase.lease_step {p p' : ImportPhase Text} (hs : LeaseInv s)
    (hp : s.procs[i]? = some (.importing p)) (hfresh : FreshLeases s)
    (hclear : KeepsClear s (.advance i o)) (ht : p.advance codec s.store o = some (t, p')) :
    LeaseRecorded t (.importing p') ∧ ∀ (j : Nat) q, j ≠ i → s.procs[j]? = some q →
      LeasesKept s.store t q.Watches ∧ LeasesApart q (.importing p') := by
  have hrecorded := hs.procs _ (List.mem_of_getElem? hp)
  have hapart (hlease : p'.lease = p.lease ∨ p'.lease = none) (j : Nat) (q : Handler Text)
      (hj : j ≠ i) (hq : s.procs[j]? = some q) : LeasesApart q (.importing p') := by
    rcases hlease with hsame | hnone
    · intro r a b ha hb
      exact hs.pairs j i q _ hj hq hp r a b ha (hsame.symm.trans hb)
    · exact leasesApart_of_none hnone
  rcases advance_cases ht with ⟨rfl, hlease, hrecover⟩ | ⟨job, claimedAt, stage, rfl, hstage⟩ |
    ⟨job, rfl, rfl, rfl⟩ | ⟨job, startedAt, rfl, hfault, hlease, hclaim⟩ |
    ⟨job, claimedAt, renewedAt, stage, rfl, hlease, hrenew⟩ | ⟨job, claimedAt, error, rfl, rfl, rfl⟩
  · -- nothing is written
    refine ⟨⟨fun r claimedAt h ↦ ?_, fun _ _ h ↦ (nomatch h), ?_⟩, fun j q hj hq ↦
      ⟨.of_repositories_eq le_rfl rfl, hapart hlease j q hj hq⟩⟩
    · rcases hlease with hsame | hnone
      · exact hrecorded.lease r claimedAt (hsame.symm.trans h)
      · cases hnone.symm.trans h
    · intro job hjob claimedAt hclaimed
      exact isStale_of_recoversClaim (hrecover job (Handler.importing.inj hjob)) hclaimed
  · -- a stage writes no repository
    have hframe := ImportStage.advance_frame hstage
    have hrepositories : t.repositories = s.store.repositories := by rw [hframe]
    have hkept (P : Nat → Prop) : LeasesKept s.store t P :=
      .of_repositories_eq (congrArg Records.now hframe).ge hrepositories
    rcases ImportStage.advance_next hstage with hlease | ⟨result, rfl⟩
    · refine ⟨⟨fun r a h ↦ ?_, fun _ _ h ↦ (nomatch h), ?_⟩, fun j q hj hq ↦
        ⟨hkept _, hapart (.inl hlease) j q hj hq⟩⟩
      · exact (hrecorded.keep (hkept _)).lease r a (hlease.symm.trans h)
      · intro job' hjob
        obtain rfl := Handler.importing.inj hjob
        cases hlease
    · exact ⟨leaseRecorded_of_none rfl rfl fun _ h ↦ (nomatch h), fun j q hj hq ↦
        ⟨hkept _, leasesApart_of_none rfl⟩⟩
  · -- a stale claim is recovered
    refine ⟨leaseRecorded_of_none rfl rfl fun _ h ↦ (nomatch h), fun j q hj hq ↦ ?_⟩
    have hmem := List.mem_of_getElem? hq
    exact ⟨leasesKept_recover hrecorded (hs.procs q hmem) fun r claimedAt h ↦
      hfresh q hmem (r, claimedAt) h, leasesApart_of_none rfl⟩
  · -- an unselected row is claimed
    rcases Records.updateRepositoryFields_eq_one hclaim with ⟨-, row, hrow, hfilter⟩ | ⟨h, -⟩
    · obtain rfl : (s.store.claimGithubImport job.request.repositoryId startedAt).1 = t :=
        congrArg Prod.fst hclaim
      have hselected : row.selected = false := by simpa using hfilter
      have hheld := (hclear hfault _ hp).1 _ rfl
      refine ⟨⟨?_, fun _ _ h ↦ (nomatch h), ?_⟩, fun j q hj hq ↦ ⟨?_, ?_⟩⟩
      · intro r claimedAt h
        cases hlease.symm.trans h
        refine ⟨{ row with
          selected := true, importClaimedAt := some startedAt, updatedAt := startedAt },
        ?_, rfl, rfl⟩
        simp [Records.claimGithubImport, Records.get_updateRepositoryFields, hrow, hselected]
      · intro job' hjob
        obtain rfl := Handler.importing.inj hjob
        cases hlease
      · apply leasesKept_updateRepositoryFields
        intro hwatch row' hrow' _
        obtain rfl := Option.some.inj (hrow.symm.trans hrow')
        have hmem := List.mem_of_getElem? hq
        refine absurd hwatch ((hs.procs q hmem).not_watches hrow ?_ ?_)
        · intro claimedAt _ hs' _
          cases hselected.symm.trans hs'
        · intro existing hwhole _
          exact hheld ⟨q, hmem, by rw [hwhole]; rfl⟩
      · intro r a b ha hb
        cases hlease.symm.trans hb
        obtain ⟨row', hrow', hs', -⟩ := (hs.procs q (List.mem_of_getElem? hq)).lease _ _ ha
        obtain rfl := Option.some.inj (hrow.symm.trans hrow')
        cases hselected.symm.trans hs'
    · cases h
  · -- the import renews its own lease
    obtain ⟨row, hrow, hselected, hclaimed⟩ := hrecorded.lease _ claimedAt rfl
    obtain rfl :
        (s.store.renewGithubImportClaim job.request.repositoryId claimedAt renewedAt).1 = t :=
      congrArg Prod.fst hrenew
    refine ⟨⟨?_, fun _ _ h ↦ (nomatch h), ?_⟩, fun j q hj hq ↦ ⟨?_, ?_⟩⟩
    · intro r a h
      cases hlease.symm.trans h
      refine ⟨{ row with importClaimedAt := some renewedAt, updatedAt := renewedAt }, ?_, hselected,
        rfl⟩
      simp [Records.renewGithubImportClaim, Records.get_updateRepositoryFields, hrow, hselected,
        hclaimed]
    · intro job' hjob
      obtain rfl := Handler.importing.inj hjob
      cases hlease
    · exact leasesKept_of_own hs hp hq hj rfl hrow hselected
    · intro r a b ha hb
      cases hlease.symm.trans hb
      exact hs.pairs j i q _ hj hq hp _ a claimedAt ha rfl
  · -- the import releases its own lease
    obtain ⟨row, hrow, hselected, hclaimed⟩ := hrecorded.lease _ claimedAt rfl
    refine ⟨leaseRecorded_of_none rfl rfl fun _ h ↦ (nomatch h), fun j q hj hq ↦ ⟨?_, ?_⟩⟩
    · exact leasesKept_of_own hs hp hq hj rfl hrow hselected
    · exact leasesApart_of_none rfl

theorem wholeWrite_nextRepository (installation : Nat) (todo : List (Nat × GitHubInstallation))
    (rest : List InstallationRepository) :
    (Handler.sync (.nextRepository installation todo rest) : Handler Text).wholeWrite = none := by
  cases rest with
  | nil => cases todo <;> rfl
  | cons next rest => rfl

/-- A step of a listing keeps the lease columns of all rows: what it writes back whole has the
columns that are stored. -/
theorem SyncPhase.lease_step {p p' : SyncPhase} (hp : LeaseRecorded s.store (.sync p))
    (ht : p.advance s.store o = some (t, p')) (P : Nat → Prop) :
    LeasesKept s.store t P ∧ LeaseRecorded t (.sync p') := by
  rcases advance_cases ht with ⟨rfl, hread⟩ |
    ⟨installation, id, existing, rest, todo, -, rfl, rfl⟩ |
    ⟨installation, id, existing, rest, todo, rfl, rfl, rfl⟩ |
    ⟨installation, row, rest, todo, -, rfl, hcreate⟩
  · refine ⟨.of_repositories_eq le_rfl rfl, fun _ _ h ↦ (nomatch h), ?_, fun _ h ↦ (nomatch h)⟩
    intro id existing hwhole
    cases p' with
    | updateRow installation id' existing' rest todo =>
      cases hwhole
      obtain ⟨hselected, row, next, hrow, rfl⟩ := hread _ _ _ _ _ rfl
      exact ⟨hselected, row, hrow, rfl, rfl⟩
    | _ => cases hwhole
  · exact ⟨leasesKept_updateRepositoryFields fun _ _ _ _ ↦ ⟨rfl, rfl⟩,
      leaseRecorded_of_none rfl (wholeWrite_nextRepository installation todo rest)
        fun _ h ↦ (nomatch h)⟩
  · obtain ⟨-, row, hrow, hs, hc⟩ := hp.whole id existing rfl
    refine ⟨⟨le_rfl, fun id' row' _ hrow' ↦ ?_⟩, leaseRecorded_of_none rfl
      (wholeWrite_nextRepository installation todo rest) fun _ h ↦ (nomatch h)⟩
    by_cases hid : id' = id
    · subst hid
      obtain rfl := Option.some.inj (hrow.symm.trans hrow')
      exact ⟨_, Table.get_set_self hrow, hs.symm, hc.symm⟩
    · exact ⟨row', (Table.get_set_of_ne hid).trans hrow', rfl, rfl⟩
  · obtain rfl := Records.createRepository_eq_some hcreate
    exact ⟨⟨le_rfl, fun id row' _ hrow' ↦ ⟨row', Table.get_add_of_get hrow', rfl, rfl⟩⟩,
      leaseRecorded_of_none rfl (wholeWrite_nextRepository installation todo rest)
        fun _ h ↦ (nomatch h)⟩

/-- A deletion that keeps clear of the leases and of the rows about to be written whole. -/
theorem DeletePhase.lease_step {p p' : DeletePhase} {q : Handler Text} (hs : LeaseInv s)
    (hp : s.procs[i]? = some (.delete p)) (hq : q ∈ s.procs)
    (hclear : KeepsClear s (.advance i o)) (ht : p.advance s.store o = some (t, p')) :
    LeasesKept s.store t q.Watches := by
  rcases advance_cases ht with rfl | ⟨organization, deployment, rfl, hfault, rfl⟩
  · exact .of_repositories_eq le_rfl rfl
  · have hframe := Records.deleteDeploymentTransaction_frame (s := s.store) organization deployment
    refine ⟨(congrArg Records.now hframe).ge, fun id row hwatch hrow ↦ ?_⟩
    rw [Records.get_deleteDeploymentTransaction]
    split
    · next hproject =>
      obtain ⟨⟨k, project⟩, hfirst, hid⟩ := (Option.any_eq_true _ _).mp hproject
      obtain rfl : project.repository = id := by simpa using hid
      obtain ⟨hheld, hwrite⟩ := (hclear hfault _ hp).2 _ rfl _ hfirst
      rcases hwatch with ⟨claimedAt, hlease⟩ | ⟨existing, hwhole⟩
      · exact absurd ⟨q, hq, by rw [hlease]; rfl⟩ hheld
      · obtain ⟨hselected, row', hrow', hs', -⟩ := (hs.procs q hq).whole _ existing hwhole
        obtain rfl := Option.some.inj (hrow.symm.trans hrow')
        have hnone := hwrite ⟨q, hq, by rw [hwhole]; rfl⟩ row hrow
        exact ⟨_, by rw [hrow]; rfl, (hs'.trans hselected).symm, hnone.symm⟩
    · exact ⟨row, hrow, rfl, rfl⟩

/-- One step of a handler. -/
theorem Handler.lease_step {p p' : Handler Text} (hs : LeaseInv s) (hp : s.procs[i]? = some p)
    (hfresh : FreshLeases s) (hclear : KeepsClear s (.advance i o))
    (ht : p.advance codec s.store o = some (t, p')) :
    LeaseRecorded t p' ∧ ∀ (j : Nat) q, j ≠ i → s.procs[j]? = some q →
      LeasesKept s.store t q.Watches ∧ LeasesApart q p' := by
  -- handlers that leave the repositories and the clock
  have hquiet (hrepositories : t.repositories = s.store.repositories)
      (hnow : t.now = s.store.now) (hlease : p'.lease = none) (hwhole : p'.wholeWrite = none)
      (hrecover : ∀ job, p' ≠ .importing (.recover job)) :
      LeaseRecorded t p' ∧ ∀ (j : Nat) q, j ≠ i → s.procs[j]? = some q →
        LeasesKept s.store t q.Watches ∧ LeasesApart q p' :=
    ⟨leaseRecorded_of_none hlease hwhole hrecover, fun _ _ _ _ ↦
      ⟨.of_repositories_eq hnow.ge hrepositories, leasesApart_of_none hlease⟩⟩
  cases p with
  | webhook p =>
    obtain ⟨p'', hu, rfl⟩ := phase_advance ht
    rw [WebhookPhase.advance_frame hu] at hquiet ⊢
    exact hquiet rfl rfl rfl rfl fun _ h ↦ (nomatch h)
  | form p =>
    obtain ⟨p'', hu, rfl⟩ := phase_advance ht
    rw [FormPhase.advance_frame hu] at hquiet ⊢
    exact hquiet rfl rfl rfl rfl fun _ h ↦ (nomatch h)
  | setup p =>
    obtain ⟨p'', hu, rfl⟩ := phase_advance ht
    rw [SetupPhase.advance_frame hu] at hquiet ⊢
    exact hquiet rfl rfl rfl rfl fun _ h ↦ (nomatch h)
  | installation p =>
    obtain ⟨p'', hu, rfl⟩ := phase_advance ht
    rw [InstallationPhase.advance_frame hu] at hquiet ⊢
    exact hquiet rfl rfl rfl rfl fun _ h ↦ (nomatch h)
  | delete p =>
    obtain ⟨p'', hu, rfl⟩ := phase_advance ht
    exact ⟨leaseRecorded_of_none rfl rfl fun _ h ↦ (nomatch h), fun j q _ hq ↦
      ⟨DeletePhase.lease_step hs hp (List.mem_of_getElem? hq) hclear hu, leasesApart_of_none rfl⟩⟩
  | importing p =>
    obtain ⟨p'', hu, rfl⟩ := phase_advance ht
    exact ImportPhase.lease_step hs hp hfresh hclear hu
  | sync p =>
    obtain ⟨p'', hu, rfl⟩ := phase_advance ht
    have hrecorded := hs.procs _ (List.mem_of_getElem? hp)
    exact ⟨(SyncPhase.lease_step hrecorded hu fun _ ↦ True).2, fun j q _ _ ↦
      ⟨(SyncPhase.lease_step hrecorded hu q.Watches).1, leasesApart_of_none rfl⟩⟩

end Steps

/-! ## Runs -/

theorem leaseRecorded_start (s : Records Text) (r : Request) :
    (r.start : Handler Text).lease = none ∧ LeaseRecorded s (r.start : Handler Text) := by
  have hlease : (r.start : Handler Text).lease = none := by
    cases r with
    | importing request =>
      simp only [Request.start, ImportPhase.start]
      split <;> rfl
    | _ => rfl
  refine ⟨hlease, leaseRecorded_of_none hlease ?_ ?_⟩
  · cases r <;> rfl
  · intro job h
    cases r with
    | importing request =>
      simp only [Request.start, ImportPhase.start] at h
      split at h <;> cases h
    | _ => cases h

/-- Every step that keeps clear keeps the invariant. -/
theorem lease_keeps (codec : ManifestCodec Text) :
    Pool.Keeps Request.start (Handler.advance codec) recordsEvent (fun _ ↦ True) LeaseRecorded
      LeasesApart fun s a ↦ FreshLeases s ∧ KeepsClear s a where
  symm := fun p q h ↦ h.symm
  start := fun s r _ _ ↦
    ⟨(leaseRecorded_start s.store r).2, fun q _ ↦
      leasesApart_of_none (leaseRecorded_start s.store r).1⟩
  advance := by
    intro s i p o t p' hs hp hc ht
    obtain ⟨hrecorded, hothers⟩ := Handler.lease_step hs hp hc.1 hc.2 ht
    refine ⟨trivial, hrecorded, fun j q hj hq ↦ ?_⟩
    obtain ⟨hkept, hapart⟩ := hothers j q hj hq
    exact ⟨(hs.procs q (List.mem_of_getElem? hq)).keep hkept, hapart⟩
  environment := by
    intro s e t hs _ ht
    have hframe := recordsEvent_frame ht
    exact ⟨trivial, fun q hq ↦
      (hs.procs q hq).keep (.of_repositories_eq hframe.now hframe.repositories)⟩

/-- In every interleaving in which live leases stay fresh, no import claims a row that a listing is
about to write back whole, and no deletion clears such a row or one held by an import: at most one
live import holds a row at any time, and listings leave the lease columns of every row. -/
theorem import_lease_exclusive (codec : ManifestCodec Text) (init : Records Text)
    {tr : List (ServiceTransition Text)} {s : ServiceState Text}
    (h : Run (serviceStep codec) ⟨init, []⟩ tr s) (hfresh : ∀ x ∈ tr, FreshLeases x.before)
    (hclear : ∀ x ∈ tr, KeepsClear x.before x.action) :
    ExclusiveLeases s ∧ ∀ x ∈ tr, ExclusiveLeases x.before ∧ SyncKeepsLeases x := by
  obtain ⟨hs, hall⟩ := (lease_keeps codec).run trivial h fun x hx ↦ ⟨hfresh x hx, hclear x hx⟩
  have hexclusive {u : ServiceState Text} (hu : LeaseInv u) : ExclusiveLeases u :=
    fun i j p q r a b hij hp hq ↦ hu.pairs i j p q hij hp hq r a b
  refine ⟨hexclusive hs, fun x hx ↦ ⟨hexclusive (hall x hx).1, ?_⟩⟩
  intro i o phase haction hphase id row hrow
  obtain ⟨hbefore, hstep, -⟩ := hall x hx
  rw [haction] at hstep
  obtain ⟨p, t, p', hp, ht, hafter⟩ := Pool.step_advance hstep
  obtain rfl := Option.some.inj (hphase.symm.trans hp)
  obtain ⟨phase', hu, rfl⟩ := Handler.phase_advance ht
  rw [hafter]
  have hrecorded := hbefore.procs _ (List.mem_of_getElem? hphase)
  exact (SyncPhase.lease_step hrecorded hu fun _ ↦ True).1.2 id row trivial hrow

instance (s : ServiceState Text) : Decidable (FreshLeases s) :=
  inferInstanceAs (Decidable (∀ p ∈ s.procs, ∀ l ∈ p.lease,
    githubImportClaimIsStale l.2 s.store.now = false))

instance (s : ServiceState Text) (id : Nat) : Decidable (AboutToWrite s id) :=
  inferInstanceAs (Decidable (∃ p ∈ s.procs, p.wholeWrite.map Prod.fst = some id))

instance (s : ServiceState Text) (id : Nat) : Decidable (HeldByImport s id) :=
  inferInstanceAs (Decidable (∃ p ∈ s.procs, p.lease.map Prod.fst = some id))

instance (s : ServiceState Text) : (a : ServiceAction Text) → Decidable (KeepsClear s a)
  | .advance i o => inferInstanceAs (Decidable (o.fault = none → ∀ p ∈ s.procs[i]?,
      (∀ id ∈ p.claims, ¬ AboutToWrite s id) ∧
      ∀ d ∈ p.deletes, ∀ project ∈ s.store.projectOf d.1 d.2,
        ¬ HeldByImport s project.2.repository ∧
          (AboutToWrite s project.2.repository →
            ∀ row ∈ s.store.repositories.get project.2.repository, row.importClaimedAt = none)))
  | .start _ => .isTrue trivial
  | .cancel _ => .isTrue trivial
  | .environment _ => .isTrue trivial

/-- A repository of an organization with an installation and a cluster. -/
def shopRecords : Records Manifest where
  installations := Table.empty.add ⟨1, 70, 7, "acme", "Organization", "active"⟩
  repositories := Table.empty.add
    ⟨0, 500, "acme/shop", "acme", "shop", "main", false, false, none, 0⟩
  projects := .empty
  deployments := .empty
  clusters := Table.empty.add ⟨1, "prod", "https://k8s", true⟩
  outbox := []
  now := 0

/-- What GitHub reports of it. -/
def shopListing : InstallationRepository := ⟨500, "acme/shop", "acme", "shop", "main", false⟩

/-- A listing reads the unselected row, an import claims it, the listing writes it back, and another
one claims it while the first is at work. -/
def staleListingRun : List (ServiceAction Manifest) :=
  [.start (.sync 1 none), .advance 0 .success,
    .advance 0 { Outcome.success with listed := [shopListing] }, .advance 0 .success,
    .start (.importing ⟨1, 0, 0, "", "registry/shop"⟩)] ++ goesOn 1 7 ++
  [.advance 0 .success, .start (.importing ⟨1, 0, 0, "", "registry/shop"⟩)] ++ goesOn 2 7

/-- Both imports hold the row at the end, with fresh leases throughout. -/
theorem two_imports_hold_one_row : ∃ tr s, Run (serviceStep plainCodec) ⟨shopRecords, []⟩ tr s ∧
    (∀ x ∈ tr, FreshLeases x.before) ∧ ¬ ExclusiveLeases s := by
  have hleases : (execute (serviceStep plainCodec) ⟨shopRecords, []⟩ staleListingRun).map
      (fun s ↦ s.procs.map Handler.lease) = some [none, some (0, 0), some (0, 0)] := by decide
  obtain ⟨s, hs, hprocs⟩ := Option.map_eq_some_iff.mp hleases
  have hlease (i : Nat) (hi : [none, some (0, 0), some (0, 0)][i]? = some (some (0, 0))) :
      ∃ p, s.procs[i]? = some p ∧ p.lease = some (0, 0) := by
    rw [← hprocs, List.getElem?_map] at hi
    exact Option.map_eq_some_iff.mp hi
  refine ⟨_, s, Run.of_execute staleListingRun hs, by decide, fun h ↦ ?_⟩
  obtain ⟨p, hp, hp'⟩ := hlease 1 rfl
  obtain ⟨q, hq, hq'⟩ := hlease 2 rfl
  exact h 1 2 p q 0 0 0 (by decide) hp hq hp' hq'

/-- The same listing reads the row after the claim and updates its columns only; the import renews
its lease meanwhile. -/
def listingAfterClaimRun : List (ServiceAction Manifest) :=
  [.start (.importing ⟨1, 0, 0, "", "registry/shop"⟩)] ++ goesOn 0 7 ++
  [.start (.sync 1 none), .advance 1 .success,
    .advance 1 { Outcome.success with listed := [shopListing] }, .advance 1 .success,
    .advance 0 { Outcome.success with heartbeat := true }, .advance 0 .success,
    .advance 1 .success, .start (.importing ⟨1, 0, 0, "", "registry/shop"⟩)] ++ goesOn 2 7

/-- The lease survives that listing, and the second import does not get the row. -/
theorem one_import_holds_one_row : ∃ tr s, Run (serviceStep plainCodec) ⟨shopRecords, []⟩ tr s ∧
    s.procs.map Handler.lease = [some (0, 1), none, none] ∧
    ExclusiveLeases s ∧ ∀ x ∈ tr, ExclusiveLeases x.before ∧ SyncKeepsLeases x := by
  have hleases : (execute (serviceStep plainCodec) ⟨shopRecords, []⟩ listingAfterClaimRun).map
      (fun s ↦ s.procs.map Handler.lease) = some [some (0, 1), none, none] := by decide
  obtain ⟨s, hs, hprocs⟩ := Option.map_eq_some_iff.mp hleases
  have hrun := Run.of_execute listingAfterClaimRun hs
  exact ⟨_, s, hrun, hprocs, import_lease_exclusive plainCodec shopRecords hrun (by decide)
    (by decide)⟩

end ReinhardtCloud.Dashboard
