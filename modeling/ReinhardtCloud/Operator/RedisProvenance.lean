import ReinhardtCloud.Operator.RedisStore

/-!
# Provenance of the Redis credentials

Library `Operator`. The status never names a Secret, nor commits to data, that the operator
did not generate: every recorded UID belongs to an immutable Secret with generated data, and
every recorded digest is that of generated data. Both survive stale reads, stopped clients
and any tenant action, because they speak about all stored versions.
-/

namespace ReinhardtCloud.Operator

open ReinhardtCloud.Base

namespace RedisStore

/-- Secret data the operator has generated for the Project. -/
def Generated (s : RedisStore) (data : Option (List DataEntry)) : Prop :=
  ∃ i < s.drawn, data = some (redisCredentialsData (s.passwords i))

/-- Some version of the Secret held generated data. -/
def HeldGenerated (s : RedisStore) (u : Uid) : Prop :=
  ∃ secret ∈ s.secretVersions u, s.Generated secret.data

/-- Some version of the Secret held generated data and was immutable. -/
def Approved (s : RedisStore) (u : Uid) : Prop :=
  ∃ secret ∈ s.secretVersions u, secret.immutable = some true ∧ s.Generated secret.data

/-- A digest of generated data. -/
def Committed (sha256 : List UInt8 → List UInt8) (s : RedisStore) (digest : String) : Prop :=
  ∃ i < s.drawn,
    digest = hexEncode (sha256 (encodeSecretData (some (redisCredentialsData (s.passwords i)))))

/-- The provenance a Project version records is approved, and its digest committed to. -/
def Vouched (sha256 : List UInt8 → List UInt8) (s : RedisStore) (app : Project) : Prop :=
  ∀ status, app.status = some status →
    (∀ u, status.redisCredentialsSecretUid = some u → s.Approved u) ∧
    (∀ d, status.redisCredentialsSecretDigest = some d → s.Committed sha256 d)

/-- The invariant of the store: versions of Secrets are kept under their UIDs, immutable data
stays, and every version of the Project is vouched for. -/
structure Inv (sha256 : List UInt8 → List UInt8) (s : RedisStore) : Prop where
  fresh : ∀ u, s.nextUid ≤ u → s.secretVersions u = []
  live : ∀ u, s.live = some u → s.secretVersions u ≠ []
  uid : ∀ u, ∀ secret ∈ s.secretVersions u, secret.uid = some u
  frozen : ∀ u current, (s.secretVersions u).head? = some current →
    ∀ secret ∈ s.secretVersions u, secret.immutable = some true →
      current.immutable = some true ∧ current.data = secret.data
  vouched : ∀ app ∈ s.projects, s.Vouched sha256 app

/-- Later stores satisfy the invariant and keep all versions and all generated data. -/
structure Extends (sha256 : List UInt8 → List UInt8) (s t : RedisStore) : Prop where
  inv : t.Inv sha256
  versions : ∀ u, s.secretVersions u ⊆ t.secretVersions u
  drawn : s.drawn ≤ t.drawn
  passwords : t.passwords = s.passwords

variable {sha256 : List UInt8 → List UInt8} {s t : RedisStore}

theorem Extends.refl (h : s.Inv sha256) : s.Extends sha256 s :=
  ⟨h, fun _ ↦ List.Subset.refl _, Nat.le_refl _, rfl⟩

theorem Extends.trans {u : RedisStore} (h : s.Extends sha256 t) (h' : t.Extends sha256 u) :
    s.Extends sha256 u :=
  ⟨h'.inv, fun v ↦ List.Subset.trans (h.versions v) (h'.versions v), h.drawn.trans h'.drawn,
    h'.passwords.trans h.passwords⟩

section Monotone

variable (hd : s.drawn ≤ t.drawn) (hp : t.passwords = s.passwords)
include hd hp

private theorem Generated.grow {data : Option (List DataEntry)} (h : s.Generated data) :
    t.Generated data := by
  obtain ⟨i, hi, he⟩ := h
  exact ⟨i, Nat.lt_of_lt_of_le hi hd, hp ▸ he⟩

private theorem Committed.grow {d : String} (h : s.Committed sha256 d) :
    t.Committed sha256 d := by
  obtain ⟨i, hi, he⟩ := h
  exact ⟨i, Nat.lt_of_lt_of_le hi hd, hp ▸ he⟩

variable (hv : ∀ u, s.secretVersions u ⊆ t.secretVersions u)
include hv

private theorem HeldGenerated.grow {u : Uid} (h : s.HeldGenerated u) : t.HeldGenerated u := by
  obtain ⟨secret, hm, hg⟩ := h
  exact ⟨secret, hv u hm, hg.grow hd hp⟩

private theorem Approved.grow {u : Uid} (h : s.Approved u) : t.Approved u := by
  obtain ⟨secret, hm, hi, hg⟩ := h
  exact ⟨secret, hv u hm, hi, hg.grow hd hp⟩

private theorem Vouched.grow {app : Project} (h : s.Vouched sha256 app) :
    t.Vouched sha256 app := by
  intro status hs
  obtain ⟨hu, hdig⟩ := h status hs
  exact ⟨fun u hr ↦ (hu u hr).grow hd hp hv, fun d hr ↦ (hdig d hr).grow hd hp⟩

end Monotone

theorem HeldGenerated.mono {u : Uid} (h : s.HeldGenerated u) (he : s.Extends sha256 t) :
    t.HeldGenerated u :=
  h.grow he.drawn he.passwords he.versions

theorem Approved.mono {u : Uid} (h : s.Approved u) (he : s.Extends sha256 t) : t.Approved u :=
  h.grow he.drawn he.passwords he.versions

theorem Committed.mono {d : String} (h : s.Committed sha256 d) (he : s.Extends sha256 t) :
    t.Committed sha256 d :=
  h.grow he.drawn he.passwords

theorem Vouched.mono {app : Project} (h : s.Vouched sha256 app) (he : s.Extends sha256 t) :
    t.Vouched sha256 app :=
  h.grow he.drawn he.passwords he.versions

/-- The Secret of an approved UID is immutable and holds generated data, as long as it lives. -/
theorem Approved.liveSecret {u : Uid} {secret : Secret} (h : s.Approved u)
    (hinv : s.Inv sha256) (hl : s.liveSecret = some secret) (hu : secret.uid = some u) :
    secret.immutable = some true ∧ s.Generated secret.data := by
  obtain ⟨v, hv, hhead⟩ := Option.bind_eq_some_iff.mp hl
  have huid := hinv.uid v secret (List.mem_of_head? hhead)
  obtain rfl := Option.some.inj (huid.symm.trans hu)
  obtain ⟨old, hm, hi, hg⟩ := h
  obtain ⟨hi', hd⟩ := hinv.frozen v secret hhead old hm hi
  exact ⟨hi', hd ▸ hg⟩

/-! ## What the store does with each request -/

/-- A request that keeps the invariant: approved UIDs, committed digests, and deletions of
Secrets that held generated data only. -/
def Proper (sha256 : List UInt8 → List UInt8) (s : RedisStore) : RedisCall → Prop
  | .patchProvenance uid digest _ | .mergeStatus uid digest =>
    (∀ u, uid = some u → s.Approved u) ∧ (∀ d, digest = some d → s.Committed sha256 d)
  | .deleteSecret uid => ∃ u, uid = some u ∧ s.HeldGenerated u
  | _ => True

theorem extends_drawn (h : s.Inv sha256) : s.Extends sha256 { s with drawn := s.drawn + 1 } := by
  have hd : s.drawn ≤ s.drawn + 1 := Nat.le_succ _
  refine ⟨⟨h.fresh, h.live, h.uid, h.frozen, fun app ha ↦ ?_⟩, fun _ ↦ List.Subset.refl _, hd, rfl⟩
  exact (h.vouched app ha).grow (t := { s with drawn := s.drawn + 1 }) hd rfl
    fun _ ↦ List.Subset.refl _

theorem extends_deleted (h : s.Inv sha256) : s.Extends sha256 { s with live := none } :=
  ⟨⟨h.fresh, by simp, h.uid, h.frozen, h.vouched⟩, fun _ ↦ List.Subset.refl _, Nat.le_refl _, rfl⟩

theorem extends_pushProject (h : s.Inv sha256) {app : Project} (ha : s.Vouched sha256 app) :
    s.Extends sha256 (s.pushProject app) := by
  refine ⟨⟨h.fresh, h.live, h.uid, h.frozen, fun app' ha' ↦ ?_⟩, fun _ ↦ List.Subset.refl _,
    Nat.le_refl _, rfl⟩
  rcases List.mem_cons.mp ha' with rfl | ha'
  · exact ha
  · exact h.vouched app' ha'

theorem extends_patchStatus (h : s.Inv sha256) {f : ProjectStatus → ProjectStatus}
    (hf : ∀ status, ((∀ u, status.redisCredentialsSecretUid = some u → s.Approved u) ∧
        ∀ d, status.redisCredentialsSecretDigest = some d → s.Committed sha256 d) →
      (∀ u, (f status).redisCredentialsSecretUid = some u → s.Approved u) ∧
        ∀ d, (f status).redisCredentialsSecretDigest = some d → s.Committed sha256 d) :
    s.Extends sha256 (s.patchStatus f) := by
  cases hp : s.projects with
  | nil => simpa [patchStatus, hp] using Extends.refl h
  | cons app rest =>
    have hv := h.vouched app (by simp [hp])
    simp only [patchStatus, hp]
    refine extends_pushProject h fun status hs ↦ ?_
    obtain rfl := Option.some.inj hs
    refine hf _ ?_
    cases hstatus : app.status with
    | none => simp
    | some status => exact hv status hstatus

/-- Storing a version of a Secret keeps the invariant when an immutable predecessor is kept. -/
theorem extends_pushSecret (h : s.Inv sha256) {u : Uid} {secret : Secret} (hu : u < s.nextUid)
    (hkeep : ∀ current, (s.secretVersions u).head? = some current →
      current.immutable = some true → secret.immutable = some true ∧ secret.data = current.data) :
    s.Extends sha256 (s.pushSecret u secret) := by
  have hsub : ∀ v, s.secretVersions v ⊆ (s.pushSecret u secret).secretVersions v := by
    intro v x hx
    by_cases hv : v = u
    · subst hv
      simp [pushSecret, hx]
    · simpa [pushSecret, hv] using hx
  refine ⟨⟨?_, ?_, ?_, ?_, ?_⟩, hsub, Nat.le_refl _, rfl⟩
  · intro v hv
    have hne : v ≠ u := Nat.ne_of_gt (Nat.lt_of_lt_of_le hu hv)
    simpa [pushSecret, hne] using h.fresh v hv
  · intro v hv
    by_cases hne : v = u
    · simp [pushSecret, hne]
    · simpa [pushSecret, hne] using h.live v hv
  · intro v x hx
    by_cases hne : v = u
    · subst hne
      rcases List.mem_cons.mp (by simpa [pushSecret] using hx) with rfl | hx
      · rfl
      · exact h.uid v x hx
    · exact h.uid v x (by simpa [pushSecret, hne] using hx)
  · intro v current hc x hx hi
    by_cases hne : v = u
    · subst hne
      have hcur : { secret with uid := some v, resourceVersion := some (s.revision + 1) }
          = current := by simpa [pushSecret] using hc
      subst hcur
      rcases List.mem_cons.mp (by simpa [pushSecret] using hx) with rfl | hx
      · exact ⟨hi, rfl⟩
      · obtain ⟨old, hold⟩ : ∃ old, (s.secretVersions v).head? = some old := by
          cases hl : s.secretVersions v with
          | nil => simp [hl] at hx
          | cons old rest => exact ⟨old, rfl⟩
        obtain ⟨hio, hdo⟩ := h.frozen v old hold x hx hi
        obtain ⟨hin, hdn⟩ := hkeep old hold hio
        exact ⟨hin, hdn.trans hdo⟩
    · exact h.frozen v current (by simpa [pushSecret, hne] using hc) x
        (by simpa [pushSecret, hne] using hx) hi
  · intro app ha
    exact Vouched.grow (s := s) (t := s.pushSecret u secret) (Nat.le_refl _) rfl hsub
      (h.vouched app ha)

theorem extends_addSecret (h : s.Inv sha256) (secret : Secret) :
    s.Extends sha256 (s.addSecret secret) := by
  have hpush : ({ s with nextUid := s.nextUid + 1 } : RedisStore).Extends sha256
      ({ s with nextUid := s.nextUid + 1 }.pushSecret s.nextUid secret) := by
    have hinv : ({ s with nextUid := s.nextUid + 1 } : RedisStore).Inv sha256 :=
      ⟨fun u hu ↦ h.fresh u (Nat.le_of_succ_le hu), h.live, h.uid, h.frozen, h.vouched⟩
    refine extends_pushSecret hinv (Nat.lt_succ_self s.nextUid) ?_
    simp [h.fresh s.nextUid (Nat.le_refl _)]
  refine ⟨⟨hpush.inv.fresh, ?_, hpush.inv.uid, hpush.inv.frozen, hpush.inv.vouched⟩,
    hpush.versions, hpush.drawn, hpush.passwords⟩
  intro u hu
  obtain rfl : s.nextUid = u := by simpa [addSecret] using hu
  simp [addSecret, pushSecret]

theorem lt_nextUid (h : s.Inv sha256) {u : Uid} (hu : s.live = some u) : u < s.nextUid := by
  rcases Nat.lt_or_ge u s.nextUid with hlt | hge
  · exact hlt
  · exact absurd (h.fresh u hge) (h.live u hu)

/-- Serving a proper request extends the store. -/
theorem extends_serve (h : s.Inv sha256) (fault : Bool) {c : RedisCall} (hc : s.Proper sha256 c) :
    s.Extends sha256 (s.serve fault c).1 := by
  cases c with
  | generatePassword => exact extends_drawn h
  | getSecret =>
    simp only [serve]
    split <;> exact Extends.refl h
  | createSecret secret =>
    simp only [serve]
    split
    · exact Extends.refl h
    · split
      · exact Extends.refl h
      · exact extends_addSecret h secret
  | patchSecretMetadata uid resourceVersion ownerReferences labels =>
    simp only [serve]
    split
    · exact Extends.refl h
    · split
      · next u secret hu hs =>
        split
        · refine extends_pushSecret h (lt_nextUid h hu) fun current hcur hi ↦ ?_
          have : secret = current := by simpa [liveSecret, hu, hcur] using hs.symm
          exact ⟨this ▸ hi, by rw [this]⟩
        · exact Extends.refl h
      · exact Extends.refl h
  | deleteSecret uid =>
    simp only [serve]
    split
    · exact Extends.refl h
    · split
      · exact Extends.refl h
      · split
        · exact extends_deleted h
        · exact Extends.refl h
  | patchProvenance uid digest resourceVersion =>
    simp only [serve]
    split
    · exact Extends.refl h
    · split
      · dsimp only
        exact extends_patchStatus h fun _ _ ↦ hc
      · exact Extends.refl h
  | mergeStatus uid digest =>
    simp only [serve]
    split
    · exact Extends.refl h
    · dsimp only
      refine extends_patchStatus h fun status hs ↦ ⟨fun u hu ↦ ?_, fun d hd ↦ ?_⟩
      · rcases Option.or_eq_some_iff.mp hu with hu | ⟨-, hu⟩
        · exact hc.1 u hu
        · exact hs.1 u hu
      · rcases Option.or_eq_some_iff.mp hd with hd | ⟨-, hd⟩
        · exact hc.2 d hd
        · exact hs.2 d hd

/-- A tenant cannot break the invariant. -/
theorem extends_tenantStep (h : s.Inv sha256) {a : TenantAction} (ht : tenantStep s a = some t) :
    s.Extends sha256 t := by
  cases a with
  | createSecret secret =>
    simp only [tenantStep] at ht
    split at ht
    · exact Option.some.inj ht ▸ extends_addSecret h secret
    · cases ht
  | deleteSecret =>
    simp only [tenantStep] at ht
    split at ht
    · exact Option.some.inj ht ▸ extends_deleted h
    · cases ht
  | updateSecret secret =>
    simp only [tenantStep] at ht
    split at ht
    · next u current hu hs =>
      split at ht
      · cases ht
      · next hallowed =>
        obtain rfl := Option.some.inj ht
        refine extends_pushSecret h (lt_nextUid h hu) fun current' hcur hi ↦ ?_
        have : current = current' := by simpa [liveSecret, hu, hcur] using hs.symm
        subst this
        exact not_not.mp fun hn ↦ hallowed ⟨hi, hn⟩
    · cases ht
  | editProject annotations spec =>
    simp only [tenantStep] at ht
    split at ht
    · cases ht
    · next app rest hp =>
      obtain rfl := Option.some.inj ht
      exact extends_pushProject h (h.vouched app (by simp [hp]))

theorem inv_init (app : Project) (passwords : Nat → GeneratedPassword) :
    (init app passwords).Inv sha256 := by
  refine ⟨fun _ _ ↦ rfl, by simp [init], by simp [init], by simp [init], ?_⟩
  intro app' ha status hs
  obtain rfl := List.mem_singleton.mp ha
  cases hs

end RedisStore

end ReinhardtCloud.Operator
