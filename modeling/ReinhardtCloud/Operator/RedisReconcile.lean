import ReinhardtCloud.Operator.RedisProvenance

/-!
# What the Redis credentials flow returns and deletes

Library `Operator`. Every client of the flow only sends proper requests, so the invariant of
`RedisProvenance` holds in every run; the provenance `reconcile_redis_credentials_secret`
returns names generated data, and clean-up deletes nothing else.
-/

namespace ReinhardtCloud.Operator

open ReinhardtCloud.Base RedisStore

/-! ## The digest determines the data -/

private theorem dataEntry_ext {a b : DataEntry}
    (hk : a.key.toUTF8.data.toList = b.key.toUTF8.data.toList) (hv : a.value = b.value) :
    a = b := by
  have hkey : a.key = b.key :=
    String.toByteArray_inj.mp (ByteArray.ext (Array.toList_inj.mp hk))
  cases a
  cases b
  cases hkey
  cases hv
  rfl

/-- The encoding hashed for a Secret determines its entries. -/
theorem encodeSecretData_inj {a b : List DataEntry}
    (h : encodeSecretData (some a) = encodeSecretData (some b)) : a = b := by
  induction a generalizing b with
  | nil =>
    cases b with
    | nil => rfl
    | cons y ys => simp [encodeSecretData, lengthPrefixed, beBytes] at h
  | cons x xs ih =>
    cases b with
    | nil => simp [encodeSecretData, lengthPrefixed, beBytes] at h
    | cons y ys =>
      simp only [encodeSecretData, Option.getD_some, List.flatMap_cons, List.append_assoc] at h
      obtain ⟨hkey, hrest⟩ := lengthPrefixed_append_inj x.key_lt y.key_lt h
      obtain ⟨hvalue, htail⟩ := lengthPrefixed_append_inj x.value_lt y.value_lt hrest
      rw [dataEntry_ext hkey hvalue, ih htail]

/-- Under a collision-free hash, only generated data has a committed digest. -/
theorem generated_of_committed {sha256 : List UInt8 → List UInt8}
    (hsha : Function.Injective sha256) {s : RedisStore} {secret : Secret}
    (h : s.Committed sha256 (redisCredentialsDigest sha256 secret)) :
    s.Generated secret.data := by
  obtain ⟨i, hi, he⟩ := h
  have hencode := hsha (hexEncode_injective he)
  refine ⟨i, hi, ?_⟩
  cases hd : secret.data with
  | none => simp [hd, encodeSecretData, redisCredentialsData, lengthPrefixed, beBytes] at hencode
  | some data => rw [hd] at hencode; rw [encodeSecretData_inj hencode]

/-- A live Secret that passes the provenance check holds generated data. -/
theorem provenance_generated {sha256 : List UInt8 → List UInt8}
    (hsha : Function.Injective sha256) {s : RedisStore} {app : Project} {existing : Secret}
    {provenance : RedisCredentialsProvenance} (hinv : s.Inv sha256)
    (hv : s.Vouched sha256 app) (hl : s.liveSecret = some existing)
    (hp : redisCredentialsSecretProvenance sha256 existing app = some provenance) :
    existing.uid = some provenance.uid ∧ existing ∈ s.secretVersions provenance.uid ∧
      s.Generated existing.data := by
  obtain ⟨w, hw, hhead⟩ := Option.bind_eq_some_iff.mp hl
  have hmem := List.mem_of_head? hhead
  have huid := hinv.uid w existing hmem
  cases hstatus : app.status with
  | none => simp [redisCredentialsSecretProvenance, huid, hstatus] at hp
  | some status =>
    obtain ⟨hrec, hdig⟩ := hv status hstatus
    cases hu : status.redisCredentialsSecretUid with
    | some recorded =>
      simp only [redisCredentialsSecretProvenance, huid, hstatus, hu, Option.bind_eq_bind,
        Option.bind_some, decide_eq_true_eq, Option.ite_none_right_eq_some,
        Option.some.injEq] at hp
      obtain ⟨rfl, rfl⟩ := hp
      exact ⟨huid, hmem, ((hrec recorded hu).liveSecret hinv hl huid).2⟩
    | none =>
      simp only [redisCredentialsSecretProvenance, huid, hstatus, hu, Option.bind_eq_bind,
        Option.bind_some, Option.any_eq_true, decide_eq_true_eq, Option.ite_none_right_eq_some,
        Option.some.injEq] at hp
      obtain ⟨⟨pending, hpending, rfl⟩, rfl⟩ := hp
      exact ⟨huid, hmem, generated_of_committed hsha (hdig _ hpending)⟩

/-! ## The programs send proper requests -/

/-- What each served request of the flow does: a proper request extends the store. -/
def redisGuarantee (sha256 : List UInt8 → List UInt8) (s : RedisStore) (c : RedisCall)
    (t : RedisStore) : Prop :=
  s.Extends sha256 t ∧ s.Proper sha256 c

section Programs

variable {sha256 : List UInt8 → List UInt8} {α β : Type} {s : RedisStore}

/-- A client of the flow sends proper requests only, and its results satisfy `P`. -/
abbrev Keeps (sha256 : List UInt8 → List UInt8) (p : RedisProgram α) (s : RedisStore)
    (P : RedisStore → α → Prop) : Prop :=
  p.Yields serve (Extends sha256) (redisGuarantee sha256) s P

theorem keeps_pure {a : α} {P : RedisStore → α → Prop} (h : P s a) :
    Keeps sha256 (.done (.ok a)) s P :=
  Program.yields_pure h

theorem keeps_fail {e : Error} {P : RedisStore → α → Prop} : Keeps sha256 (.fail e) s P :=
  Program.yields_fail

theorem keeps_bind {p : RedisProgram α} {f : α → RedisProgram β} {P : RedisStore → β → Prop}
    (h : Keeps sha256 p s fun t a ↦ Keeps sha256 (f a) t P) : Keeps sha256 (p.bind f) s P :=
  Program.yields_bind h

/-- Results may rely on the store having been extended since the start. -/
theorem keeps_extends {p : RedisProgram α} {P : RedisStore → α → Prop} (hinv : s.Inv sha256)
    (h : Keeps sha256 p s P) : Keeps sha256 p s fun t a ↦ s.Extends sha256 t ∧ P t a := by
  refine (h.track (R := Extends sha256) (fun _ _ _ h h' ↦ h.trans h') (fun _ _ h ↦ h)
    (fun _ _ _ h ↦ h.1) (Extends.refl hinv)).mono ?_
  rintro t r ⟨hext, hr⟩ a ha
  exact ⟨hext, hr a ha⟩

/-- A request that stays proper is served; its answer satisfies what the store guarantees. -/
theorem keeps_redisApi {c : RedisCall} {P : RedisStore → c.Result → Prop}
    (hproper : ∀ t, s.Extends sha256 t → t.Proper sha256 c)
    (hok : ∀ t fault r, s.Extends sha256 t → t.Extends sha256 (t.serve fault c).1 →
      (t.serve fault c).2 = .ok r → P (t.serve fault c).1 r) :
    Keeps sha256 (redisApi c) s P := by
  intro t ht _ fault
  have hext := extends_serve ht.inv fault (hproper t ht)
  refine ⟨⟨hext, hproper t ht⟩, ?_⟩
  cases hr : (t.serve fault c).2 with
  | ok r => exact keeps_pure (hok t fault r ht hext hr)
  | error e => exact keeps_fail

/-- Reading the live Secret leaves the store as it was at the read. -/
theorem keeps_getSecret {P : RedisStore → Option Secret → Prop}
    (h : ∀ t, s.Extends sha256 t → P t t.liveSecret) : Keeps sha256 (redisApi .getSecret) s P := by
  refine keeps_redisApi (fun _ _ ↦ trivial) fun t fault r ht _ hr ↦ ?_
  cases fault with
  | true => simp [serve] at hr
  | false =>
    simp only [serve, Bool.false_eq_true, ↓reduceIte, Except.ok.injEq] at hr
    exact hr ▸ h t ht

theorem keeps_patchProvenance {uid : Option Uid} {digest : Option String} {rv : Option Nat}
    (hu : ∀ u, uid = some u → s.Approved u)
    (hd : ∀ d, digest = some d → s.Committed sha256 d) :
    Keeps sha256 (patchRedisCredentialsProvenance uid digest rv) s
      fun t _ ↦ s.Extends sha256 t :=
  keeps_redisApi (fun _ ht ↦ ⟨fun u h ↦ (hu u h).mono ht, fun d h ↦ (hd d h).mono ht⟩)
    fun _ _ _ ht hext _ ↦ ht.trans hext

theorem keeps_updateRedisStatus {app : Project} {provenance : Option RedisCredentialsProvenance}
    (hv : s.Vouched sha256 app) (hp : ∀ p, provenance = some p → s.Approved p.uid) :
    Keeps sha256 (updateRedisStatus app provenance) s fun _ _ ↦ True := by
  cases provenance with
  | some p =>
    refine keeps_redisApi (fun t ht ↦ ⟨fun u hu ↦ ?_, by simp⟩) fun _ _ _ _ _ _ ↦ trivial
    obtain rfl := Option.some.inj hu
    exact (hp p rfl).mono ht
  | none =>
    refine keeps_redisApi (fun t ht ↦ ⟨fun u hu ↦ ?_, fun d hd ↦ ?_⟩)
      fun _ _ _ _ _ _ ↦ trivial
    · obtain ⟨status, hs, hu⟩ := Option.bind_eq_some_iff.mp hu
      exact ((hv.mono ht) status hs).1 u hu
    · obtain ⟨status, hs, hd⟩ := Option.bind_eq_some_iff.mp hd
      exact ((hv.mono ht) status hs).2 d hd

theorem keeps_enforceMetadata {app : Project} {secret : Secret} (hinv : s.Inv sha256) :
    Keeps sha256 (enforceRedisCredentialsMetadata sha256 app secret) s
      fun t _ ↦ s.Extends sha256 t := by
  have hrefl := Extends.refl hinv
  simp only [enforceRedisCredentialsMetadata]
  split
  · exact keeps_pure hrefl
  · split
    · exact keeps_pure hrefl
    · split
      · exact keeps_fail
      · exact keeps_redisApi (fun _ _ ↦ trivial) fun _ _ _ ht hext _ ↦ ht.trans hext

theorem keeps_buildManagedSecret {app : Project} :
    Keeps sha256 (buildManagedRedisCredentialsSecret app) s
      fun t secret ↦ s.Extends sha256 t ∧ t.Generated secret.data ∧
        secret.immutable = some true := by
  refine keeps_bind (keeps_bind (keeps_redisApi (fun _ _ ↦ trivial) fun t fault r ht hext hr ↦ ?_))
  obtain rfl := Except.ok.inj hr
  exact keeps_pure (keeps_pure ⟨ht.trans hext, ⟨t.drawn, Nat.lt_succ_self _, rfl⟩, rfl⟩)

/-- Creating a Secret approves the UID the server assigned to it. -/
theorem keeps_createSecret {secret : Secret} (hg : s.Generated secret.data)
    (hi : secret.immutable = some true) :
    Keeps sha256 (redisApi (.createSecret secret)) s
      fun t created ↦ ∀ u, created.uid = some u → t.Approved u := by
  refine keeps_redisApi (fun _ _ ↦ trivial) fun t fault created ht hext hr u hu ↦ ?_
  cases fault with
  | true => simp [serve] at hr
  | false =>
    simp only [serve, Bool.false_eq_true, ↓reduceIte] at hr hext ⊢
    split at hr
    · cases hr
    · next hl =>
      obtain rfl := Except.ok.inj hr
      obtain rfl : t.nextUid = u := Option.some.inj hu
      obtain ⟨i, hlt, hd⟩ := hg
      refine ⟨{ secret with uid := some t.nextUid, resourceVersion := some (t.revision + 1) },
        ?_, hi, i, Nat.lt_of_lt_of_le hlt ht.drawn, ?_⟩
      · simp [hl, addSecret, pushSecret]
      · simpa [hl, addSecret, pushSecret, ht.passwords] using hd

/-- The provenance returned for a vouched Project version is approved. -/
theorem keeps_reconcile (hsha : Function.Injective sha256) {app : Project} {ns : String}
    (hv : s.Vouched sha256 app) :
    Keeps sha256 (reconcileRedisCredentialsSecret sha256 app ns) s
      fun t provenance ↦ t.Approved provenance.uid := by
  refine keeps_bind (keeps_getSecret fun t ht ↦ ?_)
  cases hl : t.liveSecret with
  | some existing =>
    dsimp only
    cases hp : redisCredentialsSecretProvenance sha256 existing app with
    | none => exact keeps_fail
    | some provenance =>
      obtain ⟨-, hmem, hgen⟩ := provenance_generated hsha ht.inv (hv.mono ht) hl hp
      refine keeps_bind (Program.Meets.mono (keeps_enforceMetadata ht.inv) fun t' r hr u hu ↦ ?_)
      have htt := hr u hu
      by_cases hi : existing.immutable = some true
      · have happ : t'.Approved provenance.uid := Approved.mono ⟨existing, hmem, hi, hgen⟩ htt
        simp only [hi, ne_eq, not_true_eq_false, ↓reduceIte]
        split
        · refine keeps_bind (Program.Meets.mono (keeps_patchProvenance ?_ ?_)
            fun t'' r hr u hu ↦ ?_)
          · rintro u hu
            obtain rfl := Option.some.inj hu
            exact happ
          · simp
          · exact keeps_pure (happ.mono (hr u hu))
        · exact keeps_pure happ
      · simp only [ne_eq, hi, not_false_eq_true, ↓reduceIte]
        exact keeps_fail
  | none =>
    dsimp only
    refine keeps_bind (Program.Meets.mono keeps_buildManagedSecret fun t₁ r hr secret hs ↦ ?_)
    obtain ⟨-, hgen, himm⟩ := hr secret hs
    refine keeps_bind (Program.Meets.mono (keeps_patchProvenance (by simp) ?_)
      fun t₂ r hr u hu ↦ ?_)
    · rintro d hd
      obtain rfl := Option.some.inj hd
      obtain ⟨i, hlt, hdata⟩ := hgen
      exact ⟨i, hlt, by rw [redisCredentialsDigest, hdata]⟩
    · have hext := hr u hu
      have hgen' : t₂.Generated secret.data := by
        obtain ⟨i, hlt, hdata⟩ := hgen
        exact ⟨i, Nat.lt_of_lt_of_le hlt hext.drawn, hext.passwords ▸ hdata⟩
      refine keeps_bind (Program.Meets.mono (keeps_createSecret hgen' himm)
        fun t₃ r hr created hc ↦ ?_)
      have happ := hr created hc
      cases huid : created.uid with
      | none =>
        simp only [huid]
        exact keeps_fail
      | some uid =>
        simp only [huid]
        refine keeps_bind (Program.Meets.mono (keeps_patchProvenance ?_ ?_)
          fun t₄ r hr u hu ↦ keeps_pure ((happ uid huid).mono (hr u hu)))
        · rintro u hu
          obtain rfl := Option.some.inj hu
          exact happ uid huid
        · rintro d hd
          cases hd

/-- Clean-up only sends proper requests. -/
theorem keeps_deleteIfManaged (hsha : Function.Injective sha256) {app : Project}
    (hv : s.Vouched sha256 app) :
    Keeps sha256 (deleteRedisCredentialsSecretIfManaged sha256 app) s fun _ _ ↦ True := by
  refine keeps_bind (keeps_getSecret fun t ht ↦ ?_)
  cases hl : t.liveSecret with
  | none => exact keeps_pure trivial
  | some existing =>
    dsimp only
    split
    · next hp =>
      obtain ⟨provenance, hp⟩ := Option.isSome_iff_exists.mp hp
      obtain ⟨huid, hmem, hgen⟩ := provenance_generated hsha ht.inv (hv.mono ht) hl hp
      intro t' ht' _ fault
      have hproper : t'.Proper sha256 (.deleteSecret existing.uid) :=
        ⟨provenance.uid, huid, HeldGenerated.mono ⟨existing, hmem, hgen⟩ ht'⟩
      exact ⟨⟨extends_serve ht'.inv fault hproper, hproper⟩, keeps_pure trivial⟩
    · exact keeps_pure trivial

theorem keeps_retain {app : Project} :
    Keeps sha256 (retainRedisCredentialsSecret sha256 app) s fun _ _ ↦ True := by
  refine keeps_bind (keeps_getSecret fun t ht ↦ ?_)
  cases t.liveSecret with
  | none => exact keeps_pure trivial
  | some existing =>
    exact Program.Meets.mono (keeps_enforceMetadata ht.inv) fun _ _ _ _ _ ↦ trivial

/-- Every client the operator starts keeps the contract; only `reconcile` returns a provenance. -/
theorem keeps_program (hsha : Function.Injective sha256) {app : Project} (j : RedisJob)
    (hinv : s.Inv sha256) (hv : s.Vouched sha256 app) :
    Keeps sha256 (j.program sha256 app) s
      fun t outcome ↦ ∀ p, outcome = .reconciled p → t.Approved p.uid := by
  cases j with
  | reconcile version =>
    refine keeps_bind (Program.Meets.mono (keeps_reconcile hsha hv) fun t r hr p hp ↦ ?_)
    refine keeps_pure fun p' hp' ↦ ?_
    cases hp'
    exact hr p hp
  | apply version provision =>
    cases provision with
    | true =>
      refine keeps_bind (Program.Meets.mono (keeps_extends hinv (keeps_reconcile hsha hv))
        fun t r hr p hp ↦ ?_)
      obtain ⟨hext, hpt⟩ := hr p hp
      refine keeps_bind (Program.Meets.mono (keeps_updateRedisStatus (hv.mono hext) ?_)
        fun _ _ _ _ _ ↦ ?_)
      · rintro p' hp'
        obtain rfl := Option.some.inj hp'
        exact hpt
      · exact keeps_pure fun _ h ↦ nomatch h
    | false =>
      refine keeps_bind (Program.Meets.mono (keeps_updateRedisStatus hv (by simp))
        fun _ _ _ _ _ ↦ keeps_pure fun _ h ↦ nomatch h)
  | cleanup version policy =>
    cases policy with
    | retain =>
      exact keeps_bind (Program.Meets.mono keeps_retain
        fun _ _ _ _ _ ↦ keeps_pure fun _ h ↦ nomatch h)
    | delete =>
      exact keeps_bind (Program.Meets.mono (keeps_deleteIfManaged hsha hv)
        fun _ _ _ _ _ ↦ keeps_pure fun _ h ↦ nomatch h)

end Programs

/-! ## Every run -/

/-- The operator's clients, the tenant and the store keep to the contract. -/
theorem redis_disciplined {sha256 : List UInt8 → List UInt8} (hsha : Function.Injective sha256) :
    Shared.Disciplined serve tenantStep (startRedisJob sha256)
      (Program.yielding (Extends sha256) (redisGuarantee sha256)
        fun t outcome ↦ ∀ p, outcome = .reconciled p → t.Approved p.uid)
      (Inv sha256) where
  refl _ h := Extends.refl h
  trans _ _ _ h h' := h.trans h'
  inv _ _ h := h.inv
  guar _ _ _ h := h.1
  pre _ _ := trivial
  interfere _ _ _ h ht := extends_tenantStep h ht
  spawn s j t p h ht := by
    obtain ⟨app, happ, he⟩ := Option.map_eq_some_iff.mp ht
    cases he
    exact ⟨Extends.refl h, keeps_program hsha j h (h.vouched app (List.mem_of_getElem? happ))⟩

/-- A step of one of the operator's clients that removes the live Secret removes one that held
generated data when it was observed. -/
def DeletesOnlyGenerated
    (x : Transition (Shared RedisStore (RedisProgram RedisOutcome))
      (Activity TenantAction RedisJob Bool)) : Prop :=
  ∀ i fault u, x.action = .serve i fault → x.before.store.live = some u →
    x.after.store.live ≠ some u → x.before.store.HeldGenerated u

/-- Only a deletion whose UID precondition holds empties the name. -/
theorem RedisStore.deleteSecret_of_live_ne {s : RedisStore} {fault : Bool} {c : RedisCall}
    {u : Uid} (hl : s.live = some u) (hn : (s.serve fault c).1.live ≠ some u) :
    ∃ uid, c = .deleteSecret uid ∧ uid.all (fun w ↦ w = u) = true := by
  cases c with
  | deleteSecret uid =>
    refine ⟨uid, rfl, ?_⟩
    simp only [serve, hl] at hn
    split at hn
    · exact absurd hl hn
    · split at hn
      · assumption
      · exact absurd hl hn
  | generatePassword => exact absurd hl hn
  | getSecret =>
    simp only [serve] at hn
    split at hn <;> exact absurd hl hn
  | createSecret secret =>
    simp only [serve, hl] at hn
    split at hn <;> exact absurd hl hn
  | patchSecretMetadata uid resourceVersion ownerReferences labels =>
    simp only [serve] at hn
    split at hn
    · exact absurd hl hn
    · split at hn
      · split at hn <;> exact absurd hl hn
      · exact absurd hl hn
  | patchProvenance uid digest resourceVersion =>
    simp only [serve] at hn
    split at hn
    · exact absurd hl hn
    · split at hn
      · exact absurd (live_patchStatus.trans hl) hn
      · exact absurd hl hn
  | mergeStatus uid digest =>
    simp only [serve] at hn
    split at hn
    · exact absurd hl hn
    · exact absurd (live_patchStatus.trans hl) hn

/-- In every run of the operator's clients, stopped anywhere and reading any version of the
Project, with any tenant: the live Secret of a returned provenance is immutable and holds data
the operator generated, and clean-up removes only Secrets that held such data. -/
theorem redis_credentials_provenance {sha256 : List UInt8 → List UInt8}
    (hsha : Function.Injective sha256) {app : Project} {passwords : Nat → GeneratedPassword}
    {tr : List (Transition (Shared RedisStore (RedisProgram RedisOutcome))
      (Activity TenantAction RedisJob Bool))}
    {s : Shared RedisStore (RedisProgram RedisOutcome)}
    (h : Run (redisStep sha256) ⟨init app passwords, []⟩ tr s) :
    (∀ p, .done (.ok (.reconciled p)) ∈ s.clients →
      ∀ secret, s.store.liveSecret = some secret → secret.uid = some p.uid →
        secret.immutable = some true ∧ s.store.Generated secret.data) ∧
    ∀ x ∈ tr, DeletesOnlyGenerated x := by
  have hk := redis_disciplined hsha
  obtain ⟨⟨hinv, hsound⟩, htr⟩ := hk.run (inv_init app passwords) h
  refine ⟨fun p hp secret hl hu ↦ ?_, fun x hx i fault u ha hl hn ↦ ?_⟩
  · obtain ⟨t, hmeets, hext⟩ := hsound _ hp
    exact ((hmeets _ rfl p rfl).mono hext).liveSecret hinv hl hu
  · obtain ⟨hs, ht⟩ := htr x hx
    rw [ha] at ht
    obtain ⟨c, hafter, -, hproper⟩ := hk.served hs ht
    rw [hafter] at hn
    obtain ⟨uid, rfl, hall⟩ := deleteSecret_of_live_ne hl hn
    obtain ⟨v, rfl, hheld⟩ := hproper
    obtain rfl : v = u := by simpa using hall
    exact hheld

/-- A random source that draws the same password every time. -/
def constantPasswords : Nat → GeneratedPassword := fun _ ↦ ⟨List.replicate 32 97, rfl⟩

/-- SHA-256 on the data of that password, and an injective continuation elsewhere. -/
def sampleSha256 (bytes : List UInt8) : List UInt8 :=
  if bytes = encodeSecretData (some (redisCredentialsData (constantPasswords 0))) then
    [53, 74, 173, 53, 56, 74, 41, 10, 117, 173, 249, 148, 24, 239, 61, 106, 173, 47, 122, 112,
    0, 135, 220, 99, 131, 199, 113, 188, 55, 176, 64, 171]
  else 0 :: bytes

theorem sampleSha256_injective : Function.Injective sampleSha256 := by
  intro a b h
  simp only [sampleSha256] at h
  split at h
  · next ha =>
    split at h
    · next hb => exact ha.trans hb.symm
    · cases h
  · split at h
    · cases h
    · exact (List.cons.inj h).2

/-- A first reconcile, a crash of `apply` after the Secret was created, and a recovery that
observed the digest but not yet the UID; a tenant strips the labels in between. -/
def interruptedCreation : List (Activity TenantAction RedisJob Bool) :=
  [.spawn (.apply 0 true), .serve 0 false, .serve 0 false, .serve 0 false, .serve 0 false,
    .interfere (.updateSecret ⟨"shop-redis-credentials", none, none, none, none,
      some (redisCredentialsData (constantPasswords 0)), some true⟩),
    .spawn (.reconcile 0), .serve 1 false, .serve 1 false, .serve 1 false]

/-- The recovered provenance names the Secret the operator created. -/
theorem redis_credentials_provenance_interruptedCreation :
    ∃ s secret, execute (redisStep sampleSha256) ⟨init ⟨"shop", some "team", some 7, none,
        ⟨none, none, none, none⟩, { image := "shop:1" }, none, none⟩ constantPasswords, []⟩
        interruptedCreation = some s ∧
      s.store.liveSecret = some secret ∧ secret.labels = some (standardSecretLabels "shop") ∧
      secret.immutable = some true ∧ s.store.Generated secret.data := by
  have he : ∃ s secret, execute (redisStep sampleSha256) ⟨init ⟨"shop", some "team", some 7, none,
        ⟨none, none, none, none⟩, { image := "shop:1" }, none, none⟩ constantPasswords, []⟩
        interruptedCreation = some s ∧
      s.store.liveSecret = some secret ∧ secret.labels = some (standardSecretLabels "shop") ∧
      secret.uid = some 0 ∧ s.clients[1]? = some (.done (.ok (.reconciled ⟨0⟩))) :=
    ⟨_, _, rfl, rfl, rfl, rfl, rfl⟩
  obtain ⟨s, secret, he, hl, hlabels, hu, hdone⟩ := he
  have hsafe := redis_credentials_provenance sampleSha256_injective (Run.of_execute _ he)
  exact ⟨s, secret, he, hl, hlabels,
    hsafe.1 ⟨0⟩ (List.mem_of_getElem? hdone) secret hl hu⟩

end ReinhardtCloud.Operator
