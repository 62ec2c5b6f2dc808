import ReinhardtCloud.Base.Run

/-!
# Clients of a shared store

Library `Base`. A client is a program over the calls a store serves: it has finished, or
issues one call and continues with the answer. Other writers may change the store between
any two calls. A contract states what the others may do, what each served call does and
what the results mean; it is checked along the program once and then holds in every run
of the store with its clients. Nothing here names a component.
-/

namespace ReinhardtCloud.Base

/-- A client that ends in a result or an error, issuing calls on the way. -/
inductive Program (Call : Type) (Answer : Call → Type) (ε α : Type) where
  | done (result : Except ε α)
  | call (c : Call) (next : Answer c → Program Call Answer ε α)

namespace Program

variable {Call : Type} {Answer : Call → Type} {ε α β σ ω : Type}

/-- Continue with the result; an error ends the whole program. -/
def bind : Program Call Answer ε α → (α → Program Call Answer ε β) → Program Call Answer ε β
  | .done (.ok a), k => k a
  | .done (.error e), _ => .done (.error e)
  | .call c next, k => .call c fun r ↦ (next r).bind k

instance : Monad (Program Call Answer ε) where
  pure a := .done (.ok a)
  bind := bind

/-- End with an error. -/
def fail (e : ε) : Program Call Answer ε α := .done (.error e)

/-- Issue one call and return its answer. -/
def request (c : Call) : Program Call Answer ε (Answer c) := .call c fun r ↦ .done (.ok r)

@[simp] theorem pure_eq (a : α) : (pure a : Program Call Answer ε α) = .done (.ok a) := rfl

@[simp] theorem bind_eq (p : Program Call Answer ε α) (k : α → Program Call Answer ε β) :
    p >>= k = p.bind k := rfl

@[simp] theorem bind_ok (a : α) (k : α → Program Call Answer ε β) :
    (Program.done (.ok a) : Program Call Answer ε α).bind k = k a := rfl

@[simp] theorem bind_error (e : ε) (k : α → Program Call Answer ε β) :
    (Program.done (.error e) : Program Call Answer ε α).bind k = .done (.error e) := rfl

@[simp] theorem bind_call (c : Call) (next : Answer c → Program Call Answer ε α)
    (k : α → Program Call Answer ε β) :
    (Program.call c next).bind k = .call c fun r ↦ (next r).bind k := rfl

theorem bind_assoc {γ : Type} (p : Program Call Answer ε α) (f : α → Program Call Answer ε β)
    (g : β → Program Call Answer ε γ) : (p.bind f).bind g = p.bind fun a ↦ (f a).bind g := by
  induction p with
  | done r => cases r <;> rfl
  | call c next ih => simp only [bind_call, ih]

/-- Serve every call of the program in turn, the `n`-th one with the oracle's `n`-th value. -/
def run (serve : σ → ω → (c : Call) → σ × Answer c) (oracle : Nat → ω) :
    Program Call Answer ε α → σ → σ × Except ε α
  | .done r, s => (s, r)
  | .call c next, s =>
    run serve (fun n ↦ oracle (n + 1)) (next (serve s (oracle 0) c).2) (serve s (oracle 0) c).1

@[simp] theorem run_done (serve : σ → ω → (c : Call) → σ × Answer c) (oracle : Nat → ω)
    (r : Except ε α) (s : σ) :
    run serve oracle (.done r : Program Call Answer ε α) s = (s, r) := rfl

/-- Under a constant oracle a sequence runs one part after the other. -/
theorem run_bind (serve : σ → ω → (c : Call) → σ × Answer c) (o : ω)
    (p : Program Call Answer ε α) (f : α → Program Call Answer ε β) (s : σ) :
    run serve (fun _ ↦ o) (p.bind f) s =
      match run serve (fun _ ↦ o) p s with
      | (t, .ok a) => run serve (fun _ ↦ o) (f a) t
      | (t, .error e) => (t, .error e) := by
  induction p generalizing s with
  | done r => cases r <;> rfl
  | call c next ih => exact ih _ _

/-- A sequence that ends in a result ran its first part to a result and, under the rest of the
oracle, its second part from there. -/
theorem run_bind_ok {serve : σ → ω → (c : Call) → σ × Answer c} {oracle : Nat → ω}
    {p : Program Call Answer ε α} {f : α → Program Call Answer ε β} {s t : σ} {b : β}
    (h : run serve oracle (p.bind f) s = (t, .ok b)) :
    ∃ u a k, run serve oracle p s = (u, .ok a) ∧
      run serve (fun n ↦ oracle (n + k)) (f a) u = (t, .ok b) := by
  induction p generalizing s oracle with
  | done r =>
    cases r with
    | ok a => exact ⟨s, a, 0, rfl, h⟩
    | error e => cases h
  | call c next ih =>
    obtain ⟨u, a, k, hp, hf⟩ := ih _ h
    refine ⟨u, a, k + 1, hp, ?_⟩
    simpa only [Nat.add_assoc, Nat.add_comm 1] using hf

/-- Every call the program may issue, whatever the answers, satisfies `A`. -/
def Only (A : Call → Prop) : Program Call Answer ε α → Prop
  | .done _ => True
  | .call c next => A c ∧ ∀ r, Only A (next r)

theorem only_bind {A : Call → Prop} {p : Program Call Answer ε α}
    {f : α → Program Call Answer ε β} (hp : p.Only A) (hf : ∀ a, (f a).Only A) :
    (p.bind f).Only A := by
  induction p with
  | done r =>
    cases r with
    | ok a => exact hf a
    | error e => trivial
  | call c next ih => exact ⟨hp.1, fun r ↦ ih r (hp.2 r)⟩

theorem only_true (p : Program Call Answer ε α) : p.Only fun _ ↦ True := by
  induction p with
  | done r => trivial
  | call c next ih => exact ⟨trivial, ih⟩

theorem Only.mono {A B : Call → Prop} (h : ∀ c, A c → B c) {p : Program Call Answer ε α}
    (hp : p.Only A) : p.Only B := by
  induction p with
  | done r => trivial
  | call c next ih => exact ⟨h c hp.1, fun r ↦ ih r (hp.2 r)⟩

/-- What every served call with `A` keeps, a program of such calls keeps. -/
theorem Only.run {A : Call → Prop} {I : σ → Prop}
    {serve : σ → ω → (c : Call) → σ × Answer c}
    (hserve : ∀ s o c, A c → I s → I (serve s o c).1) {oracle : Nat → ω}
    {p : Program Call Answer ε α} (hp : p.Only A) {s : σ} (hs : I s) :
    I (Program.run serve oracle p s).1 := by
  induction p generalizing s oracle with
  | done r => exact hs
  | call c next ih => exact ih _ (hp.2 _) (hserve _ _ _ hp.1 hs)

/-- Replace every call by a program over another store's calls. -/
def handle {Call' : Type} {Answer' : Call' → Type}
    (h : (c : Call) → Program Call' Answer' ε (Answer c)) :
    Program Call Answer ε α → Program Call' Answer' ε α
  | .done r => .done r
  | .call c next => (h c).bind fun r ↦ (next r).handle h

theorem only_handle {Call' : Type} {Answer' : Call' → Type} {A : Call → Prop} {B : Call' → Prop}
    {h : (c : Call) → Program Call' Answer' ε (Answer c)} (hh : ∀ c, A c → (h c).Only B)
    {p : Program Call Answer ε α} (hp : p.Only A) : (p.handle h).Only B := by
  induction p with
  | done r => trivial
  | call c next ih => exact only_bind (hh c hp.1) fun r ↦ ih r (hp.2 r)

end Program

/-- What a client relies on and provides: `rely` bounds the changes of others, `pre` is assumed
when a call is served, `guar` holds of each served call and `post` of each result. -/
structure Contract (σ Call ε α : Type) where
  rely : σ → σ → Prop
  pre : σ → Call → Prop
  guar : σ → Call → σ → Prop
  post : σ → Except ε α → Prop

namespace Program

variable {Call : Type} {Answer : Call → Type} {ε α β σ ω : Type}
variable (serve : σ → ω → (c : Call) → σ × Answer c)

/-- The program meets the contract when it was last at `s` and others act before each call. -/
def Meets (k : Contract σ Call ε α) : Program Call Answer ε α → σ → Prop
  | .done r, s => k.post s r
  | .call c next, s => ∀ t, k.rely s t → k.pre t c → ∀ o,
      k.guar t c (serve t o c).1 ∧ Meets k (next (serve t o c).2) (serve t o c).1

variable {serve}

@[simp] theorem meets_done {k : Contract σ Call ε α} {r : Except ε α} {s : σ} :
    Meets serve k (.done r : Program Call Answer ε α) s ↔ k.post s r := Iff.rfl

/-- A sequence meets a contract when its first part meets it with the rest as its meaning. -/
theorem Meets.bind {k : Contract σ Call ε β} {p : Program Call Answer ε α}
    {f : α → Program Call Answer ε β} {s : σ}
    (h : Meets serve ⟨k.rely, k.pre, k.guar, fun s r ↦ match r with
      | .ok a => Meets serve k (f a) s
      | .error e => k.post s (.error e)⟩ p s) : Meets serve k (p.bind f) s := by
  induction p generalizing s with
  | done r =>
    cases r with
    | ok a => exact h
    | error e => exact h
  | call c next ih =>
    intro t ht hp o
    obtain ⟨hg, hn⟩ := h t ht hp o
    exact ⟨hg, ih _ hn⟩

/-- A contract may be replaced by one with a weaker result. -/
theorem Meets.mono {k : Contract σ Call ε α} {post : σ → Except ε α → Prop}
    {p : Program Call Answer ε α} {s : σ} (h : Meets serve k p s)
    (hpost : ∀ s r, k.post s r → post s r) :
    Meets serve ⟨k.rely, k.pre, k.guar, post⟩ p s := by
  induction p generalizing s with
  | done r => exact hpost s r h
  | call c next ih =>
    intro t ht hp o
    obtain ⟨hg, hn⟩ := h t ht hp o
    exact ⟨hg, ih _ hn⟩

/-- A result may also rely on everything having moved along a preorder since the start. -/
theorem Meets.track {k : Contract σ Call ε α} {R : σ → σ → Prop} {p : Program Call Answer ε α}
    {s₀ s : σ} (h : Meets serve k p s) (htrans : ∀ a b c, R a b → R b c → R a c)
    (hrely : ∀ a b, k.rely a b → R a b) (hguar : ∀ a c b, k.guar a c b → R a b) (hs : R s₀ s) :
    Meets serve ⟨k.rely, k.pre, k.guar, fun t r ↦ R s₀ t ∧ k.post t r⟩ p s := by
  induction p generalizing s with
  | done r => exact ⟨hs, h⟩
  | call c next ih =>
    intro t ht hp o
    obtain ⟨hg, hn⟩ := h t ht hp o
    exact ⟨hg, ih _ hn (htrans _ _ _ (htrans _ _ _ hs (hrely _ _ ht)) (hguar _ _ _ hg))⟩

/-- The contract to keep to `rely` and `guar` with results that satisfy `P`; nothing is assumed
of a call and nothing is said of an error. -/
abbrev yielding (rely : σ → σ → Prop) (guar : σ → Call → σ → Prop) (P : σ → α → Prop) :
    Contract σ Call ε α :=
  ⟨rely, fun _ _ ↦ True, guar, fun s r ↦ ∀ a, r = .ok a → P s a⟩

/-- The program keeps to `rely` and `guar` from `s` on, and its results satisfy `P`. -/
abbrev Yields (serve : σ → ω → (c : Call) → σ × Answer c) (rely : σ → σ → Prop)
    (guar : σ → Call → σ → Prop) (p : Program Call Answer ε α) (s : σ) (P : σ → α → Prop) : Prop :=
  p.Meets serve (yielding rely guar P) s

section Yields

variable {rely : σ → σ → Prop} {guar : σ → Call → σ → Prop} {s : σ}

theorem yields_pure {a : α} {P : σ → α → Prop} (h : P s a) :
    Yields serve rely guar (.done (.ok a) : Program Call Answer ε α) s P := by
  rintro b hb
  cases hb
  exact h

theorem yields_fail {e : ε} {P : σ → α → Prop} :
    Yields serve rely guar (.done (.error e) : Program Call Answer ε α) s P := by
  rintro b hb
  cases hb

/-- A sequence yields what its second part yields from the results of the first. -/
theorem yields_bind {p : Program Call Answer ε α} {f : α → Program Call Answer ε β}
    {P : σ → β → Prop}
    (h : Yields serve rely guar p s fun t a ↦ Yields serve rely guar (f a) t P) :
    Yields serve rely guar (p.bind f) s P := by
  refine Meets.bind (h.mono fun t r hr ↦ ?_)
  cases r with
  | ok a => exact hr a rfl
  | error e => exact fun b hb ↦ nomatch hb

theorem Yields.mono {p : Program Call Answer ε α} {P Q : σ → α → Prop}
    (h : Yields serve rely guar p s P) (hpq : ∀ t a, P t a → Q t a) :
    Yields serve rely guar p s Q :=
  Meets.mono h fun t _ hr a ha ↦ hpq t a (hr a ha)

/-- What others keep and every served call with `A` keeps, a client of such calls keeps. -/
theorem Only.yields {A : Call → Prop} {K : σ → Prop} {p : Program Call Answer ε α}
    (hp : p.Only A) (hrely : ∀ s t, K s → rely s t → K t)
    (hserve : ∀ s o c, K s → A c → guar s c (serve s o c).1 ∧ K (serve s o c).1) (hs : K s) :
    Yields serve rely guar p s fun t _ ↦ K t := by
  induction p generalizing s with
  | done r => exact fun _ _ ↦ hs
  | call c next ih =>
    intro t ht _ o
    obtain ⟨hg, hk⟩ := hserve t o c (hrely s t hs ht) hp.1
    exact ⟨hg, ih _ (hp.2 _) hk⟩

end Yields

end Program

/-- A store and the clients started on it, each at its current point. -/
structure Shared (σ π : Type) where
  store : σ
  clients : List π

/-- Another writer acts, a client starts, or a client's next call is served. -/
inductive Activity (E J ω : Type) where
  | interfere (e : E)
  | spawn (j : J)
  | serve (i : Nat) (o : ω)

namespace Shared

variable {Call : Type} {Answer : Call → Type} {ε α σ ω E J : Type}

/-- One atomic step of a store with any number of clients. A client that is never served again
has stopped. -/
def step (serve : σ → ω → (c : Call) → σ × Answer c) (interfere : σ → E → Option σ)
    (spawn : σ → J → Option (σ × Program Call Answer ε α))
    (s : Shared σ (Program Call Answer ε α)) :
    Activity E J ω → Option (Shared σ (Program Call Answer ε α))
  | .interfere e => (interfere s.store e).map fun t ↦ ⟨t, s.clients⟩
  | .spawn j => (spawn s.store j).map fun r ↦ ⟨r.1, s.clients ++ [r.2]⟩
  | .serve i o =>
    match s.clients[i]? with
    | some (.call c next) =>
      let r := serve s.store o c
      some ⟨r.1, s.clients.set i (next r.2)⟩
    | _ => none

variable {serve : σ → ω → (c : Call) → σ × Answer c} {interfere : σ → E → Option σ}
  {spawn : σ → J → Option (σ × Program Call Answer ε α)}

/-- Every client was last at a store from which it meets the contract, and only relied-on
changes happened since. -/
def Sound (serve : σ → ω → (c : Call) → σ × Answer c) (k : Contract σ Call ε α)
    (s : Shared σ (Program Call Answer ε α)) : Prop :=
  ∀ p ∈ s.clients, ∃ t, p.Meets serve k t ∧ k.rely t s.store

/-- Clients stay sound when the store only changes as they rely on. -/
theorem Sound.change {k : Contract σ Call ε α} {s : Shared σ (Program Call Answer ε α)}
    (h : s.Sound serve k) (htrans : ∀ a b c, k.rely a b → k.rely b c → k.rely a c) {t : σ}
    (ht : k.rely s.store t) : Sound serve k ⟨t, s.clients⟩ := by
  intro p hp
  obtain ⟨u, hm, hu⟩ := h p hp
  exact ⟨u, hm, htrans _ _ _ hu ht⟩

/-- What the others and the started clients must keep to for all clients to stay sound. -/
structure Disciplined (serve : σ → ω → (c : Call) → σ × Answer c)
    (interfere : σ → E → Option σ) (spawn : σ → J → Option (σ × Program Call Answer ε α))
    (k : Contract σ Call ε α) (I : σ → Prop) : Prop where
  refl : ∀ s, I s → k.rely s s
  trans : ∀ a b c, k.rely a b → k.rely b c → k.rely a c
  inv : ∀ s t, k.rely s t → I t
  guar : ∀ s c t, k.guar s c t → k.rely s t
  pre : ∀ s c, k.pre s c
  interfere : ∀ s e t, I s → interfere s e = some t → k.rely s t
  spawn : ∀ s j t p, I s → spawn s j = some (t, p) → k.rely s t ∧ p.Meets serve k t

/-- One step keeps the invariant of the store and the soundness of the clients. -/
theorem Disciplined.step {k : Contract σ Call ε α} {I : σ → Prop}
    (hk : Disciplined serve interfere spawn k I)
    {s t : Shared σ (Program Call Answer ε α)} {a : Activity E J ω}
    (hi : I s.store) (hs : s.Sound serve k) (ht : step serve interfere spawn s a = some t) :
    I t.store ∧ t.Sound serve k := by
  cases a with
  | interfere e =>
    obtain ⟨u, hu, rfl⟩ := Option.map_eq_some_iff.mp ht
    have hr := hk.interfere _ _ _ hi hu
    exact ⟨hk.inv _ _ hr, hs.change hk.trans hr⟩
  | spawn j =>
    obtain ⟨⟨u, p⟩, hu, rfl⟩ := Option.map_eq_some_iff.mp ht
    obtain ⟨hr, hm⟩ := hk.spawn _ _ _ _ hi hu
    refine ⟨hk.inv _ _ hr, fun q hq ↦ ?_⟩
    rcases List.mem_append.mp hq with hq | hq
    · exact hs.change hk.trans hr q hq
    · obtain rfl := List.mem_singleton.mp hq
      exact ⟨u, hm, hk.refl _ (hk.inv _ _ hr)⟩
  | serve i o =>
    simp only [Shared.step] at ht
    split at ht
    · next c next hc =>
      obtain rfl := Option.some.inj ht
      obtain ⟨u, hm, hu⟩ := hs _ (List.mem_of_getElem? hc)
      obtain ⟨hg, hn⟩ := hm _ hu (hk.pre _ _) o
      have hr := hk.guar _ _ _ hg
      refine ⟨hk.inv _ _ hr, fun q hq ↦ ?_⟩
      rcases List.mem_or_eq_of_mem_set hq with hq | rfl
      · exact hs.change hk.trans hr q hq
      · exact ⟨_, hn, hk.refl _ (hk.inv _ _ hr)⟩
    · cases ht

/-- A served call of a sound client is the client's next one, and does what it guarantees. -/
theorem Disciplined.served {k : Contract σ Call ε α} {I : σ → Prop}
    (hk : Disciplined serve interfere spawn k I)
    {s t : Shared σ (Program Call Answer ε α)} {i : Nat} {o : ω} (hs : s.Sound serve k)
    (ht : Shared.step serve interfere spawn s (.serve i o : Activity E J ω) = some t) :
    ∃ c, t.store = (serve s.store o c).1 ∧ k.guar s.store c t.store := by
  simp only [Shared.step] at ht
  split at ht
  · next c next hc =>
    obtain rfl := Option.some.inj ht
    obtain ⟨u, hm, hu⟩ := hs _ (List.mem_of_getElem? hc)
    exact ⟨c, rfl, (hm _ hu (hk.pre _ _) o).1⟩
  · cases ht

/-- In every run the store satisfies the invariant and the clients are sound, at the end and
before each step. -/
theorem Disciplined.run {k : Contract σ Call ε α} {I : σ → Prop} {init : σ}
    (hk : Disciplined serve interfere spawn k I) (hinit : I init)
    {tr : List (Transition (Shared σ (Program Call Answer ε α)) (Activity E J ω))}
    {s : Shared σ (Program Call Answer ε α)}
    (h : Run (Shared.step serve interfere spawn) ⟨init, []⟩ tr s) :
    (I s.store ∧ s.Sound serve k) ∧ ∀ x ∈ tr, x.before.Sound serve k ∧
      Shared.step serve interfere spawn x.before x.action = some x.after := by
  have hbase : I (⟨init, []⟩ : Shared σ (Program Call Answer ε α)).store ∧
      Sound serve k ⟨init, []⟩ := ⟨hinit, by simp [Sound]⟩
  have hstep := fun s a t (hs : I s.store ∧ s.Sound serve k)
    (ht : Shared.step serve interfere spawn s a = some t) ↦ hk.step hs.1 hs.2 ht
  refine ⟨h.invariant (I := fun s ↦ I s.store ∧ s.Sound serve k) hbase hstep, fun x hx ↦ ?_⟩
  obtain ⟨⟨-, hs⟩, ht⟩ :=
    h.forall_before (I := fun s ↦ I s.store ∧ s.Sound serve k) hbase hstep x hx
  exact ⟨hs, ht⟩

end Shared

/-- A store with at most one client, and what that client read when it started. -/
structure Solo (σ τ π : Type) where
  store : σ
  current : Option (τ × π)

/-- Another writer acts, a client starts on what it reads, or the client's next call is served. -/
inductive Turn (E ω : Type) where
  | interfere (e : E)
  | start
  | serve (o : ω)
  deriving DecidableEq

namespace Solo

variable {Call : Type} {Answer : Call → Type} {ε α σ τ ω E : Type}

/-- One atomic step of a store with one client at a time. Starting a client drops the previous one
wherever it stopped. -/
def step (serve : σ → ω → (c : Call) → σ × Answer c) (interfere : σ → E → Option σ) (read : σ → τ)
    (program : τ → Program Call Answer ε α) (s : Solo σ τ (Program Call Answer ε α)) :
    Turn E ω → Option (Solo σ τ (Program Call Answer ε α))
  | .interfere e => (interfere s.store e).map fun t ↦ ⟨t, s.current⟩
  | .start => some ⟨s.store, some (read s.store, program (read s.store))⟩
  | .serve o =>
    match s.current with
    | some (a, .call c next) =>
      let r := serve s.store o c
      some ⟨r.1, some (a, next r.2)⟩
    | _ => none

/-- The client read something admitted, was last at a store from which it meets the contract for
what it read, and only relied-on changes happened since. -/
def Sound (serve : σ → ω → (c : Call) → σ × Answer c) (k : τ → Contract σ Call ε α)
    (admitted : τ → Prop) (s : Solo σ τ (Program Call Answer ε α)) : Prop :=
  ∀ a p, s.current = some (a, p) → admitted a ∧ ∃ t, p.Meets serve (k a) t ∧ (k a).rely t s.store

variable (serve : σ → ω → (c : Call) → σ × Answer c) (interfere : σ → E → Option σ) (read : σ → τ)
  (program : τ → Program Call Answer ε α)

/-- What the others and a client that read something admitted must keep to. -/
structure Disciplined (k : τ → Contract σ Call ε α) (admitted : τ → Prop) : Prop where
  refl : ∀ a s, (k a).rely s s
  trans : ∀ a s t u, (k a).rely s t → (k a).rely t u → (k a).rely s u
  pre : ∀ a s c, (k a).pre s c
  interfere : ∀ a s e t, interfere s e = some t → (k a).rely s t
  start : ∀ s, admitted (read s) → (program (read s)).Meets serve (k (read s)) s

/-- What a transition does to the store: another writer acts, nothing happens, or a call of a
client that read something admitted is served as its contract guarantees. -/
def Accounted (k : τ → Contract σ Call ε α) (admitted : τ → Prop)
    (x : Transition (Solo σ τ (Program Call Answer ε α)) (Turn E ω)) : Prop :=
  match x.action with
  | .interfere e => interfere x.before.store e = some x.after.store
  | .start => x.after.store = x.before.store
  | .serve o => ∃ a c next, admitted a ∧ x.before.current = some (a, .call c next) ∧
      x.after.store = (serve x.before.store o c).1 ∧ (k a).guar x.before.store c x.after.store

variable {serve interfere read program}

/-- One transition keeps the client sound and is accounted for. -/
theorem Disciplined.step {k : τ → Contract σ Call ε α} {admitted : τ → Prop}
    (hk : Disciplined serve interfere read program k admitted)
    {s t : Solo σ τ (Program Call Answer ε α)} {a : Turn E ω} (hs : s.Sound serve k admitted)
    (ht : Solo.step serve interfere read program s a = some t)
    (hc : a = .start → admitted (read s.store)) :
    t.Sound serve k admitted ∧ Accounted serve interfere k admitted ⟨s, a, t⟩ := by
  cases a with
  | interfere e =>
    obtain ⟨u, hu, rfl⟩ := Option.map_eq_some_iff.mp ht
    refine ⟨fun a p hcur ↦ ?_, hu⟩
    obtain ⟨ha, v, hm, hv⟩ := hs a p hcur
    exact ⟨ha, v, hm, hk.trans _ _ _ _ hv (hk.interfere a _ _ _ hu)⟩
  | start =>
    obtain rfl := Option.some.inj ht
    refine ⟨fun a p hcur ↦ ?_, rfl⟩
    cases hcur
    exact ⟨hc rfl, s.store, hk.start _ (hc rfl), hk.refl _ _⟩
  | serve o =>
    simp only [Solo.step] at ht
    split at ht
    · next a c next hcur =>
      obtain rfl := Option.some.inj ht
      obtain ⟨ha, u, hm, hu⟩ := hs a _ hcur
      obtain ⟨hg, hn⟩ := hm s.store hu (hk.pre _ _ _) o
      refine ⟨fun a' p hcur' ↦ ?_, a, c, next, ha, hcur, rfl, hg⟩
      cases hcur'
      exact ⟨ha, _, hn, hk.refl _ _⟩
    · cases ht

/-- In every run whose clients all read something admitted, every transition is accounted for. -/
theorem Disciplined.run {k : τ → Contract σ Call ε α} {admitted : τ → Prop}
    (hk : Disciplined serve interfere read program k admitted) {init : σ}
    {tr : List (Transition (Solo σ τ (Program Call Answer ε α)) (Turn E ω))}
    {s : Solo σ τ (Program Call Answer ε α)}
    (h : Run (Solo.step serve interfere read program) ⟨init, none⟩ tr s)
    (hc : ∀ x ∈ tr, x.action = .start → admitted (read x.before.store)) :
    ∀ x ∈ tr, Accounted serve interfere k admitted x := by
  have hinit : Sound serve k admitted (⟨init, none⟩ : Solo σ τ (Program Call Answer ε α)) := by
    intro a p hp
    cases hp
  intro x hx
  exact ((h.safe_of_condition (C := fun x ↦ x.action = .start → admitted (read x.before.store))
    (P := Accounted serve interfere k admitted) hinit
    (fun _ _ _ hs ht hc ↦ hk.step hs ht hc) hc).2 x hx).2

end Solo

end ReinhardtCloud.Base
