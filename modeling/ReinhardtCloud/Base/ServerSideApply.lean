import Mathlib.Data.Fintype.Basic

/-!
# Fields with several managers

Library `Base`. An object is a partial map of fields; a manager owns the fields it last wrote.
A forced apply sets what it sends and removes what its manager owned alone and no longer sends;
a patch sets or removes single fields. Nothing here names a component.
-/

namespace ReinhardtCloud.Base

/-- The fields of an object and who owns them. -/
structure Managed (F M V : Type) where
  value : F → Option V
  owns : M → F → Bool

namespace Managed

variable {F M V : Type} [Fintype M] [DecidableEq M] [DecidableEq V]

/-- `m` is the only owner of the field. -/
def OwnsAlone (o : Managed F M V) (m : M) (f : F) : Prop :=
  o.owns m f = true ∧ ∀ k, k ≠ m → o.owns k f = false

instance (o : Managed F M V) (m : M) (f : F) : Decidable (o.OwnsAlone m f) :=
  inferInstanceAs (Decidable (_ ∧ _))

/-- Forced apply of a manifest by `m`; other managers lose the fields it changes. -/
def apply (o : Managed F M V) (m : M) (manifest : F → Option V) : Managed F M V where
  value f :=
    match manifest f with
    | some v => some v
    | none => if o.OwnsAlone m f then none else o.value f
  owns k f :=
    if k = m then (manifest f).isSome
    else o.owns k f && (manifest f = none || manifest f = o.value f)

/-- Patch of single fields by `m`: `some v` is written or removed, `none` is left alone. -/
def patch (o : Managed F M V) (m : M) (p : F → Option (Option V)) : Managed F M V where
  value f := (p f).getD (o.value f)
  owns k f :=
    match p f with
    | none => o.owns k f
    | some none => false
    | some (some v) => if o.value f = some v then o.owns k f else decide (k = m)

variable {o : Managed F M V} {m : M} {f : F}

/-- What is sent is set. -/
theorem apply_value_of_sent {manifest : F → Option V} {v : V} (h : manifest f = some v) :
    (o.apply m manifest).value f = some v := by
  simp only [apply, h]

/-- What is neither sent nor owned alone stays. -/
theorem apply_value_of_foreign {manifest : F → Option V} (h : manifest f = none)
    (ho : ¬ o.OwnsAlone m f) : (o.apply m manifest).value f = o.value f := by
  simp only [apply, h, ho, ↓reduceIte]

/-- After an apply, its manager owns exactly what it sent. -/
theorem apply_owns_self {manifest : F → Option V} :
    (o.apply m manifest).owns m f = (manifest f).isSome := by
  simp only [apply, ↓reduceIte]

/-- Of two applies by one manager that send the same fields, the values are the second's. -/
theorem apply_apply_value {first second : F → Option V}
    (h : ∀ f, (first f).isSome = (second f).isSome) :
    ((o.apply m first).apply m second).value = (o.apply m second).value := by
  funext f
  cases hs : second f with
  | some v => rw [apply_value_of_sent hs, apply_value_of_sent hs]
  | none =>
    have hf : first f = none := by
      rw [← Option.not_isSome_iff_eq_none, h f, hs]
      exact Bool.false_ne_true
    have hmine : ¬ (o.apply m first).OwnsAlone m f := by
      rintro ⟨ho, -⟩
      rw [apply_owns_self, hf] at ho
      exact Bool.false_ne_true ho
    rw [apply_value_of_foreign hs hmine]
    simp only [apply, hf, hs]

omit [Fintype M] in
/-- A patch leaves the fields it does not name alone. -/
theorem patch_value_of_unnamed {p : F → Option (Option V)} (h : p f = none) :
    (o.patch m p).value f = o.value f := by
  simp only [patch, h, Option.getD_none]

omit [Fintype M] in
/-- A patch writes or removes the fields it names. -/
theorem patch_value_of_named {p : F → Option (Option V)} {v : Option V} (h : p f = some v) :
    (o.patch m p).value f = v := by
  simp only [patch, h, Option.getD_some]

end Managed

end ReinhardtCloud.Base
