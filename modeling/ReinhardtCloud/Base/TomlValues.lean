import Mathlib.Algebra.Group.Int.Defs
import Mathlib.Algebra.Group.Nat.Defs
import Mathlib.Data.List.Nodup
import Mathlib.Data.String.Basic
import ReinhardtCloud.Base.SortedMap

/-!
# TOML values and derived serialization

Library `Base`. The values of a TOML document and what the derives of `serde` make of structs: an
absent option is left out, and a missing field is an absent option or the field's default. A
`Serde` carries the proof that it reads what it writes, and a `Record` makes one of the fields of
a struct. Floats and dates are left out, and so are structs given as arrays. Nothing here names a
component.
-/

namespace ReinhardtCloud.Base

universe u

/-- A TOML value. -/
inductive Toml where
  | string (s : String)
  | integer (n : Int)
  | boolean (b : Bool)
  | array (items : List Toml)
  | table (entries : List (String × Toml))

namespace Toml

/-- The values that can be printed: integers have 64 bits and no key is there twice. -/
inductive Valid : Toml → Prop
  | string (s : String) : Valid (.string s)
  | integer {n : Int} (h : -2 ^ 63 ≤ n ∧ n < 2 ^ 63) : Valid (.integer n)
  | boolean (b : Bool) : Valid (.boolean b)
  | array {items : List Toml} (h : ∀ v ∈ items, Valid v) : Valid (.array items)
  | table {entries : List (String × Toml)} (hkeys : (entries.map Prod.fst).Nodup)
      (h : ∀ entry ∈ entries, Valid entry.2) : Valid (.table entries)

/-- The same value, whatever the order of the keys. -/
inductive Same : Toml → Toml → Prop
  | string (s : String) : Same (.string s) (.string s)
  | integer (n : Int) : Same (.integer n) (.integer n)
  | boolean (b : Bool) : Same (.boolean b) (.boolean b)
  | array {items items' : List Toml} (h : List.Forall₂ Same items items') :
      Same (.array items) (.array items')
  | table {entries entries' : List (String × Toml)}
      (h : ∀ key, Option.Rel Same (entries.lookup key) (entries'.lookup key)) :
      Same (.table entries) (.table entries')

mutual

theorem same_refl : (v : Toml) → v.Same v
  | .string s => .string s
  | .integer n => .integer n
  | .boolean b => .boolean b
  | .array items => .array (forall₂_same items)
  | .table entries => .table fun key ↦ by
    cases hvalue : entries.lookup key with
    | none => exact .none
    | some v => exact .some (same_of_lookup entries key v hvalue)

private theorem forall₂_same : (items : List Toml) → List.Forall₂ Same items items
  | [] => .nil
  | v :: rest => .cons (same_refl v) (forall₂_same rest)

private theorem same_of_lookup : (entries : List (String × Toml)) → ∀ key v,
    entries.lookup key = some v → v.Same v
  | [], _, _, h => by cases h
  | (name, first) :: rest, key, v, h => by
    rw [List.lookup_cons] at h
    split at h
    · rw [← Option.some.inj h]
      exact same_refl first
    · exact same_of_lookup rest key v h

end

/-- The fields of a struct, of which absent options are left out. -/
def record (fields : List (String × Option Toml)) : Toml :=
  .table (fields.filterMap fun field ↦ field.2.map (field.1, ·))

/-- What a table has for a key. -/
def entries? : Toml → Option (String → Option Toml)
  | .table entries => some fun key ↦ entries.lookup key
  | _ => none

/-- `Value::get` of a key. -/
def get? (key : String) : Toml → Option Toml
  | .table entries => entries.lookup key
  | _ => none

/-- `Value::as_str`. -/
def asStr? : Toml → Option String
  | .string s => some s
  | _ => none

/-- `Value::as_bool`. -/
def asBool? : Toml → Option Bool
  | .boolean b => some b
  | _ => none

/-- `Value::as_array`. -/
def asArray? : Toml → Option (List Toml)
  | .array items => some items
  | _ => none

/-- `Value::as_table`. -/
def asTable? : Toml → Option (List (String × Toml))
  | .table entries => some entries
  | _ => none

variable {fields : List (String × Option Toml)}

theorem lookup_filterMap (hkeys : (fields.map Prod.fst).Nodup) (key : String) :
    (fields.filterMap fun field ↦ field.2.map (field.1, ·)).lookup key =
      (fields.lookup key).join := by
  induction fields with
  | nil => rfl
  | cons field rest ih =>
    obtain ⟨name, value⟩ := field
    obtain ⟨hname, hrest⟩ := List.nodup_cons.mp hkeys
    by_cases hkey : key = name
    · subst hkey
      rw [List.lookup_cons_self]
      cases value with
      | none =>
        have habsent : rest.lookup key = none := by
          rw [List.lookup_eq_none_iff]
          intro entry hentry
          rw [bne_iff_ne]
          rintro rfl
          exact hname (List.mem_map.mpr ⟨entry, hentry, rfl⟩)
        simp only [List.filterMap_cons, Option.map_none, ih hrest, habsent, Option.join_none,
          Option.join_some]
      | some v =>
        simp only [List.filterMap_cons, Option.map_some, List.lookup_cons_self, Option.join_some]
    · have hbeq : (key == name) = false := beq_eq_false_iff_ne.mpr hkey
      rw [List.lookup_cons, hbeq, ← ih hrest]
      cases value with
      | none => simp only [List.filterMap_cons, Option.map_none]
      | some v => simp only [List.filterMap_cons, Option.map_some, List.lookup_cons, hbeq]

theorem map_fst_filterMap_sublist (fields : List (String × Option Toml)) :
    ((fields.filterMap fun field ↦ field.2.map (field.1, ·)).map Prod.fst).Sublist
      (fields.map Prod.fst) := by
  induction fields with
  | nil => exact List.Sublist.slnil
  | cons field rest ih =>
    obtain ⟨name, value⟩ := field
    cases value with
    | none => exact List.Sublist.cons _ ih
    | some v => exact List.Sublist.cons_cons _ ih

theorem entries?_record (hkeys : (fields.map Prod.fst).Nodup) :
    (record fields).entries? = some fun key ↦ (fields.lookup key).join := by
  rw [record, entries?]
  congr
  funext key
  exact lookup_filterMap hkeys key

theorem valid_record (hkeys : (fields.map Prod.fst).Nodup)
    (h : ∀ field ∈ fields, ∀ v ∈ field.2, v.Valid) : (record fields).Valid := by
  constructor
  · exact (map_fst_filterMap_sublist fields).nodup hkeys
  · intro entry hentry
    obtain ⟨field, hfield, hvalue⟩ := List.mem_filterMap.mp hentry
    obtain ⟨v, hv, rfl⟩ := Option.map_eq_some_iff.mp hvalue
    exact h field hfield v hv

/-- A value like a struct has the struct's fields. -/
theorem entries?_same (hkeys : (fields.map Prod.fst).Nodup) {v : Toml}
    (h : (record fields).Same v) : ∃ get, v.entries? = some get ∧
      ∀ key, Option.Rel Same (fields.lookup key).join (get key) := by
  have hget := entries?_record hkeys
  cases h with
  | table hrel =>
    refine ⟨_, rfl, ?_⟩
    intro key
    rw [← lookup_filterMap hkeys]
    exact hrel key

theorem valid_of_entries? {v : Toml} (hv : v.Valid) {get : String → Option Toml}
    (hget : v.entries? = some get) : ∀ key, ∀ value ∈ get key, value.Valid := by
  cases hv with
  | table hkeys h =>
    cases hget
    intro key value hvalue
    obtain ⟨front, back, rfl, -⟩ := List.lookup_eq_some_iff.mp hvalue
    exact h (key, value) (List.mem_append_right front List.mem_cons_self)
  | _ => cases hget

end Toml

/-- A type with its derived serialization. The values that fit are those a document can hold. -/
structure Serde (α : Type u) where
  write : α → Toml
  read : Toml → Option α
  fits : α → Prop
  read_write : ∀ a v, (write a).Same v → read v = some a
  valid : ∀ a, fits a → (write a).Valid
  fits_of_read : ∀ a v, v.Valid → read v = some a → fits a

namespace Serde

variable {α : Type u}

/-! ## The types of fields -/

/-- `String`. -/
def string : Serde String where
  write := .string
  read
    | .string s => some s
    | _ => none
  fits _ := True
  read_write a v h := by
    cases h
    rfl
  valid a _ := .string a
  fits_of_read _ _ _ _ := trivial

/-- The variants of an enumeration, each with its text. -/
def variants (asStr : α → String) (ofStr : String → Option α)
    (h : ∀ a, ofStr (asStr a) = some a) : Serde α where
  write a := .string (asStr a)
  read v := (string.read v).bind ofStr
  fits _ := True
  read_write a v hv := by
    rw [string.read_write (asStr a) v hv, Option.bind_some, h]
  valid a _ := .string (asStr a)
  fits_of_read _ _ _ _ := trivial

/-- `u64`. -/
def uint64 : Serde UInt64 where
  write n := .integer n.toNat
  read
    | .integer n => if 0 ≤ n ∧ n < 2 ^ 64 then some (UInt64.ofNat n.toNat) else none
    | _ => none
  fits n := n.toNat < 2 ^ 63
  read_write n v h := by
    cases h
    have hhigh := n.toNat_lt
    refine (if_pos (by omega)).trans (congrArg some ?_)
    rw [Int.toNat_natCast, UInt64.ofNat_toNat]
  valid n h := .integer (by omega)
  fits_of_read n v hv h := by
    cases hv with
    | integer hrange =>
      obtain ⟨hbounds, hn⟩ := Option.ite_none_right_eq_some.mp h
      rw [← Option.some.inj hn, UInt64.toNat_ofNat']
      exact lt_of_le_of_lt (Nat.mod_le _ _) (by omega)
    | _ => cases h

/-- `bool`. -/
def boolean : Serde Bool where
  write := .boolean
  read
    | .boolean b => some b
    | _ => none
  fits _ := True
  read_write a v h := by
    cases h
    rfl
  valid a _ := .boolean a
  fits_of_read _ _ _ _ := trivial

/-- `i32`. -/
def int32 : Serde Int32 where
  write n := .integer n.toInt
  read
    | .integer n => if -2 ^ 31 ≤ n ∧ n < 2 ^ 31 then some (Int32.ofInt n) else none
    | _ => none
  fits _ := True
  read_write n v h := by
    cases h
    refine (if_pos ⟨n.le_toInt, n.toInt_lt⟩).trans (congrArg some ?_)
    exact Int32.ofInt_toInt n
  valid n _ := by
    have hlow := n.le_toInt
    have hhigh := n.toInt_lt
    exact .integer (by omega)
  fits_of_read _ _ _ _ := trivial

/-- `u32`. -/
def uint32 : Serde UInt32 where
  write n := .integer n.toNat
  read
    | .integer n => if 0 ≤ n ∧ n < 2 ^ 32 then some (UInt32.ofNat n.toNat) else none
    | _ => none
  fits _ := True
  read_write n v h := by
    cases h
    have hhigh := n.toNat_lt
    refine (if_pos (by omega)).trans (congrArg some ?_)
    rw [Int.toNat_natCast, UInt32.ofNat_toNat]
  valid n _ := by
    have hhigh := n.toNat_lt
    exact .integer (by omega)
  fits_of_read _ _ _ _ := trivial

theorem mapM_read_write (s : Serde α) {l : List α} {items : List Toml}
    (h : List.Forall₂ Toml.Same (l.map s.write) items) : items.mapM s.read = some l := by
  induction l generalizing items with
  | nil =>
    cases h
    rfl
  | cons a rest ih =>
    cases h with
    | cons hfirst hrest =>
      rw [List.mapM_cons, s.read_write a _ hfirst, ih hrest]
      rfl

theorem mem_of_mapM_read (s : Serde α) {l : List α} {items : List Toml}
    (h : items.mapM s.read = some l) : ∀ a ∈ l, ∃ v ∈ items, s.read v = some a := by
  induction items generalizing l with
  | nil =>
    cases h
    intro a ha
    cases ha
  | cons v rest ih =>
    rw [List.mapM_cons] at h
    obtain ⟨first, hfirst, h⟩ := Option.bind_eq_some_iff.mp h
    obtain ⟨others, hothers, h⟩ := Option.bind_eq_some_iff.mp h
    rw [← Option.some.inj h]
    intro a ha
    rcases List.mem_cons.mp ha with rfl | ha
    · exact ⟨v, List.mem_cons_self, hfirst⟩
    · obtain ⟨value, hvalue, hread⟩ := ih hothers a ha
      exact ⟨value, List.mem_cons_of_mem v hvalue, hread⟩

/-- `Vec`. -/
def list (s : Serde α) : Serde (List α) where
  write l := .array (l.map s.write)
  read
    | .array items => items.mapM s.read
    | _ => none
  fits l := ∀ a ∈ l, s.fits a
  read_write l v h := by
    cases h with
    | array hitems => exact s.mapM_read_write hitems
  valid l h := by
    constructor
    intro v hv
    obtain ⟨a, ha, rfl⟩ := List.mem_map.mp hv
    exact s.valid a (h a ha)
  fits_of_read l v hv h := by
    cases hv with
    | array hitems =>
      intro a ha
      obtain ⟨value, hvalue, hread⟩ := s.mem_of_mapM_read h a ha
      exact s.fits_of_read a value (hitems value hvalue) hread
    | _ => cases h

/-- The value of each key of a table, of which the first entry counts. -/
def readMap (s : Serde α) (entries : List (String × Toml)) : Option (SortedMap String α) :=
  ((entries.map Prod.fst).mapM fun key ↦
    ((entries.lookup key).bind s.read).map (key, ·)).map SortedMap.empty.extend

/-- The values that are read of some keys. -/
theorem mapM_lookup {get : String → Option α} {keys : List String} {pairs : List (String × α)}
    (h : (keys.mapM fun key ↦ (get key).map (key, ·)) = some pairs) :
    pairs.map Prod.fst = keys ∧ ∀ entry ∈ pairs, get entry.1 = some entry.2 := by
  induction keys generalizing pairs with
  | nil =>
    cases h
    exact ⟨rfl, fun entry hentry ↦ by cases hentry⟩
  | cons key rest ih =>
    rw [List.mapM_cons] at h
    obtain ⟨first, hfirst, h⟩ := Option.bind_eq_some_iff.mp h
    obtain ⟨others, hothers, h⟩ := Option.bind_eq_some_iff.mp h
    obtain ⟨a, ha, rfl⟩ := Option.map_eq_some_iff.mp hfirst
    obtain ⟨hkeys, hvalues⟩ := ih hothers
    rw [← Option.some.inj h]
    refine ⟨by rw [List.map_cons, hkeys], ?_⟩
    intro entry hentry
    rcases List.mem_cons.mp hentry with rfl | hentry
    · exact ha
    · exact hvalues entry hentry

theorem exists_mapM_lookup {get : String → Option α} {keys : List String}
    (h : ∀ key ∈ keys, ∃ a, get key = some a) :
    ∃ pairs, (keys.mapM fun key ↦ (get key).map (key, ·)) = some pairs := by
  induction keys with
  | nil => exact ⟨[], rfl⟩
  | cons key rest ih =>
    obtain ⟨a, ha⟩ := h key List.mem_cons_self
    obtain ⟨others, hothers⟩ := ih fun other hother ↦ h other (List.mem_cons_of_mem _ hother)
    refine ⟨(key, a) :: others, ?_⟩
    rw [List.mapM_cons, ha, hothers]
    rfl

theorem lookup_map_write (s : Serde α) (l : List (String × α)) (key : String) :
    (l.map (Prod.map id s.write)).lookup key = (l.lookup key).map s.write := by
  induction l with
  | nil => rfl
  | cons entry rest ih =>
    rw [List.map_cons, List.lookup_cons, List.lookup_cons, ih, Prod.map_fst, id_eq]
    cases key == entry.1 <;> rfl

/-- The map that is read has what the table has. -/
theorem lookup_readMap (s : Serde α) {entries : List (String × Toml)} {m : SortedMap String α}
    (h : s.readMap entries = some m) (key : String) :
    m.entries.lookup key = (entries.lookup key).bind s.read := by
  obtain ⟨pairs, hpairs, rfl⟩ := Option.map_eq_some_iff.mp h
  obtain ⟨hkeys, hvalues⟩ := mapM_lookup hpairs
  rw [SortedMap.lookup_extend (fun key ↦ (entries.lookup key).bind s.read) hvalues, hkeys]
  by_cases hkey : key ∈ entries.map Prod.fst
  · rw [if_pos hkey]
  · have habsent : entries.lookup key = none := by
      rw [List.lookup_eq_none_iff]
      intro entry hentry
      rw [bne_iff_ne]
      rintro rfl
      exact hkey (List.mem_map_of_mem hentry)
    rw [if_neg hkey, habsent]
    rfl

/-- `BTreeMap` with texts as keys. -/
def map (s : Serde α) : Serde (SortedMap String α) where
  write m := .table (m.entries.map (Prod.map id s.write))
  read
    | .table entries => s.readMap entries
    | _ => none
  fits m := ∀ entry ∈ m.entries, s.fits entry.2
  read_write m v h := by
    cases h with
    | @table _ entries hrel =>
      have hfound (key : String) :
          m.entries.lookup key = none ∧ entries.lookup key = none ∨
            ∃ a v, m.entries.lookup key = some a ∧ entries.lookup key = some v ∧
              s.read v = some a := by
        have hkey := hrel key
        rw [s.lookup_map_write] at hkey
        generalize entries.lookup key = found at hkey
        cases hvalue : m.entries.lookup key with
        | none =>
          rw [hvalue] at hkey
          cases hkey
          exact .inl ⟨rfl, rfl⟩
        | some a =>
          rw [hvalue] at hkey
          cases hkey with
          | some hsame => exact .inr ⟨a, _, rfl, rfl, s.read_write a _ hsame⟩
      have hget (key : String) : (entries.lookup key).bind s.read = m.entries.lookup key := by
        rcases hfound key with ⟨hm, hentries⟩ | ⟨a, v, hm, hentries, hread⟩
        · rw [hm, hentries, Option.bind_none]
        · rw [hm, hentries, Option.bind_some, hread]
      have hall (key : String) (hkey : key ∈ entries.map Prod.fst) :
          ∃ a, (entries.lookup key).bind s.read = some a := by
        rw [hget]
        rcases hfound key with ⟨-, hentries⟩ | ⟨a, v, hm, -⟩
        · obtain ⟨entry, hentry, rfl⟩ := List.mem_map.mp hkey
          exact absurd rfl (bne_iff_ne.mp (List.lookup_eq_none_iff.mp hentries entry hentry))
        · exact ⟨a, hm⟩
      obtain ⟨pairs, hpairs⟩ := exists_mapM_lookup hall
      have hread : s.readMap entries = some (SortedMap.empty.extend pairs) :=
        congrArg (Option.map SortedMap.empty.extend) hpairs
      refine hread.trans (congrArg some ?_)
      apply SortedMap.ext_lookup
      intro key
      rw [s.lookup_readMap hread, hget]
  valid m h := by
    constructor
    · rw [List.map_map]
      exact m.nodup_keys
    · intro entry hentry
      obtain ⟨other, hother, rfl⟩ := List.mem_map.mp hentry
      exact s.valid other.2 (h other hother)
  fits_of_read m v hv h := by
    cases hv with
    | table hkeys hvalid =>
      intro entry hentry
      have hfound := (lookup_eq_some_iff_mem m.nodup_keys).mpr hentry
      rw [s.lookup_readMap h] at hfound
      obtain ⟨value, hvalue, hread⟩ := Option.bind_eq_some_iff.mp hfound
      have hmem := (lookup_eq_some_iff_mem hkeys).mp hvalue
      exact s.fits_of_read entry.2 value (hvalid _ hmem) hread
    | _ => cases h

end Serde

/-! ## Structs -/

/-- A field of a struct: what is written of it, if anything, and how it is read again. -/
structure FieldSerde (α : Type u) where
  write : α → Option Toml
  read : Option Toml → Option α
  fits : α → Prop
  read_write : ∀ a v, Option.Rel Toml.Same (write a) v → read v = some a
  valid : ∀ a, fits a → ∀ v ∈ write a, v.Valid
  fits_of_read : ∀ a v, (∀ value ∈ v, value.Valid) → read v = some a → fits a

namespace Serde

variable {α : Type u}

/-- A field that has to be there. -/
def required (s : Serde α) : FieldSerde α where
  write a := some (s.write a)
  read v := v.bind s.read
  fits := s.fits
  read_write a v h := by
    cases h with
    | some hsame => exact s.read_write a _ hsame
  valid a h v hv := Option.some.inj hv ▸ s.valid a h
  fits_of_read a v hv h := by
    obtain ⟨value, rfl, hread⟩ := Option.bind_eq_some_iff.mp h
    exact s.fits_of_read a value (hv value rfl) hread

/-- A field with a default. -/
def defaulted (s : Serde α) (default : α) (hdefault : s.fits default := by simp) :
    FieldSerde α where
  write a := some (s.write a)
  read v := v.elim (some default) s.read
  fits := s.fits
  read_write a v h := by
    cases h with
    | some hsame => exact s.read_write a _ hsame
  valid a h v hv := Option.some.inj hv ▸ s.valid a h
  fits_of_read a v hv h := by
    cases v with
    | none => exact Option.some.inj h ▸ hdefault
    | some value => exact s.fits_of_read a value (hv value rfl) h

/-- An optional field. -/
def optional (s : Serde α) : FieldSerde (Option α) where
  write o := o.map s.write
  read v := v.elim (some none) fun v ↦ (s.read v).map some
  fits o := ∀ a ∈ o, s.fits a
  read_write o v h := by
    cases o with
    | none =>
      cases h
      rfl
    | some a =>
      cases h with
      | some hsame => exact congrArg (Option.map some) (s.read_write a _ hsame)
  valid o h v hv := by
    obtain ⟨a, rfl, rfl⟩ := Option.map_eq_some_iff.mp hv
    exact s.valid a (h a rfl)
  fits_of_read o v hv h := by
    cases v with
    | none =>
      rw [← Option.some.inj h]
      intro a ha
      cases ha
    | some value =>
      obtain ⟨a, hread, rfl⟩ := Option.map_eq_some_iff.mp h
      intro b hb
      rw [← Option.some.inj hb]
      exact s.fits_of_read a value (hv value rfl) hread

end Serde

/-- The fields of a struct, under different keys. -/
structure Record (α : Type u) where
  keys : List String
  write : α → List (String × Option Toml)
  read : (String → Option Toml) → Option α
  fits : α → Prop
  nodup : keys.Nodup
  map_write : ∀ a, (write a).map Prod.fst = keys
  read_write : ∀ a get,
    (∀ key ∈ keys, Option.Rel Toml.Same ((write a).lookup key).join (get key)) → read get = some a
  valid : ∀ a, fits a → ∀ field ∈ write a, ∀ v ∈ field.2, v.Valid
  fits_of_read : ∀ a get, (∀ key, ∀ v ∈ get key, v.Valid) → read get = some a → fits a

namespace Record

variable {α β : Type u}

/-- No fields. -/
def nil : Record PUnit.{u + 1} where
  keys := []
  write _ := []
  read _ := some ⟨⟩
  fits _ := True
  nodup := .nil
  map_write _ := rfl
  read_write _ _ _ := rfl
  valid _ _ field hfield := by cases hfield
  fits_of_read _ _ _ _ := trivial

/-- One more field in front. -/
def field (key : String) (s : FieldSerde α) (r : Record β) (hkey : key ∉ r.keys := by decide) :
    Record (α × β) where
  keys := key :: r.keys
  write a := (key, s.write a.1) :: r.write a.2
  read get := (s.read (get key)).bind fun a ↦ (r.read get).map (a, ·)
  fits a := s.fits a.1 ∧ r.fits a.2
  nodup := List.nodup_cons.mpr ⟨hkey, r.nodup⟩
  map_write a := by rw [List.map_cons, r.map_write]
  read_write a get hget := by
    have hfirst : s.read (get key) = some a.1 := by
      have hrel := hget key List.mem_cons_self
      rw [List.lookup_cons_self, Option.join_some] at hrel
      exact s.read_write a.1 _ hrel
    have hrest : r.read get = some a.2 := by
      apply r.read_write
      intro other hother
      have hne : (other == key) = false := by
        rw [beq_eq_false_iff_ne]
        rintro rfl
        exact hkey hother
      have hrel := hget other (List.mem_cons_of_mem _ hother)
      rw [List.lookup_cons, hne] at hrel
      exact hrel
    rw [hfirst, hrest]
    rfl
  valid a h field hfield := by
    rcases List.mem_cons.mp hfield with rfl | hfield
    · exact s.valid a.1 h.1
    · exact r.valid a.2 h.2 field hfield
  fits_of_read a get hget h := by
    obtain ⟨first, hfirst, h⟩ := Option.bind_eq_some_iff.mp h
    obtain ⟨rest, hrest, rfl⟩ := Option.map_eq_some_iff.mp h
    exact ⟨s.fits_of_read first _ (hget key) hfirst, r.fits_of_read rest get hget hrest⟩

/-- The serialization of a struct with these fields. -/
def serde (r : Record β) (fields : α → β) (make : β → α) (h : ∀ a, make (fields a) = a)
    (h' : ∀ b, fields (make b) = b) : Serde α where
  write a := Toml.record (r.write (fields a))
  read v := (v.entries?.bind r.read).map make
  fits a := r.fits (fields a)
  read_write a v hsame := by
    have hkeys : ((r.write (fields a)).map Prod.fst).Nodup := by
      rw [r.map_write]
      exact r.nodup
    obtain ⟨get, hget, hrel⟩ := Toml.entries?_same hkeys hsame
    rw [hget, Option.bind_some, r.read_write (fields a) get fun key _ ↦ hrel key,
      Option.map_some, h]
  valid a hfits := by
    apply Toml.valid_record
    · rw [r.map_write]
      exact r.nodup
    · exact r.valid (fields a) hfits
  fits_of_read a v hv hread := by
    obtain ⟨b, hb, rfl⟩ := Option.map_eq_some_iff.mp hread
    obtain ⟨get, hget, hb⟩ := Option.bind_eq_some_iff.mp hb
    rw [h']
    exact r.fits_of_read b get (Toml.valid_of_entries? hv hget) hb

end Record

/-! ## What fits -/

section Fits

variable {α β : Type u}

@[simp] theorem Serde.fits_string (a : String) : Serde.string.fits a = True := rfl

@[simp] theorem Serde.fits_boolean (a : Bool) : Serde.boolean.fits a = True := rfl

@[simp] theorem Serde.fits_int32 (n : Int32) : Serde.int32.fits n = True := rfl

@[simp] theorem Serde.fits_uint32 (n : UInt32) : Serde.uint32.fits n = True := rfl

@[simp] theorem Serde.fits_uint64 (n : UInt64) : Serde.uint64.fits n = (n.toNat < 2 ^ 63) := rfl

@[simp] theorem Serde.fits_list (s : Serde α) (l : List α) :
    s.list.fits l = ∀ a ∈ l, s.fits a := rfl

@[simp] theorem Serde.fits_map (s : Serde α) (m : SortedMap String α) :
    s.map.fits m = ∀ entry ∈ m.entries, s.fits entry.2 := rfl

@[simp] theorem Serde.fits_required (s : Serde α) (a : α) : s.required.fits a = s.fits a := rfl

@[simp] theorem Serde.fits_optional (s : Serde α) (o : Option α) :
    s.optional.fits o = ∀ a ∈ o, s.fits a := rfl

@[simp] theorem Record.fits_nil (a : PUnit) : Record.nil.fits a = True := rfl

@[simp] theorem Record.fits_field (key : String) (s : FieldSerde α) (r : Record β)
    (hkey : key ∉ r.keys) (a : α × β) :
    (Record.field key s r hkey).fits a = (s.fits a.1 ∧ r.fits a.2) := rfl

@[simp] theorem Record.fits_serde (r : Record β) (fields : α → β) (make : β → α)
    (h : ∀ a, make (fields a) = a) (h' : ∀ b, fields (make b) = b) (a : α) :
    (r.serde fields make h h').fits a = r.fits (fields a) := rfl

end Fits

/-! ## Documents -/

/-- A printer of TOML documents and a reader: what is printed is read as the same value, and only
valid values are read. -/
structure TomlCodec where
  toString : Toml → Except String String
  parse : String → Option Toml
  parse_toString : ∀ entries, (Toml.table entries).Valid →
    ∃ text, toString (.table entries) = .ok text ∧
      ∃ v, parse text = some v ∧ (Toml.table entries).Same v
  parse_valid : ∀ text v, parse text = some v → v.Valid

/-- A struct is printed and read back exactly when it fits into a document. -/
theorem TomlCodec.reads_back_iff (toml : TomlCodec) {α : Type u} (s : Serde α) {a : α}
    {entries : List (String × Toml)} (htable : s.write a = .table entries) :
    (∃ text, toml.toString (s.write a) = .ok text ∧
      (toml.parse text).bind s.read = some a) ↔ s.fits a := by
  constructor
  · rintro ⟨text, -, hread⟩
    obtain ⟨v, hparse, hread⟩ := Option.bind_eq_some_iff.mp hread
    exact s.fits_of_read a v (toml.parse_valid text v hparse) hread
  · intro hfits
    have hvalid := s.valid a hfits
    rw [htable] at hvalid
    obtain ⟨text, htext, v, hparse, hsame⟩ := toml.parse_toString entries hvalid
    rw [← htable] at htext hsame
    refine ⟨text, htext, ?_⟩
    rw [hparse, Option.bind_some]
    exact s.read_write a v hsame

end ReinhardtCloud.Base
