import Mathlib.Logic.Function.Basic

/-!
# File systems

Library `Base`. A file system is a map from paths to entries. A call on it takes effect or fails
without effect, and a pattern of failures says which calls fail although they could take effect.
-/

namespace ReinhardtCloud.Base

/-- What a path leads to: a file's text, a directory or a symbolic link. -/
inductive FileContents (P : Type) where
  | text (text : String)
  | directory
  | link (target : P)
  deriving DecidableEq

/-- Where a symbolic link leads. -/
def FileContents.link? {P : Type} : FileContents P → Option P
  | .link target => some target
  | _ => none

/-- An entry: its contents and its permissions. -/
structure FileEntry (P : Type) where
  contents : FileContents P
  mode : Nat
  deriving DecidableEq

/-- The entries of all paths. -/
abbrev FileSystem (P : Type) := P → Option (FileEntry P)

/-- Why a call failed. -/
inductive FileError where
  | notFound
  | alreadyExists
  | isADirectory
  | filesystemLoop
  | invalidInput (message : String)
  | other
  deriving DecidableEq

namespace FileSystem

variable {P : Type} [DecidableEq P]

/-! ## Calls -/

/-- A call that may fail. -/
def attempt (fails : Bool) (call : FileSystem P → Except FileError (FileSystem P))
    (files : FileSystem P) : Except FileError (FileSystem P) :=
  if fails then .error .other else call files

/-- Creates an empty file where nothing is. -/
def createNew (path : P) (mode : Nat) (files : FileSystem P) :
    Except FileError (FileSystem P) :=
  match files path with
  | some _ => .error .alreadyExists
  | none => .ok (Function.update files path (some ⟨.text "", mode⟩))

/-- Changes an entry. -/
def alter (path : P) (change : FileEntry P → FileEntry P) (files : FileSystem P) :
    Except FileError (FileSystem P) :=
  match files path with
  | none => .error .notFound
  | some entry => .ok (Function.update files path (some (change entry)))

/-- Moves an entry that is no directory; it replaces another one. -/
def rename (source target : P) (files : FileSystem P) : Except FileError (FileSystem P) :=
  match files source with
  | none => .error .notFound
  | some entry =>
    if (files target).any (·.contents = .directory) then .error .isADirectory
    else .ok (Function.update (Function.update files source none) target (some entry))

/-- Removes an entry that is no directory. -/
def remove (path : P) (files : FileSystem P) : Except FileError (FileSystem P) :=
  match files path with
  | none => .error .notFound
  | some entry =>
    if entry.contents = .directory then .error .isADirectory
    else .ok (Function.update files path none)

/-- Removes a temporary file whose path goes out of scope; a failure stays unnoticed. -/
def drop (fails : Bool) (path : P) (files : FileSystem P) : FileSystem P :=
  match attempt fails (remove path) files with
  | .ok after => after
  | .error _ => files

/-- The entry behind at most so many links. -/
def follow (links : Nat) (path : P) (files : FileSystem P) : Except FileError (FileEntry P) :=
  match files path with
  | none => .error .notFound
  | some entry =>
    match entry.contents.link?, links with
    | none, _ => .ok entry
    | some _, 0 => .error .filesystemLoop
    | some target, links + 1 => follow links target files

/-- The first path of some for which a call does not find an entry there already. -/
def firstUnused (call : P → FileSystem P → Except FileError (FileSystem P))
    (files : FileSystem P) : List P → Except FileError (P × FileSystem P)
  | [] => .error .alreadyExists
  | path :: rest =>
    match call path files with
    | .ok after => .ok (path, after)
    | .error .alreadyExists => firstUnused call files rest
    | .error error => .error error

/-! ## Their effects -/

variable {files : FileSystem P} {fails : Bool} {path source target : P} {entry : FileEntry P}

omit [DecidableEq P] in
@[simp]
theorem attempt_false (call : FileSystem P → Except FileError (FileSystem P)) :
    attempt false call files = call files := rfl

omit [DecidableEq P] in
@[simp]
theorem attempt_true (call : FileSystem P → Except FileError (FileSystem P)) :
    attempt true call files = .error .other := rfl

theorem rename_eq_ok (hsource : files source = some entry)
    (htarget : ∀ e, files target = some e → e.contents ≠ .directory) :
    rename source target files =
      .ok (Function.update (Function.update files source none) target (some entry)) := by
  have hany : (files target).any (·.contents = .directory) = false := by
    cases h : files target with
    | none => rfl
    | some e =>
      rw [Option.any_some, decide_eq_false_iff_not]
      exact htarget e h
  rw [rename, hsource]
  dsimp only
  rw [hany, if_neg Bool.false_ne_true]

theorem rename_onto_directory (hsource : files source = some entry)
    (htarget : (files target).any (·.contents = .directory) = true) :
    rename source target files = .error .isADirectory := by
  rw [rename, hsource]
  dsimp only
  rw [htarget, if_pos rfl]

theorem remove_eq_ok (hentry : files path = some entry) (hfile : entry.contents ≠ .directory) :
    remove path files = .ok (Function.update files path none) := by
  rw [remove, hentry]
  exact if_neg hfile

theorem drop_true (files : FileSystem P) (path : P) : drop true path files = files := rfl

theorem drop_false (hentry : files path = some entry) (hfile : entry.contents ≠ .directory) :
    drop false path files = Function.update files path none := by
  rw [drop, attempt_false, remove_eq_ok hentry hfile]

/-- A path that has been moved away is dropped without effect. -/
theorem drop_absent (fails : Bool) (habsent : files path = none) :
    drop fails path files = files := by
  cases fails with
  | true => rfl
  | false => rw [drop, attempt_false, remove, habsent]

/-- Dropping a path leaves the others. -/
theorem drop_apply_of_ne (fails : Bool) {other : P} (h : other ≠ path) :
    drop fails path files other = files other := by
  cases fails with
  | true => rfl
  | false =>
    rw [drop, attempt_false]
    cases hentry : files path with
    | none => rw [remove, hentry]
    | some entry =>
      by_cases hfile : entry.contents = .directory
      · rw [remove, hentry]
        dsimp only
        rw [if_pos hfile]
      · rw [remove_eq_ok hentry hfile]
        exact Function.update_of_ne h _ _

/-- A dropped file is gone unless its removal fails. -/
theorem drop_apply_self (fails : Bool) (hentry : files path = some entry)
    (hfile : entry.contents ≠ .directory) :
    drop fails path files path = if fails then some entry else none := by
  cases fails with
  | true => exact hentry
  | false =>
    rw [drop_false hentry hfile, Function.update_self]
    rfl

omit [DecidableEq P] in
theorem follow_absent (links : Nat) (h : files path = none) :
    follow links path files = .error .notFound := by
  cases links <;> rw [follow, h]

omit [DecidableEq P] in
theorem follow_entry (links : Nat) (hentry : files path = some entry)
    (hlink : entry.contents.link? = none) : follow links path files = .ok entry := by
  cases links <;> rw [follow, hentry] <;> dsimp only <;> rw [hlink]

omit [DecidableEq P] in
theorem follow_cases (links : Nat) (path : P) (files : FileSystem P) :
    (∃ entry, follow links path files = .ok entry) ∨
      follow links path files = .error .notFound ∨
      follow links path files = .error .filesystemLoop := by
  induction links generalizing path with
  | zero =>
    cases h : files path with
    | none => exact .inr (.inl (follow_absent 0 h))
    | some entry =>
      rw [follow, h]
      dsimp only
      cases entry.contents.link? with
      | none => exact .inl ⟨entry, rfl⟩
      | some target => exact .inr (.inr rfl)
  | succ links ih =>
    cases h : files path with
    | none => exact .inr (.inl (follow_absent _ h))
    | some entry =>
      rw [follow, h]
      dsimp only
      cases entry.contents.link? with
      | none => exact .inl ⟨entry, rfl⟩
      | some target => exact ih target

/-- A new file cannot stand behind a chain of links that is too long. -/
theorem follow_update_eq_loop_iff (habsent : files path = none)
    (hlink : entry.contents.link? = none) (links : Nat) (start : P) :
    follow links start (Function.update files path (some entry)) = .error .filesystemLoop ↔
      follow links start files = .error .filesystemLoop := by
  induction links generalizing start with
  | zero =>
    by_cases hstart : start = path
    · rw [hstart, follow_absent 0 habsent, follow_entry 0 (Function.update_self ..) hlink]
      exact iff_of_false (fun h ↦ by cases h) fun h ↦ by cases h
    · rw [follow, follow, Function.update_of_ne hstart]
      cases files start with
      | none => exact Iff.rfl
      | some e =>
        dsimp only
        cases e.contents.link? <;> exact Iff.rfl
  | succ links ih =>
    by_cases hstart : start = path
    · rw [hstart, follow_absent _ habsent, follow_entry _ (Function.update_self ..) hlink]
      exact iff_of_false (fun h ↦ by cases h) fun h ↦ by cases h
    · rw [follow, follow, Function.update_of_ne hstart]
      cases files start with
      | none => exact Iff.rfl
      | some e =>
        dsimp only
        cases e.contents.link? with
        | none => exact Iff.rfl
        | some target => exact ih target

/-! ## Unused paths -/

variable {call : P → FileSystem P → Except FileError (FileSystem P)} {paths : List P}

omit [DecidableEq P] in
/-- A call that is stopped by existing entries only takes the first path without one. -/
theorem firstUnused_eq_find? {after : P → FileSystem P}
    (hused : ∀ path, files path ≠ none → call path files = .error .alreadyExists)
    (hfree : ∀ path, files path = none → call path files = .ok (after path)) :
    firstUnused call files paths =
      match paths.find? fun path ↦ (files path).isNone with
      | some path => .ok (path, after path)
      | none => .error .alreadyExists := by
  induction paths with
  | nil => rfl
  | cons path rest ih =>
    by_cases hpath : files path = none
    · rw [firstUnused, hfree path hpath, List.find?_cons_of_pos]
      exact Option.isNone_iff_eq_none.mpr hpath
    · rw [firstUnused, hused path hpath, List.find?_cons_of_neg]
      · exact ih
      · rwa [Option.isNone_iff_eq_none]

omit [DecidableEq P] in
theorem firstUnused_of_fails (hfails : ∀ path after, call path files ≠ .ok after) :
    ∃ error, firstUnused call files paths = .error error := by
  induction paths with
  | nil => exact ⟨_, rfl⟩
  | cons path rest ih =>
    rw [firstUnused]
    cases hcall : call path files with
    | ok after => exact absurd hcall (hfails path after)
    | error error =>
      cases error with
      | alreadyExists => exact ih
      | _ => exact ⟨_, rfl⟩

end FileSystem

end ReinhardtCloud.Base
