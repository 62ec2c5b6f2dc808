import Mathlib.Data.List.Basic

/-!
# JSON strings

Library `Base`. How strings and absent values are written in compact JSON, and that the text of a
pair determines both: a string ends at the first quotation mark that is not escaped. Nothing here
names a component.
-/

namespace ReinhardtCloud.Base

universe u v

/-! ## Codes that end -/

section Codes

variable {α : Type u} {β : Type v}

/-- The code of each element can be split off the front of any text. -/
def PrefixFree (code : α → List β) : Prop :=
  ∀ a b s t, code a ++ s = code b ++ t → a = b ∧ s = t

/-- A prefix-free code whose elements never start with the terminator ends at the first one. -/
theorem PrefixFree.terminated {code : α → List β} {stop : β} (h : PrefixFree code)
    (hstop : ∀ a s t, code a ++ s ≠ stop :: t) :
    PrefixFree fun l : List α ↦ l.flatMap code ++ [stop] := by
  intro l m s t hlm
  simp only [List.append_assoc, List.singleton_append] at hlm
  induction l generalizing m with
  | nil =>
    cases m with
    | nil => exact ⟨rfl, by simpa using hlm⟩
    | cons b m =>
      rw [List.flatMap_nil, List.nil_append, List.flatMap_cons, List.append_assoc] at hlm
      exact absurd hlm.symm (hstop b _ _)
  | cons a l ih =>
    cases m with
    | nil =>
      rw [List.flatMap_nil, List.nil_append, List.flatMap_cons, List.append_assoc] at hlm
      exact absurd hlm (hstop a _ _)
    | cons b m =>
      simp only [List.flatMap_cons, List.append_assoc] at hlm
      obtain ⟨rfl, hrest⟩ := h a b _ _ hlm
      obtain ⟨rfl, rfl⟩ := ih m hrest
      exact ⟨rfl, rfl⟩

end Codes

/-! ## Strings -/

/-- `"`. -/
def jsonQuote : Char := Char.ofNat 34

/-- The character before an escaped one. -/
def jsonBackslash : Char := Char.ofNat 92

/-- A digit of a lower-case hexadecimal number. -/
def jsonHexDigit (n : Nat) : Char := Char.ofNat (if n < 10 then 48 + n else 87 + n)

/-- How a character is written inside a string. -/
def jsonEscape (c : Char) : List Char :=
  if c = jsonQuote then [jsonBackslash, jsonQuote]
  else if c = jsonBackslash then [jsonBackslash, jsonBackslash]
  else if c.toNat = 8 then [jsonBackslash, 'b']
  else if c.toNat = 9 then [jsonBackslash, 't']
  else if c.toNat = 10 then [jsonBackslash, 'n']
  else if c.toNat = 12 then [jsonBackslash, 'f']
  else if c.toNat = 13 then [jsonBackslash, 'r']
  else if c.toNat < 32 then
    [jsonBackslash, 'u', '0', '0', jsonHexDigit (c.toNat / 16), jsonHexDigit (c.toNat % 16)]
  else [c]

/-- The text of a string, from its first to its last quotation mark. -/
def jsonString (text : String) : List Char :=
  jsonQuote :: (text.toList.flatMap jsonEscape ++ [jsonQuote])

/-- The text of an optional string. -/
def jsonOption : Option String → List Char
  | none => ['n', 'u', 'l', 'l']
  | some text => jsonString text

/-- The text of an array of a string and an optional one. -/
def jsonPair (p : String × Option String) : String :=
  String.ofList ('[' :: (jsonString p.1 ++ ',' :: (jsonOption p.2 ++ [']'])))

/-- The value of a hexadecimal digit. -/
private def hexValue (c : Char) : Nat := if c.toNat < 58 then c.toNat - 48 else c.toNat - 87

/-- Read one character back. -/
private def unescape : List Char → Option (Char × List Char)
  | [] => none
  | c :: rest =>
    if c ≠ jsonBackslash then some (c, rest)
    else
      match rest with
      | [] => none
      | e :: rest =>
        if e = 'b' then some (Char.ofNat 8, rest)
        else if e = 't' then some (Char.ofNat 9, rest)
        else if e = 'n' then some (Char.ofNat 10, rest)
        else if e = 'f' then some (Char.ofNat 12, rest)
        else if e = 'r' then some (Char.ofNat 13, rest)
        else if e = 'u' then
          match rest with
          | _ :: _ :: high :: low :: rest =>
            some (Char.ofNat (16 * hexValue high + hexValue low), rest)
          | _ => none
        else some (e, rest)

private theorem hexValue_digits : ∀ n < 32,
    16 * hexValue (jsonHexDigit (n / 16)) + hexValue (jsonHexDigit (n % 16)) = n := by decide

private theorem unescape_escape (c : Char) (rest : List Char) :
    unescape (jsonEscape c ++ rest) = some (c, rest) := by
  have hofNat (n : Nat) (h : c.toNat = n) : Char.ofNat n = c := by
    rw [← h, Char.ofNat_toNat]
  unfold jsonEscape
  split
  · next h => subst h; rfl
  · split
    · next h => subst h; rfl
    · next hbackslash =>
      split
      · next h => exact congrArg (fun d ↦ some (d, rest)) (hofNat 8 h)
      · split
        · next h => exact congrArg (fun d ↦ some (d, rest)) (hofNat 9 h)
        · split
          · next h => exact congrArg (fun d ↦ some (d, rest)) (hofNat 10 h)
          · split
            · next h => exact congrArg (fun d ↦ some (d, rest)) (hofNat 12 h)
            · split
              · next h => exact congrArg (fun d ↦ some (d, rest)) (hofNat 13 h)
              · split
                · next h =>
                  have hvalue := hexValue_digits c.toNat h
                  exact congrArg (fun d ↦ some (d, rest)) (hofNat _ hvalue.symm)
                · exact if_pos hbackslash

/-- Characters are written so that they can be read back one by one. -/
theorem prefixFree_jsonEscape : PrefixFree jsonEscape := by
  intro a b s t h
  have hread := congrArg unescape h
  rw [unescape_escape, unescape_escape] at hread
  exact ⟨(Prod.mk.inj (Option.some.inj hread)).1, (Prod.mk.inj (Option.some.inj hread)).2⟩

private theorem jsonEscape_ne_quote (a : Char) (s t : List Char) :
    jsonEscape a ++ s ≠ jsonQuote :: t := by
  intro h
  unfold jsonEscape at h
  split at h
  · cases h
  · next hquote =>
    split at h
    · cases h
    · split at h
      · cases h
      · split at h
        · cases h
        · split at h
          · cases h
          · split at h
            · cases h
            · split at h
              · cases h
              · split at h
                · cases h
                · exact hquote (List.cons.inj h).1

/-- A string ends where its text says. -/
theorem prefixFree_jsonString : PrefixFree jsonString := by
  intro a b s t h
  have hrest := (List.cons.inj h).2
  obtain ⟨htext, rfl⟩ := prefixFree_jsonEscape.terminated jsonEscape_ne_quote _ _ _ _ hrest
  exact ⟨String.toList_inj.mp htext, rfl⟩

/-- An absent string is not a string. -/
theorem prefixFree_jsonOption : PrefixFree jsonOption := by
  intro a b s t h
  cases a with
  | none =>
    cases b with
    | none => exact ⟨rfl, by simpa [jsonOption] using h⟩
    | some b => exact absurd (List.cons.inj h).1 (by decide)
  | some a =>
    cases b with
    | none => exact absurd (List.cons.inj h).1 (by decide)
    | some b =>
      obtain ⟨rfl, rfl⟩ := prefixFree_jsonString a b s t h
      exact ⟨rfl, rfl⟩

/-- The text of a pair determines it. -/
theorem jsonPair_injective : Function.Injective jsonPair := by
  rintro ⟨a, b⟩ ⟨c, d⟩ h
  have htext := (List.cons.inj (String.ofList_injective h)).2
  obtain ⟨rfl, hrest⟩ := prefixFree_jsonString a c _ _ htext
  obtain ⟨rfl, -⟩ := prefixFree_jsonOption b d _ _ (List.cons.inj hrest).2
  rfl

end ReinhardtCloud.Base
