import Mathlib.Logic.Function.Basic
import ReinhardtCloud.Base.Json
import ReinhardtCloud.Base.Numerals
import ReinhardtCloud.Base.TomlValues

/-!
# Printers of TOML

Library `Base`. Any text that determines the value it stands for makes a printer and a reader of
documents. One is a prefix-free code of the values, in which one document may have a text of its
own. Nothing here names a component.
-/

namespace ReinhardtCloud.Base

universe u v

/-! ## Codes -/

/-- What comes before the first terminator. -/
theorem append_cons_inj {β : Type v} {stop : β} {l m s t : List β} (hl : stop ∉ l) (hm : stop ∉ m)
    (h : l ++ stop :: s = m ++ stop :: t) : l = m ∧ s = t := by
  induction l generalizing m with
  | nil =>
    cases m with
    | nil => exact ⟨rfl, (List.cons.inj h).2⟩
    | cons c m => exact absurd ((List.cons.inj h).1 ▸ List.mem_cons_self) hm
  | cons c l ih =>
    cases m with
    | nil => exact absurd ((List.cons.inj h).1 ▸ List.mem_cons_self) hl
    | cons d m =>
      obtain ⟨rfl, hrest⟩ := List.cons.inj h
      obtain ⟨rfl, rfl⟩ := ih (fun hmem ↦ hl (List.mem_cons_of_mem c hmem))
        (fun hmem ↦ hm (List.mem_cons_of_mem c hmem)) hrest
      exact ⟨rfl, rfl⟩

/-- The text of an integer, ended by a blank. -/
def integerText (n : Int) : List Char := (toString n).toList ++ [' ']

theorem prefixFree_integerText : PrefixFree integerText := by
  have hblank (n : Int) : ' ' ∉ (toString n).toList := by
    intro hmem
    rcases isDigit_or_sign_of_isNumeral (isNumeral_toString n) hmem with h | h | h
    · cases h
    · exact absurd h (by decide)
    · exact absurd h (by decide)
  intro a b s t h
  rw [integerText, integerText, List.append_assoc, List.append_assoc, List.singleton_append,
    List.singleton_append] at h
  obtain ⟨htext, rfl⟩ := append_cons_inj (hblank a) (hblank b) h
  have ha := readSigned_eq_some_iff.mpr (isNumeral_toString a)
  rw [htext, readSigned_eq_some_iff.mpr (isNumeral_toString b)] at ha
  exact ⟨(Option.some.inj ha).symm, rfl⟩

namespace Toml

mutual

/-- The code of a value: its kind, and what it holds. -/
def code : Toml → List Char
  | .string s => 's' :: jsonString s
  | .integer n => 'i' :: integerText n
  | .boolean b => ['b', if b then '1' else '0']
  | .array items => 'a' :: itemsCode items
  | .table entries => 't' :: entriesCode entries

/-- The codes of the elements of an array. -/
def itemsCode : List Toml → List Char
  | [] => ['.']
  | v :: rest => ',' :: (code v ++ itemsCode rest)

/-- The keys of a table with the codes of their values. -/
def entriesCode : List (String × Toml) → List Char
  | [] => ['.']
  | (key, v) :: rest => ',' :: (jsonString key ++ (code v ++ entriesCode rest))

end

mutual

theorem code_inj : (a b : Toml) → ∀ s t, code a ++ s = code b ++ t → a = b ∧ s = t
  | .string x, b, s, t, h => by
    cases b with
    | string y =>
      obtain ⟨rfl, rfl⟩ := prefixFree_jsonString x y s t (List.cons.inj h).2
      exact ⟨rfl, rfl⟩
    | _ => simp [code] at h
  | .integer m, b, s, t, h => by
    cases b with
    | integer n =>
      obtain ⟨rfl, rfl⟩ := prefixFree_integerText m n s t (List.cons.inj h).2
      exact ⟨rfl, rfl⟩
    | _ => simp [code] at h
  | .boolean x, b, s, t, h => by
    cases b with
    | boolean y =>
      cases x <;> cases y <;> simp [code] at h ⊢
      · exact h
      · exact h
    | _ => simp [code] at h
  | .array items, b, s, t, h => by
    cases b with
    | array items' =>
      obtain ⟨rfl, rfl⟩ := itemsCode_inj items items' s t (List.cons.inj h).2
      exact ⟨rfl, rfl⟩
    | _ => simp [code] at h
  | .table entries, b, s, t, h => by
    cases b with
    | table entries' =>
      obtain ⟨rfl, rfl⟩ := entriesCode_inj entries entries' s t (List.cons.inj h).2
      exact ⟨rfl, rfl⟩
    | _ => simp [code] at h

private theorem itemsCode_inj : (l m : List Toml) → ∀ s t,
    itemsCode l ++ s = itemsCode m ++ t → l = m ∧ s = t
  | [], [], s, t, h => ⟨rfl, (List.cons.inj h).2⟩
  | [], _ :: _, s, t, h => by simp [itemsCode] at h
  | _ :: _, [], s, t, h => by simp [itemsCode] at h
  | v :: l, w :: m, s, t, h => by
    rw [itemsCode, itemsCode, List.cons_append, List.cons_append] at h
    have hrest := (List.cons.inj h).2
    rw [List.append_assoc, List.append_assoc] at hrest
    obtain ⟨rfl, hitems⟩ := code_inj v w _ _ hrest
    obtain ⟨rfl, rfl⟩ := itemsCode_inj l m s t hitems
    exact ⟨rfl, rfl⟩

private theorem entriesCode_inj : (l m : List (String × Toml)) → ∀ s t,
    entriesCode l ++ s = entriesCode m ++ t → l = m ∧ s = t
  | [], [], s, t, h => ⟨rfl, (List.cons.inj h).2⟩
  | [], _ :: _, s, t, h => by simp [entriesCode] at h
  | _ :: _, [], s, t, h => by simp [entriesCode] at h
  | (key, v) :: l, (other, w) :: m, s, t, h => by
    rw [entriesCode, entriesCode, List.cons_append, List.cons_append] at h
    have hrest := (List.cons.inj h).2
    rw [List.append_assoc, List.append_assoc, List.append_assoc, List.append_assoc] at hrest
    obtain ⟨rfl, hvalue⟩ := prefixFree_jsonString key other _ _ hrest
    obtain ⟨rfl, hentries⟩ := code_inj v w _ _ hvalue
    obtain ⟨rfl, rfl⟩ := entriesCode_inj l m s t hentries
    exact ⟨rfl, rfl⟩

end

/-- The code of a value begins with its kind. -/
theorem head?_code (v : Toml) : ∃ kind ∈ ['s', 'i', 'b', 'a', 't'], v.code.head? = some kind := by
  cases v with
  | string s => exact ⟨'s', by decide, rfl⟩
  | integer n => exact ⟨'i', by decide, rfl⟩
  | boolean b => exact ⟨'b', by decide, rfl⟩
  | array items => exact ⟨'a', by decide, rfl⟩
  | table entries => exact ⟨'t', by decide, rfl⟩

open Classical in
/-- The code, except of one value, which has its own text. -/
noncomputable def codeWith (document : Toml) (text : String) (v : Toml) : String :=
  if v = document then text else String.ofList v.code

theorem codeWith_self (document : Toml) (text : String) : codeWith document text document = text :=
  if_pos rfl

/-- A text that begins with a bracket is none of the others. -/
theorem codeWith_injective {document : Toml} {text : String}
    (htext : text.toList.head? = some '[') : Function.Injective (codeWith document text) := by
  have hapart (v : Toml) : text ≠ String.ofList v.code := by
    rintro rfl
    obtain ⟨kind, hkind, hhead⟩ := head?_code v
    rw [String.toList_ofList, hhead] at htext
    rw [Option.some.inj htext] at hkind
    exact absurd hkind (by decide)
  intro v w h
  unfold codeWith at h
  split at h
  · next hv =>
    split at h
    · next hw => rw [hv, hw]
    · exact absurd h (hapart w)
  · split at h
    · exact absurd h.symm (hapart v)
    · have hcode := congrArg (· ++ []) (String.ofList_injective h)
      exact (code_inj v w [] [] hcode).1

end Toml

open Classical in
/-- A printer whose texts differ, with the reader that finds what was printed. -/
noncomputable def TomlCodec.ofInjective (print : Toml → String) (h : Function.Injective print) :
    TomlCodec where
  toString v := .ok (print v)
  parse text :=
    if hprinted : ∃ v : Toml, v.Valid ∧ print v = text then some hprinted.choose else none
  parse_toString entries hvalid := by
    refine ⟨_, rfl, Toml.table entries, ?_, Toml.same_refl _⟩
    have hprinted : ∃ v : Toml, v.Valid ∧ print v = print (.table entries) := ⟨_, hvalid, rfl⟩
    rw [dif_pos hprinted, h hprinted.choose_spec.2]
  parse_valid text v hparse := by
    split at hparse
    · next hprinted =>
      rw [← Option.some.inj hparse]
      exact hprinted.choose_spec.1
    · cases hparse

/-! ## Comments -/

/-- A text without the comment and blank lines in front, from inside a comment or not. -/
def skipComments : Bool → List Char → List Char
  | _, [] => []
  | true, c :: rest => skipComments (c ≠ '\n') rest
  | false, c :: rest =>
    if c = '#' || c = '\n' then skipComments (c = '#') rest else c :: rest

/-- Where a text of comment and blank lines ends, inside a comment or not, if it is one. -/
def afterComments : Bool → List Char → Option Bool
  | inside, [] => some inside
  | true, c :: rest => afterComments (c ≠ '\n') rest
  | false, c :: rest => if c = '#' || c = '\n' then afterComments (c = '#') rest else none

theorem skipComments_append {inside after : Bool} {l : List Char}
    (h : afterComments inside l = some after) (text : List Char) :
    skipComments inside (l ++ text) = skipComments after text := by
  induction l generalizing inside with
  | nil =>
    cases inside <;> cases h <;> rfl
  | cons c rest ih =>
    cases inside with
    | true => exact ih h
    | false =>
      rw [afterComments] at h
      rw [List.cons_append, skipComments]
      split at h
      · next hskip =>
        rw [if_pos hskip]
        exact ih h
      · cases h

/-- A codec whose reader skips the comments in front of a document. -/
def TomlCodec.skippingComments (toml : TomlCodec)
    (h : ∀ v text, toml.toString v = .ok text →
      skipComments false text.toList = text.toList) : TomlCodec where
  toString := toml.toString
  parse text := toml.parse (String.ofList (skipComments false text.toList))
  parse_toString entries hvalid := by
    obtain ⟨text, htext, v, hparse, hsame⟩ := toml.parse_toString entries hvalid
    refine ⟨text, htext, v, ?_, hsame⟩
    rw [h _ text htext, String.ofList_toList, hparse]
  parse_valid text v hparse := toml.parse_valid _ v hparse

theorem TomlCodec.parse_skippingComments (toml : TomlCodec)
    (h : ∀ v text, toml.toString v = .ok text →
      skipComments false text.toList = text.toList) {comments : String}
    (hcomments : afterComments false comments.toList = some false) (text : String) :
    (toml.skippingComments h).parse (comments ++ text) = (toml.skippingComments h).parse text := by
  show toml.parse (String.ofList (skipComments false (comments ++ text).toList)) =
    toml.parse (String.ofList (skipComments false text.toList))
  rw [String.toList_append, skipComments_append hcomments]

theorem Toml.ofList_code_injective : Function.Injective fun v : Toml ↦ String.ofList v.code := by
  intro v w h
  have hcode := congrArg (· ++ []) (String.ofList_injective h)
  exact (code_inj v w [] [] hcode).1

/-- The codes of values as documents. -/
noncomputable def TomlCodec.codes : TomlCodec := .ofInjective _ Toml.ofList_code_injective

theorem TomlCodec.skipComments_codes (v : Toml) (text : String)
    (h : codes.toString v = .ok text) : skipComments false text.toList = text.toList := by
  rw [← Except.ok.inj h, String.toList_ofList]
  cases v <;> rfl

end ReinhardtCloud.Base
