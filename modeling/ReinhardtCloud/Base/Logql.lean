import Mathlib.Data.List.Infix
import ReinhardtCloud.Base.Characters
import ReinhardtCloud.Base.Json

/-!
# LogQL queries

Library `Base`. The part of LogQL in which log streams are selected by labels and lines by one
regular expression: how a query text is read and what it selects. Literals are those of Go; a
literal with a byte above 127 written by its number is no text, and matches none. Regular
expressions are read where they are alternatives of literal words or stand for any text.
Nothing here names a component.
-/

namespace ReinhardtCloud.Base

/-! ## Literals -/

/-- Where the reader is inside a literal. -/
inductive LiteralState where
  | plain
  | escape
  | hex
  | hexLow (high : Nat)
  deriving DecidableEq

/-- The value of a hexadecimal digit. -/
def hexDigit (c : Char) : Option Nat :=
  if 48 ≤ c.toNat ∧ c.toNat ≤ 57 then some (c.toNat - 48)
  else if 97 ≤ c.toNat ∧ c.toNat ≤ 102 then some (c.toNat - 87)
  else if 65 ≤ c.toNat ∧ c.toNat ≤ 70 then some (c.toNat - 55)
  else none

/-- The character behind a one-letter escape. -/
def literalEscape (c : Char) : Option Char :=
  if c = jsonQuote ∨ c = jsonBackslash then some c
  else if c = 'a' then some (Char.ofNat 7)
  else if c = 'b' then some (Char.ofNat 8)
  else if c = 't' then some (Char.ofNat 9)
  else if c = 'n' then some (Char.ofNat 10)
  else if c = 'v' then some (Char.ofNat 11)
  else if c = 'f' then some (Char.ofNat 12)
  else if c = 'r' then some (Char.ofNat 13)
  else none

/-- A byte written by its number is a character of its own below 128. -/
def literalByte (n : Nat) : Option Char := if n < 128 then some (Char.ofNat n) else none

/-- What a literal holds, as a text if it is one, and what follows it. -/
abbrev LiteralResult := Option (Option (List Char) × List Char)

/-- One more character in front of a literal that has been read. -/
def LiteralResult.push (c : Option Char) (result : LiteralResult) : LiteralResult :=
  result.map fun p ↦ (c.bind fun c ↦ p.1.map (c :: ·), p.2)

/-- Read a literal after its opening quotation mark, up to and with the closing one. -/
def readLiteral : LiteralState → List Char → LiteralResult
  | _, [] => none
  | .plain, c :: rest =>
    if c = jsonQuote then some (some [], rest)
    else if c = jsonBackslash then readLiteral .escape rest
    else if c.toNat = 10 then none
    else (readLiteral .plain rest).push (some c)
  | .escape, c :: rest =>
    if c = 'x' then readLiteral .hex rest
    else
      match literalEscape c with
      | some d => (readLiteral .plain rest).push (some d)
      | none => none
  | .hex, c :: rest =>
    match hexDigit c with
    | some high => readLiteral (.hexLow high) rest
    | none => none
  | .hexLow high, c :: rest =>
    match hexDigit c with
    | some low => (readLiteral .plain rest).push (literalByte (16 * high + low))
    | none => none

/-- A literal written one character at a time is read back one character at a time. -/
theorem readLiteral_flatMap {code : Char → List Char} {value : Char → Option Char}
    (h : ∀ c rest, readLiteral .plain (code c ++ rest) =
      (readLiteral .plain rest).push (value c)) (text rest : List Char) :
    readLiteral .plain (text.flatMap code ++ jsonQuote :: rest) = some (text.mapM value, rest) := by
  induction text with
  | nil => simp [readLiteral]
  | cons c text ih =>
    rw [List.flatMap_cons, List.append_assoc, h, ih, LiteralResult.push, Option.map_some]
    simp only [List.mapM_cons]
    cases value c with
    | none => rfl
    | some d => cases text.mapM value <;> rfl

/-! ## Regular expressions -/

/-- The regular expressions of the fragment. -/
inductive LogqlRegex where
  | someText
  | oneOf (alternatives : List (List Char))
  deriving DecidableEq

/-- The characters with a meaning of their own. -/
def regexSpecials : List Char :=
  [jsonBackslash, '.', '^', '$', '|', '?', '*', '+', '(', ')', '[', ']', '{', '}']

/-- Read alternatives of literal words, after the characters of the current one. -/
def readAlternatives (escaped : Bool) (current : List Char) :
    List Char → Option (List (List Char))
  | [] => if escaped then none else some [current]
  | c :: rest =>
    if escaped then
      if c ∈ regexSpecials then readAlternatives false (current ++ [c]) rest else none
    else if c = jsonBackslash then readAlternatives true current rest
    else if c = '|' then (readAlternatives false [] rest).map (current :: ·)
    else if c ∈ regexSpecials then none
    else readAlternatives false (current ++ [c]) rest

/-- Read a regular expression. -/
def readRegex (pattern : List Char) : Option LogqlRegex :=
  if pattern = ['.', '+'] then some .someText
  else (readAlternatives false [] pattern).map .oneOf

/-- The expression matches the whole value. -/
def LogqlRegex.fits : LogqlRegex → List Char → Bool
  | .someText, value => !value.isEmpty && value.all fun c ↦ c.toNat ≠ 10
  | .oneOf alternatives, value => decide (value ∈ alternatives)

/-- The expression matches somewhere in the line. -/
def LogqlRegex.occurs : LogqlRegex → List Char → Bool
  | .someText, line => line.any fun c ↦ c.toNat ≠ 10
  | .oneOf alternatives, line => alternatives.any fun word ↦ decide (word <:+: line)

/-- A word whose special characters are escaped stands for itself. -/
theorem readAlternatives_escaped {code : Char → List Char}
    (h : ∀ c, code c = if c ∈ regexSpecials then [jsonBackslash, c] else [c])
    (word current : List Char) :
    readAlternatives false current (word.flatMap code) = some [current ++ word] := by
  induction word generalizing current with
  | nil => simp [readAlternatives]
  | cons c word ih =>
    have hback : jsonBackslash ∈ regexSpecials := List.mem_cons_self
    rw [List.flatMap_cons, h]
    by_cases hc : c ∈ regexSpecials
    · rw [if_pos hc, List.cons_append, List.singleton_append, readAlternatives]
      simp only [Bool.false_eq_true, if_false, if_true]
      rw [readAlternatives]
      simp only [if_true, hc]
      rw [ih, List.append_assoc, List.singleton_append]
    · have hne : c ≠ jsonBackslash := fun heq ↦ hc (heq ▸ hback)
      have hbar : c ≠ '|' := fun heq ↦ hc (heq ▸ by decide)
      rw [if_neg hc, List.singleton_append, readAlternatives]
      simp only [Bool.false_eq_true, if_false, hne, hbar, hc]
      rw [ih, List.append_assoc, List.singleton_append]

/-! ## Lists in braces -/

/-- Read items up to the closing brace. -/
def readSeparated {β : Type} (one : List Char → Option (β × List Char)) :
    Nat → List Char → Option (List β × List Char)
  | 0, _ => none
  | fuel + 1, text =>
    (one text).bind fun p ↦
      match p.2 with
      | ',' :: rest => (readSeparated one fuel rest).map fun q ↦ (p.1 :: q.1, q.2)
      | '}' :: rest => some ([p.1], rest)
      | _ => none

/-- Items that are read one by one are read as a list. -/
theorem readSeparated_intercalate {β : Type} {one : List Char → Option (β × List Char)}
    {items : List (List Char × β)} (hne : items ≠ [])
    (h : ∀ m ∈ items, ∀ rest, one (m.1 ++ rest) = some (m.2, rest)) {fuel : Nat}
    (hfuel : items.length ≤ fuel) (rest : List Char) :
    readSeparated one fuel (List.intercalate [','] (items.map Prod.fst) ++ '}' :: rest) =
      some (items.map Prod.snd, rest) := by
  induction items generalizing fuel with
  | nil => exact absurd rfl hne
  | cons m items ih =>
    obtain ⟨fuel, rfl⟩ : ∃ n, fuel = n + 1 := Nat.exists_eq_succ_of_ne_zero (by
      rw [List.length_cons] at hfuel
      omega)
    cases items with
    | nil =>
      have hm := h m List.mem_cons_self ('}' :: rest)
      simp [List.intercalate, readSeparated, hm]
    | cons m' items =>
      have hm := h m List.mem_cons_self
        (',' :: (List.intercalate [','] ((m' :: items).map Prod.fst) ++ '}' :: rest))
      have hrest := ih (by simp) (fun m hm ↦ h m (List.mem_cons_of_mem _ hm))
        (by simpa using hfuel)
      have htext : List.intercalate [','] ((m :: m' :: items).map Prod.fst) ++ '}' :: rest =
          m.1 ++ ',' :: (List.intercalate [','] ((m' :: items).map Prod.fst) ++ '}' :: rest) := by
        simp [List.intercalate]
      rw [htext, readSeparated, hm]
      simp only [Option.bind_some]
      rw [hrest]
      rfl

/-- There is a comma before all items but the first. -/
theorem length_le_intercalate (items : List (List Char)) :
    items.length ≤ (List.intercalate [','] items).length + 1 := by
  induction items with
  | nil => exact Nat.zero_le _
  | cons a rest ih =>
    cases rest with
    | nil => simp
    | cons b rest =>
      have htext : List.intercalate [','] (a :: b :: rest) =
          a ++ ',' :: List.intercalate [','] (b :: rest) := by
        simp [List.intercalate]
      rw [htext]
      simp only [List.length_append, List.length_cons] at ih ⊢
      omega

/-- The text itself is fuel enough. -/
theorem readSeparated_text {β : Type} {one : List Char → Option (β × List Char)}
    {items : List (List Char × β)} (hne : items ≠ [])
    (h : ∀ m ∈ items, ∀ rest, one (m.1 ++ rest) = some (m.2, rest)) (rest : List Char) :
    readSeparated one (List.intercalate [','] (items.map Prod.fst) ++ '}' :: rest).length
      (List.intercalate [','] (items.map Prod.fst) ++ '}' :: rest) =
        some (items.map Prod.snd, rest) := by
  apply readSeparated_intercalate hne h
  have hlen := length_le_intercalate (items.map Prod.fst)
  rw [List.length_map] at hlen
  rw [List.length_append, List.length_cons]
  omega

/-! ## Queries -/

/-- What a matcher asks of a label. -/
inductive LogqlCondition where
  | equals (value : Option (List Char))
  | fits (regex : Option LogqlRegex)
  deriving DecidableEq

/-- A matcher of a stream selector. -/
structure LogqlMatcher where
  label : List Char
  condition : LogqlCondition
  deriving DecidableEq

/-- A stream selector and at most one line filter. -/
structure LogqlQuery where
  matchers : List LogqlMatcher
  lineFilter : Option (Option LogqlRegex)
  deriving DecidableEq

/-- What a label value has to be for the condition. -/
def LogqlCondition.holds : LogqlCondition → List Char → Bool
  | .equals value, label => decide (value = some label)
  | .fits regex, label => regex.any (·.fits label)

/-- The query selects the line of the stream. Some matcher has to ask for a label. -/
def LogqlQuery.selects (q : LogqlQuery) (labels : List Char → List Char) (line : List Char) :
    Bool :=
  q.matchers.any (fun m ↦ !m.condition.holds []) &&
    q.matchers.all (fun m ↦ m.condition.holds (labels m.label)) &&
    q.lineFilter.all fun regex ↦ regex.any (·.occurs line)

/-- What a literal says as a regular expression. -/
def readPattern : Option (List Char) → Option (Option LogqlRegex)
  | none => some none
  | some pattern => (readRegex pattern).map some

/-- Read one matcher. -/
def readMatcher (text : List Char) : Option (LogqlMatcher × List Char) :=
  let label := text.takeWhile isWordChar
  match text.dropWhile isWordChar with
  | '=' :: '~' :: c :: rest =>
    if c = jsonQuote then
      (readLiteral .plain rest).bind fun p ↦
        (readPattern p.1).map fun regex ↦ (⟨label, .fits regex⟩, p.2)
    else none
  | '=' :: c :: rest =>
    if c = jsonQuote then
      (readLiteral .plain rest).map fun p ↦ (⟨label, .equals p.1⟩, p.2)
    else none
  | _ => none

/-- Read matchers up to the closing brace. -/
def readMatchers : Nat → List Char → Option (List LogqlMatcher × List Char) :=
  readSeparated readMatcher

/-- Read the line filter behind a selector, if there is one. -/
def readLineFilter : List Char → Option (Option (Option LogqlRegex))
  | [] => some none
  | '|' :: '~' :: c :: rest =>
    if c = jsonQuote then
      match readLiteral .plain rest with
      | some (value, []) => (readPattern value).map some
      | _ => none
    else none
  | _ => none

/-- Read a query. -/
def readLogql : List Char → Option LogqlQuery
  | '{' :: rest =>
    (readMatchers rest.length rest).bind fun p ↦
      (readLineFilter p.2).map fun filter ↦ ⟨p.1, filter⟩
  | _ => none

/-! ## Reading what was written -/

/-- The text of a matcher: label, operator and literal. -/
def matcherText (label : List Char) (regex : Bool) (body : List Char) : List Char :=
  label ++ '=' :: (if regex then ['~'] else []) ++ jsonQuote :: (body ++ [jsonQuote])

theorem label_split {label : List Char} (h : label.all isWordChar = true)
    (rest : List Char) : (label ++ '=' :: rest).takeWhile isWordChar = label ∧
      (label ++ '=' :: rest).dropWhile isWordChar = '=' :: rest := by
  have hstop : isWordChar '=' = false := by decide
  have hall : ∀ c ∈ label, isWordChar c = true := List.all_eq_true.mp h
  constructor
  · rw [List.takeWhile_append_of_pos hall, List.takeWhile_cons_of_neg (by simp [hstop]),
      List.append_nil]
  · rw [List.dropWhile_append_of_pos hall, List.dropWhile_cons_of_neg (by simp [hstop])]

/-- A matcher that compares with a literal. -/
theorem readMatcher_equals {label body : List Char} {value : Option (List Char)}
    (hlabel : label.all isWordChar = true) (rest : List Char)
    (h : readLiteral .plain (body ++ jsonQuote :: rest) = some (value, rest)) :
    readMatcher (matcherText label false body ++ rest) = some (⟨label, .equals value⟩, rest) := by
  have htext : matcherText label false body ++ rest =
      label ++ '=' :: (jsonQuote :: (body ++ jsonQuote :: rest)) := by
    simp [matcherText]
  have hquote : jsonQuote ≠ '~' := by decide
  obtain ⟨htake, hdrop⟩ := label_split hlabel (jsonQuote :: (body ++ jsonQuote :: rest))
  rw [htext, readMatcher]
  simp only [htake, hdrop]
  split
  · next heq =>
    injection heq with _ heq
    injection heq with hcontra _
    exact absurd hcontra hquote
  · next c rest' _ heq =>
    injection heq with _ heq
    injection heq with hc hrest
    subst hc hrest
    rw [if_pos rfl, h]
    rfl
  · next hnot => exact absurd rfl (hnot jsonQuote (body ++ jsonQuote :: rest))

/-- A matcher with a regular expression. -/
theorem readMatcher_fits {label body : List Char} {value : Option (List Char)}
    {regex : Option LogqlRegex} (hlabel : label.all isWordChar = true) (rest : List Char)
    (h : readLiteral .plain (body ++ jsonQuote :: rest) = some (value, rest))
    (hregex : readPattern value = some regex) :
    readMatcher (matcherText label true body ++ rest) = some (⟨label, .fits regex⟩, rest) := by
  have htext : matcherText label true body ++ rest =
      label ++ '=' :: ('~' :: jsonQuote :: (body ++ jsonQuote :: rest)) := by
    simp [matcherText]
  obtain ⟨htake, hdrop⟩ := label_split hlabel ('~' :: jsonQuote :: (body ++ jsonQuote :: rest))
  rw [htext, readMatcher]
  simp only [htake, hdrop, if_true, h, Option.bind_some, hregex, Option.map_some]

/-- The text of a query: its selector and the literal of its line filter. -/
def logqlText (selectors : List (List Char)) (lineFilter : Option (List Char)) : List Char :=
  '{' :: List.intercalate [','] selectors ++ '}' ::
    match lineFilter with
    | none => []
    | some body => '|' :: '~' :: jsonQuote :: (body ++ [jsonQuote])

/-- A query without a line filter is read when its matchers are. -/
theorem readLogql_selector {ms : List (List Char × LogqlMatcher)} (hne : ms ≠ [])
    (h : ∀ m ∈ ms, ∀ rest, readMatcher (m.1 ++ rest) = some (m.2, rest)) :
    readLogql (logqlText (ms.map Prod.fst) none) = some ⟨ms.map Prod.snd, none⟩ := by
  rw [logqlText, List.cons_append, readLogql, readMatchers,
    readSeparated_text hne h]
  rfl

/-- A query with a line filter is read when its matchers and the filter are. -/
theorem readLogql_filter {ms : List (List Char × LogqlMatcher)} (hne : ms ≠ [])
    (h : ∀ m ∈ ms, ∀ rest, readMatcher (m.1 ++ rest) = some (m.2, rest)) {body : List Char}
    {value : Option (List Char)} {regex : Option LogqlRegex}
    (hbody : readLiteral .plain (body ++ [jsonQuote]) = some (value, []))
    (hregex : readPattern value = some regex) :
    readLogql (logqlText (ms.map Prod.fst) (some body)) =
      some ⟨ms.map Prod.snd, some regex⟩ := by
  rw [logqlText, List.cons_append, readLogql, readMatchers,
    readSeparated_text hne h]
  simp only [Option.bind_some]
  rw [readLineFilter, if_pos rfl, hbody]
  simp only [hregex, Option.map_some]

end ReinhardtCloud.Base
