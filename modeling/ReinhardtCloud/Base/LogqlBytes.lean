import ReinhardtCloud.Base.Logql

/-!
# LogQL queries as bytes

Library `Base`. What the literals of a LogQL query hold byte for byte, the shape of a query (one
stream selector and at most one line filter) whatever its literals hold, and the regular expression
that bytes are. Literals are those of Go, where a number stands for one byte. Nothing here names a
component.
-/

namespace ReinhardtCloud.Base

/-! ## Text and bytes -/

/-- The bytes of a text. -/
def utf8Bytes (text : List Char) : List UInt8 := text.flatMap String.utf8EncodeChar

/-- The text that bytes are, if they are one. -/
def utf8Text (bytes : List UInt8) : Option (List Char) :=
  bytes.toByteArray.utf8Decode?.map Array.toList

theorem utf8Text_append (c : Char) (bytes : List UInt8) :
    utf8Text (String.utf8EncodeChar c ++ bytes) = (utf8Text bytes).map (c :: ·) := by
  rw [utf8Text, List.toByteArray_append, ← List.utf8Encode_singleton,
    ByteArray.utf8Decode?_utf8Encode_singleton_append, utf8Text, Option.map_map, Option.map_map]
  congr 1
  funext xs
  simp

theorem utf8Text_utf8Bytes (text : List Char) : utf8Text (utf8Bytes text) = some text := by
  induction text with
  | nil => rfl
  | cons c text ih =>
    rw [utf8Bytes, List.flatMap_cons, utf8Text_append]
    rw [utf8Bytes] at ih
    rw [ih, Option.map_some]

/-- The first byte of a character is no continuation byte. -/
theorem utf8EncodeChar_first (c : Char) : ∃ b bytes, String.utf8EncodeChar c = b :: bytes ∧
    (b.toNat < 128 ∨ 192 ≤ b.toNat) := by
  rw [String.utf8EncodeChar]
  split
  · refine ⟨_, _, rfl, ?_⟩
    rw [UInt8.toNat_ofNat']
    omega
  · split
    · refine ⟨_, _, rfl, ?_⟩
      rw [UInt8.toNat_ofNat']
      omega
    · split
      · refine ⟨_, _, rfl, ?_⟩
        rw [UInt8.toNat_ofNat']
        omega
      · refine ⟨_, _, rfl, ?_⟩
        rw [UInt8.toNat_ofNat']
        omega

/-- No text starts with a continuation byte. -/
theorem utf8Text_continuation {b : UInt8} (hlow : 128 ≤ b.toNat) (hhigh : b.toNat < 192)
    (bytes : List UInt8) : utf8Text (b :: bytes) = none := by
  rw [utf8Text, Option.map_eq_none_iff, ← Option.not_isSome_iff_eq_none,
    ByteArray.isSome_utf8Decode?_iff]
  rintro ⟨text, htext⟩
  have hbytes : b :: bytes = utf8Bytes text := by
    have hlist := congrArg (fun a : ByteArray ↦ a.data.toList) htext
    simpa [List.utf8Encode, utf8Bytes] using hlist
  cases text with
  | nil => cases hbytes
  | cons c text =>
    obtain ⟨first, rest, hfirst, hrange⟩ := utf8EncodeChar_first c
    rw [utf8Bytes, List.flatMap_cons, hfirst, List.cons_append] at hbytes
    injection hbytes with hb _
    subst hb
    omega

/-! ## Literals -/

/-- One more piece in front of a literal that has been read. -/
def pushBytes (piece : List UInt8) (result : Option (List UInt8 × List Char)) :
    Option (List UInt8 × List Char) :=
  result.map fun p ↦ (piece ++ p.1, p.2)

/-- Read the bytes of a literal after its opening quotation mark, up to and with the closing
one. -/
def literalBytes : LiteralState → List Char → Option (List UInt8 × List Char)
  | _, [] => none
  | .plain, c :: rest =>
    if c = jsonQuote then some ([], rest)
    else if c = jsonBackslash then literalBytes .escape rest
    else if c.toNat = 10 then none
    else pushBytes (String.utf8EncodeChar c) (literalBytes .plain rest)
  | .escape, c :: rest =>
    if c = 'x' then literalBytes .hex rest
    else (literalEscape c).bind fun d ↦
      pushBytes (String.utf8EncodeChar d) (literalBytes .plain rest)
  | .hex, c :: rest => (hexDigit c).bind fun high ↦ literalBytes (.hexLow high) rest
  | .hexLow high, c :: rest => (hexDigit c).bind fun low ↦
      pushBytes [UInt8.ofNat (16 * high + low)] (literalBytes .plain rest)

/-- A literal written one character at a time holds the bytes of one character after the other. -/
theorem literalBytes_flatMap {code : Char → List Char} {value : Char → List UInt8}
    (h : ∀ c rest, literalBytes .plain (code c ++ rest) =
      pushBytes (value c) (literalBytes .plain rest)) (text rest : List Char) :
    literalBytes .plain (text.flatMap code ++ jsonQuote :: rest) =
      some (text.flatMap value, rest) := by
  induction text with
  | nil => simp [literalBytes]
  | cons c text ih =>
    rw [List.flatMap_cons, List.append_assoc, h, ih, pushBytes, Option.map_some, List.flatMap_cons]

/-! ## The shape of a query -/

/-- A matcher: its label, whether it compares with a regular expression, and its literal. -/
structure MatcherShape where
  label : List Char
  regex : Bool
  value : List UInt8
  deriving DecidableEq

/-- A stream selector and at most one line filter. -/
structure QueryShape where
  matchers : List MatcherShape
  lineFilter : Option (List UInt8)
  deriving DecidableEq

/-- Read one matcher. -/
def readMatcherShape (text : List Char) : Option (MatcherShape × List Char) :=
  let label := text.takeWhile isWordChar
  if label = [] then none
  else
    match text.dropWhile isWordChar with
    | '=' :: '~' :: c :: rest =>
      if c = jsonQuote then
        (literalBytes .plain rest).map fun p ↦ (⟨label, true, p.1⟩, p.2)
      else none
    | '=' :: c :: rest =>
      if c = jsonQuote then
        (literalBytes .plain rest).map fun p ↦ (⟨label, false, p.1⟩, p.2)
      else none
    | _ => none

/-- Read the line filter behind a selector, if there is one. -/
def readLineFilterShape : List Char → Option (Option (List UInt8))
  | [] => some none
  | '|' :: '~' :: c :: rest =>
    if c = jsonQuote then
      match literalBytes .plain rest with
      | some (value, []) => some (some value)
      | _ => none
    else none
  | _ => none

/-- Read a query. -/
def readQueryShape : List Char → Option QueryShape
  | '{' :: rest =>
    (readSeparated readMatcherShape rest.length rest).bind fun p ↦
      (readLineFilterShape p.2).map fun filter ↦ ⟨p.1, filter⟩
  | _ => none

/-- A matcher is read when its literal is. -/
theorem readMatcherShape_matcherText {label body : List Char} {regex : Bool} {value : List UInt8}
    (hne : label ≠ []) (hlabel : label.all isWordChar = true) (rest : List Char)
    (h : literalBytes .plain (body ++ jsonQuote :: rest) = some (value, rest)) :
    readMatcherShape (matcherText label regex body ++ rest) =
      some (⟨label, regex, value⟩, rest) := by
  cases regex with
  | false =>
    have htext : matcherText label false body ++ rest =
        label ++ '=' :: (jsonQuote :: (body ++ jsonQuote :: rest)) := by
      simp [matcherText]
    have hquote : jsonQuote ≠ '~' := by decide
    obtain ⟨htake, hdrop⟩ := label_split hlabel (jsonQuote :: (body ++ jsonQuote :: rest))
    rw [htext, readMatcherShape]
    simp only [htake, hdrop, if_neg hne]
    split
    · next heq =>
      injection heq with _ heq
      injection heq with hcontra _
      exact absurd hcontra hquote
    · next c rest' _ heq =>
      injection heq with _ heq
      injection heq with hc hrest
      subst hc hrest
      rw [if_pos rfl, h]
      rfl
    · next hnot => exact absurd rfl (hnot jsonQuote (body ++ jsonQuote :: rest))
  | true =>
    have htext : matcherText label true body ++ rest =
        label ++ '=' :: ('~' :: jsonQuote :: (body ++ jsonQuote :: rest)) := by
      simp [matcherText]
    obtain ⟨htake, hdrop⟩ :=
      label_split hlabel ('~' :: jsonQuote :: (body ++ jsonQuote :: rest))
    rw [htext, readMatcherShape]
    simp only [htake, hdrop, if_neg hne, if_true, h, Option.map_some]

/-- A query is read when its matchers and its line filter are. -/
theorem readQueryShape_logqlText {ms : List (List Char × MatcherShape)} (hne : ms ≠ [])
    (h : ∀ m ∈ ms, ∀ rest, readMatcherShape (m.1 ++ rest) = some (m.2, rest))
    (lineFilter : Option (List Char × List UInt8))
    (hfilter : ∀ f ∈ lineFilter, literalBytes .plain (f.1 ++ [jsonQuote]) = some (f.2, [])) :
    readQueryShape (logqlText (ms.map Prod.fst) (lineFilter.map Prod.fst)) =
      some ⟨ms.map Prod.snd, lineFilter.map Prod.snd⟩ := by
  cases lineFilter with
  | none =>
    rw [Option.map_none, logqlText, List.cons_append, readQueryShape, readSeparated_text hne h]
    rfl
  | some f =>
    rw [Option.map_some, logqlText, List.cons_append, readQueryShape, readSeparated_text hne h,
      Option.bind_some]
    dsimp only
    rw [readLineFilterShape, if_pos rfl, hfilter f rfl]
    rfl

/-- The regular expression that bytes are, if they are a text. -/
def readRe2 (pattern : List UInt8) : Option LogqlRegex := (utf8Text pattern).bind readRegex

end ReinhardtCloud.Base
