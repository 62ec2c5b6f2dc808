import ReinhardtCloud.Base.LogqlBytes
import ReinhardtCloud.Telemetry.LogBackends

/-!
# What a query says

Library `Telemetry`. The text of `build_logql`
(`crates/reinhardt-cloud-telemetry/src/log_service/loki/query.rs`), read byte for byte: its shape,
which no field of the filter can change, and what its literals hold.
-/

namespace ReinhardtCloud.Telemetry

open ReinhardtCloud.Base

/-! ## Escaped literals -/

/-- The bytes that an escaped character stands for. -/
def escapedCharBytes (c : Char) : List UInt8 :=
  if Illegible c then [UInt8.ofNat c.toNat] else String.utf8EncodeChar c

/-- The bytes that an escaped text stands for. -/
def escapedBytes (text : List Char) : List UInt8 := text.flatMap escapedCharBytes

private theorem literalBytes_escapeLiteralChar (c : Char) (rest : List Char) :
    literalBytes .plain (escapeLiteralChar c ++ rest) =
      pushBytes (escapedCharBytes c) (literalBytes .plain rest) := by
  have hback : jsonBackslash ≠ jsonQuote := by decide
  rcases escapeLiteralChar_cases c with ⟨hlow, d, hcode, hx, hd⟩ | ⟨hlow, hcode⟩ |
    ⟨hplain, hquote, hbackslash, hcode⟩
  · have hlegible : ¬ Illegible c := by
      rw [Illegible]
      omega
    rw [hcode, List.cons_append, List.singleton_append, literalBytes, if_neg hback, if_pos rfl,
      literalBytes, if_neg hx, hd, Option.bind_some, escapedCharBytes, if_neg hlegible]
  · have hbyte : escapedCharBytes c = [UInt8.ofNat c.toNat] := by
      rw [escapedCharBytes]
      by_cases hc : c.toNat < 128
      · have hlegible : ¬ Illegible c := by
          rw [Illegible]
          omega
        have hsmall : c.val.toNat ≤ 127 := Nat.le_of_lt_succ hc
        rw [if_neg hlegible, String.utf8EncodeChar]
        exact if_pos hsmall
      · rw [if_pos ⟨by omega, hlow⟩]
    rw [hcode, hbyte]
    simp only [List.cons_append, List.nil_append]
    rw [literalBytes, if_neg hback, if_pos rfl, literalBytes, if_pos rfl, literalBytes,
      hexDigit_jsonHexDigit _ (by omega), Option.bind_some, literalBytes,
      hexDigit_jsonHexDigit _ (by omega), Option.bind_some, Nat.div_add_mod]
  · obtain ⟨hline, hlegible⟩ := not_control hplain
    rw [hcode, List.singleton_append, literalBytes, if_neg hquote, if_neg hbackslash,
      if_neg hline, escapedCharBytes, if_neg hlegible]

/-- An escaped literal ends where it was closed, whatever was escaped. -/
theorem literalBytes_escape (text rest : List Char) :
    literalBytes .plain (escapeLogqlStringLiteral text ++ jsonQuote :: rest) =
      some (escapedBytes text, rest) := by
  rw [escapeLogqlStringLiteral, literalBytes_flatMap literalBytes_escapeLiteralChar, escapedBytes]

/-- The bytes of an escaped text are a text only if all of it is legible. -/
theorem utf8Text_escapedBytes (text : List Char) :
    utf8Text (escapedBytes text) = literalText text := by
  induction text with
  | nil => rfl
  | cons c text ih =>
    rw [escapedBytes, List.flatMap_cons, escapedCharBytes, literalText]
    by_cases hc : Illegible c
    · have hbyte : (UInt8.ofNat c.toNat).toNat = c.toNat := by
        rw [UInt8.toNat_ofNat']
        rw [Illegible] at hc
        omega
      rw [if_pos hc, if_neg (fun hall ↦ hall c List.mem_cons_self hc), List.singleton_append]
      rw [Illegible] at hc
      exact utf8Text_continuation (by omega) (by omega) _
    · rw [escapedBytes] at ih
      rw [if_neg hc, utf8Text_append, ih, literalText]
      by_cases hrest : ∀ d ∈ text, ¬ Illegible d
      · have hall : ∀ d ∈ c :: text, ¬ Illegible d := by simpa [hc] using hrest
        rw [if_pos hrest, if_pos hall]
        rfl
      · have hall : ¬ ∀ d ∈ c :: text, ¬ Illegible d := by simpa [hc] using hrest
        rw [if_neg hrest, if_neg hall]
        rfl

/-- An escaped text stands for its own bytes exactly if it is legible. -/
theorem escapedBytes_eq_iff (text : List Char) :
    escapedBytes text = utf8Bytes text ↔ ∀ c ∈ text, ¬ Illegible c := by
  constructor
  · intro h
    have htext := utf8Text_escapedBytes text
    rw [h, utf8Text_utf8Bytes, literalText] at htext
    by_contra hnot
    rw [if_neg hnot] at htext
    cases htext
  · intro h
    refine List.flatMap_congr fun c hc ↦ ?_
    rw [escapedCharBytes, if_neg (h c hc)]

/-! ## The shape of a query -/

/-- The matchers of the fields of a filter, for a reading of their texts as bytes. Loki wants some
matcher that is not empty, so a filter without a source has the broad one. -/
def fieldMatchers (bytes : List Char → List UInt8) (filter : LogFilter) : List MatcherShape :=
  (match filter.source with
    | some app => ⟨"app".toList, false, bytes app.toList⟩
    | none => ⟨"app".toList, true, utf8Bytes ['.', '+']⟩) ::
  (filter.namespace'.toList.map fun namespace' ↦
      ⟨"namespace".toList, false, bytes namespace'.toList⟩) ++
  (filter.deploymentId.toList.map fun deploymentId ↦
      ⟨"deployment_id".toList, false, bytes deploymentId.toList⟩) ++
  filter.minLevel.toList.map fun minLevel ↦
    ⟨"level".toList, true, utf8Bytes (levelsAtOrAbove minLevel)⟩

private theorem literalBytes_levels (level : LogLevel) (rest : List Char) :
    literalBytes .plain (levelsAtOrAbove level ++ jsonQuote :: rest) =
      some (utf8Bytes (levelsAtOrAbove level), rest) := by
  have hall : (levelsAtOrAbove level).all (fun c ↦ escapeLiteralChar c = [c]) = true := by
    cases level <;> decide
  have hplain : ∀ c ∈ levelsAtOrAbove level, escapeLiteralChar c = [c] := fun c hc ↦
    of_decide_eq_true (List.all_eq_true.mp hall c hc)
  have hescape : escapeLogqlStringLiteral (levelsAtOrAbove level) = levelsAtOrAbove level := by
    rw [escapeLogqlStringLiteral, List.flatMap_congr hplain, List.flatMap_singleton']
  have hlegible : ∀ c ∈ levelsAtOrAbove level, ¬ Illegible c := by
    cases level <;> decide
  have hread := literalBytes_escape (levelsAtOrAbove level) rest
  rwa [hescape, (escapedBytes_eq_iff _).mpr hlegible] at hread

/-- Whatever the texts of a filter are, its query is one selector with the matchers of its fields
and at most one line filter. -/
theorem readQueryShape_buildLogql (filter : LogFilter) :
    readQueryShape (buildLogql filter) = some ⟨fieldMatchers escapedBytes filter,
      filter.search.map fun search ↦ escapedBytes (escapeRegex search.toList)⟩ := by
  have happ : ("app".toList).all isWordChar = true := by decide
  have hns : ("namespace".toList).all isWordChar = true := by decide
  have hdep : ("deployment_id".toList).all isWordChar = true := by decide
  have hlevel : ("level".toList).all isWordChar = true := by decide
  have hne : (logqlSelectors filter).zip (fieldMatchers escapedBytes filter) ≠ [] := by
    simp [logqlSelectors, fieldMatchers]
  have hall : List.Forall₂ (fun t m ↦ ∀ rest, readMatcherShape (t ++ rest) = some (m, rest))
      (logqlSelectors filter) (fieldMatchers escapedBytes filter) := by
    refine List.rel_append (List.rel_append (.cons ?_ ?_) ?_) ?_
    · intro rest
      cases filter.source with
      | some app =>
        exact readMatcherShape_matcherText (by decide) happ rest (literalBytes_escape _ _)
      | none => exact readMatcherShape_matcherText (by decide) happ rest rfl
    · cases filter.namespace' with
      | none => exact .nil
      | some ns =>
        refine .cons (fun rest ↦ ?_) .nil
        exact readMatcherShape_matcherText (by decide) hns rest (literalBytes_escape _ _)
    · cases filter.deploymentId with
      | none => exact .nil
      | some id =>
        refine .cons (fun rest ↦ ?_) .nil
        exact readMatcherShape_matcherText (by decide) hdep rest (literalBytes_escape _ _)
    · cases filter.minLevel with
      | none => exact .nil
      | some level =>
        refine .cons (fun rest ↦ ?_) .nil
        exact readMatcherShape_matcherText (by decide) hlevel rest (literalBytes_levels level rest)
  obtain ⟨hlen, hzip⟩ := List.forall₂_iff_zip.mp hall
  have hread : ∀ m ∈ (logqlSelectors filter).zip (fieldMatchers escapedBytes filter), ∀ rest,
      readMatcherShape (m.1 ++ rest) = some (m.2, rest) := fun m hm ↦ hzip hm
  have hfst : ((logqlSelectors filter).zip (fieldMatchers escapedBytes filter)).map Prod.fst =
      logqlSelectors filter := List.map_fst_zip (by omega)
  have hsnd : ((logqlSelectors filter).zip (fieldMatchers escapedBytes filter)).map Prod.snd =
      fieldMatchers escapedBytes filter := List.map_snd_zip (by omega)
  have hfilter : ∀ f ∈ filter.search.map fun search ↦
      (escapeLogqlStringLiteral (escapeRegex search.toList),
        escapedBytes (escapeRegex search.toList)),
      literalBytes .plain (f.1 ++ [jsonQuote]) = some (f.2, []) := by
    intro f hf
    obtain ⟨search, -, rfl⟩ := Option.map_eq_some_iff.mp hf
    exact literalBytes_escape _ _
  have hquery := readQueryShape_logqlText hne hread _ hfilter
  rw [hfst, hsnd, Option.map_map, Option.map_map] at hquery
  exact hquery

/-! ## What a query says -/

/-- The query says what the filter asks: its matchers are those of the fields, with the bytes of
their texts, and its line filter is a regular expression that occurs in the lines that contain the
search text. -/
structure SaysFilter (filter : LogFilter) (query : QueryShape) : Prop where
  matchers : query.matchers = fieldMatchers utf8Bytes filter
  lineFilter : query.lineFilter.isSome = filter.search.isSome
  pattern : ∀ search ∈ filter.search, ∃ pattern regex, query.lineFilter = some pattern ∧
    readRe2 pattern = some regex ∧
      ∀ line, regex.occurs line = true ↔ search.toList <:+: line

/-- The texts of a filter. -/
def filterTexts (filter : LogFilter) : List String :=
  filter.source.toList ++ filter.namespace'.toList ++ filter.deploymentId.toList ++
    filter.search.toList

theorem mem_filterTexts {filter : LogFilter} {text : String} : text ∈ filterTexts filter ↔
    text ∈ filter.source ∨ text ∈ filter.namespace' ∨ text ∈ filter.deploymentId ∨
      text ∈ filter.search := by
  simp only [filterTexts, List.mem_append, Option.mem_toList, Option.mem_def, or_assoc]

/-- The matchers hold the bytes of the texts exactly if these are legible. -/
theorem fieldMatchers_eq_iff (filter : LogFilter) :
    fieldMatchers escapedBytes filter = fieldMatchers utf8Bytes filter ↔
      (∀ text ∈ filter.source, Legible text) ∧ (∀ text ∈ filter.namespace', Legible text) ∧
        ∀ text ∈ filter.deploymentId, Legible text := by
  obtain ⟨source, ns, level, since, stop, search, id⟩ := filter
  have hfield : ∀ text : String, escapedBytes text.toList = utf8Bytes text.toList ↔
      Legible text := fun text ↦ escapedBytes_eq_iff text.toList
  cases source with
  | none =>
    cases ns with
    | none => cases id <;> simp [fieldMatchers, hfield]
    | some ns => cases id <;> simp [fieldMatchers, hfield]
  | some source =>
    cases ns with
    | none => cases id <;> simp [fieldMatchers, hfield]
    | some ns => cases id <;> simp [fieldMatchers, hfield]

/-- The pattern of a search text is a regular expression only if the text is legible, and then it
is the text itself. -/
theorem readRe2_search (search : List Char) :
    readRe2 (escapedBytes (escapeRegex search)) =
      if ∀ c ∈ search, ¬ Illegible c then some (.oneOf [search]) else none := by
  have hpattern := readPattern_search search
  rw [readRe2, utf8Text_escapedBytes]
  cases htext : literalText (escapeRegex search) with
  | none =>
    rw [htext, readPattern, Option.some.injEq] at hpattern
    exact hpattern
  | some pattern =>
    rw [htext, readPattern] at hpattern
    obtain ⟨regex, hregex, hsome⟩ := Option.map_eq_some_iff.mp hpattern
    rw [Option.bind_some, hregex, hsome]

/-- The query says what the filter asks exactly if no text of the filter has a control character
above 127. -/
theorem buildLogql_says_iff (filter : LogFilter) :
    (∃ query, readQueryShape (buildLogql filter) = some query ∧ SaysFilter filter query) ↔
      ∀ text ∈ filterTexts filter, Legible text := by
  constructor
  · rintro ⟨query, hread, hsays⟩ text htext
    rw [readQueryShape_buildLogql, Option.some.injEq] at hread
    subst hread
    obtain ⟨hsource, hnamespace, hid⟩ := (fieldMatchers_eq_iff filter).mp hsays.matchers
    rcases mem_filterTexts.mp htext with htext | htext | htext | hsearch
    · exact hsource text htext
    · exact hnamespace text htext
    · exact hid text htext
    · obtain ⟨pattern, regex, hpattern, hregex, -⟩ := hsays.pattern text hsearch
      rw [Option.mem_def.mp hsearch, Option.map_some, Option.some.injEq] at hpattern
      rw [← hpattern, readRe2_search] at hregex
      by_contra hillegible
      rw [Legible] at hillegible
      rw [if_neg hillegible] at hregex
      cases hregex
  · intro hlegible
    refine ⟨_, readQueryShape_buildLogql filter, ?_, ?_, ?_⟩
    · rw [fieldMatchers_eq_iff]
      refine ⟨?_, ?_, ?_⟩
      · intro text htext
        exact hlegible text (mem_filterTexts.mpr (.inl htext))
      · intro text htext
        exact hlegible text (mem_filterTexts.mpr (.inr (.inl htext)))
      · intro text htext
        exact hlegible text (mem_filterTexts.mpr (.inr (.inr (.inl htext))))
    · rw [Option.isSome_map]
    · intro search hsearch
      have htext := hlegible search (mem_filterTexts.mpr (.inr (.inr (.inr hsearch))))
      refine ⟨escapedBytes (escapeRegex search.toList), .oneOf [search.toList], ?_, ?_, ?_⟩
      · rw [Option.mem_def.mp hsearch, Option.map_some]
      · rw [Legible] at htext
        rw [readRe2_search, if_pos htext]
      · intro line
        rw [LogqlRegex.occurs, List.any_cons, List.any_nil, Bool.or_false, decide_eq_true_eq]

/-- The level matcher of a query stands for the levels at or above the least one. -/
theorem readRe2_levels (minLevel level : LogLevel) :
    (readRe2 (utf8Bytes (levelsAtOrAbove minLevel))).any (·.fits level.label.toList) = true ↔
      minLevel.rank ≤ level.rank := by
  rw [readRe2, utf8Text_utf8Bytes, Option.bind_some]
  cases minLevel <;> cases level <;> decide

/-- A project whose name has a control character above 127: the literal holds one byte, which is no
text. -/
theorem buildLogql_not_says : ¬ ∃ query,
    readQueryShape (buildLogql { source := some "a\u0080" }) = some query ∧
      SaysFilter { source := some "a\u0080" } query := by
  rintro ⟨query, hread, hsays⟩
  rw [readQueryShape_buildLogql, Option.some.injEq] at hread
  subst hread
  exact absurd hsays.matchers (by decide)

end ReinhardtCloud.Telemetry
