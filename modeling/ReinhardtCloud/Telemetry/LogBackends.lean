import Mathlib.Algebra.Group.Int.Defs
import Mathlib.Data.List.Forall2
import ReinhardtCloud.Base.Characters
import ReinhardtCloud.Base.Logql

/-!
# The two log backends

Library `Telemetry`. `matches_filter` of the in-process log service
(`crates/reinhardt-cloud-core/src/services/log/buffer.rs`) and `build_logql` of the Loki one
(`crates/reinhardt-cloud-telemetry/src/log_service/loki/`), and which entries either of them
selects for a filter. Timestamps are nanoseconds.
-/

namespace ReinhardtCloud.Telemetry

open ReinhardtCloud.Base

/-- `LogLevel`, `crates/reinhardt-cloud-types/src/log.rs:8–13`. -/
inductive LogLevel where
  | debug
  | info
  | warn
  | error
  deriving DecidableEq

/-- The derived order. -/
def LogLevel.rank : LogLevel → Nat
  | .debug => 0
  | .info => 1
  | .warn => 2
  | .error => 3

/-- `LogEntry`, `log.rs:17–28`. -/
structure LogEntry where
  timestamp : Int
  level : LogLevel
  source : String
  message : String
  deriving DecidableEq

/-- `LogFilter`, `log.rs:32–47`. -/
structure LogFilter where
  source : Option String := none
  (namespace' : Option String := none)
  minLevel : Option LogLevel := none
  since : Option Int := none
  until' : Option Int := none
  search : Option String := none
  deploymentId : Option String := none
  deriving DecidableEq

/-! ## The in-process service -/

/-- `matches_filter`, `buffer.rs:83–116`. -/
def matchesFilter (entry : LogEntry) (filter : LogFilter) : Bool :=
  if filter.source.any fun source ↦ entry.source ≠ source then false
  else if filter.minLevel.any fun minLevel ↦ entry.level.rank < minLevel.rank then false
  else if filter.since.any fun since ↦ entry.timestamp < since then false
  else if filter.until'.any fun until' ↦ until' < entry.timestamp then false
  else if filter.search.any fun search ↦ ¬ search.toList <:+: entry.message.toList then false
  else if filter.deploymentId.any fun deploymentId ↦ entry.source ≠ deploymentId then false
  else true

/-! ## The Loki service -/

/-- `levels_at_or_above`, `query.rs:10–17`. -/
def levelsAtOrAbove : LogLevel → List Char
  | .debug => "debug|info|warn|error".toList
  | .info => "info|warn|error".toList
  | .warn => "warn|error".toList
  | .error => "error".toList

/-- `escape_regex`, `query.rs:24–34`. -/
def escapeRegex (term : List Char) : List Char :=
  term.flatMap fun c ↦ if c ∈ regexSpecials then [jsonBackslash, c] else [c]

/-- How a character is written in a literal. -/
def escapeLiteralChar (c : Char) : List Char :=
  if c = jsonQuote then [jsonBackslash, jsonQuote]
  else if c = jsonBackslash then [jsonBackslash, jsonBackslash]
  else if c.toNat = 10 then [jsonBackslash, 'n']
  else if c.toNat = 13 then [jsonBackslash, 'r']
  else if c.toNat = 9 then [jsonBackslash, 't']
  else if isControl c then
    [jsonBackslash, 'x', jsonHexDigit (c.toNat / 16), jsonHexDigit (c.toNat % 16)]
  else [c]

/-- `escape_logql_string_literal`, `query.rs:37–50`. -/
def escapeLogqlStringLiteral (value : List Char) : List Char := value.flatMap escapeLiteralChar

/-- The selectors of `build_logql`, `query.rs:60–81`. -/
def logqlSelectors (filter : LogFilter) : List (List Char) :=
  (match filter.source with
    | some app => matcherText "app".toList false (escapeLogqlStringLiteral app.toList)
    | none => matcherText "app".toList true ['.', '+']) ::
  (filter.namespace'.toList.map fun namespace' ↦
      matcherText "namespace".toList false (escapeLogqlStringLiteral namespace'.toList)) ++
  (filter.deploymentId.toList.map fun deploymentId ↦
      matcherText "deployment_id".toList false (escapeLogqlStringLiteral deploymentId.toList)) ++
  filter.minLevel.toList.map fun minLevel ↦
    matcherText "level".toList true (levelsAtOrAbove minLevel)

/-- `build_logql`, `query.rs:59–93`. -/
def buildLogql (filter : LogFilter) : List Char :=
  logqlText (logqlSelectors filter)
    (filter.search.map fun search ↦ escapeLogqlStringLiteral (escapeRegex search.toList))

example : String.ofList (buildLogql { source := some "p", minLevel := some .warn }) =
    "\x7bapp=\"p\",level=~\"warn|error\"\x7d" := by decide

/-- `timestamp_nanos`, `loki/mod.rs:34–38`: absent where the answer is `BadRequest`. -/
def timestampNanos (timestamp : Int) : Option Int :=
  if -(2 ^ 63) ≤ timestamp ∧ timestamp < 2 ^ 63 then some timestamp else none

/-- `DEFAULT_LOOKBACK`. -/
def defaultLookback : Int := 60 * 60 * 1000000000

/-- The window of `query_range_entries`, `loki/mod.rs:83–92`. -/
def queryWindow (now : Int) (filter : LogFilter) : Option (Int × Int) :=
  (timestampNanos (filter.since.getD (now - defaultLookback))).bind fun start ↦
    (timestampNanos (filter.until'.getD now)).map fun stop ↦ (start, stop)

/-- Loki: whether a query selects a line of the stream with such labels. -/
structure Loki where
  selects : List Char → (List Char → List Char) → List Char → Bool

/-- Loki reads LogQL as documented. -/
def Loki.ReadsLogql (loki : Loki) : Prop :=
  ∀ text query labels line, readLogql text = some query →
    loki.selects text labels line = query.selects labels line

/-! ## What they select -/

/-- A log line with the project, tenant namespace and deployment that produced it. The name of a
project is a line of text. -/
structure ProducedLog where
  project : String
  (namespace' : String)
  deployment : String
  level : LogLevel
  timestamp : Int
  message : String
  named : LogqlRegex.someText.fits project.toList = true

/-- The entry of the in-process service, whose source is the project. -/
def ProducedLog.entry (log : ProducedLog) : LogEntry :=
  ⟨log.timestamp, log.level, log.project, log.message⟩

/-- The value of the label `level`. -/
def LogLevel.label : LogLevel → String
  | .debug => "debug"
  | .info => "info"
  | .warn => "warn"
  | .error => "error"

/-- The labels of the stream that the line belongs to. -/
def ProducedLog.labels (log : ProducedLog) (name : List Char) : List Char :=
  if name = "app".toList then log.project.toList
  else if name = "namespace".toList then log.namespace'.toList
  else if name = "deployment_id".toList then log.deployment.toList
  else if name = "level".toList then log.level.label.toList
  else []

/-- The in-process service lists the entry, and tails it when it arrives. -/
def localSelects (filter : LogFilter) (log : ProducedLog) : Bool := matchesFilter log.entry filter

/-- The Loki service tails the entry. -/
def lokiTails (loki : Loki) (filter : LogFilter) (log : ProducedLog) : Bool :=
  loki.selects (buildLogql filter) log.labels log.message.toList

/-- The Loki service lists the entry: `query_range` is about the times from its start on and
before its end. -/
def lokiLists (loki : Loki) (now : Int) (filter : LogFilter) (log : ProducedLog) : Bool :=
  match queryWindow now filter with
  | none => false
  | some (start, stop) =>
    lokiTails loki filter log && decide (start ≤ log.timestamp ∧ log.timestamp < stop)

/-! ## What the text of a query says -/

/-- Characters whose number in a literal is no text: the control characters above 127. -/
def Illegible (c : Char) : Prop := 128 ≤ c.toNat ∧ c.toNat < 160

instance (c : Char) : Decidable (Illegible c) := inferInstanceAs (Decidable (_ ∧ _))

/-- Decided along the text, not over all characters. -/
instance (text : List Char) : Decidable (∀ c ∈ text, ¬ Illegible c) :=
  List.decidableBAll _ text

/-- All characters are read back as they are. -/
def Legible (text : String) : Prop := ∀ c ∈ text.toList, ¬ Illegible c

instance (text : String) : Decidable (Legible text) := inferInstanceAs (Decidable (∀ _ ∈ _, _))

/-- What a literal says that was escaped by `escape_logql_string_literal`. -/
def literalText (text : List Char) : Option (List Char) :=
  if ∀ c ∈ text, ¬ Illegible c then some text else none

theorem hexDigit_jsonHexDigit : ∀ n < 16, hexDigit (jsonHexDigit n) = some n := by decide

/-- The three ways to write a character in a literal. -/
theorem escapeLiteralChar_cases (c : Char) :
    (c.toNat < 128 ∧ ∃ d, escapeLiteralChar c = [jsonBackslash, d] ∧ d ≠ 'x' ∧
      literalEscape d = some c) ∨
    (c.toNat < 160 ∧ escapeLiteralChar c =
      [jsonBackslash, 'x', jsonHexDigit (c.toNat / 16), jsonHexDigit (c.toNat % 16)]) ∨
    (isControl c = false ∧ c ≠ jsonQuote ∧ c ≠ jsonBackslash ∧ escapeLiteralChar c = [c]) := by
  have hletter : ∀ n < 128, c.toNat = n → ∀ d, escapeLiteralChar c = [jsonBackslash, d] →
      d ≠ 'x' → literalEscape d = some (Char.ofNat n) →
      c.toNat < 128 ∧ ∃ d, escapeLiteralChar c = [jsonBackslash, d] ∧ d ≠ 'x' ∧
        literalEscape d = some c := by
    intro n hn hc d hcode hx hd
    rw [← hc, Char.ofNat_toNat] at hd
    exact ⟨by omega, d, hcode, hx, hd⟩
  by_cases hquote : c = jsonQuote
  · left
    exact hletter 34 (by omega) (by rw [hquote]; rfl) jsonQuote
      (by rw [escapeLiteralChar, if_pos hquote]) (by decide) (by decide)
  by_cases hback : c = jsonBackslash
  · left
    exact hletter 92 (by omega) (by rw [hback]; rfl) jsonBackslash
      (by rw [escapeLiteralChar, if_neg hquote, if_pos hback]) (by decide) (by decide)
  by_cases hline : c.toNat = 10
  · left
    exact hletter 10 (by omega) hline 'n'
      (by rw [escapeLiteralChar, if_neg hquote, if_neg hback, if_pos hline]) (by decide)
      (by decide)
  by_cases hreturn : c.toNat = 13
  · left
    exact hletter 13 (by omega) hreturn 'r'
      (by rw [escapeLiteralChar, if_neg hquote, if_neg hback, if_neg hline, if_pos hreturn])
      (by decide) (by decide)
  by_cases htab : c.toNat = 9
  · left
    exact hletter 9 (by omega) htab 't'
      (by rw [escapeLiteralChar, if_neg hquote, if_neg hback, if_neg hline, if_neg hreturn,
        if_pos htab]) (by decide) (by decide)
  right
  rw [escapeLiteralChar, if_neg hquote, if_neg hback, if_neg hline, if_neg hreturn, if_neg htab]
  by_cases hcontrol : isControl c = true
  · left
    rw [if_pos hcontrol]
    rw [isControl, Bool.or_eq_true, Bool.and_eq_true, decide_eq_true_eq, decide_eq_true_eq,
      decide_eq_true_eq] at hcontrol
    exact ⟨by omega, rfl⟩
  · right
    rw [if_neg hcontrol]
    exact ⟨Bool.eq_false_iff.mpr hcontrol, hquote, hback, rfl⟩

/-- What is written as it is, is no line break and legible. -/
theorem not_control {c : Char} (h : isControl c = false) : c.toNat ≠ 10 ∧ ¬ Illegible c := by
  rw [isControl, Bool.or_eq_false_iff, Bool.and_eq_false_iff, decide_eq_false_iff_not,
    decide_eq_false_iff_not, decide_eq_false_iff_not] at h
  rw [Illegible]
  omega

private theorem readLiteral_escapeLiteralChar (c : Char) (rest : List Char) :
    readLiteral .plain (escapeLiteralChar c ++ rest) =
      (readLiteral .plain rest).push (if Illegible c then none else some c) := by
  have hback : jsonBackslash ≠ jsonQuote := by decide
  rcases escapeLiteralChar_cases c with ⟨hlow, d, hcode, hx, hd⟩ | ⟨hlow, hcode⟩ |
    ⟨hplain, hquote, hbackslash, hcode⟩
  · have hlegible : ¬ Illegible c := by
      rw [Illegible]
      omega
    rw [hcode, List.cons_append, List.singleton_append, readLiteral, if_neg hback, if_pos rfl,
      readLiteral, if_neg hx, hd, if_neg hlegible]
  · rw [hcode]
    simp only [List.cons_append, List.nil_append]
    rw [readLiteral, if_neg hback, if_pos rfl, readLiteral, if_pos rfl, readLiteral,
      hexDigit_jsonHexDigit _ (by omega)]
    simp only
    rw [readLiteral, hexDigit_jsonHexDigit _ (by omega)]
    simp only
    rw [Nat.div_add_mod, literalByte]
    by_cases hc : c.toNat < 128
    · have hlegible : ¬ Illegible c := by
        rw [Illegible]
        omega
      rw [if_pos hc, if_neg hlegible, Char.ofNat_toNat]
    · rw [if_neg hc, if_pos ⟨by omega, hlow⟩]
  · obtain ⟨hline, hlegible⟩ := not_control hplain
    rw [hcode, if_neg hlegible, List.singleton_append, readLiteral, if_neg hquote,
      if_neg hbackslash, if_neg hline]

private theorem mapM_legible (text : List Char) :
    text.mapM (fun c ↦ if Illegible c then none else some c) = literalText text := by
  induction text with
  | nil => rfl
  | cons c text ih =>
    rw [List.mapM_cons, ih, literalText, literalText]
    by_cases hc : Illegible c
    · simp [hc]
    · rw [if_neg hc]
      by_cases hrest : ∀ d ∈ text, ¬ Illegible d
      · have hall : ∀ d ∈ c :: text, ¬ Illegible d := by simpa [hc] using hrest
        rw [if_pos hrest, if_pos hall]
        rfl
      · have hall : ¬ ∀ d ∈ c :: text, ¬ Illegible d := by simpa [hc] using hrest
        rw [if_neg hrest, if_neg hall]
        rfl

/-- An escaped literal is read as far as it is legible. -/
theorem readLiteral_escape (text rest : List Char) :
    readLiteral .plain (escapeLogqlStringLiteral text ++ jsonQuote :: rest) =
      some (literalText text, rest) := by
  rw [escapeLogqlStringLiteral, readLiteral_flatMap readLiteral_escapeLiteralChar, mapM_legible]

private theorem readAlternatives_levels (level : LogLevel) :
    readPattern (some (levelsAtOrAbove level)) = some (some (.oneOf
      ([LogLevel.debug, .info, .warn, .error].filter (level.rank ≤ ·.rank) |>.map
        (·.label.toList)))) := by
  cases level <;> decide

private theorem readLiteral_levels (level : LogLevel) (rest : List Char) :
    readLiteral .plain (levelsAtOrAbove level ++ jsonQuote :: rest) =
      some (some (levelsAtOrAbove level), rest) := by
  have hall : (levelsAtOrAbove level).all (fun c ↦ escapeLiteralChar c = [c]) = true := by
    cases level <;> decide
  have hplain : ∀ c ∈ levelsAtOrAbove level, escapeLiteralChar c = [c] := fun c hc ↦
    of_decide_eq_true (List.all_eq_true.mp hall c hc)
  have hescape : escapeLogqlStringLiteral (levelsAtOrAbove level) = levelsAtOrAbove level := by
    rw [escapeLogqlStringLiteral, List.flatMap_congr hplain, List.flatMap_singleton']
  have hlegible : ∀ c ∈ levelsAtOrAbove level, ¬ Illegible c := by
    cases level <;> decide
  have hread := readLiteral_escape (levelsAtOrAbove level) rest
  rwa [hescape, literalText, if_pos hlegible] at hread

theorem readPattern_search (term : List Char) :
    readPattern (literalText (escapeRegex term)) =
      some (if ∀ c ∈ term, ¬ Illegible c then some (.oneOf [term]) else none) := by
  have hlegible : (∀ c ∈ escapeRegex term, ¬ Illegible c) ↔ ∀ c ∈ term, ¬ Illegible c := by
    have hback : ¬ Illegible jsonBackslash := by decide
    simp only [escapeRegex, List.mem_flatMap]
    constructor
    · intro h c hc
      refine h c ⟨c, hc, ?_⟩
      split <;> simp
    · rintro h c ⟨d, hd, hmem⟩
      split at hmem
      · rcases List.mem_cons.mp hmem with rfl | hmem
        · exact hback
        · rw [List.mem_singleton.mp hmem]
          exact h d hd
      · rw [List.mem_singleton.mp hmem]
        exact h d hd
  rw [literalText]
  by_cases h : ∀ c ∈ term, ¬ Illegible c
  · rw [if_pos (hlegible.mpr h), if_pos h, readPattern, readRegex, if_neg]
    · rw [escapeRegex, readAlternatives_escaped fun c ↦ rfl]
      rfl
    · -- An escaped word does not start with a bare dot.
      intro hdot
      cases term with
      | nil => cases hdot
      | cons c term =>
        rw [escapeRegex, List.flatMap_cons] at hdot
        split at hdot
        · injection hdot with hcontra _
          exact absurd hcontra (by decide)
        · next hc =>
          injection hdot with hcontra _
          exact hc (hcontra ▸ by decide)
  · rw [if_neg (fun hall ↦ h (hlegible.mp hall)), if_neg h]
    rfl

/-- The matchers that `build_logql` writes, as they are read. -/
def filterMatchers (filter : LogFilter) : List LogqlMatcher :=
  (match filter.source with
    | some app => ⟨"app".toList, .equals (literalText app.toList)⟩
    | none => ⟨"app".toList, .fits (some .someText)⟩) ::
  (filter.namespace'.toList.map fun namespace' ↦
      ⟨"namespace".toList, .equals (literalText namespace'.toList)⟩) ++
  (filter.deploymentId.toList.map fun deploymentId ↦
      ⟨"deployment_id".toList, .equals (literalText deploymentId.toList)⟩) ++
  filter.minLevel.toList.map fun minLevel ↦
    ⟨"level".toList, .fits (some (.oneOf
      ([LogLevel.debug, .info, .warn, .error].filter (minLevel.rank ≤ ·.rank) |>.map
        (·.label.toList))))⟩

/-- The line filter that `build_logql` writes, as it is read. -/
def filterLines (filter : LogFilter) : Option (Option LogqlRegex) :=
  filter.search.map fun search ↦
    if ∀ c ∈ search.toList, ¬ Illegible c then some (.oneOf [search.toList]) else none

/-- `build_logql` writes a query that is read as the filter says. -/
theorem readLogql_buildLogql (filter : LogFilter) :
    readLogql (buildLogql filter) = some ⟨filterMatchers filter, filterLines filter⟩ := by
  have happ : ("app".toList).all isWordChar = true := by decide
  have hns : ("namespace".toList).all isWordChar = true := by decide
  have hdep : ("deployment_id".toList).all isWordChar = true := by decide
  have hlevel : ("level".toList).all isWordChar = true := by decide
  have hne : (logqlSelectors filter).zip (filterMatchers filter) ≠ [] := by
    simp [logqlSelectors, filterMatchers]
  have hall : List.Forall₂ (fun t m ↦ ∀ rest, readMatcher (t ++ rest) = some (m, rest))
      (logqlSelectors filter) (filterMatchers filter) := by
    refine List.rel_append (List.rel_append (.cons ?_ ?_) ?_) ?_
    · intro rest
      cases filter.source with
      | some app => exact readMatcher_equals happ rest (readLiteral_escape _ _)
      | none => exact readMatcher_fits happ rest rfl rfl
    · cases filter.namespace' with
      | none => exact .nil
      | some ns =>
        exact .cons (fun rest ↦ readMatcher_equals hns rest (readLiteral_escape _ _)) .nil
    · cases filter.deploymentId with
      | none => exact .nil
      | some id =>
        exact .cons (fun rest ↦ readMatcher_equals hdep rest (readLiteral_escape _ _)) .nil
    · cases filter.minLevel with
      | none => exact .nil
      | some level =>
        exact .cons (fun rest ↦ readMatcher_fits hlevel rest (readLiteral_levels level rest)
          (readAlternatives_levels level)) .nil
  obtain ⟨hlen, hzip⟩ := List.forall₂_iff_zip.mp hall
  have hread : ∀ m ∈ (logqlSelectors filter).zip (filterMatchers filter), ∀ rest,
      readMatcher (m.1 ++ rest) = some (m.2, rest) := fun m hm ↦ hzip hm
  have hfst : ((logqlSelectors filter).zip (filterMatchers filter)).map Prod.fst =
      logqlSelectors filter := List.map_fst_zip (by omega)
  have hsnd : ((logqlSelectors filter).zip (filterMatchers filter)).map Prod.snd =
      filterMatchers filter := List.map_snd_zip (by omega)
  rw [buildLogql, filterLines, ← hfst]
  cases hsearch : filter.search with
  | none =>
    rw [Option.map_none, readLogql_selector hne hread, hsnd]
    rfl
  | some search =>
    rw [Option.map_some, readLogql_filter hne hread (readLiteral_escape _ _)
      (readPattern_search search.toList), hsnd]
    rfl

/-! ## What the backends select -/

/-- An optional text of the filter, compared with an attribute of the entry. -/
def FieldIs (field : Option String) (value : String) : Prop := ∀ text ∈ field, text = value

/-- What both backends ask of an entry alike. -/
structure CommonFields (filter : LogFilter) (log : ProducedLog) : Prop where
  source : FieldIs filter.source log.project
  minLevel : ∀ level ∈ filter.minLevel, level.rank ≤ log.level.rank
  search : ∀ search ∈ filter.search, search.toList <:+: log.message.toList

/-- What the in-process service asks of an entry beside: its times, and that the deployment id is
the name of the project. -/
structure LocalFields (filter : LogFilter) (log : ProducedLog) : Prop where
  since : ∀ since ∈ filter.since, since ≤ log.timestamp
  until' : ∀ until' ∈ filter.until', log.timestamp ≤ until'
  deploymentId : FieldIs filter.deploymentId log.project

/-- What the Loki service asks of an entry beside: its namespace and deployment, in texts that can
be written in a query. -/
structure LokiFields (filter : LogFilter) (log : ProducedLog) : Prop where
  (namespace' : FieldIs filter.namespace' log.namespace')
  deploymentId : FieldIs filter.deploymentId log.deployment
  legible : ∀ search ∈ filter.search, Legible search
  legibleSource : ∀ source ∈ filter.source, Legible source
  legibleNamespace : ∀ ns ∈ filter.namespace', Legible ns
  legibleDeployment : ∀ id ∈ filter.deploymentId, Legible id

/-- The window of a listing: the last hour up to now where the filter sets no times. -/
def InWindow (now : Int) (filter : LogFilter) (log : ProducedLog) : Prop :=
  ∃ start stop, queryWindow now filter = some (start, stop) ∧
    start ≤ log.timestamp ∧ log.timestamp < stop

variable {filter : LogFilter} {log : ProducedLog} {loki : Loki} {now : Int}

private theorem ite_false_iff {p : Prop} [Decidable p] {b : Bool} :
    (if p then false else b) = true ↔ ¬ p ∧ b = true := by
  split <;> simp_all

theorem localSelects_iff :
    localSelects filter log = true ↔ CommonFields filter log ∧ LocalFields filter log := by
  simp only [localSelects, matchesFilter, ite_false_iff, Option.any_eq_true, decide_eq_true_eq,
    not_exists, not_and, Nat.not_lt, Int.not_lt, not_not, and_true, ne_eq]
  constructor
  · rintro ⟨hsource, hlevel, hsince, huntil, hsearch, hid⟩
    exact ⟨⟨fun s hs ↦ (hsource s hs).symm, hlevel, hsearch⟩,
      hsince, huntil, fun id hid' ↦ (hid id hid').symm⟩
  · rintro ⟨hcommon, hlocal⟩
    exact ⟨fun s hs ↦ (hcommon.source s hs).symm, hcommon.minLevel,
      hlocal.since, hlocal.until', hcommon.search,
      fun id hid ↦ (hlocal.deploymentId id hid).symm⟩

/-- A literal in a query is compared with legible values alone. -/
private theorem holds_equals {text value : List Char} :
    (LogqlCondition.equals (literalText text)).holds value = true ↔
      (∀ c ∈ text, ¬ Illegible c) ∧ text = value := by
  rw [LogqlCondition.holds, decide_eq_true_eq, literalText]
  by_cases h : ∀ c ∈ text, ¬ Illegible c
  · rw [if_pos h, Option.some.injEq]
    exact ⟨fun heq ↦ ⟨h, heq⟩, fun heq ↦ heq.2⟩
  · rw [if_neg h]
    exact ⟨fun heq ↦ (nomatch heq), fun heq ↦ absurd heq.1 h⟩

private theorem holds_levels {minLevel : LogLevel} : (LogqlCondition.fits (some (.oneOf
      ([LogLevel.debug, .info, .warn, .error].filter (minLevel.rank ≤ ·.rank) |>.map
        (·.label.toList))))).holds log.level.label.toList = true ↔
      minLevel.rank ≤ log.level.rank := by
  cases minLevel <;> cases log.level <;> decide

/-- The label that a matcher names. -/
private theorem labels_apply (log : ProducedLog) : log.labels "app".toList = log.project.toList ∧
    log.labels "namespace".toList = log.namespace'.toList ∧
    log.labels "deployment_id".toList = log.deployment.toList ∧
    log.labels "level".toList = log.level.label.toList := by
  refine ⟨?_, ?_, ?_, ?_⟩
  · rw [ProducedLog.labels, if_pos rfl]
  · rw [ProducedLog.labels, if_neg (by decide), if_pos rfl]
  · rw [ProducedLog.labels, if_neg (by decide), if_neg (by decide), if_pos rfl]
  · rw [ProducedLog.labels, if_neg (by decide), if_neg (by decide), if_neg (by decide),
      if_pos rfl]

/-- An optional matcher holds when it is there only if its field agrees. -/
private theorem all_field {field : Option String} {label : List Char} {value : String}
    (hlabel : log.labels label = value.toList) :
    ((field.toList.map fun text ↦
        (⟨label, .equals (literalText text.toList)⟩ : LogqlMatcher)).all
      fun m ↦ m.condition.holds (log.labels m.label)) = true ↔
      (∀ text ∈ field, Legible text) ∧ FieldIs field value := by
  cases field with
  | none => simp [FieldIs]
  | some text =>
    simp only [Option.toList_some, List.map_cons, List.map_nil, List.all_cons, List.all_nil,
      Bool.and_true, hlabel, holds_equals, FieldIs, Option.mem_some_iff, String.toList_inj]
    constructor
    · rintro ⟨hlegible, heq⟩
      exact ⟨fun t ht ↦ ht ▸ hlegible, fun t ht ↦ ht ▸ heq⟩
    · rintro ⟨hlegible, heq⟩
      exact ⟨hlegible text rfl, heq text rfl⟩

/-- The matcher of the label `app`, which every query has. -/
def sourceMatcher (filter : LogFilter) : LogqlMatcher :=
  match filter.source with
  | some app => ⟨"app".toList, .equals (literalText app.toList)⟩
  | none => ⟨"app".toList, .fits (some .someText)⟩

private theorem holds_source : (sourceMatcher filter).condition.holds
    (log.labels (sourceMatcher filter).label) = true ↔
      (∀ source ∈ filter.source, Legible source) ∧ FieldIs filter.source log.project := by
  have happ := (labels_apply log).1
  rw [sourceMatcher]
  cases filter.source with
  | none =>
    dsimp only
    rw [happ]
    simpa [FieldIs, LogqlCondition.holds] using log.named
  | some app =>
    dsimp only
    rw [happ]
    simp only [holds_equals, FieldIs, Option.mem_some_iff, String.toList_inj]
    constructor
    · rintro ⟨hlegible, heq⟩
      exact ⟨fun t ht ↦ ht ▸ hlegible, fun t ht ↦ ht ▸ heq⟩
    · rintro ⟨hlegible, heq⟩
      exact ⟨hlegible app rfl, heq app rfl⟩

/-- A project has a name, so what holds for it asks for the label. -/
private theorem asks_source (h : FieldIs filter.source log.project) :
    (sourceMatcher filter).condition.holds [] = false := by
  have hnamed := log.named
  rw [sourceMatcher]
  cases hsource : filter.source with
  | none => rfl
  | some app =>
    obtain rfl := h app hsource
    rw [← Bool.not_eq_true, holds_equals]
    rintro ⟨-, hempty⟩
    rw [LogqlRegex.fits, hempty] at hnamed
    cases hnamed

theorem lokiTails_iff (hloki : loki.ReadsLogql) :
    lokiTails loki filter log = true ↔ CommonFields filter log ∧ LokiFields filter log := by
  obtain ⟨-, hns, hdep, hlevel⟩ := labels_apply log
  have hlevels : ((filter.minLevel.toList.map fun minLevel ↦
      (⟨"level".toList, .fits (some (.oneOf
        ([LogLevel.debug, .info, .warn, .error].filter (minLevel.rank ≤ ·.rank) |>.map
          (·.label.toList))))⟩ : LogqlMatcher)).all
      fun m ↦ m.condition.holds (log.labels m.label)) = true ↔
      ∀ level ∈ filter.minLevel, level.rank ≤ log.level.rank := by
    cases filter.minLevel with
    | none => simp
    | some minLevel =>
      simp only [Option.toList_some, List.map_cons, List.map_nil, List.all_cons, List.all_nil,
        Bool.and_true, hlevel, holds_levels, Option.mem_some_iff, forall_eq']
  have hlines : ((filterLines filter).all fun regex ↦
      regex.any (·.occurs log.message.toList)) = true ↔
      (∀ search ∈ filter.search, Legible search) ∧
        ∀ search ∈ filter.search, search.toList <:+: log.message.toList := by
    rw [filterLines]
    cases filter.search with
    | none => simp
    | some search =>
      by_cases hlegible : ∀ c ∈ search.toList, ¬ Illegible c
      · simp only [Option.map_some, if_pos hlegible, Option.all_some, Option.any_some,
          LogqlRegex.occurs, List.any_cons, List.any_nil, Bool.or_false, decide_eq_true_eq,
          Option.mem_some_iff, forall_eq']
        exact ⟨fun h ↦ ⟨hlegible, h⟩, fun h ↦ h.2⟩
      · simp only [Option.map_some, if_neg hlegible, Option.all_some, Option.any_none,
          Bool.false_eq_true, Option.mem_some_iff, forall_eq']
        exact ⟨fun h ↦ h.elim, fun h ↦ hlegible h.1⟩
  have hmatchers : filterMatchers filter = sourceMatcher filter :: _ ++ _ ++ _ := rfl
  rw [lokiTails, hloki _ _ _ _ (readLogql_buildLogql filter), LogqlQuery.selects]
  simp only [Bool.and_eq_true, hlines]
  rw [hmatchers]
  simp only [List.all_append, List.all_cons, Bool.and_eq_true, holds_source, all_field hns,
    all_field hdep, hlevels, List.any_append, List.any_cons, Bool.or_eq_true]
  constructor
  · rintro ⟨⟨-, ⟨⟨⟨hls, hs⟩, hln, hn⟩, hld, hd⟩, hl⟩, hlsearch, hsearch⟩
    exact ⟨⟨hs, hl, hsearch⟩, hn, hd, hlsearch, hls, hln, hld⟩
  · rintro ⟨⟨hs, hl, hsearch⟩, hn, hd, hlsearch, hls, hln, hld⟩
    refine ⟨⟨.inl (.inl (.inl ?_)), ⟨⟨⟨hls, hs⟩, hln, hn⟩, hld, hd⟩, hl⟩, hlsearch, hsearch⟩
    rw [asks_source hs]
    rfl

theorem lokiLists_iff (hloki : loki.ReadsLogql) : lokiLists loki now filter log = true ↔
    CommonFields filter log ∧ LokiFields filter log ∧ InWindow now filter log := by
  rw [lokiLists, InWindow]
  cases hwindow : queryWindow now filter with
  | none => simp
  | some window =>
    obtain ⟨start, stop⟩ := window
    rw [Bool.and_eq_true, lokiTails_iff hloki, decide_eq_true_eq, and_assoc]
    simp

end ReinhardtCloud.Telemetry
