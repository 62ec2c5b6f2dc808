import ReinhardtCloud.Base.Affixes
import ReinhardtCloud.Base.Numerals
import ReinhardtCloud.Operator.Migration

/-!
# How long a preview may stay idle

Library `Operator`. `is_ttl_expired` and `parse_duration`
(`crates/reinhardt-cloud-operator/src/resources/preview.rs:234–266`). The TTL is any string of the
Project's spec. Times and durations are counts of nanoseconds.
-/

namespace ReinhardtCloud.Operator.Previews

open ReinhardtCloud.Base

/-- The functions of `chrono` that the check calls. -/
structure Chrono where
  /-- `DateTime::parse_from_rfc3339`. -/
  parseFromRfc3339 : String → Option Int
  /-- `Duration::try_hours`. -/
  tryHours : Int → Option Int
  /-- `Duration::try_days`. -/
  tryDays : Int → Option Int

/-- An hour. -/
def hour : Int := 3600 * 10 ^ 9

/-- A duration that `chrono` has: up to `i64::MAX` milliseconds either way. -/
def IsTimeDelta (duration : Int) : Prop :=
  -((2 ^ 63 - 1) * 10 ^ 6) ≤ duration ∧ duration ≤ (2 ^ 63 - 1) * 10 ^ 6

/-- `Duration::try_hours` and `Duration::try_days` as they are documented. -/
structure Chrono.Lawful (chrono : Chrono) : Prop where
  tryHours : ∀ n duration, chrono.tryHours n = some duration ↔
    duration = n * hour ∧ IsTimeDelta duration
  tryDays : ∀ n duration, chrono.tryDays n = some duration ↔
    duration = n * (24 * hour) ∧ IsTimeDelta duration

variable (chrono : Chrono)

/-- `parse_duration`, `preview.rs:250–266`; `none` where it panics. -/
def parseDuration (ttl : String) : Option (Option Int) :=
  let s := trim ttl
  if s.isEmpty then some none
  else
    (splitAtByte (s.utf8ByteSize - 1) s.toList).map fun parts ↦
      match parseSigned 64 parts.1 with
      | none => none
      | some value =>
        if parts.2 = ['h'] then chrono.tryHours value
        else if parts.2 = ['d'] then chrono.tryDays value
        else none

/-- `is_ttl_expired`, `preview.rs:234–247`, at a time; `none` where it panics. -/
def isTtlExpired (now : Int) (lastActivity ttl : String) : Option Bool :=
  match chrono.parseFromRfc3339 lastActivity with
  | none => some false
  | some activityTime =>
    (parseDuration chrono ttl).map fun parsed ↦
      match parsed with
      | none => false
      | some duration => now - activityTime > duration

/-! ## What a TTL says -/

/-- The TTL is an integer number of hours or days. -/
def IsTtl (ttl : String) (duration : Int) : Prop :=
  ∃ numeral n, IsNumeral numeral n ∧ FitsSigned 64 n ∧ IsTimeDelta duration ∧
    ((trim ttl).toList = numeral ++ ['h'] ∧ duration = n * hour ∨
      (trim ttl).toList = numeral ++ ['d'] ∧ duration = n * (24 * hour))

/-- The last character of the TTL, if there is one, is an ASCII character. -/
def EndsInAscii (ttl : String) : Prop :=
  ∀ c, (trim ttl).toList.getLast? = some c → c.utf8Size = 1

variable {chrono : Chrono} {ttl lastActivity : String}

/-- The last character is split off, or the split panics. -/
theorem parseDuration_of_last {init : List Char} {c : Char}
    (h : (trim ttl).toList = init ++ [c]) : parseDuration chrono ttl =
      if c.utf8Size = 1 then
        some (match parseSigned 64 init with
          | none => none
          | some value =>
            if c = 'h' then chrono.tryHours value
            else if c = 'd' then chrono.tryDays value
            else none)
      else none := by
  have hne : (trim ttl).isEmpty = false := by
    rw [Bool.eq_false_iff, ne_eq, String.isEmpty_iff]
    intro hempty
    rw [hempty] at h
    exact List.cons_ne_nil _ _ (List.append_eq_nil_iff.mp h.symm).2
  have hsize : (trim ttl).utf8ByteSize = (String.ofList (init ++ [c])).utf8ByteSize := by
    rw [← h, String.ofList_toList]
  have hlist (d : Char) : ([c] = [d]) = (c = d) := by
    rw [List.cons.injEq, eq_self_iff_true, and_true]
  simp only [parseDuration, hne, Bool.false_eq_true, ↓reduceIte, hsize, h, splitAtByte_last]
  by_cases hc : c.utf8Size = 1
  · simp only [hc, ↓reduceIte, Option.map_some, hlist]
  · simp only [hc, ↓reduceIte, Option.map_none]

theorem parseDuration_of_empty (h : (trim ttl).toList = []) :
    parseDuration chrono ttl = some none := by
  have hempty : (trim ttl).isEmpty = true := by
    rw [String.isEmpty_iff]
    exact String.toList_inj.mp h
  simp only [parseDuration, hempty, ↓reduceIte]

/-- Nothing is read only where the last character has more than one byte. -/
theorem parseDuration_ne_none_iff : parseDuration chrono ttl ≠ none ↔ EndsInAscii ttl := by
  unfold EndsInAscii
  rcases List.eq_nil_or_concat (trim ttl).toList with h | ⟨init, c, h⟩
  · rw [parseDuration_of_empty h, h]
    exact iff_of_true (Option.some_ne_none _) fun _ hc ↦ nomatch hc
  · rw [List.concat_eq_append] at h
    rw [parseDuration_of_last h, h, List.getLast?_concat]
    by_cases hc : c.utf8Size = 1
    · rw [if_pos hc]
      exact iff_of_true (Option.some_ne_none _) fun _ hd ↦ Option.some_inj.mp hd ▸ hc
    · rw [if_neg hc]
      exact iff_of_false (fun hne ↦ hne rfl) fun hall ↦ hc (hall c rfl)

/-- A duration is read exactly from the TTLs that say it. -/
theorem parseDuration_eq_some_iff (hchrono : chrono.Lawful) {duration : Int} :
    parseDuration chrono ttl = some (some duration) ↔ IsTtl ttl duration := by
  unfold IsTtl
  rcases List.eq_nil_or_concat (trim ttl).toList with h | ⟨init, c, h⟩
  · rw [parseDuration_of_empty h, h]
    refine iff_of_false (fun h ↦ nomatch h) ?_
    rintro ⟨numeral, n, -, -, -, ⟨hnil, -⟩ | ⟨hnil, -⟩⟩
    · exact List.cons_ne_nil _ _ (List.append_eq_nil_iff.mp hnil.symm).2
    · exact List.cons_ne_nil _ _ (List.append_eq_nil_iff.mp hnil.symm).2
  · rw [List.concat_eq_append] at h
    have hparts (numeral : List Char) (d : Char) :
        init ++ [c] = numeral ++ [d] ↔ init = numeral ∧ c = d := by
      constructor
      · intro heq
        obtain ⟨hinit, hlast⟩ := List.append_inj' heq rfl
        exact ⟨hinit, (List.cons.inj hlast).1⟩
      · rintro ⟨rfl, rfl⟩
        rfl
    rw [parseDuration_of_last h, h]
    simp only [hparts]
    constructor
    · intro hparsed
      rw [Option.ite_none_right_eq_some, Option.some_inj] at hparsed
      cases hvalue : parseSigned 64 init with
      | none =>
        rw [hvalue] at hparsed
        exact absurd hparsed.2 (by simp only [reduceCtorEq, not_false_eq_true])
      | some n =>
        obtain ⟨hnumeral, hfits⟩ := parseSigned_eq_some_iff.mp hvalue
        rw [hvalue] at hparsed
        have hduration := hparsed.2
        dsimp only at hduration
        by_cases hh : c = 'h'
        · rw [if_pos hh, hchrono.tryHours] at hduration
          exact ⟨init, n, hnumeral, hfits, hduration.2, .inl ⟨⟨rfl, hh⟩, hduration.1⟩⟩
        · rw [if_neg hh, Option.ite_none_right_eq_some, hchrono.tryDays] at hduration
          obtain ⟨hd, hn, hdelta⟩ := hduration
          exact ⟨init, n, hnumeral, hfits, hdelta, .inr ⟨⟨rfl, hd⟩, hn⟩⟩
    · rintro ⟨numeral, n, hnumeral, hfits, hdelta, ⟨⟨rfl, rfl⟩, hn⟩ | ⟨⟨rfl, rfl⟩, hn⟩⟩
      · have hvalue := parseSigned_eq_some_iff.mpr ⟨hnumeral, hfits⟩
        have hsize : 'h'.utf8Size = 1 := rfl
        rw [if_pos hsize, hvalue, Option.some_inj]
        exact (hchrono.tryHours n duration).mpr ⟨hn, hdelta⟩
      · have hvalue := parseSigned_eq_some_iff.mpr ⟨hnumeral, hfits⟩
        have hsize : 'd'.utf8Size = 1 := rfl
        rw [if_pos hsize, hvalue, Option.some_inj]
        exact (hchrono.tryDays n duration).mpr ⟨hn, hdelta⟩

/-- Once expired, a preview stays expired. -/
theorem isTtlExpired_mono {now later : Int} (hle : now ≤ later)
    (h : isTtlExpired chrono now lastActivity ttl = some true) :
    isTtlExpired chrono later lastActivity ttl = some true := by
  unfold isTtlExpired at h ⊢
  cases hactivity : chrono.parseFromRfc3339 lastActivity with
  | none =>
    rw [hactivity] at h
    cases h
  | some activityTime =>
    rw [hactivity] at h
    dsimp only at h ⊢
    cases hparsed : parseDuration chrono ttl with
    | none =>
      rw [hparsed] at h
      cases h
    | some parsed =>
      rw [hparsed, Option.map_some, Option.some_inj] at h
      rw [Option.map_some, Option.some_inj]
      cases parsed with
      | none => cases h
      | some duration =>
        rw [decide_eq_true_eq] at h ⊢
        omega

/-- A preview that is reported as expired has been idle for longer than its TTL. -/
theorem expired_of_isTtlExpired (hchrono : chrono.Lawful) {now : Int}
    (h : isTtlExpired chrono now lastActivity ttl = some true) :
    ∃ activityTime duration, chrono.parseFromRfc3339 lastActivity = some activityTime ∧
      IsTtl ttl duration ∧ activityTime + duration < now := by
  unfold isTtlExpired at h
  cases hactivity : chrono.parseFromRfc3339 lastActivity with
  | none =>
    rw [hactivity] at h
    cases h
  | some activityTime =>
    rw [hactivity] at h
    dsimp only at h
    cases hparsed : parseDuration chrono ttl with
    | none =>
      rw [hparsed] at h
      cases h
    | some parsed =>
      rw [hparsed, Option.map_some, Option.some_inj] at h
      cases parsed with
      | none => cases h
      | some duration =>
        rw [decide_eq_true_eq] at h
        exact ⟨activityTime, duration, rfl, (parseDuration_eq_some_iff hchrono).mp hparsed,
          by omega⟩

/-- What the check promises for a TTL and a last activity. -/
structure TtlSafe (chrono : Chrono) (lastActivity ttl : String) : Prop where
  /-- It does not panic. -/
  returns : ∀ now, isTtlExpired chrono now lastActivity ttl ≠ none
  parsed : ∀ duration, parseDuration chrono ttl = some (some duration) ↔ IsTtl ttl duration
  monotone : ∀ now later, now ≤ later → isTtlExpired chrono now lastActivity ttl = some true →
    isTtlExpired chrono later lastActivity ttl = some true
  /-- It reports no preview whose TTL has not passed. -/
  notEarly : ∀ now, isTtlExpired chrono now lastActivity ttl = some true →
    ∃ activityTime duration, chrono.parseFromRfc3339 lastActivity = some activityTime ∧
      IsTtl ttl duration ∧ activityTime + duration < now

/-- The check keeps its promises exactly when the last activity is no time or the TTL does not end
in a character of several bytes. -/
theorem ttl_safe_iff (hchrono : chrono.Lawful) (lastActivity ttl : String) :
    TtlSafe chrono lastActivity ttl ↔
      chrono.parseFromRfc3339 lastActivity = none ∨ EndsInAscii ttl := by
  have hreturns : (∀ now, isTtlExpired chrono now lastActivity ttl ≠ none) ↔
      chrono.parseFromRfc3339 lastActivity = none ∨ EndsInAscii ttl := by
    rw [← @parseDuration_ne_none_iff chrono ttl]
    unfold isTtlExpired
    cases hactivity : chrono.parseFromRfc3339 lastActivity with
    | none => exact iff_of_true (fun _ h ↦ nomatch h) (.inl rfl)
    | some activityTime =>
      dsimp only
      rw [or_iff_right (Option.some_ne_none _)]
      constructor
      · intro h hnone
        exact h 0 (Option.map_eq_none_iff.mpr hnone)
      · intro h now hnone
        exact h (Option.map_eq_none_iff.mp hnone)
  rw [← hreturns]
  constructor
  · intro h
    exact h.returns
  · intro h
    exact ⟨h, fun _ ↦ parseDuration_eq_some_iff hchrono, fun _ _ ↦ isTtlExpired_mono,
      fun _ ↦ expired_of_isTtlExpired hchrono⟩

/-- `chrono` with one point in time. -/
def epochChrono : Chrono where
  parseFromRfc3339 text := if text = "1970-01-01T00:00:00Z" then some 0 else none
  tryHours n :=
    if -((2 ^ 63 - 1) * 10 ^ 6) ≤ n * hour ∧ n * hour ≤ (2 ^ 63 - 1) * 10 ^ 6 then some (n * hour)
    else none
  tryDays n :=
    if -((2 ^ 63 - 1) * 10 ^ 6) ≤ n * (24 * hour) ∧ n * (24 * hour) ≤ (2 ^ 63 - 1) * 10 ^ 6 then
      some (n * (24 * hour))
    else none

theorem epochChrono_lawful : epochChrono.Lawful := by
  have hchecked : ∀ (n duration : Int),
      (if -((2 ^ 63 - 1) * 10 ^ 6) ≤ n ∧ n ≤ (2 ^ 63 - 1) * 10 ^ 6 then some n else none) =
        some duration ↔
      duration = n ∧ -((2 ^ 63 - 1) * 10 ^ 6) ≤ duration ∧ duration ≤ (2 ^ 63 - 1) * 10 ^ 6 := by
    intro n duration
    constructor
    · intro h
      obtain ⟨hdelta, heq⟩ := (Option.ite_none_right_eq_some).mp h
      exact ⟨(Option.some_inj.mp heq).symm, Option.some_inj.mp heq ▸ hdelta⟩
    · rintro ⟨rfl, hdelta⟩
      exact if_pos hdelta
  constructor
  · exact fun n duration ↦ hchecked (n * hour) duration
  · exact fun n duration ↦ hchecked (n * (24 * hour)) duration

theorem ttl_safe_iff_epoch : TtlSafe epochChrono "1970-01-01T00:00:00Z" "72h" := by
  refine (ttl_safe_iff epochChrono_lawful _ _).mpr (.inr ?_)
  intro c hc
  have hlast : (trim "72h").toList.getLast? = some 'h' := by decide
  rw [← Option.some_inj.mp (hlast.symm.trans hc)]
  rfl

/-- Three days with the sign for days instead of the letter. -/
theorem ttl_of_several_bytes_panics :
    isTtlExpired epochChrono 0 "1970-01-01T00:00:00Z" "3日" = none ∧
      ¬ TtlSafe epochChrono "1970-01-01T00:00:00Z" "3日" := by
  have hpanics : isTtlExpired epochChrono 0 "1970-01-01T00:00:00Z" "3日" = none := by decide
  exact ⟨hpanics, fun h ↦ h.returns 0 hpanics⟩

end ReinhardtCloud.Operator.Previews
