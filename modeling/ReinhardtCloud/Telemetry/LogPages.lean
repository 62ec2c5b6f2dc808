import ReinhardtCloud.Base.Paging
import ReinhardtCloud.Base.Saturation
import ReinhardtCloud.Telemetry.LogBackends

/-!
# Pages of the log

Library `Telemetry`. `list_logs` of both log services and the legacy `list` of the Loki one
(`crates/reinhardt-cloud-core/src/services/log/local.rs`,
`crates/reinhardt-cloud-telemetry/src/log_service/loki/mod.rs`), page after page of one log. All
pages are read at one time.
-/

namespace ReinhardtCloud.Telemetry

open ReinhardtCloud.Base

/-! ## Pagination, `crates/reinhardt-cloud-core/src/pagination.rs` -/

/-- `PaginationParams`, as requested. -/
structure PaginationParams where
  requestedPage : Option Nat
  requestedSize : Option Nat

/-- `page`, from one. -/
def PaginationParams.page (params : PaginationParams) : Nat := max (params.requestedPage.getD 1) 1

/-- The size of the pages that is used where such a one is requested. -/
def effectiveSize (requested : Option Nat) : Nat := min (max (requested.getD 20) 1) 100

/-- `page_size`. -/
def PaginationParams.pageSize (params : PaginationParams) : Nat :=
  effectiveSize params.requestedSize

/-- `offset`. -/
def PaginationParams.offset (params : PaginationParams) : Nat :=
  saturatingMul 64 (params.page - 1) params.pageSize

/-- `PaginatedResponse`. -/
structure PaginatedResponse (α : Type) where
  items : List α
  total : Nat
  page : Nat
  pageSize : Nat
  totalPages : Nat

/-- `PaginatedResponse::new`. -/
def PaginatedResponse.new {α : Type} (items : List α) (total : Nat) (params : PaginationParams) :
    PaginatedResponse α :=
  ⟨items, total, params.page, params.pageSize,
    if total = 0 then 0 else pageCount total params.pageSize⟩

/-! ## Lines -/

/-- `LogFields`, as far as a post-filter reads them. -/
structure LogFields where
  reconcileId : Option String
  resourceNamespace : Option String

/-- A line of a log. Two lines may say the same, so each has a place; the fields are what
`core_entry_to_legacy` reads of its text. -/
structure StoredLine where
  place : Nat
  log : ProducedLog
  fields : LogFields

/-- The time by which lines are sorted. -/
def StoredLine.timestamp (line : StoredLine) : Int := line.log.timestamp

/-! ## The in-process service -/

/-- The lines of a `LogBuffer`. Their number is a `usize`. -/
structure LogBuffer where
  lines : List StoredLine
  nodup : lines.Nodup
  fits : lines.length < 2 ^ 64

/-- `LogBuffer::query`. -/
def LogBuffer.query (buffer : LogBuffer) (filter : LogFilter) : List StoredLine :=
  buffer.lines.filter fun line ↦ matchesFilter line.log.entry filter

/-- `LocalLogService::list_logs`, `local.rs:60–73`. -/
def LogBuffer.listLogs (buffer : LogBuffer) (filter : LogFilter) (pagination : PaginationParams) :
    PaginatedResponse StoredLine :=
  let all := buffer.query filter
  .new ((all.drop pagination.offset).take pagination.pageSize) all.length pagination

/-! ## The Loki service -/

/-- The lines that Loki keeps. -/
structure LogStore where
  lines : List StoredLine
  nodup : lines.Nodup

/-- The lines of the window that a query selects. -/
def LogStore.selected (store : LogStore) (loki : Loki) (logql : List Char) (start stop : Int) :
    List StoredLine :=
  store.lines.filter fun line ↦ loki.selects logql line.log.labels line.log.message.toList &&
    decide (start ≤ line.timestamp ∧ line.timestamp < stop)

/-- How Loki answers `query_range` backward: with streams of the newest lines that are selected, up
to the limit. -/
structure QueryRange (loki : Loki) (store : LogStore) where
  answer : List Char → Int → Int → Nat → List (List StoredLine)
  newest : ∀ logql start stop limit,
    IsNewest StoredLine.timestamp (store.selected loki logql start stop) limit
      (answer logql start stop limit).flatten

/-- `parse_query_range`: the lines of all streams, the oldest first. -/
def parseQueryRange (streams : List (List StoredLine)) : List StoredLine :=
  oldestFirst StoredLine.timestamp streams.flatten

section Services

variable {loki : Loki} {store : LogStore}

/-- `query_range_entries`, `loki/mod.rs:76–128`: absent where the answer is `BadRequest`. -/
def queryRangeEntries (api : QueryRange loki store) (now : Int) (filter : LogFilter)
    (limit : Nat) : Option (List StoredLine) :=
  (queryWindow now filter).map fun window ↦
    parseQueryRange (api.answer (buildLogql filter) window.1 window.2 (max limit 1))

/-- `list_logs`, `loki/mod.rs:149–164`. -/
def listLogs (api : QueryRange loki store) (now : Int) (filter : LogFilter)
    (pagination : PaginationParams) : Option (PaginatedResponse StoredLine) :=
  let offset := pagination.offset
  let pageSize := pagination.pageSize
  let fetchLimit := max (saturatingAdd 64 offset pageSize) 1
  (queryRangeEntries api now filter fetchLimit).map fun entries ↦
    .new ((entries.drop offset).take pageSize) entries.length pagination

/-- The `LogLevel` of the legacy service. -/
inductive LegacyLogLevel where
  | trace
  | debug
  | info
  | warn
  | error

/-- `legacy_level_to_core`. -/
def legacyLevelToCore : LegacyLogLevel → LogLevel
  | .trace | .debug => .debug
  | .info => .info
  | .warn => .warn
  | .error => .error

/-- The `LogFilter` of the legacy service. -/
structure LegacyLogFilter where
  reconcileId : Option String := none
  deploymentId : Option String := none
  (namespace' : Option String := none)
  minLevel : Option LegacyLogLevel := none

/-- `legacy_filter_to_core`. -/
def legacyFilterToCore (filter : LegacyLogFilter) : LogFilter where
  minLevel := filter.minLevel.map legacyLevelToCore
  deploymentId := filter.deploymentId

/-- `legacy_filter_requires_post_filter`. -/
def legacyFilterRequiresPostFilter (filter : LegacyLogFilter) : Bool :=
  filter.reconcileId.isSome || filter.namespace'.isSome

/-- `legacy_record_matches_post_filter`. -/
def legacyRecordMatchesPostFilter (filter : LegacyLogFilter) (record : StoredLine) : Bool :=
  if filter.reconcileId.any fun id ↦ record.fields.reconcileId ≠ some id then false
  else if filter.namespace'.any fun ns ↦ record.fields.resourceNamespace ≠ some ns then false
  else true

/-- `Pagination`. -/
structure Pagination where
  offset : Nat
  limit : Nat

/-- `LEGACY_PREFILTER_SCAN_LIMIT`. -/
def legacyPrefilterScanLimit : Nat := 5000

/-- `legacy_fetch_target`. -/
def legacyFetchTarget (page : Pagination) : Nat := max (saturatingAdd 64 page.offset page.limit) 1

/-- The `scan_cap` of a target. -/
def scanCap (target : Nat) : Nat := max target legacyPrefilterScanLimit

/-- `next_legacy_prefilter_limit`. -/
def nextLegacyPrefilterLimit (current target : Nat) : Nat :=
  min (max (saturatingMul 64 current 2) target) (scanCap target)

/-- The loop of `list`, `loki/mod.rs:282–309`: the window it ends with and the records kept of it.
Absent where a fetch fails, or without fuel. -/
def legacyScan (fetch : Nat → Option (List StoredLine)) (keep : StoredLine → Bool)
    (target : Nat) : Nat → Nat → Option (Nat × List StoredLine)
  | 0, _ => none
  | fuel + 1, fetchLimit =>
    (fetch fetchLimit).bind fun entries ↦
      let records := entries.filter keep
      if target ≤ records.length ∨ entries.length < fetchLimit ∨ scanCap target ≤ fetchLimit then
        some (fetchLimit, records)
      else
        let nextLimit := nextLegacyPrefilterLimit fetchLimit target
        if nextLimit = fetchLimit then some (fetchLimit, records)
        else legacyScan fetch keep target fuel nextLimit

/-- The scan of a page: its windows grow, so the cap is fuel enough. -/
def legacyPageScan (api : QueryRange loki store) (now : Int) (filter : LegacyLogFilter)
    (page : Pagination) : Option (Nat × List StoredLine) :=
  let target := legacyFetchTarget page
  legacyScan (queryRangeEntries api now (legacyFilterToCore filter))
    (legacyRecordMatchesPostFilter filter) target (scanCap target) target

/-- The legacy `list`, `loki/mod.rs:260–310`. -/
def legacyList (api : QueryRange loki store) (now : Int) (filter : LegacyLogFilter)
    (page : Pagination) : Option (List StoredLine) :=
  if legacyFilterRequiresPostFilter filter = false then
    (queryRangeEntries api now (legacyFilterToCore filter) (legacyFetchTarget page)).map
      fun entries ↦ (entries.drop page.offset).take page.limit
  else
    (legacyPageScan api now filter page).map fun scan ↦ (scan.2.drop page.offset).take page.limit

/-! ## The pages of one log -/

/-- All pages of the in-process service for a requested page size. -/
def LogBuffer.pages (buffer : LogBuffer) (filter : LogFilter) (requested : Option Nat) :
    List (List StoredLine) :=
  (List.range (pageCount (buffer.query filter).length (effectiveSize requested))).map fun k ↦
    (buffer.listLogs filter ⟨some (k + 1), requested⟩).items

/-- The lines of the window that match a filter. -/
def lokiMatches (loki : Loki) (store : LogStore) (now : Int) (filter : LogFilter) :
    List StoredLine :=
  (queryWindow now filter).elim [] fun window ↦
    store.selected loki (buildLogql filter) window.1 window.2

/-- All pages of `list_logs`. -/
def listPages (api : QueryRange loki store) (now : Int) (filter : LogFilter)
    (requested : Option Nat) : List (List StoredLine) :=
  (List.range (pageCount (lokiMatches loki store now filter).length
    (effectiveSize requested))).map fun k ↦
      (listLogs api now filter ⟨some (k + 1), requested⟩).elim [] (·.items)

/-- The lines that match a legacy filter. -/
def legacyMatches (loki : Loki) (store : LogStore) (now : Int) (filter : LegacyLogFilter) :
    List StoredLine :=
  (lokiMatches loki store now (legacyFilterToCore filter)).filter
    (legacyRecordMatchesPostFilter filter)

/-- How many pages of a size a legacy filter has. -/
def legacyPageCount (loki : Loki) (store : LogStore) (now : Int) (filter : LegacyLogFilter)
    (size : Nat) : Nat :=
  pageCount (legacyMatches loki store now filter).length size

/-- The k-th page of the legacy `list`, from zero. -/
def legacyPage (api : QueryRange loki store) (now : Int) (filter : LegacyLogFilter)
    (size k : Nat) : List StoredLine :=
  (legacyList api now filter ⟨k * size, size⟩).getD []

/-- All pages of the legacy `list`. -/
def legacyPages (api : QueryRange loki store) (now : Int) (filter : LegacyLogFilter)
    (size : Nat) : List (List StoredLine) :=
  (List.range (legacyPageCount loki store now filter size)).map (legacyPage api now filter size)

/-- The window of each page ends below the scan cap. -/
def StaysBelowCap (api : QueryRange loki store) (now : Int) (filter : LegacyLogFilter)
    (size : Nat) : Prop :=
  ∀ k < legacyPageCount loki store now filter size, ∃ window records,
    legacyPageScan api now filter ⟨k * size, size⟩ = some (window, records) ∧
      window < scanCap (legacyFetchTarget ⟨k * size, size⟩)

/-- Loki breaks ties by one order of the lines: an answer, once sorted, is the end of it. -/
structure FollowsOrder (api : QueryRange loki store) (now : Int) (filter : LogFilter)
    (order : List StoredLine) : Prop where
  perm : order.Perm (lokiMatches loki store now filter)
  fetched : ∀ limit, 0 < limit →
    queryRangeEntries api now filter limit = some (order.drop (order.length - limit))

/-- Of an order of the lines, the kept ones among the last so many. -/
def keptOfLast (keep : StoredLine → Bool) (order : List StoredLine) (window : Nat) :
    List StoredLine :=
  (order.drop (order.length - window)).filter keep

/-- No window that a page can end with holds enough lines for the page and leaves one out: it is a
page's target, doubled some times, below the scan limit. -/
def NoLineLeftOut (keep : StoredLine → Bool) (order : List StoredLine) (size : Nat) : Prop :=
  ∀ k < pageCount (order.filter keep).length size, ∀ doublings,
    (k + 1) * size * 2 ^ doublings < legacyPrefilterScanLimit →
    (k + 1) * size ≤ (keptOfLast keep order ((k + 1) * size * 2 ^ doublings)).length →
    (keptOfLast keep order ((k + 1) * size * 2 ^ doublings)).length = (order.filter keep).length

/-! ## Single fetches -/

variable {now : Int} {filter : LogFilter} {api : QueryRange loki store}

theorem effectiveSize_pos (requested : Option Nat) : 0 < effectiveSize requested := by
  rw [effectiveSize]
  omega

theorem effectiveSize_le (requested : Option Nat) : effectiveSize requested ≤ 100 := by
  rw [effectiveSize]
  omega

theorem lokiMatches_nodup : (lokiMatches loki store now filter).Nodup := by
  rw [lokiMatches]
  cases queryWindow now filter with
  | none => exact .nil
  | some window => exact store.nodup.filter _

/-- Where there is something to list, a fetch answers with the newest lines. -/
theorem queryRangeEntries_isNewest (api : QueryRange loki store)
    (hne : lokiMatches loki store now filter ≠ [])
    {limit : Nat} (hlimit : 0 < limit) : ∃ entries,
      queryRangeEntries api now filter limit = some entries ∧
        IsNewest StoredLine.timestamp (lokiMatches loki store now filter) limit entries := by
  rw [lokiMatches] at hne ⊢
  rw [queryRangeEntries, Nat.max_eq_left hlimit]
  cases hwindow : queryWindow now filter with
  | none =>
    rw [hwindow] at hne
    exact absurd rfl hne
  | some window => exact ⟨_, rfl, (api.newest _ _ _ _).sort⟩


/-! ## The growing window -/

/-- Below the cap, the cap is the scan limit. -/
theorem scanCap_eq {window target : Nat} (hge : target ≤ window) (hlt : window < scanCap target) :
    scanCap target = legacyPrefilterScanLimit := by
  rw [scanCap] at hlt ⊢
  omega

/-- Below the cap, the window is doubled. -/
theorem nextLegacyPrefilterLimit_eq {window target : Nat} (hge : target ≤ window)
    (hlt : window < scanCap target) :
    nextLegacyPrefilterLimit window target = min (window * 2) legacyPrefilterScanLimit := by
  have hcap := scanCap_eq hge hlt
  rw [hcap, legacyPrefilterScanLimit] at hlt
  rw [nextLegacyPrefilterLimit, hcap, saturatingMul_eq (by omega), Nat.max_eq_left (by omega)]

section Scan

variable {fetch : Nat → Option (List StoredLine)} {entriesOf : Nat → List StoredLine}
  {keep : StoredLine → Bool} {target : Nat}

/-- One round: the scan ends, or the window is below the cap and is doubled. -/
theorem legacyScan_succ (hfetch : ∀ limit, 0 < limit → fetch limit = some (entriesOf limit))
    (htarget : 0 < target) {window : Nat} (hge : target ≤ window) (fuel : Nat) :
    legacyScan fetch keep target (fuel + 1) window =
      if target ≤ ((entriesOf window).filter keep).length ∨ (entriesOf window).length < window ∨
          scanCap target ≤ window then
        some (window, (entriesOf window).filter keep)
      else legacyScan fetch keep target fuel (min (window * 2) legacyPrefilterScanLimit) := by
  rw [legacyScan, hfetch window (by omega), Option.bind_some]
  dsimp only
  split
  · rfl
  · next hgoesOn =>
    have hlt : window < scanCap target := by omega
    have hcap := scanCap_eq hge hlt
    have hnext := nextLegacyPrefilterLimit_eq hge hlt
    have hgrows : min (window * 2) legacyPrefilterScanLimit ≠ window := by omega
    rw [hnext, if_neg hgrows]

/-- The fuel is enough. -/
theorem legacyScan_isSome (hfetch : ∀ limit, 0 < limit → fetch limit = some (entriesOf limit))
    (htarget : 0 < target) : ∀ fuel window, target ≤ window → scanCap target < window + fuel →
      0 < fuel → (legacyScan fetch keep target fuel window).isSome = true := by
  intro fuel
  induction fuel with
  | zero =>
    intro window _ _ hfuel
    omega
  | succ fuel ih =>
    intro window hge hfuel _
    rw [legacyScan_succ hfetch htarget hge]
    split
    · rfl
    · next hgoesOn =>
      have hlt : window < scanCap target := by omega
      have hcap := scanCap_eq hge hlt
      exact ih _ (by omega) (by omega) (by omega)

/-- The window does not shrink. -/
theorem legacyScan_le (hfetch : ∀ limit, 0 < limit → fetch limit = some (entriesOf limit))
    (htarget : 0 < target) {last : Nat} {records : List StoredLine} : ∀ fuel window,
      target ≤ window → legacyScan fetch keep target fuel window = some (last, records) →
      window ≤ last := by
  intro fuel
  induction fuel with
  | zero =>
    intro window _ hscan
    cases hscan
  | succ fuel ih =>
    intro window hge hscan
    rw [legacyScan_succ hfetch htarget hge] at hscan
    split at hscan
    · injection hscan with hscan
      injection hscan with hlast _
      omega
    · next hgoesOn =>
      have hlt : window < scanCap target := by omega
      have hcap := scanCap_eq hge hlt
      have hrest := ih _ (by omega) hscan
      omega

/-- A scan that ends below the cap ends with the first doubling of its target that holds enough
records, or with all entries. -/
theorem legacyScan_below (hfetch : ∀ limit, 0 < limit → fetch limit = some (entriesOf limit))
    (htarget : 0 < target) {last : Nat} {records : List StoredLine}
    (hbelow : last < scanCap target) : ∀ fuel window, target ≤ window →
      legacyScan fetch keep target fuel window = some (last, records) →
      records = (entriesOf last).filter keep ∧
        (target ≤ records.length ∨ (entriesOf last).length < last) ∧
        ∃ doublings, last = window * 2 ^ doublings ∧
          ∀ i < doublings, ((entriesOf (window * 2 ^ i)).filter keep).length < target := by
  intro fuel
  induction fuel with
  | zero =>
    intro window _ hscan
    cases hscan
  | succ fuel ih =>
    intro window hge hscan
    rw [legacyScan_succ hfetch htarget hge] at hscan
    split at hscan
    · next hstop =>
      injection hscan with hscan
      injection hscan with hlast hrecords
      subst hlast hrecords
      refine ⟨rfl, by omega, 0, by omega, ?_⟩
      intro i hi
      omega
    · next hgoesOn =>
      have hlt : window < scanCap target := by omega
      have hcap := scanCap_eq hge hlt
      have hle := legacyScan_le hfetch htarget fuel _ (by omega) hscan
      have hdouble : min (window * 2) legacyPrefilterScanLimit = window * 2 := by omega
      rw [hdouble] at hscan
      obtain ⟨hrecords, hstop, doublings, hlast, hearlier⟩ := ih _ (by omega) hscan
      refine ⟨hrecords, hstop, doublings + 1, ?_, ?_⟩
      · rw [hlast, Nat.pow_succ', Nat.mul_assoc]
      · intro i hi
        cases i with
        | zero =>
          rw [Nat.pow_zero, Nat.mul_one]
          omega
        | succ i =>
          rw [Nat.pow_succ', ← Nat.mul_assoc]
          exact hearlier i (by omega)

end Scan

/-! ## Pages of one fetch -/

theorem LogBuffer.pages_partition (buffer : LogBuffer) (filter : LogFilter)
    (requested : Option Nat) :
    PagesPartition (buffer.query filter) (buffer.pages filter requested) := by
  have hsize := effectiveSize_pos requested
  have hfew : (buffer.query filter).length < 2 ^ 64 :=
    Nat.lt_of_le_of_lt (List.length_filter_le _ _) buffer.fits
  have hpages : buffer.pages filter requested =
      (List.range (pageCount (buffer.query filter).length (effectiveSize requested))).map
        (slice (effectiveSize requested) · (buffer.query filter)) := by
    rw [LogBuffer.pages]
    refine List.map_congr_left fun k hk ↦ ?_
    have hoffset := (lt_pageCount_iff hsize).mp (List.mem_range.mp hk)
    have hpage : max (k + 1) 1 - 1 = k := by omega
    rw [LogBuffer.listLogs, PaginatedResponse.new, slice]
    simp only [PaginationParams.offset, PaginationParams.pageSize, PaginationParams.page,
      Option.getD_some, hpage]
    rw [saturatingMul_eq (by omega)]
  rw [hpages]
  exact slices_partition hsize (buffer.nodup.filter _) (.refl _)

/-- Loki with the entries of one time in the order that sorting leaves. -/
def QueryRange.ofStore (loki : Loki) (store : LogStore) : QueryRange loki store where
  answer logql start stop limit :=
    [Base.newest StoredLine.timestamp limit (store.selected loki logql start stop)]
  newest logql start stop limit := by
    rw [List.flatten_singleton]
    exact newest_isNewest _ _ _

theorem ofStore_fetched (hne : lokiMatches loki store now filter ≠ []) {limit : Nat}
    (hlimit : 0 < limit) : queryRangeEntries (.ofStore loki store) now filter limit =
      some (newest StoredLine.timestamp limit (lokiMatches loki store now filter)) := by
  rw [lokiMatches] at hne ⊢
  rw [queryRangeEntries, Nat.max_eq_left hlimit]
  cases hwindow : queryWindow now filter with
  | none =>
    rw [hwindow] at hne
    exact absurd rfl hne
  | some window =>
    rw [Option.map_some, Option.elim_some, parseQueryRange, QueryRange.ofStore,
      List.flatten_singleton, oldestFirst_newest]

/-- A page of that Loki. -/
theorem newest_slice (size k limit : Nat) (l : List StoredLine) :
    ((newest StoredLine.timestamp limit l).drop (k * size)).take size =
      newestPage size (fun _ ↦ limit) (oldestFirst StoredLine.timestamp l) k := by
  rw [newestPage, slice, newest, (oldestFirst_perm StoredLine.timestamp l).length_eq]

/-- The offset and the limit of the first two pages. -/
theorem listLogs_bounds (requested : Option Nat) {k : Nat} (hk : k ≤ 1) :
    PaginationParams.offset ⟨some (k + 1), requested⟩ = k * effectiveSize requested ∧
      max (saturatingAdd 64 (k * effectiveSize requested) (effectiveSize requested)) 1 =
        (k + 1) * effectiveSize requested := by
  have hsize := effectiveSize_pos requested
  have hle := effectiveSize_le requested
  have hpage : max (k + 1) 1 - 1 = k := by omega
  have hsmall := Nat.mul_le_mul_right (effectiveSize requested) hk
  constructor
  · simp only [PaginationParams.offset, PaginationParams.pageSize, PaginationParams.page,
      Option.getD_some, hpage]
    exact saturatingMul_eq (by omega)
  · rw [saturatingAdd, Nat.succ_mul]
    omega

/-- The second page of `list_logs` has the newest line again. -/
theorem listPages_not_partition {requested : Option Nat}
    (hmore : effectiveSize requested < (lokiMatches loki store now filter).length) :
    ¬ PagesPartition (lokiMatches loki store now filter)
      (listPages (.ofStore loki store) now filter requested) := by
  have hsize := effectiveSize_pos requested
  have hne : lokiMatches loki store now filter ≠ [] := by
    intro hnil
    rw [hnil] at hmore
    exact absurd hmore (Nat.not_lt_zero _)
  have hpage : ∀ k, k ≤ 1 → (listLogs (.ofStore loki store) now filter
      ⟨some (k + 1), requested⟩).elim [] (·.items) =
        newestPage (effectiveSize requested) (fun k ↦ (k + 1) * effectiveSize requested)
          (oldestFirst StoredLine.timestamp (lokiMatches loki store now filter)) k := by
    intro k hk
    obtain ⟨hoffset, hlimit⟩ := listLogs_bounds requested hk
    rw [listLogs, hoffset, PaginationParams.pageSize]
    dsimp only
    rw [hlimit, ofStore_fetched hne (Nat.mul_pos (Nat.succ_pos k) hsize), Option.map_some,
      Option.elim_some, PaginatedResponse.new, newest_slice]
    rfl
  apply newestPages_not_partition hsize (oldestFirst_perm StoredLine.timestamp _) hmore
    (hpage 0 (by omega)) (hpage 1 (by omega))
  · omega
  · omega
  · omega

theorem listPages_partition_iff (requested : Option Nat) :
    (∀ api : QueryRange loki store, PagesPartition (lokiMatches loki store now filter)
        (listPages api now filter requested)) ↔
      (lokiMatches loki store now filter).length ≤ effectiveSize requested := by
  have hsize := effectiveSize_pos requested
  constructor
  · intro h
    by_contra hmore
    exact listPages_not_partition (Nat.lt_of_not_le hmore) (h (.ofStore loki store))
  · intro hfit api
    refine single_page_partition hsize hfit ?_
    intro hne
    obtain ⟨entries, hfetch, hnewest⟩ := queryRangeEntries_isNewest api hne hsize
    have hperm := hnewest.perm (by rw [hnewest.length_eq]; omega)
    obtain ⟨hoffset, hlimit⟩ := listLogs_bounds requested (Nat.zero_le 1)
    rw [Nat.zero_add, Nat.one_mul] at hlimit
    rw [listLogs, hoffset, PaginationParams.pageSize]
    dsimp only
    rw [hlimit, hfetch, Option.map_some, Option.elim_some, PaginatedResponse.new]
    dsimp only
    rw [Nat.zero_mul, List.drop_zero, List.take_of_length_le (by rw [hperm.length_eq]; exact hfit)]
    exact hperm

section Legacy

variable {legacy : LegacyLogFilter} {size : Nat}

theorem legacyMatches_nodup : (legacyMatches loki store now legacy).Nodup :=
  lokiMatches_nodup.filter _

/-- Without a post-filter every line of the window matches. -/
theorem legacyMatches_eq (loki : Loki) (store : LogStore) (now : Int)
    (h : legacyFilterRequiresPostFilter legacy = false) :
    legacyMatches loki store now legacy =
      lokiMatches loki store now (legacyFilterToCore legacy) := by
  rw [legacyFilterRequiresPostFilter, Bool.or_eq_false_iff, Option.isSome_eq_false_iff,
    Option.isSome_eq_false_iff, Option.isNone_iff_eq_none, Option.isNone_iff_eq_none] at h
  rw [legacyMatches, List.filter_eq_self]
  intro line _
  rw [legacyRecordMatchesPostFilter, h.1, h.2]
  rfl

theorem legacyFetchTarget_eq (offset limit : Nat) :
    legacyFetchTarget ⟨offset, limit⟩ = max (min (offset + limit) (2 ^ 64 - 1)) 1 := rfl

theorem legacyFetchTarget_pos (page : Pagination) : 0 < legacyFetchTarget page := by
  rw [legacyFetchTarget]
  omega

theorem legacyFetchTarget_zero (hsize : 0 < size) (hfits : size < 2 ^ 64) :
    legacyFetchTarget ⟨0 * size, size⟩ = size := by
  rw [legacyFetchTarget_eq]
  omega

/-- The legacy pages where there is no post-filter. -/
theorem legacyPages_partition_iff (h : legacyFilterRequiresPostFilter legacy = false)
    (hsize : 0 < size) (hfits : size < 2 ^ 64) :
    (∀ api : QueryRange loki store, PagesPartition (legacyMatches loki store now legacy)
        (legacyPages api now legacy size)) ↔
      (legacyMatches loki store now legacy).length ≤ size := by
  have hmatches := legacyMatches_eq loki store now h
  have hzero := legacyFetchTarget_zero hsize hfits
  constructor
  · intro hall
    by_contra hmore
    have hne : lokiMatches loki store now (legacyFilterToCore legacy) ≠ [] := by
      intro hnil
      rw [hmatches, hnil] at hmore
      exact hmore (Nat.zero_le _)
    have hpage : ∀ k, legacyPage (.ofStore loki store) now legacy size k =
        newestPage size (fun k ↦ legacyFetchTarget ⟨k * size, size⟩)
          (oldestFirst StoredLine.timestamp (legacyMatches loki store now legacy)) k := by
      intro k
      rw [legacyPage, legacyList, if_pos h, ofStore_fetched hne (legacyFetchTarget_pos _),
        Option.map_some, Option.getD_some, newest_slice, hmatches]
      rfl
    by_cases hsecond : size < legacyFetchTarget ⟨1 * size, size⟩
    · refine newestPages_not_partition hsize (oldestFirst_perm StoredLine.timestamp _)
        (Nat.lt_of_not_le hmore) (hpage 0) (hpage 1) hzero hsecond ?_ (hall (.ofStore loki store))
      rw [legacyFetchTarget_eq]
      omega
    · -- The sum has saturated, and a later page skips all that was fetched.
      refine first_page_not_partition (Nat.lt_of_not_le hmore) ?_ ?_ (hall (.ofStore loki store))
      · rw [hpage 0]
        exact length_slice_le size 0 _
      · intro k
        have htarget : legacyFetchTarget ⟨(k + 1) * size, size⟩ ≤ size := by
          rw [legacyFetchTarget_eq] at hsecond ⊢
          omega
        have hskip := Nat.le_mul_of_pos_left size (Nat.succ_pos k)
        rw [hpage (k + 1), newestPage, slice, List.drop_eq_nil_of_le, List.take_nil]
        rw [List.length_drop]
        change size ≤ (k + 1) * size at hskip
        omega
  · intro hfit api
    refine single_page_partition hsize hfit ?_
    intro hne
    rw [hmatches] at hne hfit ⊢
    obtain ⟨entries, hfetch, hnewest⟩ := queryRangeEntries_isNewest api hne hsize
    have hperm := hnewest.perm (by rw [hnewest.length_eq]; omega)
    rw [legacyPage, legacyList, if_pos h, hzero, hfetch, Option.map_some, Option.getD_some,
      Nat.zero_mul, List.drop_zero, List.take_of_length_le (by rw [hperm.length_eq]; exact hfit)]
    exact hperm

/-! ## Post-filtered pages -/

/-- A scan ends, where there is something to list. -/
theorem legacyPageScan_isSome (api : QueryRange loki store)
    (hne : lokiMatches loki store now (legacyFilterToCore legacy) ≠ []) (page : Pagination) :
    (legacyPageScan api now legacy page).isSome = true := by
  choose! entriesOf hfetch hnewest using fun (limit : Nat) (hlimit : 0 < limit) ↦
    queryRangeEntries_isNewest api hne hlimit
  have htarget := legacyFetchTarget_pos page
  apply legacyScan_isSome hfetch htarget
  · exact Nat.le_refl _
  · omega
  · exact Nat.lt_of_lt_of_le htarget (Nat.le_max_left _ _)

/-- A page whose matches all fit on it. -/
theorem legacyPages_single (h : legacyFilterRequiresPostFilter legacy = true) (hsize : 0 < size)
    (api : QueryRange loki store) (hbelow : StaysBelowCap api now legacy size)
    (hfit : (legacyMatches loki store now legacy).length ≤ size) :
    PagesPartition (legacyMatches loki store now legacy) (legacyPages api now legacy size) := by
  refine single_page_partition hsize hfit ?_
  intro hne
  have hraw : lokiMatches loki store now (legacyFilterToCore legacy) ≠ [] := by
    intro hnil
    rw [legacyMatches, hnil] at hne
    exact hne rfl
  have hpos := List.length_pos_iff.mpr hne
  obtain ⟨last, records, hscan, hlt⟩ := hbelow 0
    ((lt_pageCount_iff hsize).mpr (by rwa [Nat.zero_mul]))
  choose! entriesOf hfetch hnewest using fun (limit : Nat) (hlimit : 0 < limit) ↦
    queryRangeEntries_isNewest api hraw hlimit
  have htarget := legacyFetchTarget_pos ⟨0 * size, size⟩
  have hle := legacyScan_le hfetch htarget _ _ (Nat.le_refl _) hscan
  obtain ⟨hrecords, hstop, -⟩ := legacyScan_below hfetch htarget hlt _ _ (Nat.le_refl _) hscan
  have hcap := scanCap_eq hle hlt
  have hsmall : legacyFetchTarget ⟨0 * size, size⟩ = size := by
    apply legacyFetchTarget_zero hsize
    rw [hcap, legacyPrefilterScanLimit] at hlt
    rw [legacyFetchTarget_eq] at hle
    omega
  have hlast := hnewest last (by omega)
  have hperm : records.Perm (legacyMatches loki store now legacy) := by
    rw [hrecords, legacyMatches]
    rw [legacyMatches] at hfit
    rcases hstop with henough | hshort
    · apply hlast.filter_perm
      rw [← hrecords]
      omega
    · apply List.Perm.filter
      apply hlast.perm
      have hlen := hlast.length_eq
      omega
  rw [legacyPage, legacyList, if_neg (by rw [h]; decide), hscan, Option.map_some,
    Option.getD_some, Nat.zero_mul, List.drop_zero,
    List.take_of_length_le (by rw [hperm.length_eq]; exact hfit)]
  exact hperm

/-- The k-th page below the cap: a page of what a doubling of its target keeps, the first that
holds enough lines or all. -/
theorem legacyPage_below (h : legacyFilterRequiresPostFilter legacy = true) (hsize : 0 < size)
    {order : List StoredLine} (horder : FollowsOrder api now (legacyFilterToCore legacy) order)
    {k window : Nat} {records : List StoredLine}
    (hscan : legacyPageScan api now legacy ⟨k * size, size⟩ = some (window, records))
    (hbelow : window < scanCap (legacyFetchTarget ⟨k * size, size⟩)) :
    window < legacyPrefilterScanLimit ∧
      legacyPage api now legacy size k =
        slice size k (keptOfLast (legacyRecordMatchesPostFilter legacy) order window) ∧
      ((k + 1) * size ≤
          (keptOfLast (legacyRecordMatchesPostFilter legacy) order window).length ∨
        (keptOfLast (legacyRecordMatchesPostFilter legacy) order window).length =
          (order.filter (legacyRecordMatchesPostFilter legacy)).length) ∧
      ∃ doublings, window = (k + 1) * size * 2 ^ doublings ∧
        ∀ i < doublings, (keptOfLast (legacyRecordMatchesPostFilter legacy) order
          ((k + 1) * size * 2 ^ i)).length < (k + 1) * size := by
  have htarget := legacyFetchTarget_pos ⟨k * size, size⟩
  have hle := legacyScan_le horder.fetched htarget _ _ (Nat.le_refl _) hscan
  have hcap := scanCap_eq hle hbelow
  obtain ⟨hrecords, hstop, doublings, hwindow, hearlier⟩ :=
    legacyScan_below horder.fetched htarget hbelow _ _ (Nat.le_refl _) hscan
  rw [hcap] at hbelow
  have hsmall : legacyFetchTarget ⟨k * size, size⟩ = (k + 1) * size := by
    rw [legacyPrefilterScanLimit] at hbelow
    rw [legacyFetchTarget_eq] at hle ⊢
    rw [Nat.succ_mul]
    omega
  rw [hsmall] at hstop hwindow hearlier
  refine ⟨hbelow, ?_, ?_, doublings, hwindow, hearlier⟩
  · rw [legacyPage, legacyList, if_neg (by rw [h]; decide), hscan, hrecords]
    rfl
  · rcases hstop with henough | hshort
    · left
      rwa [hrecords] at henough
    · right
      rw [List.length_drop] at hshort
      rw [keptOfLast, Nat.sub_eq_zero_of_le (by omega), List.drop_zero]

/-- The post-filtered pages below the cap. -/
theorem legacyPages_filtered_iff (h : legacyFilterRequiresPostFilter legacy = true)
    (hsize : 0 < size) {order : List StoredLine}
    (horder : FollowsOrder api now (legacyFilterToCore legacy) order)
    (hbelow : StaysBelowCap api now legacy size) :
    PagesPartition (legacyMatches loki store now legacy) (legacyPages api now legacy size) ↔
      NoLineLeftOut (legacyRecordMatchesPostFilter legacy) order size := by
  obtain ⟨keep, hkeep⟩ : ∃ keep, keep = legacyRecordMatchesPostFilter legacy := ⟨_, rfl⟩
  have hperm : (order.filter keep).Perm (legacyMatches loki store now legacy) := by
    rw [hkeep]
    exact horder.perm.filter _
  have hlen := hperm.length_eq
  have hpage : ∀ k, k < legacyPageCount loki store now legacy size → ∃ doublings,
      (k + 1) * size * 2 ^ doublings < legacyPrefilterScanLimit ∧
      legacyPage api now legacy size k =
        slice size k (keptOfLast keep order ((k + 1) * size * 2 ^ doublings)) ∧
      ((k + 1) * size ≤ (keptOfLast keep order ((k + 1) * size * 2 ^ doublings)).length ∨
        (keptOfLast keep order ((k + 1) * size * 2 ^ doublings)).length =
          (order.filter keep).length) ∧
      ∀ i < doublings,
        (keptOfLast keep order ((k + 1) * size * 2 ^ i)).length < (k + 1) * size := by
    intro k hk
    obtain ⟨window, records, hscan, hlt⟩ := hbelow k hk
    obtain ⟨hlimit, hslice, hstop, doublings, hwindow, hearlier⟩ :=
      legacyPage_below h hsize horder hscan hlt
    rw [← hkeep, hwindow] at hslice hstop
    rw [← hkeep] at hearlier
    rw [hwindow] at hlimit
    exact ⟨doublings, hlimit, hslice, hstop, hearlier⟩
  choose! doublings hlimit hslice hstop hearlier using hpage
  obtain ⟨part, hpart⟩ : ∃ part : Nat → Nat, ∀ k, part k =
      (keptOfLast keep order ((k + 1) * size * 2 ^ doublings k)).length := ⟨_, fun _ ↦ rfl⟩
  have hparts : ∀ k < legacyPageCount loki store now legacy size,
      part k = (legacyMatches loki store now legacy).length ∨
        (k + 1) * size ≤ part k ∧ part k ≤ (legacyMatches loki store now legacy).length := by
    intro k hk
    rw [hpart, ← hlen]
    rcases hstop k hk with henough | hall
    · right
      exact ⟨henough, ((List.drop_sublist _ order).filter keep).length_le⟩
    · left
      exact hall
  have hpages : legacyPages api now legacy size =
      (List.range (legacyPageCount loki store now legacy size)).map
        (newestPage size part (order.filter keep)) := by
    refine List.map_congr_left fun k hk ↦ ?_
    rw [hslice k (List.mem_range.mp hk), newestPage, hpart, keptOfLast, ← filter_drop]
  rw [hpages, legacyPageCount, newestPages_partition_iff hsize
    (hperm.nodup_iff.mpr legacyMatches_nodup) hperm hparts, NoLineLeftOut, ← hkeep, hlen]
  constructor
  · intro hall k hk i hbelowLimit henough
    have hcomplete := hall k hk
    rw [hpart] at hcomplete
    -- A window that holds enough lines is at least the one that the page ends with.
    have hlater : doublings k ≤ i := by
      by_contra hearly
      have hfew := hearlier k hk i (Nat.lt_of_not_le hearly)
      omega
    have hgrows : (k + 1) * size * 2 ^ doublings k ≤ (k + 1) * size * 2 ^ i :=
      Nat.mul_le_mul_left _ (Nat.pow_le_pow_right (by decide) hlater)
    have hmore := length_filter_end_le keep order hgrows
    have hmost := ((List.drop_sublist (order.length - (k + 1) * size * 2 ^ i)
      order).filter keep).length_le
    rw [keptOfLast] at hcomplete ⊢
    omega
  · intro hnone k hk
    rw [hpart]
    rcases hstop k hk with henough | hall
    · exact hnone k hk (doublings k) (hlimit k hk) henough
    · rw [hall, hlen]

/-- Where no two lines are of one time, Loki has no ties to break. -/
theorem followsOrder_of_distinct (api : QueryRange loki store)
    (hne : lokiMatches loki store now filter ≠ [])
    (hdistinct : ((lokiMatches loki store now filter).map StoredLine.timestamp).Nodup) :
    FollowsOrder api now filter
      (oldestFirst StoredLine.timestamp (lokiMatches loki store now filter)) := by
  refine ⟨oldestFirst_perm _ _, ?_⟩
  intro limit hlimit
  have hlen := (oldestFirst_perm StoredLine.timestamp
    (lokiMatches loki store now filter)).length_eq
  rw [lokiMatches] at hne hdistinct hlen ⊢
  rw [queryRangeEntries, Nat.max_eq_left hlimit, hlen]
  cases hwindow : queryWindow now filter with
  | none =>
    rw [hwindow] at hne
    exact absurd rfl hne
  | some window =>
    rw [hwindow] at hdistinct
    rw [Option.map_some, Option.elim_some, parseQueryRange,
      (api.newest _ _ _ _).oldestFirst_eq hdistinct, newest]

end Legacy

/-! ## The main result -/

/-- The pages of the in-process service partition the log. Those of the Loki service do, however
Loki breaks ties, exactly if one page holds the log. Post-filtered pages below the scan cap do, for
a Loki that breaks ties by one order, exactly if no window that holds enough lines for a page
leaves one out. -/
theorem logPages_partition_iff (loki : Loki) (store : LogStore) (now : Int) (size : Nat)
    (hsize : 0 < size) (hfits : size < 2 ^ 64) :
    (∀ (buffer : LogBuffer) (filter : LogFilter) (requested : Option Nat),
      PagesPartition (buffer.query filter) (buffer.pages filter requested)) ∧
    (∀ (filter : LogFilter) (requested : Option Nat),
      (∀ api : QueryRange loki store, PagesPartition (lokiMatches loki store now filter)
          (listPages api now filter requested)) ↔
        (lokiMatches loki store now filter).length ≤ effectiveSize requested) ∧
    (∀ legacy : LegacyLogFilter, legacyFilterRequiresPostFilter legacy = false →
      ((∀ api : QueryRange loki store, PagesPartition (legacyMatches loki store now legacy)
          (legacyPages api now legacy size)) ↔
        (legacyMatches loki store now legacy).length ≤ size)) ∧
    ∀ legacy : LegacyLogFilter, legacyFilterRequiresPostFilter legacy = true →
      ∀ api : QueryRange loki store, StaysBelowCap api now legacy size →
        ((legacyMatches loki store now legacy).length ≤ size →
          PagesPartition (legacyMatches loki store now legacy)
            (legacyPages api now legacy size)) ∧
        ∀ order, FollowsOrder api now (legacyFilterToCore legacy) order →
          (PagesPartition (legacyMatches loki store now legacy)
              (legacyPages api now legacy size) ↔
            NoLineLeftOut (legacyRecordMatchesPostFilter legacy) order size) := by
  refine ⟨LogBuffer.pages_partition, fun filter ↦ listPages_partition_iff, ?_, ?_⟩
  · intro legacy h
    exact legacyPages_partition_iff h hsize hfits
  · intro legacy h api hbelow
    refine ⟨legacyPages_single h hsize api hbelow, ?_⟩
    intro order horder
    exact legacyPages_filtered_iff h hsize horder hbelow

end Services

/-! ## A log of four lines -/

/-- Loki as documented. -/
def readingLoki : Loki := ⟨fun text labels line ↦
  (readLogql text).any fun query ↦ query.selects labels line⟩

/-- A line of the project `shop`. -/
def shopLine (place : Nat) : StoredLine where
  place := place
  log := ⟨"shop", "shop", "web", .info, place, "ready", by decide⟩
  fields := ⟨none, some "shop"⟩

/-- Four lines, one after the other. -/
def shopStore : LogStore where
  lines := (List.range 4).map shopLine
  nodup := by
    refine List.Nodup.map ?_ List.nodup_range
    intro m n h
    exact congrArg StoredLine.place h

theorem logPages_partition_iff_shop :
    (0 < 2 ∧ 2 < 2 ^ 64) ∧ ¬ ∀ api : QueryRange readingLoki shopStore,
      PagesPartition (legacyMatches readingLoki shopStore 9 {}) (legacyPages api 9 {} 2) :=
  ⟨by decide, fun h ↦ absurd
    (((logPages_partition_iff readingLoki shopStore 9 2 (by decide)
      (by decide)).2.2.1 {} rfl).mp h) (by decide)⟩

/-- Two lines a page: both pages hold the two newest lines. -/
theorem logPages_overlap : ¬ PagesPartition (lokiMatches readingLoki shopStore 9 {})
    (listPages (.ofStore readingLoki shopStore) 9 {} (some 2)) :=
  listPages_not_partition (by decide)

end ReinhardtCloud.Telemetry
