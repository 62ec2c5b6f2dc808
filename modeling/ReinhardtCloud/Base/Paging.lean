import Mathlib.Data.List.Nodup
import Mathlib.Data.List.Sort

/-!
# Pages of a log

Library `Base`. When pages partition a list of entries, the slices of one list, the newest entries
of a list, and pages that are slices of its newest parts. Nothing here names a component.
-/

namespace ReinhardtCloud.Base

universe u

variable {α : Type u}

/-! ## Partitions into pages -/

/-- No entry is on two pages, every entry is on a page exactly once, and the entries of a page
follow each other in one order of all entries. -/
structure PagesPartition (entries : List α) (pages : List (List α)) : Prop where
  disjoint : pages.Pairwise List.Disjoint
  once : pages.flatten.Perm entries
  ordered : ∃ order : List α, order.Perm entries ∧ ∀ page ∈ pages, page <:+: order

/-- How many pages of a size hold so many entries. -/
def pageCount (count size : Nat) : Nat := (count + size - 1) / size

theorem lt_pageCount_iff {count size k : Nat} (hsize : 0 < size) :
    k < pageCount count size ↔ k * size < count := by
  rw [pageCount, ← Nat.succ_le_iff, Nat.le_div_iff_mul_le hsize, Nat.succ_mul]
  omega

/-- The last page is the one that holds the last entry. -/
theorem count_le_of_pageCount {count size k : Nat} (hsize : 0 < size)
    (hk : pageCount count size ≤ k) : count ≤ k * size := by
  have hnot := mt (lt_pageCount_iff hsize).mpr (Nat.not_lt.mpr hk)
  omega

/-- Pages that are numbered from zero. -/
theorem PagesPartition.disjoint_of_lt {entries : List α} {page : Nat → List α} {n i j : Nat}
    (h : PagesPartition entries ((List.range n).map page)) (hij : i < j) (hj : j < n) :
    (page i).Disjoint (page j) := by
  have hpages := List.pairwise_iff_getElem.mp (List.pairwise_map.mp h.disjoint) i j
    (by rw [List.length_range]; omega) (by rw [List.length_range]; omega) hij
  rwa [List.getElem_range, List.getElem_range] at hpages

/-- The k-th page of a list, from zero. -/
def slice (size k : Nat) (l : List α) : List α := (l.drop (k * size)).take size

theorem length_slice_le (size k : Nat) (l : List α) : (slice size k l).length ≤ size := by
  rw [slice, List.length_take]
  omega

theorem slice_isInfix (size k : Nat) (l : List α) : slice size k l <:+: l :=
  (List.take_prefix size _).isInfix.trans (List.drop_suffix _ l).isInfix

/-- An entry is on the page that its place in the list says. -/
theorem getElem_mem_slice {i : Nat} {l : List α} (size k : Nat) (hi : i < l.length)
    (hk : k * size ≤ i)
    (hlt : i < (k + 1) * size) : l[i] ∈ slice size k l := by
  rw [Nat.succ_mul] at hlt
  rw [List.mem_iff_getElem]
  refine ⟨i - k * size, ?_, ?_⟩
  · rw [slice, List.length_take, List.length_drop]
    omega
  · simp only [slice, List.getElem_take, List.getElem_drop]
    congr 1
    omega

theorem flatten_slices (size n : Nat) (l : List α) :
    ((List.range n).map (slice size · l)).flatten = l.take (n * size) := by
  induction n with
  | zero => simp
  | succ n ih =>
    rw [List.range_succ, List.map_append, List.flatten_append, ih, Nat.succ_mul, List.take_add]
    simp [slice]

/-- The slices of a list partition it. -/
theorem slices_partition {entries l : List α} {size : Nat} (hsize : 0 < size) (hl : l.Nodup)
    (hperm : l.Perm entries) :
    PagesPartition entries ((List.range (pageCount entries.length size)).map (slice size · l)) := by
  have hflat : ((List.range (pageCount entries.length size)).map (slice size · l)).flatten = l := by
    rw [flatten_slices]
    apply List.take_of_length_le
    rw [hperm.length_eq]
    exact count_le_of_pageCount hsize (Nat.le_refl _)
  refine ⟨?_, ?_, l, hperm, ?_⟩
  · rw [← hflat] at hl
    exact (List.nodup_flatten.mp hl).2
  · rw [hflat]
    exact hperm
  · intro page hpage
    obtain ⟨k, -, rfl⟩ := List.mem_map.mp hpage
    exact slice_isInfix size k l

/-- Entries that fit on a page, on that page. -/
theorem single_page_partition {entries : List α} {page : Nat → List α} {size : Nat}
    (hsize : 0 < size) (hfit : entries.length ≤ size)
    (hfirst : entries ≠ [] → (page 0).Perm entries) :
    PagesPartition entries ((List.range (pageCount entries.length size)).map page) := by
  rcases List.eq_nil_or_concat entries with rfl | ⟨init, last, hconcat⟩
  · have hnone : pageCount ([] : List α).length size = 0 :=
      Nat.le_zero.mp (Nat.not_lt.mp (mt (lt_pageCount_iff hsize).mp (by simp)))
    rw [hnone]
    exact ⟨.nil, .nil, [], .nil, fun page hpage ↦ absurd hpage List.not_mem_nil⟩
  · have hne : entries ≠ [] := by simp [hconcat]
    have hpos := List.length_pos_iff.mpr hne
    have hone : pageCount entries.length size = 1 := by
      have hlt : 0 < pageCount entries.length size :=
        (lt_pageCount_iff hsize).mpr (by rwa [Nat.zero_mul])
      have hle : ¬ 1 < pageCount entries.length size :=
        mt (lt_pageCount_iff hsize).mp (by rw [Nat.one_mul]; omega)
      omega
    have hperm := hfirst hne
    rw [hone, List.range_one, List.map_singleton]
    refine ⟨List.pairwise_singleton _ _, ?_, page 0, hperm, ?_⟩
    · rw [List.flatten_singleton]
      exact hperm
    · intro p hp
      obtain rfl := List.mem_singleton.mp hp
      exact List.infix_rfl

/-! ## The newest entries -/

variable {τ : Type u} [LinearOrder τ] {time : α → τ}

/-- `sort_by_key`, which is stable. -/
def oldestFirst (time : α → τ) (l : List α) : List α := l.mergeSort fun a b ↦ time a ≤ time b

theorem oldestFirst_perm (time : α → τ) (l : List α) : (oldestFirst time l).Perm l :=
  List.mergeSort_perm l _

theorem oldestFirst_pairwise (time : α → τ) (l : List α) :
    (oldestFirst time l).Pairwise (time · ≤ time ·) := by
  have htrans : ∀ a b c : α, decide (time a ≤ time b) = true →
      decide (time b ≤ time c) = true → decide (time a ≤ time c) = true := by
    intro a b c hab hbc
    rw [decide_eq_true_eq] at hab hbc ⊢
    exact le_trans hab hbc
  have htotal : ∀ a b : α, (decide (time a ≤ time b) || decide (time b ≤ time a)) = true := by
    intro a b
    rw [Bool.or_eq_true, decide_eq_true_eq, decide_eq_true_eq]
    exact le_total _ _
  exact (List.pairwise_mergeSort htrans htotal l).imp fun h ↦ of_decide_eq_true h

theorem oldestFirst_of_pairwise {l : List α} (h : l.Pairwise (time · ≤ time ·)) :
    oldestFirst time l = l :=
  List.mergeSort_of_pairwise (h.imp fun hle ↦ decide_eq_true hle)

/-- The last entries of the list in the order of their times. -/
def newest (time : α → τ) (limit : Nat) (l : List α) : List α :=
  (oldestFirst time l).drop (l.length - limit)

/-- An answer holds the newest entries, in any order, and of entries of one time any. -/
def IsNewest (time : α → τ) (l : List α) (limit : Nat) (answer : List α) : Prop :=
  ∃ rest : List α, (answer ++ rest).Perm l ∧ answer.length = min limit l.length ∧
    ∀ x ∈ answer, ∀ y ∈ rest, time y ≤ time x

theorem length_newest (time : α → τ) (limit : Nat) (l : List α) :
    (newest time limit l).length = min limit l.length := by
  rw [newest, List.length_drop, (oldestFirst_perm time l).length_eq]
  omega

theorem oldestFirst_newest (time : α → τ) (limit : Nat) (l : List α) :
    oldestFirst time (newest time limit l) = newest time limit l :=
  oldestFirst_of_pairwise ((oldestFirst_pairwise time l).sublist (List.drop_sublist _ _))

theorem newest_isNewest (time : α → τ) (limit : Nat) (l : List α) :
    IsNewest time l limit (newest time limit l) := by
  refine ⟨(oldestFirst time l).take (l.length - limit), ?_, length_newest time limit l, ?_⟩
  · refine List.perm_append_comm.trans ?_
    rw [newest, List.take_append_drop]
    exact oldestFirst_perm time l
  · intro x hx y hy
    have hsorted := oldestFirst_pairwise time l
    rw [← List.take_append_drop (l.length - limit) (oldestFirst time l)] at hsorted
    exact (List.pairwise_append.mp hsorted).2.2 y hy x hx

/-- Sorting an answer leaves it one. -/
theorem IsNewest.sort {l answer : List α} {limit : Nat} (h : IsNewest time l limit answer) :
    IsNewest time l limit (oldestFirst time answer) := by
  obtain ⟨rest, hperm, hlen, hnewer⟩ := h
  have hsort := oldestFirst_perm time answer
  exact ⟨rest, (hsort.append_right rest).trans hperm, hsort.length_eq.trans hlen,
    fun x hx ↦ hnewer x (hsort.mem_iff.mp hx)⟩

/-- The kept entries of an answer are among the kept ones of all. -/
theorem IsNewest.length_filter_le {l answer : List α} {limit : Nat}
    (h : IsNewest time l limit answer) (p : α → Bool) :
    (answer.filter p).length ≤ (l.filter p).length := by
  obtain ⟨rest, hperm, -, -⟩ := h
  have hlen := (hperm.filter p).length_eq
  rw [List.filter_append, List.length_append] at hlen
  omega

/-- An answer that has as many kept entries as there are has them all. -/
theorem IsNewest.filter_perm {l answer : List α} {limit : Nat}
    (h : IsNewest time l limit answer) {p : α → Bool}
    (hall : (l.filter p).length ≤ (answer.filter p).length) :
    (answer.filter p).Perm (l.filter p) := by
  obtain ⟨rest, hperm, -, -⟩ := h
  have hfilter := hperm.filter p
  have hlen := hfilter.length_eq
  rw [List.filter_append] at hfilter
  rw [List.filter_append, List.length_append] at hlen
  have hnil : rest.filter p = [] := List.length_eq_zero_iff.mp (by omega)
  rwa [hnil, List.append_nil] at hfilter

theorem IsNewest.length_eq {l answer : List α} {limit : Nat} (h : IsNewest time l limit answer) :
    answer.length = min limit l.length := by
  obtain ⟨-, -, hlen, -⟩ := h
  exact hlen

/-- An answer that is as long as the list holds all of it. -/
theorem IsNewest.perm {l answer : List α} {limit : Nat} (h : IsNewest time l limit answer)
    (hall : l.length ≤ answer.length) : answer.Perm l := by
  obtain ⟨rest, hperm, -, -⟩ := h
  have hlen := hperm.length_eq
  rw [List.length_append] at hlen
  have hnil : rest = [] := List.length_eq_zero_iff.mp (by omega)
  rwa [hnil, List.append_nil] at hperm

/-- Where no two entries are of one time, the newest entries are determined. -/
theorem IsNewest.oldestFirst_eq {l answer : List α} {limit : Nat}
    (h : IsNewest time l limit answer) (hdistinct : (l.map time).Nodup) :
    oldestFirst time answer = newest time limit l := by
  obtain ⟨rest, hperm, hlen, hnewer⟩ := h
  have hrest : rest.length = l.length - limit := by
    have hsum := hperm.length_eq
    rw [List.length_append] at hsum
    omega
  -- Both sides, after the older entries, are the sorted list.
  have hsorted : (oldestFirst time rest ++ oldestFirst time answer).Pairwise
      (time · ≤ time ·) := by
    refine List.pairwise_append.mpr
      ⟨oldestFirst_pairwise time rest, oldestFirst_pairwise time answer, ?_⟩
    intro y hy x hx
    exact hnewer x ((oldestFirst_perm time answer).mem_iff.mp hx) y
      ((oldestFirst_perm time rest).mem_iff.mp hy)
  have hall : (oldestFirst time rest ++ oldestFirst time answer).Perm (oldestFirst time l) :=
    (((oldestFirst_perm time rest).append (oldestFirst_perm time answer)).trans
      List.perm_append_comm).trans (hperm.trans (oldestFirst_perm time l).symm)
  have heq : oldestFirst time rest ++ oldestFirst time answer = oldestFirst time l := by
    refine hall.eq_of_pairwise ?_ hsorted (oldestFirst_pairwise time l)
    intro a b ha hb hab hba
    have hal := (oldestFirst_perm time l).mem_iff.mp (hall.mem_iff.mp ha)
    have hbl := (oldestFirst_perm time l).mem_iff.mp hb
    exact List.inj_on_of_nodup_map hdistinct hal hbl (le_antisymm hab hba)
  rw [newest, ← heq, ← hrest, ← (oldestFirst_perm time rest).length_eq, List.drop_left]

/-- What a filter keeps of the end of a list is the end of what it keeps of the list. -/
theorem filter_drop (p : α → Bool) (n : Nat) (l : List α) :
    (l.drop n).filter p =
      (l.filter p).drop ((l.filter p).length - ((l.drop n).filter p).length) := by
  conv_rhs => rw [← List.take_append_drop n l]
  rw [List.filter_append, List.length_append, List.take_append_drop, Nat.add_sub_cancel,
    List.drop_left]

/-- More of the end of a list, more of it kept. -/
theorem length_filter_end_le (p : α → Bool) (l : List α) {m n : Nat} (h : m ≤ n) :
    ((l.drop (l.length - m)).filter p).length ≤ ((l.drop (l.length - n)).filter p).length := by
  have hsuffix : l.drop (l.length - m) <:+ l.drop (l.length - n) :=
    List.drop_suffix_drop_left l (by omega)
  exact (hsuffix.sublist.filter p).length_le

/-! ## Pages of the newest entries -/

/-- A page that is cut from the newest `part k` entries of a list. -/
def newestPage (size : Nat) (part : Nat → Nat) (l : List α) (k : Nat) : List α :=
  slice size k (l.drop (l.length - part k))

theorem getElem_mem_newestPage {size k i : Nat} {part : Nat → Nat} {l : List α}
    (hi : i < l.length) (hlow : l.length - part k + k * size ≤ i)
    (hhigh : i < l.length - part k + (k + 1) * size) : l[i] ∈ newestPage size part l k := by
  have hmem := @getElem_mem_slice _ (i - (l.length - part k)) (l.drop (l.length - part k)) size k
    (by rw [List.length_drop]; omega) (by omega) (by omega)
  rw [List.getElem_drop] at hmem
  have hindex : l.length - part k + (i - (l.length - part k)) = i := by omega
  simp only [hindex] at hmem
  exact hmem

/-- Pages of which each is full, if it is not cut from all entries, partition the list only if each
is cut from all entries. -/
theorem newestPages_partition_iff {entries l : List α} {size : Nat} {part : Nat → Nat}
    (hsize : 0 < size) (hl : l.Nodup) (hperm : l.Perm entries)
    (hpart : ∀ k < pageCount entries.length size, part k = entries.length ∨
      (k + 1) * size ≤ part k ∧ part k ≤ entries.length) :
    PagesPartition entries
        ((List.range (pageCount entries.length size)).map (newestPage size part l)) ↔
      ∀ k < pageCount entries.length size, part k = entries.length := by
  have hlen := hperm.length_eq
  constructor
  · -- By induction from the last page on.
    intro h
    have hfrom : ∀ n, ∀ k < pageCount entries.length size,
        pageCount entries.length size ≤ k + n → part k = entries.length := by
      intro n
      induction n with
      | zero =>
        intro k hk hle
        omega
      | succ n ih =>
        intro k hk hle
        rcases hpart k hk with hall | ⟨hfull, hle'⟩
        · exact hall
        by_contra hne
        -- The last entry of the page is an entry of a later page as well.
        have hpos := Nat.mul_pos (Nat.succ_pos k) hsize
        rw [Nat.succ_eq_add_one] at hpos
        obtain ⟨i, hindex⟩ : ∃ i, i = l.length - part k + ((k + 1) * size - 1) := ⟨_, rfl⟩
        have hi : i < l.length := by omega
        have hlater : k < i / size := by
          rw [← Nat.succ_le_iff, Nat.le_div_iff_mul_le hsize]
          change (k + 1) * size ≤ i
          omega
        have hlast : i / size < pageCount entries.length size := by
          rw [lt_pageCount_iff hsize]
          exact Nat.lt_of_le_of_lt (Nat.div_mul_le_self i size) (by omega)
        have hpage := ih (i / size) hlast (by omega)
        have hhere : l[i] ∈ newestPage size part l k := by
          apply getElem_mem_newestPage hi
          · have hstep := Nat.succ_mul k size
            rw [Nat.succ_eq_add_one] at hstep
            omega
          · omega
        have hthere : l[i] ∈ newestPage size part l (i / size) := by
          rw [newestPage, hpage, hlen, Nat.sub_self, List.drop_zero]
          exact getElem_mem_slice _ _ hi (Nat.div_mul_le_self i size)
            (Nat.lt_mul_of_div_lt (Nat.lt_succ_self _) hsize)
        exact List.disjoint_left.mp (h.disjoint_of_lt hlater hlast) hhere hthere
    intro k hk
    exact hfrom (pageCount entries.length size) k hk (by omega)
  · intro h
    have hpages : (List.range (pageCount entries.length size)).map (newestPage size part l) =
        (List.range (pageCount entries.length size)).map (slice size · l) := by
      refine List.map_congr_left fun k hk ↦ ?_
      rw [newestPage, h k (List.mem_range.mp hk), hlen, Nat.sub_self, List.drop_zero]
    rw [hpages]
    exact slices_partition hsize hl hperm

/-- Where the second page is cut from more entries than the first, both hold the newest one. -/
theorem newestPages_not_partition {entries l : List α} {page : Nat → List α} {size : Nat}
    {part : Nat → Nat} (hsize : 0 < size) (hperm : l.Perm entries) (hmore : size < entries.length)
    (hfirst : page 0 = newestPage size part l 0) (hsecond : page 1 = newestPage size part l 1)
    (hzero : part 0 = size) (hone : size < part 1) (htwo : part 1 ≤ 2 * size) :
    ¬ PagesPartition entries ((List.range (pageCount entries.length size)).map page) := by
  intro h
  have hlen := hperm.length_eq
  have htwoPages : 1 < pageCount entries.length size :=
    (lt_pageCount_iff hsize).mpr (by omega)
  have hlast : l.length - 1 < l.length := by omega
  have hmemFirst : l[l.length - 1] ∈ page 0 := by
    rw [hfirst]
    apply getElem_mem_newestPage hlast
    · omega
    · omega
  have hmemSecond : l[l.length - 1] ∈ page 1 := by
    rw [hsecond]
    apply getElem_mem_newestPage hlast
    · omega
    · omega
  exact List.disjoint_left.mp (h.disjoint_of_lt Nat.zero_lt_one htwoPages) hmemFirst hmemSecond

/-- Where the pages after the first are empty, what does not fit on it is lost. -/
theorem first_page_not_partition {entries : List α} {page : Nat → List α} {size n : Nat}
    (hmore : size < entries.length) (hfirst : (page 0).length ≤ size)
    (hlater : ∀ k, page (k + 1) = []) :
    ¬ PagesPartition entries ((List.range n).map page) := by
  intro h
  have hlen : ((List.range n).map page).flatten.length ≤ size := by
    cases n with
    | zero => exact Nat.zero_le _
    | succ n =>
      rw [List.range_succ_eq_map, List.map_cons, List.flatten_cons, List.map_map]
      have hnil : ((List.range n).map (page ∘ Nat.succ)).flatten = [] := by
        rw [List.flatten_eq_nil_iff]
        intro p hp
        obtain ⟨k, -, rfl⟩ := List.mem_map.mp hp
        exact hlater k
      rwa [hnil, List.append_nil]
  rw [h.once.length_eq] at hlen
  omega

end ReinhardtCloud.Base
