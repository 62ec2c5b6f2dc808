import Mathlib.Data.List.Chain
import Mathlib.Data.List.DropRight

/-!
# Dotted names

Library `Base`. Names made of words, dashes and dots in which every dot stands between two word
characters: host names and the object names of an API that admits them. What remains of one when
it is cut off at a length, and what may follow it behind a dash. Nothing here names a component.
-/

namespace ReinhardtCloud.Base

universe u

variable {α : Type u}

/-- Dashes and dots are told apart, and neither is a word character. -/
structure Separators (word : α → Bool) (dash dot : α) : Prop where
  wordDash : word dash = false
  wordDot : word dot = false
  ne : dash ≠ dot

/-- The front of a dotted name. -/
structure DottedStem (word : α → Bool) (dash dot : α) (l : List α) : Prop where
  head : l.head?.any word = true
  chars : ∀ c ∈ l, word c = true ∨ c = dash ∨ c = dot
  joined : l.IsChain fun c d ↦ (c = dot → word d = true) ∧ (d = dot → word c = true)

/-- A dotted name: it ends in a word character as well. -/
structure DottedName (word : α → Bool) (dash dot : α) (l : List α) : Prop extends
    DottedStem word dash dot l where
  last : l.getLast?.any word = true

variable {word : α → Bool} {dash dot : α} {l t : List α}

theorem DottedStem.ne_nil (h : DottedStem word dash dot l) : l ≠ [] := by
  rintro rfl
  exact absurd h.head Bool.false_ne_true

/-- A nonempty front of a front. -/
theorem DottedStem.front (h : DottedStem word dash dot l) (ht : t <+: l) (hne : t ≠ []) :
    DottedStem word dash dot t := by
  constructor
  · obtain ⟨rest, rfl⟩ := ht
    have hhead := h.head
    rwa [List.head?_append_of_ne_nil _ hne] at hhead
  · exact fun c hc ↦ h.chars c (ht.subset hc)
  · exact h.joined.prefix ht

/-- Without dots there is nothing to join. -/
theorem isChain_of_undotted (hs : Separators word dash dot)
    (h : ∀ c ∈ l, word c = true ∨ c = dash) :
    l.IsChain fun c d ↦ (c = dot → word d = true) ∧ (d = dot → word c = true) := by
  have hdot : dot ∉ l := by
    intro hmem
    rcases h dot hmem with hword | hdash
    · rw [hs.wordDot] at hword
      cases hword
    · exact hs.ne hdash.symm
  apply List.Pairwise.isChain
  apply List.pairwise_of_forall_mem_list
  intro c hc d hd
  constructor
  · rintro rfl
    exact absurd hc hdot
  · rintro rfl
    exact absurd hd hdot

/-- Behind a front and a dash a text without dots makes a name unless the front ends in a dot. -/
theorem DottedStem.append_iff (hs : Separators word dash dot) (h : DottedStem word dash dot l)
    (ht : ∀ c ∈ t, word c = true ∨ c = dash) (hlast : t.getLast?.any word = true) :
    DottedName word dash dot (l ++ dash :: t) ↔ l.getLast? ≠ some dot := by
  have htail : ∀ c ∈ dash :: t, word c = true ∨ c = dash := by
    intro c hc
    rcases List.mem_cons.mp hc with rfl | hc
    · exact .inr rfl
    · exact ht c hc
  constructor
  · intro hname hdot
    have hjoined := (List.isChain_append.mp hname.joined).2.2 dot hdot dash (by simp)
    have hword := hjoined.1 rfl
    rw [hs.wordDash] at hword
    cases hword
  · intro hdot
    have htne : t ≠ [] := by
      rintro rfl
      exact absurd hlast Bool.false_ne_true
    constructor
    · constructor
      · rw [List.head?_append_of_ne_nil _ h.ne_nil]
        exact h.head
      · intro c hc
        rcases List.mem_append.mp hc with hc | hc
        · exact h.chars c hc
        · exact (htail c hc).imp_right .inl
      · rw [List.isChain_append]
        refine ⟨h.joined, isChain_of_undotted hs htail, ?_⟩
        intro c hc d hd
        rw [List.head?_cons, Option.mem_some_iff] at hd
        subst hd
        constructor
        · rintro rfl
          exact absurd hc hdot
        · intro hdash
          exact absurd hdash hs.ne
    · rw [List.getLast?_append_of_ne_nil _ (List.cons_ne_nil _ _),
        List.getLast?_cons_of_ne_nil htne]
      exact hlast

/-! ## Cutting a name off -/

variable [DecidableEq α]

/-- The first `n` characters of a name, without the dashes at their end. -/
def cutName (dash : α) (n : Nat) (l : List α) : List α := (l.take n).rdropWhile (· = dash)

theorem cutName_isPrefix (dash : α) (n : Nat) (l : List α) : cutName dash n l <+: l :=
  (List.rdropWhile_prefix _ _).trans (List.take_prefix _ _)

theorem cutName_ne_nil (hs : Separators word dash dot) (h : DottedStem word dash dot l) {n : Nat}
    (hn : 0 < n) : cutName dash n l ≠ [] := by
  intro hnil
  rw [cutName, List.rdropWhile_eq_nil_iff] at hnil
  cases hl : l with
  | nil => exact h.ne_nil hl
  | cons c rest =>
    have hhead := h.head
    rw [hl, List.head?_cons, Option.any_some] at hhead
    have hc := hnil c (by
      rw [hl, List.take_cons hn]
      exact List.mem_cons_self)
    rw [decide_eq_true_eq] at hc
    rw [hc, hs.wordDash] at hhead
    cases hhead

/-- What is left of a name ends in a dot exactly when the last character that fits is one. -/
theorem getLast?_cutName (hs : Separators word dash dot) (h : DottedName word dash dot l) {n : Nat}
    (hn : 0 < n) : (cutName dash n l).getLast? = some dot ↔ l[n - 1]? = some dot := by
  have hsplit := List.rdropWhile_append_rtakeWhile (p := (· = dash)) (l := l.take n)
  have htake : (l.take n).getLast? = l[n - 1]?.or l.getLast? := by
    rw [List.getLast?_take, if_neg (Nat.ne_of_gt hn)]
  constructor
  · intro hlast
    -- a dash cannot follow the dot, so nothing was cut off
    have hnil : (l.take n).rtakeWhile (· = dash) = [] := by
      cases hrest : (l.take n).rtakeWhile (· = dash) with
      | nil => rfl
      | cons d rest =>
        have hd := List.mem_rtakeWhile_imp (p := (· = dash)) (l := l.take n) (by
          rw [hrest]
          exact List.mem_cons_self)
        have hjoined := h.joined.take n
        rw [← hsplit, hrest, List.isChain_append] at hjoined
        have hword := (hjoined.2.2 dot hlast d (by simp)).1 rfl
        rw [of_decide_eq_true hd, hs.wordDash] at hword
        cases hword
    rw [hnil, List.append_nil] at hsplit
    rw [cutName, hsplit, htake] at hlast
    cases hfits : l[n - 1]? with
    | some c => rwa [hfits, Option.some_or] at hlast
    | none =>
      have hend := h.last
      rw [hfits, Option.none_or] at hlast
      rw [hlast, Option.any_some, hs.wordDot] at hend
      cases hend
  · intro hdot
    rw [hdot, Option.some_or] at htake
    obtain ⟨init, hinit⟩ := List.getLast?_eq_some_iff.mp htake
    rw [cutName, hinit, List.rdropWhile_concat_neg _ _ _ (by simpa using hs.ne.symm),
      List.getLast?_concat]

end ReinhardtCloud.Base
