import Mathlib.Data.List.DropRight

/-!
# What a Dockerfile says

Library `Base`. Comments and lines that a backslash continues, instructions as a keyword and its
arguments, which are words or one text as the keyword has it, and the stages that they make; and how
lines are written that are read back. Heredocs, parser directives, JSON lists, escapes and variables
inside of arguments and instructions before the first stage are left out.
-/

namespace ReinhardtCloud.Base.Dockerfiles

/-! ## Reading -/

/-- White space between words. -/
def isSpace (c : Char) : Bool := [' ', '\t', '\x0b', '\x0c', '\r'].contains c

/-- Decided along the text, not over all characters. -/
instance (text : List Char) : Decidable (∀ c ∈ text, isSpace c = false) :=
  List.decidableBAll _ text

/-- A comment or an empty line; both are also left out inside of an instruction. -/
def isRemark (line : List Char) : Bool := (line.dropWhile isSpace).head?.all (· = '#')

/-- The line goes on after a backslash at its end that is not itself escaped. -/
def continues (line : List Char) : Bool :=
  match (line.rdropWhile isSpace).reverse with
  | '\\' :: '\\' :: _ => false
  | '\\' :: _ => true
  | _ => false

/-- The instructions of the lines, each as one line. -/
def logicalLines : List Char → List (List Char) → List (List Char)
  | [], [] => []
  | pending, [] => [pending]
  | pending, line :: rest =>
    if isRemark line then logicalLines pending rest
    else if continues line then
      logicalLines (pending ++ (line.rdropWhile isSpace).dropLast) rest
    else (pending ++ line) :: logicalLines [] rest

/-- The words of a text behind the one that has begun; what is in quotes belongs to a word. -/
def wordsFrom (quotes : List Char) : Option Char → List Char → List Char → List (List Char)
  | _, word, [] => if word = [] then [] else [word]
  | some quote, word, c :: rest =>
    wordsFrom quotes (if c = quote then none else some quote) (word ++ [c]) rest
  | none, word, c :: rest =>
    if isSpace c then
      if word = [] then wordsFrom quotes none [] rest else word :: wordsFrom quotes none [] rest
    else wordsFrom quotes (if c ∈ quotes then some c else none) (word ++ [c]) rest

/-- The words of a text. -/
def words (quotes text : List Char) : List (List Char) := wordsFrom quotes none [] text

/-- The keyword of a stage's beginning. -/
def fromKeyword : List Char := ['F', 'R', 'O', 'M']

/-- The keywords whose arguments are words, each with the quotes that it knows. -/
def wordKeywords : List (List Char × List Char) :=
  [(fromKeyword, []), ("COPY".toList, []), ("EXPOSE".toList, []), ("ARG".toList, ['"', '\x27']),
    ("ENV".toList, ['"', '\x27'])]

/-- An instruction: its keyword and its arguments. -/
abbrev Said := List Char × List (List Char)

/-- The arguments behind a keyword: the words, or one text. -/
def argumentsOf (keyword text : List Char) : List (List Char) :=
  (wordKeywords.lookup keyword).elim [text] fun quotes ↦ words quotes text

/-- The keyword of a line and its arguments. -/
def instruction (line : List Char) : Said :=
  let line := (line.dropWhile isSpace).rdropWhile isSpace
  let keyword := line.takeWhile (!isSpace ·)
  (keyword, argumentsOf keyword ((line.dropWhile (!isSpace ·)).dropWhile isSpace))

/-- A stage of a build. -/
structure Stage where
  platform : Option (List Char)
  base : List Char
  name : Option (List Char)
  instructions : List Said
  deriving DecidableEq

/-- The flag of a platform. -/
def platformFlag : List Char := "--platform=".toList

/-- The image of `FROM`, and the stage's name. -/
def parseImage (platform : Option (List Char)) : List (List Char) → Option Stage
  | [base] => some ⟨platform, base, none, []⟩
  | [base, as, name] => if as = ['A', 'S'] then some ⟨platform, base, some name, []⟩ else none
  | _ => none

/-- The arguments of `FROM`. -/
def parseFrom (arguments : List (List Char)) : Option Stage :=
  match arguments with
  | [] => none
  | first :: rest =>
    match platformFlag.isPrefixOf? first with
    | some platform => parseImage (some platform) rest
    | none => parseImage none (first :: rest)

/-- The stages from one on that has begun. -/
def stagesFrom (current : Stage) : List Said → Option (List Stage)
  | [] => some [current]
  | (keyword, arguments) :: rest =>
    if keyword = fromKeyword then
      (parseFrom arguments).bind fun next ↦ (stagesFrom next rest).map (current :: ·)
    else
      stagesFrom
        { current with instructions := current.instructions ++ [(keyword, arguments)] } rest

/-- The stages of the instructions. -/
def stages : List Said → Option (List Stage)
  | [] => some []
  | (keyword, arguments) :: rest =>
    if keyword = fromKeyword then (parseFrom arguments).bind fun first ↦ stagesFrom first rest
    else none

/-- What a Dockerfile says. -/
def read (text : List Char) : Option (List Stage) :=
  stages ((logicalLines [] (text.splitOn '\n')).map instruction)

/-! ## Lines that are read back -/

/-- A text that is no more than the rest of a line. -/
def Plain (text : List Char) : Prop :=
  '\n' ∉ text ∧ ∀ c ∈ (text.rdropWhile isSpace).getLast?, c ≠ '\\'

instance (text : List Char) : Decidable (Plain text) :=
  @instDecidableAnd _ _ _ (Option.decidableForallMem _)

theorem continues_of_plain {text : List Char} (h : Plain text) : continues text = false := by
  rw [continues]
  cases hreverse : (text.rdropWhile isSpace).reverse with
  | nil => rfl
  | cons c rest =>
    have hlast : c ∈ (text.rdropWhile isSpace).getLast? := by
      rw [← List.head?_reverse, hreverse]
      rfl
    have hne := h.2 c hlast
    split
    · next heq => exact absurd (List.cons.inj heq).1 hne
    · next heq => exact absurd (List.cons.inj heq).1 hne
    · rfl

/-- A text without backslashes and line breaks is plain. -/
theorem plain_of_forall {text : List Char} (h : ∀ c ∈ text, c ≠ '\n' ∧ c ≠ '\\') : Plain text := by
  refine ⟨fun hmem ↦ (h _ hmem).1 rfl, ?_⟩
  intro c hc
  exact (h c ((List.rdropWhile_prefix isSpace text).subset (List.mem_of_getLast? hc))).2

/-- What stands before a plain text does not matter, when that is not blank. -/
theorem Plain.append {a b : List Char} (ha : '\n' ∉ a) (hb : Plain b)
    (hblank : b.rdropWhile isSpace ≠ []) : Plain (a ++ b) := by
  refine ⟨fun hmem ↦ (List.mem_append.mp hmem).elim ha hb.1, ?_⟩
  have hdrop : (a ++ b).rdropWhile isSpace = a ++ b.rdropWhile isSpace := by
    rw [List.rdropWhile, List.reverse_append, List.dropWhile_append, if_neg, List.reverse_append,
      List.reverse_reverse, List.rdropWhile]
    intro hempty
    rw [List.isEmpty_iff] at hempty
    exact hblank (by rw [List.rdropWhile, hempty, List.reverse_nil])
  rw [hdrop, List.getLast?_append_of_ne_nil _ hblank]
  exact hb.2

/-- A line that begins with something else than a blank or a hash is no remark. -/
theorem isRemark_cons {c : Char} {rest : List Char} (hblank : isSpace c = false) (hhash : c ≠ '#') :
    isRemark (c :: rest) = false := by
  rw [isRemark, List.dropWhile_cons_of_neg (by rw [hblank]; decide)]
  exact decide_eq_false hhash

theorem isRemark_blanks {blanks rest : List Char} (h : ∀ c ∈ blanks, isSpace c = true) :
    isRemark (blanks ++ rest) = isRemark rest := by
  rw [isRemark, List.dropWhile_append_of_pos h, isRemark]

theorem logicalLines_remark {pending line : List Char} (h : isRemark line = true)
    (rest : List (List Char)) :
    logicalLines pending (line :: rest) = logicalLines pending rest := by
  cases pending <;> exact if_pos h

theorem logicalLines_plain {pending line : List Char} (hremark : isRemark line = false)
    (h : Plain line) (rest : List (List Char)) :
    logicalLines pending (line :: rest) = (pending ++ line) :: logicalLines [] rest := by
  have hremark' : ¬ isRemark line = true := by rw [hremark]; decide
  have hcontinues : ¬ continues line = true := by rw [continues_of_plain h]; decide
  cases pending <;> exact (if_neg hremark').trans (if_neg hcontinues)

/-- A line that a backslash continues after a blank. -/
theorem logicalLines_continued {pending line : List Char}
    (hremark : isRemark (line ++ [' ']) = false) (rest : List (List Char)) :
    logicalLines pending ((line ++ [' ', '\\']) :: rest) =
      logicalLines (pending ++ (line ++ [' '])) rest := by
  have hsplit : line ++ [' ', '\\'] = (line ++ [' ']) ++ ['\\'] := by
    rw [List.append_assoc]
    rfl
  have hdrop : (line ++ [' ', '\\']).rdropWhile isSpace = (line ++ [' ']) ++ ['\\'] := by
    rw [hsplit, List.rdropWhile_concat_neg _ _ _ (by decide)]
  have hremark' : ¬ isRemark (line ++ [' ', '\\']) = true := by
    rw [hsplit]
    intro h
    rw [isRemark] at h hremark
    cases hword : (line ++ [' ']).dropWhile isSpace with
    | nil => rw [hword] at hremark; cases hremark
    | cons c tail =>
      rw [List.dropWhile_append, hword, if_neg (by simp)] at h
      rw [hword] at hremark
      rw [List.cons_append] at h
      have heq : (decide (c = '#')) = true := h
      have hne : (decide (c = '#')) = false := hremark
      rw [heq] at hne
      cases hne
  have hcontinues : continues (line ++ [' ', '\\']) = true := by
    rw [continues, hdrop, List.reverse_append, List.reverse_append]
    rfl
  have hlast : ((line ++ [' ', '\\']).rdropWhile isSpace).dropLast = line ++ [' '] := by
    rw [hdrop, List.dropLast_concat]
  cases pending <;>
    exact (if_neg hremark').trans ((if_pos hcontinues).trans (by rw [hlast]))

/-! ### Lists over several lines -/

/-- A plain text without blanks at its ends that begins with something else than a hash. -/
def Item (text : List Char) : Prop :=
  Plain text ∧ (∃ c rest, text = c :: rest ∧ isSpace c = false ∧ c ≠ '#') ∧
    ∀ c ∈ text.getLast?, isSpace c = false

/-- Nothing before an item makes it a remark, and nothing after it does. -/
theorem Item.isRemark {text : List Char} (h : Item text) {blanks : List Char}
    (hblanks : ∀ c ∈ blanks, isSpace c = true) (rest : List Char) :
    isRemark (blanks ++ text ++ rest) = false := by
  obtain ⟨-, ⟨c, tail, rfl, hblank, hhash⟩, -⟩ := h
  rw [List.append_assoc, isRemark_blanks hblanks, List.cons_append]
  exact isRemark_cons hblank hhash

/-- An item ends with something. -/
theorem Item.rdropWhile_ne_nil {text : List Char} (h : Item text) :
    text.rdropWhile isSpace ≠ [] := by
  obtain ⟨-, ⟨c, tail, rfl, hblank, -⟩, -⟩ := h
  rw [ne_eq, List.rdropWhile_eq_nil_iff]
  intro hall
  rw [hall c List.mem_cons_self] at hblank
  cases hblank

theorem Item.ne_nil {text : List Char} (h : Item text) : text ≠ [] := by
  obtain ⟨-, ⟨c, rest, rfl, -⟩, -⟩ := h
  exact List.cons_ne_nil c rest

instance (text : List Char) : Decidable (∀ c ∈ text.getLast?, isSpace c = false) :=
  Option.decidableForallMem _

instance (text : List Char) : Decidable (Item text) :=
  match text with
  | [] => isFalse (by rintro ⟨-, ⟨c, rest, h, -⟩, -⟩; cases h)
  | c :: rest => decidable_of_iff (Plain (c :: rest) ∧ (isSpace c = false ∧ c ≠ '#') ∧
        ∀ d ∈ (c :: rest).getLast?, isSpace d = false)
      ⟨fun h ↦ ⟨h.1, ⟨c, rest, rfl, h.2.1⟩, h.2.2⟩,
        by rintro ⟨hplain, ⟨_, _, ⟨⟩, h⟩, hlast⟩; exact ⟨hplain, h, hlast⟩⟩

/-- A text that can stand anywhere in a line. -/
def Clean (text : List Char) : Prop := ∀ c ∈ text, c ≠ '\n' ∧ c ≠ '\\'

instance (text : List Char) : Decidable (Clean text) := List.decidableBAll _ text

theorem Clean.append {a b : List Char} (ha : Clean a) (hb : Clean b) : Clean (a ++ b) :=
  List.forall_mem_append.mpr ⟨ha, hb⟩

theorem Plain.append_clean {a b : List Char} (ha : Plain a) (hb : Clean b) : Plain (a ++ b) := by
  by_cases hblank : b.rdropWhile isSpace = []
  · refine ⟨fun hmem ↦ (List.mem_append.mp hmem).elim ha.1 fun h ↦ (hb _ h).1 rfl, ?_⟩
    have hall : ∀ c ∈ b.reverse, isSpace c = true := by
      intro c hc
      exact List.rdropWhile_eq_nil_iff.mp hblank c (List.mem_reverse.mp hc)
    rw [List.rdropWhile, List.reverse_append, List.dropWhile_append_of_pos hall]
    exact ha.2
  · exact .append ha.1 (plain_of_forall hb) hblank

/-- A clean text that may end a line. -/
def Tail (text : List Char) : Prop := Clean text ∧ ∀ c ∈ text.getLast?, isSpace c = false

instance (text : List Char) : Decidable (Tail text) :=
  @instDecidableAnd _ _ _ (Option.decidableForallMem _)

theorem getLast?_append_forall {p : Char → Prop} {a b : List Char} (ha : ∀ c ∈ a.getLast?, p c)
    (hb : ∀ c ∈ b.getLast?, p c) : ∀ c ∈ (a ++ b).getLast?, p c := by
  rw [List.getLast?_append]
  intro c hc
  cases hlast : b.getLast? with
  | none => exact ha c (by rwa [hlast] at hc)
  | some d => exact hb c (by rwa [hlast] at hc ⊢)

theorem Tail.append {a b : List Char} (ha : Tail a) (hb : Tail b) : Tail (a ++ b) :=
  ⟨ha.1.append hb.1, getLast?_append_forall ha.2 hb.2⟩

/-- An item goes on with whatever may end a line. -/
theorem Item.append {a b : List Char} (ha : Item a) (hb : Tail b) : Item (a ++ b) := by
  obtain ⟨hplain, ⟨c, rest, rfl, hfirst⟩, hlast⟩ := ha
  exact ⟨hplain.append_clean hb.1, ⟨c, rest ++ b, rfl, hfirst⟩, getLast?_append_forall hlast hb.2⟩

/-- Texts that can stand anywhere can be joined. -/
theorem clean_intercalate {sep : List Char} {texts : List (List Char)} (hsep : Clean sep)
    (h : ∀ text ∈ texts, Clean text) : Clean (sep.intercalate texts) := by
  induction texts with
  | nil => exact fun c hc ↦ absurd hc List.not_mem_nil
  | cons text rest ih =>
    have htext := h text List.mem_cons_self
    cases rest with
    | nil => rwa [List.intercalate_singleton]
    | cons next rest =>
      rw [List.intercalate_cons_of_ne_nil (List.cons_ne_nil _ _)]
      refine (htext.append hsep).append (ih ?_)
      exact fun other hother ↦ h other (List.mem_cons_of_mem text hother)

/-- What separates, quotes or escapes words or begins a comment. -/
def wordLimits : List Char := [' ', '\t', '\x0b', '\x0c', '\r', '\n', '\\', '#', '"', '\x27']

/-- A text of one piece, wherever it stands. -/
def Solid (text : List Char) : Prop := ∀ c ∈ text, c ∉ wordLimits

instance (text : List Char) : Decidable (Solid text) := List.decidableBAll _ text

/-- A text of one piece that is there. -/
def Word (text : List Char) : Prop := text ≠ [] ∧ Solid text

instance (text : List Char) : Decidable (Word text) := instDecidableAnd

theorem isSpace_of_not_mem {c : Char} (h : c ∉ wordLimits) : isSpace c = false := by
  by_contra hspace
  have hmem := List.contains_iff_mem.mp (Bool.not_eq_false _ ▸ hspace)
  refine h ?_
  exact (show [' ', '\t', '\x0b', '\x0c', '\r'] ⊆ wordLimits by decide) hmem

theorem Solid.append {a b : List Char} (ha : Solid a) (hb : Solid b) : Solid (a ++ b) :=
  List.forall_mem_append.mpr ⟨ha, hb⟩

theorem Solid.isSpace {text : List Char} (h : Solid text) : ∀ c ∈ text, isSpace c = false :=
  fun c hc ↦ isSpace_of_not_mem (h c hc)

theorem Solid.clean {text : List Char} (h : Solid text) : Clean text := by
  intro c hc
  refine ⟨?_, ?_⟩
  · rintro rfl
    exact h _ hc (by decide)
  · rintro rfl
    exact h _ hc (by decide)

theorem Solid.tail {text : List Char} (h : Solid text) : Tail text :=
  ⟨h.clean, fun c hc ↦ h.isSpace c (List.mem_of_getLast? hc)⟩

theorem Word.item {text : List Char} (h : Word text) : Item text := by
  refine ⟨plain_of_forall h.2.clean, ?_, h.2.tail.2⟩
  obtain ⟨hne, hall⟩ := h
  cases text with
  | nil => exact absurd rfl hne
  | cons c rest =>
    refine ⟨c, rest, rfl, hall.isSpace c List.mem_cons_self, ?_⟩
    rintro rfl
    exact hall '#' List.mem_cons_self (by decide)

theorem Word.append {a b : List Char} (ha : Word a) (hb : Solid b) : Word (a ++ b) :=
  ⟨List.append_ne_nil_of_left_ne_nil ha.1 b, ha.2.append hb⟩

/-- Words are made of characters of a kind without limits of words. -/
theorem not_mem_wordLimits {p : Char → Bool} (hp : wordLimits.all (!p ·) = true) {c : Char}
    (h : p c = true) : c ∉ wordLimits := by
  intro hmem
  have hnot := List.all_eq_true.mp hp c hmem
  rw [h] at hnot
  cases hnot

/-- Backslashes and blanks before an item do not matter. -/
theorem Item.after {a b : List Char} (ha : '\n' ∉ a)
    (hfirst : ∀ c ∈ a.head?, isSpace c = false ∧ c ≠ '#') (hb : Item b) : Item (a ++ b) := by
  refine ⟨.append ha hb.1 hb.rdropWhile_ne_nil, ?_, ?_⟩
  · cases a with
    | nil => exact hb.2.1
    | cons c rest => exact ⟨c, rest ++ b, rfl, hfirst c rfl⟩
  · rw [List.getLast?_append_of_ne_nil a hb.ne_nil]
    exact hb.2.2

/-- The lines of a list: each but the last goes on after a backslash. -/
def listLines (sep indent : List Char) : List Char → List (List Char) → List (List Char)
  | head, [] => [head]
  | head, [x] => [head ++ x]
  | head, x :: rest => (head ++ x ++ sep ++ [' ', '\\']) :: listLines sep indent indent rest

/-- The text of the list. -/
theorem intercalate_listLines (sep indent head : List Char) (xs : List (List Char)) :
    ['\n'].intercalate (listLines sep indent head xs) =
      head ++ (sep ++ [' ', '\\', '\n'] ++ indent).intercalate xs := by
  induction xs generalizing head with
  | nil => simp [listLines]
  | cons x rest ih =>
    cases rest with
    | nil => simp [listLines]
    | cons y rest =>
      have hlines : listLines sep indent indent (y :: rest) ≠ [] := by
        cases rest <;> simp [listLines]
      rw [listLines, List.intercalate_cons_of_ne_nil hlines, ih,
        List.intercalate_cons_of_ne_nil (List.cons_ne_nil _ _)]
      · simp
      · simp

/-- A list is read as one line. -/
theorem logicalLines_listLines {sep indent : List Char} (hindent : ∀ c ∈ indent, isSpace c = true)
    {xs : List (List Char)} (hxs : xs ≠ []) (hitems : ∀ x ∈ xs, Item x) {pending head : List Char}
    (hhead : '\n' ∉ head) (hremark : ∀ x ∈ xs, ∀ rest, isRemark (head ++ x ++ rest) = false)
    (rest : List (List Char)) :
    logicalLines pending (listLines sep indent head xs ++ rest) =
      (pending ++ (head ++ (sep ++ [' '] ++ indent).intercalate xs)) :: logicalLines [] rest := by
  induction xs generalizing pending head with
  | nil => exact absurd rfl hxs
  | cons x tail ih =>
    have hx := hitems x List.mem_cons_self
    cases tail with
    | nil =>
      have hplain : Plain (head ++ x) := .append hhead hx.1 hx.rdropWhile_ne_nil
      have hline : isRemark (head ++ x) = false := by
        rw [← List.append_nil (head ++ x)]
        exact hremark x List.mem_cons_self []
      rw [listLines, List.singleton_append, logicalLines_plain hline hplain]
      simp
    | cons y tail =>
      have hline : isRemark (head ++ x ++ sep ++ [' ']) = false := by
        rw [List.append_assoc (head ++ x)]
        exact hremark x List.mem_cons_self (sep ++ [' '])
      have hnewline : '\n' ∉ indent := by
        intro hmem
        have hblank := hindent _ hmem
        cases hblank
      have htail : ∀ z ∈ y :: tail, Item z := fun z hz ↦ hitems z (List.mem_cons_of_mem x hz)
      have hindented : ∀ z ∈ y :: tail, ∀ rest, isRemark (indent ++ z ++ rest) = false :=
        fun z hz after ↦ (htail z hz).isRemark hindent after
      rw [listLines, List.cons_append, logicalLines_continued hline,
        ih (List.cons_ne_nil y tail) htail hnewline hindented,
        List.intercalate_cons_of_ne_nil (List.cons_ne_nil _ _)]
      · simp
      · simp

/-! ### Instructions and stages -/

/-- A keyword is read back, with the arguments behind it. -/
theorem instruction_append {keyword text : List Char} (hkeyword : keyword ≠ [])
    (hblank : ∀ c ∈ keyword, isSpace c = false) (hne : text ≠ [])
    (hfirst : ∀ c ∈ text.head?, isSpace c = false)
    (hlast : ∀ c ∈ text.getLast?, isSpace c = false) :
    instruction (keyword ++ ' ' :: text) = (keyword, argumentsOf keyword text) := by
  have hdrop : (keyword ++ ' ' :: text).dropWhile isSpace = keyword ++ ' ' :: text := by
    cases keyword with
    | nil => exact absurd rfl hkeyword
    | cons c rest =>
      exact List.dropWhile_cons_of_neg (by rw [hblank c List.mem_cons_self]; decide)
  have htrim : (keyword ++ ' ' :: text).rdropWhile isSpace = keyword ++ ' ' :: text := by
    rw [List.rdropWhile_eq_self_iff]
    intro hl
    have hlast' : (keyword ++ ' ' :: text).getLast? = text.getLast? := by
      rw [List.append_cons, List.getLast?_append_of_ne_nil _ hne]
    have hmem := List.getLast?_eq_some_getLast hl
    rw [hlast'] at hmem
    rw [hlast _ hmem]
    decide
  have hword : ∀ c ∈ keyword, (!isSpace c) = true := by
    intro c hc
    rw [hblank c hc]
    rfl
  have hrest : (' ' :: text).dropWhile isSpace = text := by
    rw [List.dropWhile_cons_of_pos (by decide)]
    cases text with
    | nil => rfl
    | cons c rest => exact List.dropWhile_cons_of_neg (by rw [hfirst c rfl]; decide)
  have htake : (keyword ++ ' ' :: text).takeWhile (!isSpace ·) = keyword := by
    rw [List.takeWhile_append_of_pos hword, List.takeWhile_cons_of_neg (by decide),
      List.append_nil]
  have hbehind : ((keyword ++ ' ' :: text).dropWhile (!isSpace ·)).dropWhile isSpace = text := by
    rw [List.dropWhile_append_of_pos hword, List.dropWhile_cons_of_neg (by decide), hrest]
  rw [instruction, hdrop, htrim, htake, hbehind]

/-- An item behind a keyword. -/
theorem Item.instruction {keyword text : List Char} (h : Item text) (hkeyword : keyword ≠ [])
    (hblank : ∀ c ∈ keyword, isSpace c = false) :
    instruction (keyword ++ ' ' :: text) = (keyword, argumentsOf keyword text) := by
  refine instruction_append hkeyword hblank h.ne_nil ?_ h.2.2
  obtain ⟨-, ⟨c, rest, rfl, hfirst, -⟩, -⟩ := h
  rintro _ ⟨⟩
  exact hfirst

/-- The text is written on lines of its own, and is read as the instruction, or as a remark. -/
def ReadsAs (text : List Char) (said : Option Said) : Prop :=
  ∃ lines, text = ['\n'].intercalate lines ∧ lines ≠ [] ∧ (∀ line ∈ lines, '\n' ∉ line) ∧
    ∀ rest, (logicalLines [] (lines ++ rest)).map instruction =
      said.toList ++ (logicalLines [] rest).map instruction

theorem readsAs_remark {text : List Char} (hnewline : '\n' ∉ text) (h : isRemark text = true) :
    ReadsAs text none := by
  refine ⟨[text], by simp, List.cons_ne_nil _ _, ?_, ?_⟩
  · intro line hline
    rwa [List.mem_singleton.mp hline]
  · intro rest
    rw [List.singleton_append, logicalLines_remark h]
    rfl

/-- What a keyword is: a word that is no comment. -/
def Keyword (keyword : List Char) : Prop :=
  keyword ≠ [] ∧ ∀ c ∈ keyword, isSpace c = false ∧ c ≠ '#' ∧ c ≠ '\n'

instance (keyword : List Char) : Decidable (Keyword keyword) :=
  @instDecidableAnd _ _ _ (List.decidableBAll _ keyword)

theorem Keyword.newline {keyword : List Char} (h : Keyword keyword) :
    '\n' ∉ keyword ++ [' '] := by
  intro hmem
  rcases List.mem_append.mp hmem with hmem | hmem
  · exact (h.2 _ hmem).2.2 rfl
  · exact absurd (List.mem_singleton.mp hmem) (by decide)

theorem Keyword.isRemark {keyword : List Char} (h : Keyword keyword) (rest : List Char) :
    isRemark (keyword ++ rest) = false := by
  obtain ⟨hne, hall⟩ := h
  cases keyword with
  | nil => exact absurd rfl hne
  | cons c tail =>
    obtain ⟨hblank, hhash, -⟩ := hall c List.mem_cons_self
    exact isRemark_cons hblank hhash

/-- An instruction on one line. -/
theorem readsAs_line {keyword text : List Char} (hkeyword : Keyword keyword) (hitem : Item text) :
    ReadsAs (keyword ++ [' '] ++ text) (some (keyword, argumentsOf keyword text)) := by
  have hplain : Plain (keyword ++ [' '] ++ text) :=
    .append hkeyword.newline hitem.1 hitem.rdropWhile_ne_nil
  have hremark : isRemark (keyword ++ [' '] ++ text) = false := by
    rw [List.append_assoc]
    exact hkeyword.isRemark _
  refine ⟨[keyword ++ [' '] ++ text], by simp, List.cons_ne_nil _ _, ?_, ?_⟩
  · intro line hline
    rw [List.mem_singleton.mp hline]
    exact hplain.1
  · intro rest
    rw [List.singleton_append, logicalLines_plain hremark hplain, List.nil_append, List.map_cons,
      List.append_assoc, List.singleton_append,
      hitem.instruction hkeyword.1 fun c hc ↦ (hkeyword.2 c hc).1]
    rfl

/-- No line of a list has a line break in it. -/
theorem newline_listLines {sep indent head : List Char} {xs : List (List Char)}
    (hsep : '\n' ∉ sep) (hindent : '\n' ∉ indent) (hhead : '\n' ∉ head)
    (hxs : ∀ x ∈ xs, '\n' ∉ x) : ∀ line ∈ listLines sep indent head xs, '\n' ∉ line := by
  induction xs generalizing head with
  | nil =>
    intro line hline
    rwa [List.mem_singleton.mp hline]
  | cons x rest ih =>
    have hx : '\n' ∉ head ++ x := by
      rw [List.mem_append]
      exact not_or.mpr ⟨hhead, hxs x List.mem_cons_self⟩
    cases rest with
    | nil =>
      intro line hline
      rwa [List.mem_singleton.mp hline]
    | cons y rest =>
      intro line hline
      rcases List.mem_cons.mp hline with rfl | hline
      · rw [List.mem_append, List.mem_append]
        exact not_or.mpr ⟨not_or.mpr ⟨hx, hsep⟩, by decide⟩
      · exact ih hindent (fun z hz ↦ hxs z (List.mem_cons_of_mem x hz)) line hline

/-- What stands at the ends of joined items. -/
theorem ends_intercalate (sep : List Char) {xs : List (List Char)} (hxs : xs ≠ [])
    (hitems : ∀ x ∈ xs, Item x) : sep.intercalate xs ≠ [] ∧
      (∀ c ∈ (sep.intercalate xs).head?, isSpace c = false) ∧
      ∀ c ∈ (sep.intercalate xs).getLast?, isSpace c = false := by
  induction xs with
  | nil => exact absurd rfl hxs
  | cons x tail ih =>
    have hx := hitems x List.mem_cons_self
    obtain ⟨-, ⟨c, after, rfl, hfirst, -⟩, hlast⟩ := hx
    cases tail with
    | nil =>
      rw [List.intercalate_singleton]
      exact ⟨List.cons_ne_nil c after, by rintro _ ⟨⟩; exact hfirst, hlast⟩
    | cons y tail =>
      have htail := ih (List.cons_ne_nil y tail) fun z hz ↦ hitems z (List.mem_cons_of_mem _ hz)
      rw [List.intercalate_cons_of_ne_nil (List.cons_ne_nil _ _)]
      refine ⟨by simp, by rintro _ ⟨⟩; exact hfirst, ?_⟩
      rw [List.getLast?_append_of_ne_nil _ htail.1]
      exact htail.2.2

/-- An instruction whose arguments stand on a line each. -/
theorem readsAs_list {keyword sep indent : List Char} {xs : List (List Char)}
    (hkeyword : Keyword keyword) (hsep : '\n' ∉ sep) (hindent : ∀ c ∈ indent, isSpace c = true)
    (hxs : xs ≠ []) (hitems : ∀ x ∈ xs, Item x) :
    ReadsAs (keyword ++ [' '] ++ (sep ++ [' ', '\\', '\n'] ++ indent).intercalate xs)
      (some (keyword, argumentsOf keyword ((sep ++ [' '] ++ indent).intercalate xs))) := by
  have hnewline : '\n' ∉ indent := by
    intro hmem
    have hblank := hindent _ hmem
    cases hblank
  refine ⟨listLines sep indent (keyword ++ [' ']) xs, (intercalate_listLines _ _ _ _).symm, ?_,
    newline_listLines hsep hnewline hkeyword.newline fun x hx ↦ (hitems x hx).1.1, ?_⟩
  · cases xs with
    | nil => exact absurd rfl hxs
    | cons x rest => cases rest <;> simp [listLines]
  · intro rest
    rw [logicalLines_listLines hindent hxs hitems hkeyword.newline fun x _ after ↦ by
      rw [List.append_assoc, List.append_assoc]
      exact hkeyword.isRemark _]
    obtain ⟨hne, hfirst, hlast⟩ := ends_intercalate (sep ++ [' '] ++ indent) hxs hitems
    rw [List.nil_append, List.map_cons, List.append_assoc, List.singleton_append,
      instruction_append hkeyword.1 (fun c hc ↦ (hkeyword.2 c hc).1) hne hfirst hlast]
    rfl

theorem intercalate_append {sep : List Char} {xs ys : List (List Char)} (hxs : xs ≠ [])
    (hys : ys ≠ []) :
    sep.intercalate (xs ++ ys) = sep.intercalate xs ++ sep ++ sep.intercalate ys := by
  induction xs with
  | nil => exact absurd rfl hxs
  | cons x rest ih =>
    cases rest with
    | nil => rw [List.singleton_append, List.intercalate_cons_of_ne_nil hys,
        List.intercalate_singleton]
    | cons y rest =>
      have hne : y :: rest ≠ [] := List.cons_ne_nil y rest
      have hjoined : y :: rest ++ ys ≠ [] := List.append_ne_nil_of_left_ne_nil hne ys
      rw [List.cons_append, List.intercalate_cons_of_ne_nil hjoined, ih hne,
        List.intercalate_cons_of_ne_nil hne]
      simp only [List.append_assoc]

/-- Texts that are written one after the other, each with a line break behind it, are read one
after the other. -/
theorem read_flatMap {texts : List (List Char × Option Said)} (h : ∀ t ∈ texts, ReadsAs t.1 t.2) :
    read (texts.flatMap fun t ↦ t.1 ++ ['\n']) = stages (texts.flatMap fun t ↦ t.2.toList) := by
  have hlines : ∃ lines, (texts.flatMap fun t ↦ t.1 ++ ['\n']) =
        ['\n'].intercalate (lines ++ [[]]) ∧ (∀ line ∈ lines, '\n' ∉ line) ∧
      (logicalLines [] (lines ++ [[]])).map instruction =
        texts.flatMap fun t ↦ t.2.toList := by
    induction texts with
    | nil => exact ⟨[], rfl, by simp, rfl⟩
    | cons t texts ih =>
      obtain ⟨lines, htext, hnewline, hread⟩ := ih fun u hu ↦ h u (List.mem_cons_of_mem t hu)
      obtain ⟨first, hfirst, hne, hfirstNewline, hfirstRead⟩ := h t List.mem_cons_self
      refine ⟨first ++ lines, ?_, ?_, ?_⟩
      · rw [List.flatMap_cons, htext, hfirst, List.append_assoc first,
          intercalate_append hne (by simp)]
      · intro line hline
        exact (List.mem_append.mp hline).elim (hfirstNewline line) (hnewline line)
      · rw [List.append_assoc, hfirstRead, hread, List.flatMap_cons]
  obtain ⟨lines, htext, hnewline, hread⟩ := hlines
  have hall : ∀ line ∈ lines ++ [[]], '\n' ∉ line := by
    intro line hline
    rcases List.mem_append.mp hline with hline | hline
    · exact hnewline line hline
    · rw [List.mem_singleton.mp hline]
      exact List.not_mem_nil
  rw [read, htext, List.splitOn_intercalate '\n' hall (by simp), hread]

/-! ### Words -/

/-- A word goes on with what neither separates nor quotes. -/
theorem wordsFrom_append {quotes text : List Char}
    (h : ∀ c ∈ text, isSpace c = false ∧ c ∉ quotes) (word rest : List Char) :
    wordsFrom quotes none word (text ++ rest) = wordsFrom quotes none (word ++ text) rest := by
  induction text generalizing word with
  | nil => rw [List.nil_append, List.append_nil]
  | cons c text ih =>
    obtain ⟨hspace, hquote⟩ := h c List.mem_cons_self
    have hspace' : ¬ isSpace c = true := by rw [hspace]; decide
    rw [List.cons_append, wordsFrom, if_neg hspace', if_neg hquote,
      ih fun d hd ↦ h d (List.mem_cons_of_mem c hd), List.append_assoc, List.singleton_append]

theorem wordsFrom_blanks {quotes blanks : List Char} (h : ∀ c ∈ blanks, isSpace c = true)
    (rest : List Char) :
    wordsFrom quotes none [] (blanks ++ rest) = wordsFrom quotes none [] rest := by
  induction blanks with
  | nil => rfl
  | cons c blanks ih =>
    rw [List.cons_append, wordsFrom, if_pos (h c List.mem_cons_self), if_pos rfl,
      ih fun d hd ↦ h d (List.mem_cons_of_mem c hd)]

/-- Words are read back that blanks separate. -/
theorem words_intercalate {quotes blanks : List Char} (hblanks : ∀ c ∈ blanks, isSpace c = true)
    (hne : blanks ≠ []) {texts : List (List Char)}
    (h : ∀ text ∈ texts, text ≠ [] ∧ ∀ c ∈ text, isSpace c = false ∧ c ∉ quotes) :
    words quotes (blanks.intercalate texts) = texts := by
  induction texts with
  | nil => rfl
  | cons text rest ih =>
    obtain ⟨htext, hchars⟩ := h text List.mem_cons_self
    cases rest with
    | nil =>
      rw [List.intercalate_singleton, words, ← List.append_nil text, wordsFrom_append hchars,
        List.nil_append, List.append_nil, wordsFrom, if_neg htext]
    | cons next rest =>
      rw [List.intercalate_cons_of_ne_nil (List.cons_ne_nil _ _), List.append_assoc, words,
        wordsFrom_append hchars, List.nil_append]
      cases blanks with
      | nil => exact absurd rfl hne
      | cons c blanks =>
        rw [List.cons_append, wordsFrom, if_pos (hblanks c List.mem_cons_self), if_neg htext,
          wordsFrom_blanks fun d hd ↦ hblanks d (List.mem_cons_of_mem c hd)]
        exact congrArg _ (ih fun other hother ↦ h other (List.mem_cons_of_mem text hother))

/-- One blank, as it stands between two words. -/
theorem isSpace_blank : ∀ c ∈ [' '], isSpace c = true := List.forall_mem_singleton.mpr rfl

/-- The arguments of a keyword with words. -/
theorem argumentsOf_words {keyword quotes blanks : List Char}
    (hkeyword : wordKeywords.lookup keyword = some quotes) (hquotes : quotes ⊆ wordLimits)
    (hblanks : ∀ c ∈ blanks, isSpace c = true) (hne : blanks ≠ []) {texts : List (List Char)}
    (h : ∀ text ∈ texts, Word text) :
    argumentsOf keyword (blanks.intercalate texts) = texts := by
  rw [argumentsOf, hkeyword]
  refine words_intercalate hblanks hne fun text htext ↦ ?_
  obtain ⟨hne, hsolid⟩ := h text htext
  exact ⟨hne, fun c hc ↦ ⟨hsolid.isSpace c hc, fun hmem ↦ hsolid c hc (hquotes hmem)⟩⟩

/-- `FROM` with an image and a name. -/
theorem parseFrom_named {base name : List Char} (hflag : ¬ platformFlag <+: base) :
    parseFrom [base, ['A', 'S'], name] = some ⟨none, base, some name, []⟩ := by
  have hno : platformFlag.isPrefixOf? base = none := by
    rw [← Option.not_isSome_iff_eq_none, List.isSome_isPrefixOf?_eq_isPrefixOf,
      List.isPrefixOf_iff_prefix]
    exact hflag
  rw [parseFrom]
  show (match platformFlag.isPrefixOf? base with
    | some platform => _
    | none => _) = _
  rw [hno]
  rfl

theorem unflagged_of_head {text : List Char} (h : text.head? ≠ some '-') :
    ¬ platformFlag <+: text := by
  rintro ⟨rest, rfl⟩
  exact h rfl

theorem stagesFrom_append (current : Stage) {body : List Said}
    (hbody : ∀ i ∈ body, i.1 ≠ fromKeyword) (rest : List Said) :
    stagesFrom current (body ++ rest) =
      stagesFrom { current with instructions := current.instructions ++ body } rest := by
  induction body generalizing current with
  | nil => rw [List.nil_append, List.append_nil]
  | cons i body ih =>
    rw [List.cons_append, stagesFrom, if_neg (hbody i List.mem_cons_self),
      ih _ fun j hj ↦ hbody j (List.mem_cons_of_mem i hj), List.append_assoc,
      List.singleton_append]

/-- A stage is begun by its image, and none is begun by its instructions. -/
structure Begins (image : List (List Char)) (body : List Said) (opened : Stage) : Prop where
  image : parseFrom image = some opened
  opened : opened.instructions = []
  body : ∀ i ∈ body, i.1 ≠ fromKeyword

section Stages

variable {α : Type*} {image : α → List (List Char)} {body : α → List Said} {opened : α → Stage}

theorem stagesFrom_flatMap {x : α} (hx : Begins (image x) (body x) (opened x)) {xs : List α}
    (h : ∀ x ∈ xs, Begins (image x) (body x) (opened x)) :
    stagesFrom (opened x) (body x ++ xs.flatMap fun x ↦ (fromKeyword, image x) :: body x) =
      some ((x :: xs).map fun x ↦ { opened x with instructions := body x }) := by
  induction xs generalizing x with
  | nil =>
    rw [List.flatMap_nil, stagesFrom_append _ hx.body, hx.opened, List.nil_append]
    rfl
  | cons y ys ih =>
    have hy := h y List.mem_cons_self
    rw [List.flatMap_cons, stagesFrom_append _ hx.body, hx.opened, List.nil_append,
      List.cons_append, stagesFrom, if_pos rfl, hy.image, Option.bind_some,
      ih hy fun z hz ↦ h z (List.mem_cons_of_mem y hz)]
    rfl

/-- Stages are read back that are written one after the other. -/
theorem stages_flatMap {xs : List α} (h : ∀ x ∈ xs, Begins (image x) (body x) (opened x)) :
    stages (xs.flatMap fun x ↦ (fromKeyword, image x) :: body x) =
      some (xs.map fun x ↦ { opened x with instructions := body x }) := by
  cases xs with
  | nil => rfl
  | cons x xs =>
    have hx := h x List.mem_cons_self
    rw [List.flatMap_cons, List.cons_append, stages, if_pos rfl, hx.image, Option.bind_some]
    exact stagesFrom_flatMap hx fun y hy ↦ h y (List.mem_cons_of_mem x hy)

end Stages

/-! ### Copies -/

/-- The flag of a copy's stage. -/
def sourceFlag : List Char := "--from=".toList

/-- The stage that a `COPY` takes its files from. -/
def copiesFrom (i : Said) : Option (List Char) :=
  if i.1 = "COPY".toList then i.2.head?.bind sourceFlag.isPrefixOf? else none

/-- Each copy is from a stage that has been built before, and no name is given again. -/
def ResolvedAfter (names : List (List Char)) : List Stage → Prop
  | [] => True
  | stage :: rest =>
    (∀ source ∈ stage.instructions.filterMap copiesFrom, source ∈ names) ∧
      (∀ name ∈ stage.name, name ∉ names) ∧ ResolvedAfter (names ++ stage.name.toList) rest

theorem copiesFrom_flag (source : List Char) (rest : List (List Char)) :
    copiesFrom ("COPY".toList, (sourceFlag ++ source) :: rest) = some source := by
  rw [copiesFrom, if_pos rfl, List.head?_cons, Option.bind_some,
    List.isPrefixOf?_eq_some_iff_append_eq]

end ReinhardtCloud.Base.Dockerfiles
