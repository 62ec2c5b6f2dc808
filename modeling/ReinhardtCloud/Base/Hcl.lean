import Mathlib.Data.List.Nodup
import Mathlib.Data.List.TakeWhile
import ReinhardtCloud.Base.Numerals

/-!
# HCL documents

Library `Base`. A reader of the HCL that a document of flat blocks is written in: one block header,
attribute or closing brace a line, quoted templates with their escapes and interpolations, numbers,
paths and calls with a path. Directives, nested blocks and what spans lines are refused. Nothing
here names a component.
-/

namespace ReinhardtCloud.Base

/-! ## Expressions -/

/-- A part of a quoted template. -/
inductive TemplatePart where
  | literal (c : Char)
  | interpolation (path : List String)
  deriving DecidableEq

inductive HclExpr where
  | template (parts : List TemplatePart)
  | number (n : Nat)
  | path (names : List String)
  | call (function argument : List String)
  deriving DecidableEq

inductive HclValue where
  | string (s : String)
  | number (n : Nat)
  | bool (b : Bool)
  deriving DecidableEq

/-- What a part contributes, for values of the variables; texts only are interpolated. -/
def TemplatePart.evaluate (vars : String → Option HclValue) : TemplatePart → Option (List Char)
  | .literal c => some [c]
  | .interpolation ["var", name] =>
    match vars name with
    | some (.string s) => some s.toList
    | _ => none
  | .interpolation _ => none

/-- The character of a part that is one. -/
def TemplatePart.literal? : TemplatePart → Option Char
  | .literal c => some c
  | .interpolation _ => none

/-- The value of an expression, for values of the variables. -/
def HclExpr.evaluate (vars : String → Option HclValue) : HclExpr → Option HclValue
  | .template parts =>
    (parts.mapM (TemplatePart.evaluate vars)).map fun texts ↦ .string (String.ofList texts.flatten)
  | .number n => some (.number n)
  | .path ["true"] => some (.bool true)
  | .path ["false"] => some (.bool false)
  | .path ["var", name] => vars name
  | .path _ => none
  | .call _ _ => none

/-- A text as it stands. -/
def HclExpr.text (s : String) : HclExpr := .template (s.toList.map .literal)

/-! ## Reading an expression -/

def isHclIdStart (c : Char) : Bool := c.isAlpha || c = '_'

def isHclIdContinue (c : Char) : Bool := c.isAlphanum || c = '_' || c = '-'

/-- The start of a text that a path can take. -/
def hclPathText (l : List Char) : List Char := l.takeWhile fun c ↦ isHclIdContinue c || c = '.'

/-- Identifiers with dots between them, and what comes behind them. -/
def readHclPath (l : List Char) : Option (List String × List Char) :=
  let names := (hclPathText l).splitOn '.'
  if names.all fun name ↦ name.head?.any isHclIdStart then
    some (names.map String.ofList, l.dropWhile fun c ↦ isHclIdContinue c || c = '.')
  else none

/-- The character of an escape behind its backslash, and how many characters it takes. -/
def readHclEscape (rest : List Char) : Option (Char × Nat) :=
  let hexDigits (n : Nat) : Option (Char × Nat) :=
    let digits := rest.tail.take n
    let value := digits.foldl (fun v d ↦ 16 * v +
      if d.isDigit then d.toNat - 48 else d.toLower.toNat - 87) 0
    if digits.length = n ∧ (digits.all fun d ↦ d.isDigit || (97 ≤ d.toLower.toNat &&
        d.toLower.toNat ≤ 102)) ∧ value.isValidChar then some (Char.ofNat value, n + 1)
    else none
  match rest.head? with
  | some 'n' => some ('\n', 1)
  | some 'r' => some ('\r', 1)
  | some 't' => some ('\t', 1)
  | some '"' => some ('"', 1)
  | some '\\' => some ('\\', 1)
  | some 'u' => hexDigits 4
  | some 'U' => hexDigits 8
  | _ => none

/-- The parts of a template up to its closing quote, and what comes behind it. The characters still
to pass over belong to what has been read. -/
def readTemplate : Nat → List Char → Option (List TemplatePart × List Char)
  | _, [] => none
  | skip + 1, _ :: rest => readTemplate skip rest
  | 0, c :: rest =>
    if c = '"' then some ([], rest)
    else if c = '\\' then
      (readHclEscape rest).bind fun (d, skip) ↦
        (readTemplate skip rest).map fun (parts, behind) ↦ (.literal d :: parts, behind)
    else if c = '$' ∧ rest.head? = some '\x7b' then
      -- An interpolation; `%` in its place starts a directive.
      match readHclPath rest.tail with
      | some (path, '\x7d' :: _) =>
        (readTemplate ((hclPathText rest.tail).length + 2) rest).map fun (parts, behind) ↦
          (.interpolation path :: parts, behind)
      | _ => none
    else if c = '%' ∧ rest.head? = some '\x7b' then none
    else if (c = '$' ∨ c = '%') ∧ rest.take 2 = [c, '\x7b'] then
      (readTemplate 2 rest).map fun (parts, behind) ↦
        (.literal c :: .literal '\x7b' :: parts, behind)
    else (readTemplate 0 rest).map fun (parts, behind) ↦ (.literal c :: parts, behind)

/-- An expression, and what comes behind it. -/
def readHclExpr : List Char → Option (HclExpr × List Char)
  | [] => none
  | c :: rest =>
    if c = '"' then (readTemplate 0 rest).map fun (parts, behind) ↦ (.template parts, behind)
    else if c.isDigit then
      some (.number (decimalValue ((c :: rest).takeWhile Char.isDigit)),
        (c :: rest).dropWhile Char.isDigit)
    else
      (readHclPath (c :: rest)).bind fun (names, behind) ↦
        match behind with
        | '(' :: argument =>
          match readHclPath argument with
          | some (path, ')' :: behind) => some (.call names path, behind)
          | _ => none
        | _ => some (.path names, behind)

/-! ## Reading lines -/

inductive HclLine where
  | blank
  | opening (kind label : String)
  | attribute (name : String) (value : HclExpr)
  | closing
  deriving DecidableEq

/-- Nothing but spaces. -/
def isHclSpaces (l : List Char) : Bool := l.all (· = ' ')

/-- The line of an attribute, from its value on. -/
def readHclValue (name : String) (l : List Char) : Option HclLine :=
  (readHclExpr (l.dropWhile (· = ' '))).bind fun (value, behind) ↦
    if isHclSpaces behind then some (.attribute name value) else none

/-- The line of a block header, from its label on, which is no template. -/
def readHclLabel (kind : String) (l : List Char) : Option HclLine :=
  (readTemplate 0 l).bind fun (parts, behind) ↦
    (parts.mapM TemplatePart.literal?).bind fun label ↦
      if behind.dropWhile (· = ' ') = ['\x7b'] then some (.opening kind (String.ofList label))
      else none

/-- A line. -/
def readHclLine (line : List Char) : Option HclLine :=
  match line.dropWhile (· = ' ') with
  | [] => some .blank
  | c :: rest =>
    if c = '#' then some .blank
    else if c = '\x7d' then if isHclSpaces rest then some .closing else none
    else if isHclIdStart c then
      let name := String.ofList ((c :: rest).takeWhile isHclIdContinue)
      match ((c :: rest).dropWhile isHclIdContinue).dropWhile (· = ' ') with
      | '=' :: value => readHclValue name value
      | '"' :: label => readHclLabel name label
      | _ => none
    else none

/-! ## Reading documents -/

structure HclBlock where
  kind : String
  label : String
  attributes : List (String × HclExpr)
  deriving DecidableEq

/-- The blocks of the lines, of which one may be open. No attribute is there twice. -/
def readHclBlocks : Option HclBlock → List (List Char) → Option (List HclBlock)
  | none, [] => some []
  | some _, [] => none
  | current, line :: rest =>
    (readHclLine line).bind fun read ↦
      match current, read with
      | _, .blank => readHclBlocks current rest
      | none, .opening kind label => readHclBlocks (some ⟨kind, label, []⟩) rest
      | some block, .attribute name value =>
        if name ∈ block.attributes.map Prod.fst then none
        else
          readHclBlocks (some { block with attributes := block.attributes ++ [(name, value)] }) rest
      | some block, .closing => (readHclBlocks none rest).map (block :: ·)
      | _, _ => none

/-- The blocks of a document. -/
def readHcl (text : String) : Option (List HclBlock) :=
  readHclBlocks none (text.toList.splitOn '\n')

/-! ## Texts as they stand -/

/-- A character that stands for itself in a template. -/
def isHclPlain (c : Char) : Bool := c ≠ '"' && c ≠ '\\' && c ≠ '\x7b' && c ≠ '\n'

variable {name : String}

/-- A dollar sign or a percent sign starts nothing before plain characters. -/
theorem readTemplate_plain {l : List Char} (h : ∀ c ∈ l, isHclPlain c = true) (rest : List Char) :
    readTemplate 0 (l ++ '"' :: rest) = some (l.map .literal, rest) := by
  induction l with
  | nil => rw [List.nil_append, readTemplate, if_pos rfl, List.map_nil]
  | cons c l ih =>
    obtain ⟨hc, hl⟩ := List.forall_mem_cons.mp h
    simp only [isHclPlain, Bool.and_eq_true, decide_eq_true_eq] at hc
    obtain ⟨⟨⟨hquote, hbackslash⟩, hbrace⟩, -⟩ := hc
    have hhead : (l ++ '"' :: rest).head? ≠ some '\x7b' := by
      cases l with
      | nil => simp
      | cons d l =>
        have hd := hl d List.mem_cons_self
        simp only [isHclPlain, Bool.and_eq_true, decide_eq_true_eq] at hd
        simp [hd.1.2]
    have htake : (l ++ '"' :: rest).take 2 ≠ [c, '\x7b'] := by
      intro htake
      cases l with
      | nil => exact hquote (List.cons.inj htake).1.symm
      | cons d l =>
        have hnext : (l ++ '"' :: rest).take 1 = ['\x7b'] := (List.cons.inj htake).2
        cases l with
        | nil => exact absurd (List.cons.inj hnext).1 (by decide)
        | cons e l =>
          have he := hl e (List.mem_cons_of_mem d List.mem_cons_self)
          simp only [isHclPlain, Bool.and_eq_true, decide_eq_true_eq] at he
          exact he.1.2 (List.cons.inj hnext).1
    rw [List.cons_append, readTemplate, if_neg hquote, if_neg hbackslash,
      if_neg fun hc ↦ hhead hc.2, if_neg fun hc ↦ hhead hc.2, if_neg fun hc ↦ htake hc.2, ih hl]
    rfl

theorem readHclValue_text {s : String} (h : ∀ c ∈ s.toList, isHclPlain c = true) :
    readHclValue name ('"' :: (s.toList ++ ['"'])) = some (.attribute name (.text s)) := by
  rw [readHclValue, List.dropWhile_cons_of_neg (by decide), readHclExpr, if_pos rfl,
    readTemplate_plain h]
  rfl

theorem readHclLabel_text {s : String} (h : ∀ c ∈ s.toList, isHclPlain c = true) :
    readHclLabel name (s.toList ++ ['"', ' ', '\x7b']) = some (.opening name s) := by
  have hliteral (l : List Char) :
      (l.map TemplatePart.literal).mapM TemplatePart.literal? = some l := by
    induction l with
    | nil => rfl
    | cons c rest ih =>
      rw [List.map_cons, List.mapM_cons, ih]
      rfl
  rw [readHclLabel, readTemplate_plain h, Option.bind_some]
  dsimp only
  rw [hliteral, Option.bind_some, if_pos (by decide), String.ofList_toList]

theorem readHclValue_number (n : Nat) :
    readHclValue name (toString n).toList = some (.attribute name (.number n)) := by
  obtain ⟨hdecimal, hvalue⟩ := decimalValue_toString n
  rw [isDecimal, Bool.and_eq_true, Bool.not_eq_true', List.isEmpty_eq_false_iff,
    List.all_eq_true] at hdecimal
  obtain ⟨hne, hdigits⟩ := hdecimal
  have htake : (toString n).toList.takeWhile Char.isDigit = (toString n).toList :=
    List.takeWhile_eq_self_iff.mpr hdigits
  have hdrop : (toString n).toList.dropWhile Char.isDigit = [] :=
    List.dropWhile_eq_nil_iff.mpr hdigits
  obtain ⟨d, digits, hcons⟩ := List.exists_cons_of_ne_nil hne
  have hd : d.isDigit = true := hdigits d (by rw [hcons]; exact List.mem_cons_self)
  have hspace : d ≠ ' ' := by
    rintro rfl
    cases hd
  have hquote : d ≠ '"' := by
    rintro rfl
    cases hd
  rw [hcons] at htake hdrop hvalue ⊢
  rw [readHclValue, List.dropWhile_cons_of_neg (by simpa using hspace), readHclExpr,
    if_neg hquote, if_pos hd, htake, hdrop, hvalue]
  rfl

/-- A variable under an identifier. -/
theorem readHclValue_var {x : String} (hstart : x.toList.head?.any isHclIdStart = true)
    (hchars : ∀ c ∈ x.toList, isHclIdContinue c = true) :
    readHclValue name ("var.".toList ++ x.toList) = some (.attribute name (.path ["var", x])) := by
  have hvar : "var.".toList = ['v', 'a', 'r', '.'] := rfl
  have hall : ∀ c ∈ "var.".toList ++ x.toList, (isHclIdContinue c || c = '.') = true := by
    intro c hc
    rcases List.mem_append.mp hc with hc | hc
    · exact List.all_eq_true.mp (by decide : "var.".toList.all fun c ↦
        isHclIdContinue c || c = '.') c hc
    · rw [hchars c hc, Bool.true_or]
  have hdot : '.' ∉ x.toList := fun hmem ↦ absurd (hchars _ hmem) (by decide)
  have hsplit : ("var.".toList ++ x.toList).splitOn '.' = ["var".toList, x.toList] := by
    have hcons : "var.".toList ++ x.toList = "var".toList ++ '.' :: x.toList := rfl
    rw [hcons, List.splitOn_append_cons_self_of_not_mem (by decide),
      List.splitOn_eq_singleton hdot]
  have hpath : readHclPath ("var.".toList ++ x.toList) = some (["var", x], []) := by
    rw [readHclPath, hclPathText, List.takeWhile_eq_self_iff.mpr hall, List.dropWhile_eq_nil_iff.mpr
      hall, hsplit,
      if_pos (by
        rw [List.all_cons, List.all_cons, List.all_nil, Bool.and_true, hstart, Bool.and_true]
        decide)]
    rw [List.map_cons, List.map_cons, List.map_nil, String.ofList_toList, String.ofList_toList]
  rw [readHclValue, hvar, List.cons_append, List.dropWhile_cons_of_neg (by decide), readHclExpr,
    if_neg (by decide), if_neg (by decide), ← List.cons_append, ← hvar, hpath]
  rfl

theorem mapM_evaluate_literal (vars : String → Option HclValue) (l : List Char) :
    (l.map TemplatePart.literal).mapM (TemplatePart.evaluate vars) = some (l.map fun c ↦ [c]) := by
  induction l with
  | nil => rfl
  | cons c rest ih =>
    rw [List.map_cons, List.mapM_cons, ih]
    rfl

theorem evaluate_text (vars : String → Option HclValue) (s : String) :
    (HclExpr.text s).evaluate vars = some (.string s) := by
  rw [HclExpr.text, HclExpr.evaluate, mapM_evaluate_literal, Option.map_some, ← List.flatMap_def,
    List.flatMap_singleton', String.ofList_toList]

/-! ## Blocks as they stand -/

/-- The text of lines. -/
def hclText (lines : List String) : String := lines.foldr (fun line text ↦ line ++ "\n" ++ text) ""

/-- A line without line breaks that is read as the given one. -/
def HclReadsLine (line : String) (read : HclLine) : Prop :=
  '\n' ∉ line.toList ∧ readHclLine line.toList = some read

/-- A quoted text behind the start of its line. -/
theorem HclReadsLine.quoted {start name s : String}
    (hstart : ∀ rest, readHclLine (start.toList ++ rest) = readHclValue name ('"' :: rest))
    (hsingle : '\n' ∉ start.toList) (hs : ∀ c ∈ s.toList, isHclPlain c = true) :
    HclReadsLine (start ++ s ++ "\"") (.attribute name (.text s)) := by
  have hline : (start ++ s ++ "\"").toList = start.toList ++ (s.toList ++ ['"']) := by
    rw [String.toList_append, String.toList_append, List.append_assoc]
    rfl
  constructor
  · rw [hline, List.mem_append, List.mem_append]
    rintro (hmem | hmem | hmem)
    · exact hsingle hmem
    · exact absurd (hs _ hmem) (by decide)
    · exact absurd hmem (by decide)
  · rw [hline, hstart, readHclValue_text hs]

/-- The header of a block behind the start of its line. -/
theorem HclReadsLine.header {start kind s : String}
    (hstart : ∀ rest, readHclLine (start.toList ++ rest) = readHclLabel kind rest)
    (hsingle : '\n' ∉ start.toList) (hs : ∀ c ∈ s.toList, isHclPlain c = true) :
    HclReadsLine (start ++ s ++ "\" \x7b") (.opening kind s) := by
  have hline : (start ++ s ++ "\" \x7b").toList =
      start.toList ++ (s.toList ++ ['"', ' ', '\x7b']) := by
    rw [String.toList_append, String.toList_append, List.append_assoc]
    rfl
  constructor
  · rw [hline, List.mem_append, List.mem_append]
    rintro (hmem | hmem | hmem)
    · exact hsingle hmem
    · exact absurd (hs _ hmem) (by decide)
    · exact absurd hmem (by decide)
  · rw [hline, hstart, readHclLabel_text hs]

/-- A number behind the start of its line. -/
theorem HclReadsLine.number {start name : String}
    (hstart : ∀ rest, readHclLine (start.toList ++ rest) = readHclValue name rest)
    (hsingle : '\n' ∉ start.toList) (n : Nat) :
    HclReadsLine (start ++ toString n) (.attribute name (.number n)) := by
  constructor
  · rw [String.toList_append, List.mem_append]
    rintro (hmem | hmem)
    · exact hsingle hmem
    · have hdecimal := (decimalValue_toString n).1
      rw [isDecimal, Bool.and_eq_true, List.all_eq_true] at hdecimal
      exact absurd (hdecimal.2 _ hmem) (by decide)
  · rw [String.toList_append, hstart, readHclValue_number]

/-- A variable behind the start of its line. -/
theorem HclReadsLine.var {start name x : String}
    (hstart : ∀ rest, readHclLine (start.toList ++ rest) = readHclValue name
      ("var.".toList ++ rest))
    (hsingle : '\n' ∉ start.toList) (hx : x.toList.head?.any isHclIdStart = true)
    (hchars : ∀ c ∈ x.toList, isHclIdContinue c = true) :
    HclReadsLine (start ++ x) (.attribute name (.path ["var", x])) := by
  constructor
  · rw [String.toList_append, List.mem_append]
    rintro (hmem | hmem)
    · exact hsingle hmem
    · exact absurd (hchars _ hmem) (by decide)
  · rw [String.toList_append, hstart, readHclValue_var hx hchars]

/-- Lines without line breaks that stand for blocks, whatever follows them. -/
structure HclReads (lines : List String) (blocks : List HclBlock) : Prop where
  single : ∀ line ∈ lines, '\n' ∉ line.toList
  reads : ∀ rest, readHclBlocks none (lines.map String.toList ++ rest) =
    (readHclBlocks none rest).map (blocks ++ ·)

variable {lines lines' : List String} {blocks blocks' : List HclBlock}

namespace HclReads

theorem nil : HclReads [] [] where
  single _ h := by cases h
  reads rest := by
    rw [List.map_nil, List.nil_append]
    exact Option.map_id'.symm

theorem append (h : HclReads lines blocks) (h' : HclReads lines' blocks') :
    HclReads (lines ++ lines') (blocks ++ blocks') where
  single line hline := (List.mem_append.mp hline).elim (h.single line) (h'.single line)
  reads rest := by
    rw [List.map_append, List.append_assoc, h.reads, h'.reads, Option.map_map]
    congr 1
    funext others
    exact (List.append_assoc blocks blocks' others).symm

/-- A blank line or a comment. -/
theorem blank {line : String} (h : HclReadsLine line .blank) : HclReads [line] [] where
  single other hother := List.mem_singleton.mp hother ▸ h.1
  reads rest := by
    rw [List.map_cons, List.map_nil, List.singleton_append, readHclBlocks, h.2, Option.bind_some]
    exact Option.map_id'.symm

/-- Blank lines and comments. -/
theorem blanks (h : ∀ line ∈ lines, HclReadsLine line .blank) : HclReads lines [] := by
  induction lines with
  | nil => exact nil
  | cons line rest ih =>
    obtain ⟨hline, hrest⟩ := List.forall_mem_cons.mp h
    exact (blank hline).append (ih hrest)

/-- Attributes under different names between a header and a brace. -/
theorem block {header kind label : String} {attributes : List (String × HclExpr)}
    (hheader : HclReadsLine header (.opening kind label))
    (hlines : List.Forall₂ (fun line entry ↦ HclReadsLine line (.attribute entry.1 entry.2)) lines
      attributes)
    (hnames : (attributes.map Prod.fst).Nodup) :
    HclReads (header :: (lines ++ ["\x7d"])) [⟨kind, label, attributes⟩] := by
  have hclosing : readHclLine "\x7d".toList = some .closing := rfl
  constructor
  · have hsingle : ∀ line ∈ lines, '\n' ∉ line.toList := by
      clear hnames
      induction hlines with
      | nil => simp
      | cons hline _ ih => exact List.forall_mem_cons.mpr ⟨hline.1, ih⟩
    intro line hline
    rcases List.mem_cons.mp hline with rfl | hline
    · exact hheader.1
    · rcases List.mem_append.mp hline with hline | hline
      · exact hsingle line hline
      · rw [List.mem_singleton.mp hline]
        decide
  · intro rest
    -- The attributes read so far, and those still to come.
    have hopen (done : List (String × HclExpr))
      (hdone : ((done ++ attributes).map Prod.fst).Nodup) :
        readHclBlocks (some ⟨kind, label, done⟩)
            ((lines ++ ["\x7d"]).map String.toList ++ rest) =
          (readHclBlocks none rest).map (⟨kind, label, done ++ attributes⟩ :: ·) := by
      clear hnames
      induction hlines generalizing done with
      | nil =>
        rw [List.nil_append, List.map_singleton, List.singleton_append, readHclBlocks, hclosing,
          Option.bind_some, List.append_nil]
      | @cons line entry lines attributes hline _ ih =>
        have hnew : entry.1 ∉ done.map Prod.fst := by
          intro hmem
          rw [List.map_append, List.map_cons] at hdone
          exact (List.nodup_cons.mp (List.nodup_middle.mp hdone)).1 (List.mem_append_left _ hmem)
        rw [List.cons_append, List.map_cons, List.cons_append, readHclBlocks, hline.2,
          Option.bind_some]
        dsimp only
        rw [if_neg hnew, ih (done ++ [entry]) (by simpa using hdone)]
        simp only [List.append_assoc, List.singleton_append]
    rw [List.map_cons, List.cons_append, readHclBlocks, hheader.2, Option.bind_some]
    exact hopen [] hnames

/-- Texts with a blank line between them. -/
theorem intercalate {texts : List (List String)} {parts : List (List HclBlock)}
    (h : List.Forall₂ HclReads texts parts) : HclReads ([""].intercalate texts) parts.flatten := by
  induction h with
  | nil => exact nil
  | @cons text part texts parts hfirst hrest ih =>
    cases hrest with
    | nil =>
      simp only [List.intercalate_singleton, List.flatten_singleton]
      exact hfirst
    | cons hsecond hothers =>
      have hblank : HclReads [""] [] := blank ⟨by decide, rfl⟩
      rw [List.intercalate_cons_cons, List.flatten_cons, List.append_assoc]
      exact hfirst.append (hblank.append ih)

end HclReads

/-- The text of lines is read line by line. -/
theorem readHcl_hclText (h : HclReads lines blocks) : readHcl (hclText lines) = some blocks := by
  have hsplit : ∀ lines : List String, (∀ line ∈ lines, '\n' ∉ line.toList) →
      (hclText lines).toList.splitOn '\n' = lines.map String.toList ++ [[]] := by
    intro lines hsingle
    induction lines with
    | nil => rfl
    | cons line rest ih =>
      obtain ⟨hline, hrest⟩ := List.forall_mem_cons.mp hsingle
      have htext : (hclText (line :: rest)).toList = line.toList ++ '\n' ::
        (hclText rest).toList := by
        rw [hclText, List.foldr_cons, String.toList_append, String.toList_append,
          List.append_assoc]
        rfl
      rw [htext, List.splitOn_append_cons_self_of_not_mem hline, ih hrest, List.map_cons,
        List.cons_append]
  rw [readHcl, hsplit lines h.single, h.reads]
  show some (blocks ++ []) = _
  rw [List.append_nil]

theorem intercalate_hclText (texts : List (List String)) :
    "\n".intercalate (texts.map hclText) = hclText ([""].intercalate texts) := by
  have happend (l m : List String) : hclText (l ++ m) = hclText l ++ hclText m := by
    induction l with
    | nil => exact String.empty_append.symm
    | cons line rest ih =>
      simp only [hclText, List.cons_append, List.foldr_cons] at ih ⊢
      rw [ih, String.append_assoc, String.append_assoc, String.append_assoc]
  induction texts with
  | nil => rfl
  | cons text rest ih =>
    cases rest with
    | nil => rw [List.map_singleton, String.intercalate_singleton, List.intercalate_singleton]
    | cons next others =>
      have hblank : hclText [""] = "\n" := rfl
      rw [List.map_cons] at ih
      rw [List.map_cons, List.map_cons, String.intercalate_cons_cons, ih,
        List.intercalate_cons_cons, happend, happend, hblank]

end ReinhardtCloud.Base
