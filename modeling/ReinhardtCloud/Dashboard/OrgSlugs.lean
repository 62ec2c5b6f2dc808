import Mathlib.Data.List.Chain
import Mathlib.Data.List.DropRight
import ReinhardtCloud.Base.Affixes
import ReinhardtCloud.Base.Encoding
import ReinhardtCloud.Base.HostNames
import ReinhardtCloud.Operator.Tenants

/-!
# Slugs of personal organizations

Library `Dashboard`. The slug derived from a username (`organizations/roles.rs:63–167`,
`auth/services/registration.rs:256–275`), which becomes a tenant's namespace behind a further
prefix. Byte offsets are checked as the language checks them; the random UUIDs are arguments.
-/

namespace ReinhardtCloud.Dashboard

open ReinhardtCloud.Base ReinhardtCloud.Operator

/-- `Uuid::new_v4().simple()`: thirty-two lower-case hexadecimal digits. -/
structure SimpleUuid where
  text : String
  length : text.toList.length = 32
  hex : ∀ c ∈ text.toList, isLowerHexDigit c = true

/-- `MAX_SLUG_LEN` and `MAX_ORG_SLUG_LEN`. -/
def maxSlugLen : Nat := 63

/-- `RESERVED_SLUGS`, `roles.rs:67–78`. -/
def reservedSlugs : List String :=
  ["", "kube-system", "kube-public", "kube-node-lease", "default", "reinhardt-cloud-system",
    "system", "admin", "api", "dashboard"]

/-- `is_reserved_slug`. -/
def isReservedSlug (slug : String) : Bool := reservedSlugs.contains slug

/-- `validate_slug`, `roles.rs:89–110`. The bytes of a character beyond ASCII fail where it does. -/
def validateSlug (slug : String) : Except String Unit :=
  let chars := slug.toList
  if chars.isEmpty then .error "slug is empty"
  else if slug.utf8ByteSize > maxSlugLen then .error "slug exceeds 63 characters"
  else if !chars.head?.any Char.isLower then .error "slug must start with a lowercase letter"
  else if !chars.getLast?.any isDns1123Alphanumeric then
    .error "slug must end with a lowercase letter or digit"
  else if !chars.all fun c ↦ isDns1123Alphanumeric c || c = '-' then
    .error "slug contains invalid characters"
  else .ok ()

/-- What `sanitize_username_to_slug` takes for a dash. -/
def isSeparator (c : Char) : Bool := c = '-' || c = '_' || c = '.' || c = ' '

/-- The first pass of `sanitize_username_to_slug`. -/
def lowered (username : String) : List Char :=
  username.toList.flatMap fun c ↦
    if c.isAlphanum then [c.toLower] else if isSeparator c then ['-'] else []

/-- Its second pass. -/
def collapseDashes (prevDash : Bool) : List Char → List Char
  | [] => []
  | c :: rest =>
    if c = '-' then
      if prevDash then collapseDashes prevDash rest else c :: collapseDashes true rest
    else c :: collapseDashes false rest

/-- `while collapsed.ends_with('-') { collapsed.pop(); }`. -/
def popDashes (l : List Char) : List Char := l.rdropWhile (· = '-')

/-- `user-` and the first digits of a UUID. -/
def userSlug (uuid : SimpleUuid) : Option String :=
  (sliceTo 8 uuid.text).map fun suffix ↦ s!"user-{suffix}"

/-- `sanitize_username_to_slug`, `roles.rs:118–167`. -/
def sanitizeUsernameToSlug (uuid : SimpleUuid) (username : String) : Option String :=
  let collapsed := String.ofList (popDashes (collapseDashes true (lowered username)))
  let truncated := if collapsed.utf8ByteSize > maxSlugLen then
      (sliceTo maxSlugLen collapsed).map fun s ↦ String.ofList (popDashes s.toList)
    else some collapsed
  truncated.bind fun slug ↦
    if slug.isEmpty || slug.toList.head?.any Char.isDigit then userSlug uuid else some slug

/-- `personal_org_slug`, `registration.rs:256–263`. -/
def personalOrgSlug (uuid uuid' : SimpleUuid) (username : String) : Option String :=
  (sanitizeUsernameToSlug uuid username).bind fun slug ↦
    if isReservedSlug slug || validateSlug slug ≠ .ok () then userSlug uuid' else some slug

/-- `retry_slug`, `registration.rs:265–275`. -/
def retrySlug (uuid : SimpleUuid) (slug : String) : Option String :=
  (sliceTo 6 uuid.text).bind fun suffix ↦
    let headLen := maxSlugLen - suffix.utf8ByteSize - 1
    let head := if slug.utf8ByteSize > headLen then sliceTo headLen slug else some slug
    head.map fun head ↦ s!"{head}-{suffix}"

/-- What an organization's slug is for: the tenant it names is valid. -/
structure Usable (slug : String) : Prop where
  valid : validateSlug slug = .ok ()
  notReserved : isReservedSlug slug = false
  tenant : (⟨slug, none⟩ : TenantRef).validate = .ok ()
  fits : (⟨slug, none⟩ : TenantRef).computedNamespace.length ≤ 63

/-! ## Slugs -/

/-- The characters of a slug: a letter, letters, digits and dashes, and no dash at the end. -/
structure SlugShape (l : List Char) : Prop where
  head : l.head?.any Char.isLower = true
  last : l.getLast?.any isDns1123Alphanumeric = true
  chars : ∀ c ∈ l, IsLabelChar c

variable {slug : String} {l : List Char}

theorem SlugShape.ascii (h : SlugShape l) : ∀ c ∈ l, c.val.toNat ≤ 127 := fun c hc ↦
  toNat_le_of_isLabelChar (h.chars c hc)

theorem SlugShape.utf8ByteSize (h : SlugShape slug.toList) :
    slug.utf8ByteSize = slug.toList.length := by
  have hsize := utf8ByteSize_of_ascii h.ascii
  rwa [String.ofList_toList] at hsize

theorem SlugShape.ne_nil (h : SlugShape l) : l ≠ [] := by
  rintro rfl
  exact absurd h.head (by decide)

theorem validateSlug_eq_ok_iff :
    validateSlug slug = .ok () ↔ SlugShape slug.toList ∧ slug.utf8ByteSize ≤ 63 := by
  have hall : (slug.toList.all fun c ↦ isDns1123Alphanumeric c || c = '-') = true ↔
      ∀ c ∈ slug.toList, IsLabelChar c := by
    simp only [List.all_eq_true, Bool.or_eq_true, decide_eq_true_eq, IsLabelChar]
  unfold validateSlug maxSlugLen
  constructor
  · intro h
    by_cases hempty : slug.toList.isEmpty = true
    · rw [if_pos hempty] at h
      cases h
    · by_cases hsize : slug.utf8ByteSize > 63
      · rw [if_neg hempty, if_pos hsize] at h
        cases h
      · by_cases hhead : slug.toList.head?.any Char.isLower = true
        · by_cases hlast : slug.toList.getLast?.any isDns1123Alphanumeric = true
          · by_cases hchars : (slug.toList.all fun c ↦ isDns1123Alphanumeric c || c = '-') = true
            · exact ⟨⟨hhead, hlast, hall.mp hchars⟩, Nat.le_of_not_lt hsize⟩
            · simp [hempty, hsize, hhead, hlast, hchars] at h
          · simp [hempty, hsize, hhead, hlast] at h
        · simp [hempty, hsize, hhead] at h
  · rintro ⟨hshape, hsize⟩
    have hempty : slug.toList.isEmpty = false := by
      rw [List.isEmpty_eq_false_iff]
      exact hshape.ne_nil
    simp [hempty, hshape.head, hshape.last, hall.mpr hshape.chars, Nat.not_lt.mpr hsize]

/-- Behind `tenant-` a slug has seven characters less to itself. -/
theorem usable_iff (hshape : SlugShape slug.toList) (hreserved : isReservedSlug slug = false) :
    Usable slug ↔ slug.toList.length ≤ 56 := by
  have hlist : (⟨slug, none⟩ : TenantRef).computedNamespace.toList =
      "tenant-".toList ++ slug.toList := by
    simp [TenantRef.computedNamespace, toString]
  have hlength : (⟨slug, none⟩ : TenantRef).computedNamespace.length = 7 + slug.toList.length := by
    rw [← String.length_toList, hlist, List.length_append]
    rfl
  have hlower (c : Char) (h : c.isLower = true) : isDns1123Alphanumeric c = true := by
    rw [isDns1123Alphanumeric, isLowerAlphanumeric, h, Bool.true_or]
  have hprefixed : ∀ c ∈ "tenant-".toList ++ slug.toList, IsLabelChar c := by
    have hfixed : ∀ c ∈ "tenant-".toList, isDns1123Alphanumeric c || c = '-' :=
      List.all_eq_true.mp (by decide)
    intro c hc
    rcases List.mem_append.mp hc with hc | hc
    · have h := hfixed c hc
      rwa [Bool.or_eq_true, decide_eq_true_eq] at h
    · exact hshape.chars c hc
  have hsize : (⟨slug, none⟩ : TenantRef).computedNamespace.utf8ByteSize =
      7 + slug.toList.length := by
    have h := utf8ByteSize_of_ascii fun c hc ↦ toNat_le_of_isLabelChar (hprefixed c hc)
    rw [← hlist, String.ofList_toList, hlist, List.length_append] at h
    exact h
  constructor
  · intro h
    have hfits := h.fits
    omega
  · intro h
    have hslug : isDns1123Label slug = true := by
      rw [isDns1123Label_iff, hshape.utf8ByteSize]
      refine ⟨by omega, ?_, hshape.last, hshape.chars⟩
      cases hc : slug.toList.head? with
      | none => exact absurd (List.head?_eq_none_iff.mp hc) hshape.ne_nil
      | some c =>
        have hhead := hshape.head
        rw [hc, Option.any_some] at hhead
        exact hlower c hhead
    have hnamespace : isDns1123Label (⟨slug, none⟩ : TenantRef).computedNamespace = true := by
      rw [isDns1123Label_iff, hsize, hlist]
      refine ⟨by omega, rfl, ?_, hprefixed⟩
      obtain ⟨c, hc⟩ := Option.isSome_iff_exists.mp (Option.isSome_of_any hshape.last)
      rw [List.getLast?_append, hc, Option.some_or, ← hc]
      exact hshape.last
    refine ⟨?_, hreserved, ?_, ?_⟩
    · rw [validateSlug_eq_ok_iff, hshape.utf8ByteSize]
      exact ⟨hshape, by omega⟩
    · rw [TenantRef.validate_eq_ok_iff]
      exact ⟨hslug, rfl, hnamespace⟩
    · omega

/-! ## Digits of a UUID -/

theorem sliceTo_uuid (uuid : SimpleUuid) {n : Nat} (hn : n ≤ 32) :
    sliceTo n uuid.text = some (String.ofList (uuid.text.toList.take n)) :=
  sliceTo_of_ascii (fun c hc ↦ toNat_le_of_isLowerHexDigit (uuid.hex c hc))
    (by rw [uuid.length]; exact hn)

theorem SimpleUuid.length_take (uuid : SimpleUuid) {n : Nat} (hn : n ≤ 32) :
    (uuid.text.toList.take n).length = n := by
  rw [List.length_take, uuid.length]
  omega

/-- The last of the first digits is a digit. -/
theorem SimpleUuid.getLast_take (uuid : SimpleUuid) {n : Nat} (hpos : 0 < n) (hn : n ≤ 32) :
    ∃ c, (uuid.text.toList.take n).getLast? = some c ∧ isDns1123Alphanumeric c = true := by
  have hlength := uuid.length_take hn
  cases hc : (uuid.text.toList.take n).getLast? with
  | none =>
    rw [List.getLast?_eq_none_iff] at hc
    rw [hc, List.length_nil] at hlength
    omega
  | some c =>
    refine ⟨c, rfl, ?_⟩
    have hmem := List.mem_of_mem_take (List.mem_of_getLast? hc)
    exact isDns1123Alphanumeric_of_isLowerHexDigit (uuid.hex c hmem)

/-- The fallback is a slug of thirteen characters. -/
theorem userSlug_spec (uuid : SimpleUuid) : ∃ slug, userSlug uuid = some slug ∧
    SlugShape slug.toList ∧ isReservedSlug slug = false ∧ slug.toList.length = 13 := by
  have hlist : (s!"user-{String.ofList (uuid.text.toList.take 8)}").toList =
      "user-".toList ++ uuid.text.toList.take 8 := by
    simp [toString]
  obtain ⟨c, hc, hlast⟩ := uuid.getLast_take (n := 8) (by omega) (by omega)
  refine ⟨_, by rw [userSlug, sliceTo_uuid uuid (by omega), Option.map_some], ?_, ?_, ?_⟩
  · rw [hlist]
    refine ⟨rfl, ?_, ?_⟩
    · rw [List.getLast?_append, hc, Option.some_or, Option.any_some]
      exact hlast
    · intro d hd
      rcases List.mem_append.mp hd with hd | hd
      · have hfixed : ∀ d ∈ "user-".toList, isDns1123Alphanumeric d || d = '-' :=
          List.all_eq_true.mp (by decide)
        have h := hfixed d hd
        rwa [Bool.or_eq_true, decide_eq_true_eq] at h
      · exact .inl (isDns1123Alphanumeric_of_isLowerHexDigit
          (uuid.hex d (List.mem_of_mem_take hd)))
  · have hnone : ∀ r ∈ reservedSlugs, r.toList.head? ≠ some 'u' := by decide
    rw [isReservedSlug, List.contains_eq_mem, decide_eq_false_iff_not]
    intro hmem
    refine hnone _ hmem ?_
    rw [hlist]
    rfl
  · rw [hlist, List.length_append, uuid.length_take (by omega)]
    rfl

/-- A reserved slug does not end in a dash and six hexadecimal digits. -/
theorem not_reserved_of_digits {head digits : List Char} (hlength : digits.length = 6)
    (hhex : ∀ c ∈ digits, isLowerHexDigit c = true) (hslug : slug.toList = head ++ '-' :: digits) :
    isReservedSlug slug = false := by
  have hnone : ∀ r ∈ reservedSlugs, r.toList.length < 7 ∨
      ¬ (r.toList.drop (r.toList.length - 6)).all isLowerHexDigit = true := by decide
  rw [isReservedSlug, List.contains_eq_mem, decide_eq_false_iff_not]
  intro hmem
  have htotal : slug.toList.length = head.length + 7 := by
    rw [hslug, List.length_append, List.length_cons, hlength]
  rcases hnone _ hmem with hshort | hdigits
  · omega
  · refine hdigits (List.all_eq_true.mpr ?_)
    have hdrop : slug.toList.drop (slug.toList.length - 6) = digits := by
      have hcut : slug.toList.length - 6 = (head ++ ['-']).length := by
        rw [htotal, List.length_append, List.length_singleton]
        omega
      have hsplit : head ++ '-' :: digits = (head ++ ['-']) ++ digits := List.append_cons _ _ _
      rw [hcut, hslug, hsplit, List.drop_left]
    rw [hdrop]
    exact hhex

/-- The start of a slug that leaves room for a dash and six digits. -/
theorem retryHead_spec (hshape : SlugShape slug.toList) :
    (if slug.utf8ByteSize > 56 then sliceTo 56 slug else some slug) =
      some (String.ofList (slug.toList.take 56)) := by
  rw [hshape.utf8ByteSize]
  by_cases h : slug.toList.length > 56
  · rw [if_pos h, sliceTo_of_ascii hshape.ascii (Nat.le_of_lt h)]
  · rw [if_neg h, List.take_of_length_le (Nat.le_of_not_lt h), String.ofList_toList]

/-- The second slug is one, and has the length this leaves. -/
theorem retrySlug_spec (uuid : SimpleUuid) (hshape : SlugShape slug.toList) :
    ∃ retry, retrySlug uuid slug = some retry ∧ SlugShape retry.toList ∧
      isReservedSlug retry = false ∧
      retry.toList.length = min slug.toList.length 56 + 7 := by
  have hhex : ∀ c ∈ uuid.text.toList.take 6, isLowerHexDigit c = true := fun c hc ↦
    uuid.hex c (List.mem_of_mem_take hc)
  have hlength := uuid.length_take (n := 6) (by omega)
  have hsize : (String.ofList (uuid.text.toList.take 6)).utf8ByteSize = 6 := by
    rw [utf8ByteSize_of_ascii fun c hc ↦ toNat_le_of_isLowerHexDigit (hhex c hc), hlength]
  have hretry : retrySlug uuid slug =
      some (String.ofList (slug.toList.take 56 ++ '-' :: uuid.text.toList.take 6)) := by
    rw [retrySlug, sliceTo_uuid uuid (by omega), Option.bind_some]
    simp only [hsize, maxSlugLen]
    rw [retryHead_spec hshape, Option.map_some, Option.some_inj]
    apply String.toList_inj.mp
    simp [toString]
  have hlist : (String.ofList (slug.toList.take 56 ++ '-' :: uuid.text.toList.take 6)).toList =
      slug.toList.take 56 ++ '-' :: uuid.text.toList.take 6 := String.toList_ofList
  refine ⟨_, hretry, ?_, not_reserved_of_digits hlength hhex hlist, ?_⟩
  · rw [hlist]
    refine ⟨?_, ?_, ?_⟩
    · have hhead := hshape.head
      cases hslug : slug.toList with
      | nil => exact absurd hslug hshape.ne_nil
      | cons c rest =>
        rw [hslug] at hhead
        exact hhead
    · obtain ⟨c, hc, hlast⟩ := uuid.getLast_take (n := 6) (by omega) (by omega)
      rw [List.getLast?_append, List.getLast?_cons, hc]
      exact hlast
    · intro c hc
      rcases List.mem_append.mp hc with hc | hc
      · exact hshape.chars c (List.mem_of_mem_take hc)
      · rcases List.mem_cons.mp hc with rfl | hc
        · exact .inr rfl
        · exact .inl (isDns1123Alphanumeric_of_isLowerHexDigit (hhex c hc))
  · rw [hlist, List.length_append, List.length_cons, List.length_take, hlength, Nat.min_comm]

/-! ## How long a username makes its slug -/

/-- What of a username ends up in its slug, one way or the other. -/
def keptChars (username : String) : List Char :=
  username.toList.filter fun c ↦ c.isAlphanum || isSeparator c

/-- The words of a text: the letters and digits behind a separator. -/
def wordStarts (before : Char) (l : List Char) : Nat :=
  ((before :: l).zip l).countP fun cd ↦ isSeparator cd.1 && cd.2.isAlphanum

/-- The letters and digits of a username and one dash between two words. -/
def collapsedLength (username : String) : Nat :=
  (keptChars username).countP Char.isAlphanum + wordStarts '-' (keptChars username) - 1

/-- The first letter or digit of a username is a digit. -/
def startsWithDigit (username : String) : Prop :=
  ((keptChars username).find? Char.isAlphanum).any Char.isDigit = true

/-- How the first pass maps a character it keeps. -/
def slugChar (c : Char) : Char := if c.isAlphanum then c.toLower else '-'

theorem lowered_eq (username : String) :
    lowered username = (keptChars username).map slugChar := by
  unfold lowered keptChars
  induction username.toList with
  | nil => rfl
  | cons c rest ih =>
    rw [List.flatMap_cons, ih, List.filter_cons]
    by_cases halnum : c.isAlphanum = true
    · simp [halnum, slugChar]
    · by_cases hsep : isSeparator c = true
      · simp [halnum, hsep, slugChar]
      · simp [halnum, hsep]

theorem slugChar_spec {c : Char} (h : c.isAlphanum = true) :
    isDns1123Alphanumeric (slugChar c) = true ∧ (slugChar c).isDigit = c.isDigit := by
  have hlower (d : Char) : d.isLower = (decide (97 ≤ d.toNat) && decide (d.toNat ≤ 122)) := rfl
  have hdigit (d : Char) : d.isDigit = (decide (48 ≤ d.toNat) && decide (d.toNat ≤ 57)) := rfl
  have hupper (d : Char) : d.isUpper = decide (65 ≤ d.toNat ∧ d.toNat ≤ 90) := rfl
  have hcases : c.isAlphanum = (c.isUpper || c.isLower || c.isDigit) := rfl
  rw [slugChar, if_pos h, isDns1123Alphanumeric, isLowerAlphanumeric, hlower, hdigit, hdigit,
    toNat_toLower]
  rw [hcases, hupper, hlower, hdigit] at h
  simp only [Bool.or_eq_true, Bool.and_eq_true, decide_eq_true_eq] at h
  by_cases hcap : 65 ≤ c.toNat ∧ c.toNat ≤ 90
  · rw [if_pos hcap]
    constructor
    · simp only [Bool.or_eq_true, Bool.and_eq_true, decide_eq_true_eq]
      omega
    · rw [← Bool.decide_and, ← Bool.decide_and, decide_eq_decide]
      omega
  · rw [if_neg hcap]
    constructor
    · simp only [Bool.or_eq_true, Bool.and_eq_true, decide_eq_true_eq]
      omega
    · rfl

theorem slugChar_eq_dash_iff {c : Char} : slugChar c = '-' ↔ c.isAlphanum = false := by
  constructor
  · intro h
    by_contra halnum
    rw [Bool.not_eq_false] at halnum
    have hspec := (slugChar_spec halnum).1
    rw [h] at hspec
    exact absurd hspec (by decide)
  · intro h
    rw [slugChar, h, if_neg Bool.false_ne_true]

/-- The dashes at the end of a text behind its first character. -/
theorem popDashes_cons (c : Char) (l : List Char) :
    popDashes (c :: l) = if popDashes l = [] ∧ c = '-' then [] else c :: popDashes l := by
  have hcons : popDashes (c :: l) = ((l.reverse ++ [c]).dropWhile (· = '-')).reverse := by
    rw [popDashes, List.rdropWhile, List.reverse_cons]
  rw [hcons, List.dropWhile_append]
  by_cases h : l.reverse.dropWhile (· = '-') = []
  · have hempty : popDashes l = [] := by rw [popDashes, List.rdropWhile, h, List.reverse_nil]
    rw [if_pos (List.isEmpty_iff.mpr h)]
    by_cases hc : c = '-'
    · rw [if_pos ⟨hempty, hc⟩, hc]
      rfl
    · rw [if_neg fun h ↦ hc h.2, List.dropWhile_cons_of_neg (by rwa [decide_eq_true_eq]), hempty]
      rfl
  · have hne : popDashes l ≠ [] := fun hnil ↦ h (List.reverse_eq_nil_iff.mp hnil)
    rw [if_neg fun h' ↦ h (List.isEmpty_iff.mp h'), if_neg fun h' ↦ hne h'.1, List.reverse_append]
    rfl

theorem isSeparator_of_isAlphanum {c : Char} (h : c.isAlphanum = true) : isSeparator c = false := by
  rw [isSeparator, Bool.eq_false_iff]
  intro hsep
  simp only [Bool.or_eq_true, decide_eq_true_eq] at hsep
  rcases hsep with ((rfl | rfl) | rfl) | rfl
  · exact absurd h (by decide)
  · exact absurd h (by decide)
  · exact absurd h (by decide)
  · exact absurd h (by decide)

theorem collapse_slugChar {c : Char} (h : c.isAlphanum = true) (prevDash : Bool)
    (l : List Char) : popDashes (collapseDashes prevDash (slugChar c :: l)) =
      slugChar c :: popDashes (collapseDashes false l) := by
  have hne : slugChar c ≠ '-' := by
    rw [ne_eq, slugChar_eq_dash_iff, h]
    exact Bool.noConfusion
  rw [collapseDashes, if_neg hne, popDashes_cons, if_neg fun h ↦ hne h.2]

/-- The letters and digits that remain, and one dash for each separator behind them that a word
follows. -/
theorem length_popDashes_collapse (l : List Char)
    (hkept : ∀ c ∈ l, c.isAlphanum || isSeparator c) {before : Char}
    (hbefore : isSeparator before = false) {sep : Char} (hsep : isSeparator sep = true) :
    (popDashes (collapseDashes false (l.map slugChar))).length =
        l.countP Char.isAlphanum + wordStarts before l ∧
      (if popDashes (collapseDashes true (l.map slugChar)) = [] then 0
        else (popDashes (collapseDashes true (l.map slugChar))).length + 1) =
        l.countP Char.isAlphanum + wordStarts sep l := by
  induction l generalizing before sep with
  | nil => exact ⟨rfl, rfl⟩
  | cons c rest ih =>
    have hrest := fun d hd ↦ hkept d (List.mem_cons_of_mem c hd)
    have hstarts (d : Char) : wordStarts d (c :: rest) =
        wordStarts c rest + if (isSeparator d && c.isAlphanum) = true then 1 else 0 := by
      unfold wordStarts
      rw [List.zip_cons_cons, List.countP_cons]
    rw [List.map_cons, hstarts, hstarts, List.countP_cons, hbefore, hsep]
    by_cases hc : c.isAlphanum = true
    · have hcsep := isSeparator_of_isAlphanum hc
      have hshort := (ih hrest hcsep hsep).1
      rw [collapse_slugChar hc, collapse_slugChar hc, if_neg (List.cons_ne_nil _ _),
        List.length_cons, hshort, hc]
      constructor
      · simp only [Bool.false_and, Bool.false_eq_true, ↓reduceIte]
        omega
      · simp only [Bool.true_and, ↓reduceIte]
        omega
    · rw [Bool.not_eq_true] at hc
      have hcsep : isSeparator c = true := by
        have h := hkept c List.mem_cons_self
        rwa [hc, Bool.false_or] at h
      have hdash : slugChar c = '-' := slugChar_eq_dash_iff.mpr hc
      have hlong := (ih hrest hbefore hcsep).2
      rw [hdash, collapseDashes, collapseDashes, if_pos rfl, if_pos rfl, if_neg Bool.false_ne_true,
        if_pos rfl, popDashes_cons, hc, hlong]
      simp only [Bool.and_false, Bool.false_eq_true, ↓reduceIte, Nat.add_zero, and_true]
      rw [← hlong]
      split
      · rfl
      · rfl

/-- The slug before it is cut to size: what `sanitize_username_to_slug` makes of all characters. -/
def collapsedName (username : String) : List Char :=
  popDashes (collapseDashes true (lowered username))

theorem length_collapsedName (username : String) :
    (collapsedName username).length = collapsedLength username := by
  have hkept : ∀ c ∈ keptChars username, c.isAlphanum || isSeparator c := fun c hc ↦
    (List.mem_filter.mp hc).2
  have hletter : isSeparator 'a' = false := rfl
  have hdash : isSeparator '-' = true := rfl
  have hlength := (length_popDashes_collapse (keptChars username) hkept hletter hdash).2
  rw [← lowered_eq] at hlength
  unfold collapsedName collapsedLength
  split at hlength
  · next hnil =>
    rw [hnil, List.length_nil]
    omega
  · omega

/-- The first character is the first letter or digit. -/
theorem head_collapsedName (username : String) : (collapsedName username).head? =
    ((keptChars username).find? Char.isAlphanum).map slugChar := by
  rw [collapsedName, lowered_eq]
  induction keptChars username with
  | nil => rfl
  | cons c rest ih =>
    rw [List.map_cons]
    by_cases hc : c.isAlphanum = true
    · rw [collapse_slugChar hc, List.find?_cons_of_pos hc, List.head?_cons, Option.map_some]
    · rw [List.find?_cons_of_neg hc, ← ih, slugChar_eq_dash_iff.mpr (Bool.eq_false_iff.mpr hc),
        collapseDashes, if_pos rfl, if_pos rfl]

theorem isLabelChar_of_mem_collapse {prevDash : Bool} {l : List Char} {c : Char}
    (h : c ∈ collapseDashes prevDash (l.map slugChar)) : IsLabelChar c := by
  induction l generalizing prevDash with
  | nil => cases h
  | cons d rest ih =>
    rw [List.map_cons, collapseDashes] at h
    by_cases hd : slugChar d = '-'
    · rw [if_pos hd] at h
      cases prevDash with
      | true => exact ih h
      | false =>
        rcases List.mem_cons.mp h with rfl | h
        · exact .inr hd
        · exact ih h
    · rw [if_neg hd] at h
      rcases List.mem_cons.mp h with rfl | h
      · rw [slugChar_eq_dash_iff, Bool.not_eq_false] at hd
        exact .inl (slugChar_spec hd).1
      · exact ih h

/-- No two dashes follow each other. -/
def DashApart (a b : Char) : Prop := ¬ (a = '-' ∧ b = '-')

theorem isChain_collapse (c : Char) (l : List Char) :
    List.IsChain DashApart (c :: collapseDashes (c = '-') l) := by
  induction l generalizing c with
  | nil => exact List.IsChain.singleton c
  | cons d rest ih =>
    rw [collapseDashes]
    by_cases hd : d = '-'
    · rw [if_pos hd]
      by_cases hc : c = '-'
      · rw [if_pos (decide_eq_true hc)]
        exact ih c
      · rw [if_neg (by rwa [decide_eq_true_eq]), List.isChain_cons_cons]
        have hrest := ih d
        rw [decide_eq_true hd] at hrest
        exact ⟨fun h ↦ hc h.1, hrest⟩
    · rw [if_neg hd, List.isChain_cons_cons]
      have hrest := ih d
      rw [decide_eq_false hd] at hrest
      exact ⟨fun h ↦ hd h.2, hrest⟩

/-- A text without adjacent dashes ends in at most one. -/
theorem length_popDashes {l : List Char} (h : List.IsChain DashApart l) :
    l.length ≤ (popDashes l).length + 1 := by
  rcases List.eq_nil_or_concat l with rfl | ⟨init, c, rfl⟩
  · exact Nat.zero_le _
  · rw [List.concat_eq_append] at h ⊢
    by_cases hc : c = '-'
    · have hinit : popDashes init = init := by
        refine List.rdropWhile_eq_self_iff.mpr fun hne hdash ↦ ?_
        rw [decide_eq_true_eq] at hdash
        have hlast := (List.isChain_append.mp h).2.2 _ (List.getLast?_eq_some_getLast hne) c rfl
        exact hlast ⟨hdash, hc⟩
      have hpop : popDashes (init ++ [c]) = popDashes init :=
        List.rdropWhile_concat_pos _ _ _ (decide_eq_true hc)
      rw [hpop, hinit, List.length_append, List.length_singleton]
    · have hpop : popDashes (init ++ [c]) = init ++ [c] :=
        List.rdropWhile_concat_neg _ _ _ (by rwa [decide_eq_true_eq])
      rw [hpop]
      exact Nat.le_succ _

/-- What begins with a letter is a slug once the dashes at its end are gone. -/
theorem SlugShape.of_popDashes {l : List Char} (hchars : ∀ c ∈ l, IsLabelChar c)
    (hhead : l.head?.any Char.isLower = true) : SlugShape (popDashes l) := by
  cases l with
  | nil => exact absurd hhead (by decide)
  | cons c rest =>
    have hc : c ≠ '-' := by
      rintro rfl
      exact Bool.noConfusion hhead
    have hcons : popDashes (c :: rest) = c :: popDashes rest := by
      rw [popDashes_cons, if_neg fun h ↦ hc h.2]
    have hmem : ∀ d ∈ popDashes (c :: rest), IsLabelChar d := fun d hd ↦
      hchars d ((List.rdropWhile_prefix _ _).subset hd)
    refine ⟨by rw [hcons]; exact hhead, ?_, hmem⟩
    have hne : popDashes (c :: rest) ≠ [] := by
      rw [hcons]
      exact List.cons_ne_nil _ _
    have hlast := List.rdropWhile_last_not _ _ hne
    rw [decide_eq_true_eq] at hlast
    rw [List.getLast?_eq_some_getLast hne, Option.any_some]
    exact (hmem _ (List.getLast_mem hne)).resolve_right hlast

theorem popDashes_collapsedName (username : String) :
    popDashes (collapsedName username) = collapsedName username :=
  List.rdropWhile_idempotent _ _

theorem isLabelChar_of_mem_collapsedName {username : String} {c : Char}
    (h : c ∈ collapsedName username) : IsLabelChar c := by
  have hmem := (List.rdropWhile_prefix _ _).subset h
  rw [lowered_eq] at hmem
  exact isLabelChar_of_mem_collapse hmem

/-- At most one of the characters that fit is a dash at the end. -/
theorem length_truncated {username : String} (h : 63 < (collapsedName username).length) :
    62 ≤ (popDashes ((collapsedName username).take 63)).length := by
  have hchain : List.IsChain DashApart ((collapsedName username).take 63) := by
    have hcollapse := (isChain_collapse '-' (lowered username)).tail
    rw [decide_eq_true rfl, List.tail_cons] at hcollapse
    obtain ⟨rest, hrest⟩ := List.rdropWhile_prefix (· = '-')
      (collapseDashes true (lowered username))
    rw [← hrest] at hcollapse
    have hname : List.IsChain DashApart (collapsedName username) := hcollapse.left_of_append
    rw [← List.take_append_drop 63 (collapsedName username)] at hname
    exact hname.left_of_append
  have hlength := length_popDashes hchain
  rw [List.length_take] at hlength
  omega

theorem utf8ByteSize_collapsedName (username : String) :
    (String.ofList (collapsedName username)).utf8ByteSize = (collapsedName username).length :=
  utf8ByteSize_of_ascii fun _ hc ↦ toNat_le_of_isLabelChar (isLabelChar_of_mem_collapsedName hc)

/-- The first character of a collapsed name is a letter or digit. -/
theorem alphanumeric_of_head {username : String} {c : Char}
    (h : (collapsedName username).head? = some c) : isDns1123Alphanumeric c = true := by
  rw [head_collapsedName, Option.map_eq_some_iff] at h
  obtain ⟨d, hd, rfl⟩ := h
  exact (slugChar_spec (List.find?_some hd)).1

/-- What is left once the collapsed name is cut to size. -/
theorem truncated_spec (username : String) :
    ∃ name, (if (String.ofList (collapsedName username)).utf8ByteSize > 63 then
          (sliceTo 63 (String.ofList (collapsedName username))).map fun s ↦
            String.ofList (popDashes s.toList)
        else some (String.ofList (collapsedName username))) = some (String.ofList name) ∧
      name.head? = (collapsedName username).head? ∧ (∀ c ∈ name, IsLabelChar c) ∧
      popDashes name = name ∧ name.length ≤ 63 ∧
      (name.length ≤ 49 ↔ (collapsedName username).length ≤ 49) := by
  rw [utf8ByteSize_collapsedName]
  by_cases h : (collapsedName username).length > 63
  · refine ⟨popDashes ((collapsedName username).take 63), ?_, ?_, ?_, ?_, ?_, ?_⟩
    · have hascii : ∀ c ∈ (String.ofList (collapsedName username)).toList, c.val.toNat ≤ 127 := by
        rw [String.toList_ofList]
        exact fun _ hc ↦ toNat_le_of_isLabelChar (isLabelChar_of_mem_collapsedName hc)
      rw [if_pos h, sliceTo_of_ascii hascii (by rw [String.toList_ofList]; exact h.le),
        Option.map_some, String.toList_ofList, String.toList_ofList]
    · cases hname : collapsedName username with
      | nil =>
        rw [hname, List.length_nil] at h
        exact absurd h (by decide)
      | cons c rest =>
        have hc : c ≠ '-' := by
          rintro rfl
          have halnum := alphanumeric_of_head (c := '-') (by rw [hname]; rfl)
          exact absurd halnum (by decide)
        rw [List.take_succ_cons, popDashes_cons, if_neg fun h ↦ hc h.2]
        rfl
    · intro c hc
      exact isLabelChar_of_mem_collapsedName
        (List.mem_of_mem_take ((List.rdropWhile_prefix _ _).subset hc))
    · exact List.rdropWhile_idempotent _ _
    · have hle := (List.rdropWhile_prefix (· = '-') ((collapsedName username).take 63)).length_le
      exact hle.trans (List.length_take_le _ _)
    · have hlong := length_truncated h
      omega
  · refine ⟨collapsedName username, if_neg h, rfl, fun _ hc ↦ isLabelChar_of_mem_collapsedName hc,
      popDashes_collapsedName username, Nat.le_of_not_lt h, Iff.rfl⟩

/-- Every username has a first slug, of at most forty-nine characters exactly when its own collapsed
form has no more or begins with a digit. -/
theorem sanitizeUsernameToSlug_spec (uuid : SimpleUuid) (username : String) :
    ∃ slug, sanitizeUsernameToSlug uuid username = some slug ∧ SlugShape slug.toList ∧
      slug.toList.length ≤ 63 ∧
      (slug.toList.length ≤ 49 ↔ collapsedLength username ≤ 49 ∨ startsWithDigit username) := by
  obtain ⟨name, htruncated, hhead, hchars, hpop, hsize, hshort⟩ := truncated_spec username
  have hslug : sanitizeUsernameToSlug uuid username =
      if (String.ofList name).isEmpty || name.head?.any Char.isDigit then userSlug uuid
      else some (String.ofList name) := by
    have hbind : sanitizeUsernameToSlug uuid username =
        (some (String.ofList name)).bind fun slug ↦
          if slug.isEmpty || slug.toList.head?.any Char.isDigit then userSlug uuid
          else some slug := by
      rw [← htruncated]
      rfl
    rw [hbind, Option.bind_some, String.toList_ofList]
  have hdigit : startsWithDigit username ↔ name.head?.any Char.isDigit = true := by
    rw [startsWithDigit, hhead, head_collapsedName]
    cases hfind : (keptChars username).find? Char.isAlphanum with
    | none => rfl
    | some c =>
      rw [Option.map_some, Option.any_some, Option.any_some,
        (slugChar_spec (List.find?_some hfind)).2]
  rw [← length_collapsedName, ← hshort]
  cases hname : name with
  | nil =>
    obtain ⟨slug, huser, hshape, -, hlength⟩ := userSlug_spec uuid
    refine ⟨slug, ?_, hshape, by omega, iff_of_true (by omega) (.inl (Nat.zero_le _))⟩
    rw [hslug, hname]
    exact huser
  | cons c rest =>
    by_cases hc : c.isDigit = true
    · obtain ⟨slug, huser, hshape, -, hlength⟩ := userSlug_spec uuid
      refine ⟨slug, ?_, hshape, by omega, iff_of_true (by omega) (.inr ?_)⟩
      · rw [hslug, hname, List.head?_cons, Option.any_some, hc, Bool.or_true, if_pos rfl]
        exact huser
      · rw [hdigit, hname, List.head?_cons, Option.any_some]
        exact hc
    · have hnotDigit : ¬ startsWithDigit username := by
        rw [hdigit, hname, List.head?_cons, Option.any_some]
        exact hc
      have hlower : (c :: rest).head?.any Char.isLower = true := by
        have halnum := alphanumeric_of_head (c := c) (by rw [← hhead, hname]; rfl)
        rw [isDns1123Alphanumeric, isLowerAlphanumeric, Bool.or_eq_true] at halnum
        exact halnum.resolve_right hc
      have hshape := SlugShape.of_popDashes (by rwa [hname] at hchars) hlower
      rw [hname] at hpop hsize
      rw [hpop] at hshape
      refine ⟨String.ofList (c :: rest), ?_, ?_, ?_, ?_⟩
      · have hne : (String.ofList (c :: rest)).isEmpty = false := by
          rw [Bool.eq_false_iff, ne_eq, String.isEmpty_iff]
          intro hnil
          have hlist := congrArg String.toList hnil
          rw [String.toList_ofList] at hlist
          cases hlist
        rw [hslug, hname, List.head?_cons, Option.any_some, hne, Bool.false_or, if_neg hc]
      · rw [String.toList_ofList]
        exact hshape
      · rw [String.toList_ofList]
        exact hsize
      · rw [String.toList_ofList]
        exact ⟨.inl, fun h ↦ h.resolve_right hnotDigit⟩

/-- A reserved slug has at most forty-nine characters. -/
theorem length_le_of_reserved (h : isReservedSlug slug = true) : slug.toList.length ≤ 49 := by
  have hall : ∀ r ∈ reservedSlugs, r.toList.length ≤ 49 := by decide
  rw [isReservedSlug, List.contains_eq_mem, decide_eq_true_eq] at h
  exact hall _ h

/-- Every username has a personal slug that is not reserved. -/
theorem personalOrgSlug_spec (uuid uuid' : SimpleUuid) (username : String) :
    ∃ slug, personalOrgSlug uuid uuid' username = some slug ∧ SlugShape slug.toList ∧
      isReservedSlug slug = false ∧
      (slug.toList.length ≤ 49 ↔ collapsedLength username ≤ 49 ∨ startsWithDigit username) := by
  obtain ⟨slug, hslug, hshape, hsize, hshort⟩ := sanitizeUsernameToSlug_spec uuid username
  have hvalid : validateSlug slug = .ok () :=
    validateSlug_eq_ok_iff.mpr ⟨hshape, by rwa [hshape.utf8ByteSize]⟩
  rw [personalOrgSlug, hslug, Option.bind_some]
  by_cases hreserved : isReservedSlug slug = true
  · obtain ⟨fallback, huser, hshape', hfree, hlength⟩ := userSlug_spec uuid'
    refine ⟨fallback, ?_, hshape', hfree, iff_of_true (by omega) (hshort.mp ?_)⟩
    · rw [hreserved, Bool.true_or, if_pos rfl]
      exact huser
    · exact length_le_of_reserved hreserved
  · rw [Bool.not_eq_true] at hreserved
    refine ⟨slug, ?_, hshape, hreserved, hshort⟩
    simp only [hreserved, hvalid, ne_eq, not_true_eq_false, decide_false, Bool.or_self,
      Bool.false_eq_true, ↓reduceIte]

/-- Both attempts get a usable slug exactly when the collapsed username has at most forty-nine
characters or begins with a digit; none of them fails to get one. -/
theorem personal_slugs_usable_iff (uuid uuid' uuid'' : SimpleUuid) (username : String) :
    (∃ slug, personalOrgSlug uuid uuid' username = some slug ∧ Usable slug ∧
      ∃ retry, retrySlug uuid'' slug = some retry ∧ Usable retry) ↔
      collapsedLength username ≤ 49 ∨ startsWithDigit username := by
  obtain ⟨slug, hslug, hshape, hfree, hshort⟩ := personalOrgSlug_spec uuid uuid' username
  obtain ⟨retry, hretry, hshape', hfree', hlength⟩ := retrySlug_spec uuid'' hshape
  rw [← hshort]
  constructor
  · rintro ⟨slug', hslug', -, retry', hretry', husable'⟩
    cases hslug.symm.trans hslug'
    cases hretry.symm.trans hretry'
    have hle := (usable_iff hshape' hfree').mp husable'
    omega
  · intro h
    refine ⟨slug, hslug, (usable_iff hshape hfree).mpr (by omega), retry, hretry, ?_⟩
    exact (usable_iff hshape' hfree').mpr (by omega)

/-- A UUID. -/
def sampleUuid : SimpleUuid :=
  ⟨"0123456789abcdef0123456789abcdef", rfl, List.all_eq_true.mp (by decide)⟩

/-- A username of fifty-seven letters. -/
def longUsername : String := String.ofList (List.replicate 57 'a')

/-- Its slug is as long as it is, and names no valid tenant. -/
theorem long_slug_not_usable :
    personalOrgSlug sampleUuid sampleUuid longUsername = some longUsername ∧
      ¬ ∃ slug, personalOrgSlug sampleUuid sampleUuid longUsername = some slug ∧ Usable slug ∧
        ∃ retry, retrySlug sampleUuid slug = some retry ∧ Usable retry := by
  have hslug : personalOrgSlug sampleUuid sampleUuid longUsername = some longUsername := by
    decide
  refine ⟨hslug, ?_⟩
  rintro ⟨slug, hslug', husable, -⟩
  cases hslug.symm.trans hslug'
  exact absurd husable.fits (by decide)

end ReinhardtCloud.Dashboard
