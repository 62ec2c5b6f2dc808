import ReinhardtCloud.Base.Affixes
import ReinhardtCloud.Operator.PreviewNamespaces
import ReinhardtCloud.Operator.Tenants

/-!
# Preview namespaces without a parent namespace label

Library `Operator`. Previews that carry no parent namespace label are recognised by the name of
their namespace alone (`resources/preview_namespace.rs:122–163`): the name is read from its end and
built again from what was read.
-/

namespace ReinhardtCloud.Operator.Previews

open ReinhardtCloud.Base

/-- The part of a preview namespace's name before the hash, when it is not shortened. -/
def previewIdentity (parentNamespace parentName : String) : String :=
  s!"{parentNamespace}-{sanitizeDnsLabelComponent parentName}"

/-- What `preview_namespace_name` joins. -/
def joinPreviewName (start hash : String) : String := s!"{start}-{hash}-preview"

/-! ## What is cut off -/

/-- The start fits. -/
theorem utf8ByteSize_takeBytes (maxLen : Nat) (l : List Char) :
    (String.ofList (takeBytes maxLen l)).utf8ByteSize ≤ maxLen := by
  induction l generalizing maxLen with
  | nil => exact Nat.zero_le _
  | cons c rest ih =>
    rw [takeBytes]
    by_cases h : c.utf8Size ≤ maxLen
    · have hrest := ih (maxLen - c.utf8Size)
      rw [if_pos h, String.ofList_cons, String.utf8ByteSize_append, String.utf8ByteSize_singleton]
      omega
    · rw [if_neg h]
      exact Nat.zero_le _

/-- What fits is kept whole. -/
theorem takeBytes_of_le {maxLen : Nat} {l : List Char}
    (h : (String.ofList l).utf8ByteSize ≤ maxLen) : takeBytes maxLen l = l := by
  induction l generalizing maxLen with
  | nil => rfl
  | cons c rest ih =>
    rw [String.ofList_cons, String.utf8ByteSize_append, String.utf8ByteSize_singleton] at h
    rw [takeBytes, if_pos (by omega), ih (by omega)]

theorem prefix_takeBytes (maxLen : Nat) (l : List Char) : takeBytes maxLen l <+: l := by
  induction l generalizing maxLen with
  | nil => exact List.prefix_refl _
  | cons c rest ih =>
    rw [takeBytes]
    by_cases h : c.utf8Size ≤ maxLen
    · rw [if_pos h]
      exact (List.prefix_cons_inj c).mpr (ih _)
    · rw [if_neg h]
      exact List.nil_prefix

/-- The trimmed start is a start. -/
theorem prefix_toList_trimDnsLabelStart (value : String) (maxLen : Nat) :
    (trimDnsLabelStart value maxLen).toList <+: takeBytes maxLen value.toList := by
  rw [trimDnsLabelStart, String.toList_ofList]
  exact List.rdropWhile_prefix _ _

/-- A prefix of a list of characters has no more bytes. -/
theorem utf8ByteSize_mono {l l' : List Char} (h : l <+: l') :
    (String.ofList l).utf8ByteSize ≤ (String.ofList l').utf8ByteSize := by
  obtain ⟨rest, rfl⟩ := h
  rw [String.ofList_append, String.utf8ByteSize_append]
  exact Nat.le_add_right _ _

theorem utf8ByteSize_trimDnsLabelStart (value : String) (maxLen : Nat) :
    (trimDnsLabelStart value maxLen).utf8ByteSize ≤ maxLen := by
  have hle := utf8ByteSize_mono (prefix_toList_trimDnsLabelStart value maxLen)
  rw [String.ofList_toList] at hle
  exact hle.trans (utf8ByteSize_takeBytes _ _)

/-- A value that does not end in a dash is kept exactly when it fits. -/
theorem trimDnsLabelStart_eq_iff {value : String} {maxLen : Nat}
    (hlast : value.toList.getLast?.any (· ≠ '-') = true) :
    trimDnsLabelStart value maxLen = value ↔ value.utf8ByteSize ≤ maxLen := by
  constructor
  · intro h
    have hle := utf8ByteSize_trimDnsLabelStart value maxLen
    rwa [h] at hle
  · intro h
    obtain ⟨c, hc⟩ := Option.isSome_iff_exists.mp (Option.isSome_of_any hlast)
    obtain ⟨init, hvalue⟩ := List.getLast?_eq_some_iff.mp hc
    rw [hc, Option.any_some, decide_eq_true_eq] at hlast
    rw [trimDnsLabelStart, takeBytes_of_le (by rwa [String.ofList_toList]), hvalue,
      List.reverse_append, List.reverse_singleton, List.singleton_append,
      List.dropWhile_cons_of_neg (by rwa [decide_eq_true_eq]), List.reverse_cons,
      List.reverse_reverse, ← hvalue, String.ofList_toList]

/-! ## The hash -/

theorem length_identityHash (parentNamespace parentName : String) :
    (identityHash parentNamespace parentName).toList.length = 12 := by
  unfold identityHash takeChars
  rw [String.toList_ofList, List.length_take, length_hexEncode, length_beBytes]
  rfl

theorem isLowerHexDigit_of_mem_identityHash {parentNamespace parentName : String} {c : Char}
    (h : c ∈ (identityHash parentNamespace parentName).toList) : isLowerHexDigit c = true := by
  unfold identityHash takeChars at h
  rw [String.toList_ofList] at h
  exact isLowerHexDigit_of_mem_hexEncode (List.mem_of_mem_take h)

/-- Hexadecimal digits have one byte each. -/
theorem utf8ByteSize_of_lowerHexDigits {hash : String}
    (h : ∀ c ∈ hash.toList, isLowerHexDigit c = true) :
    hash.utf8ByteSize = hash.toList.length := by
  have hsize := utf8ByteSize_of_ascii fun c hc ↦ toNat_le_of_isLowerHexDigit (h c hc)
  rwa [String.ofList_toList] at hsize

/-- A hash of the right form behind an identity is read back. -/
theorem legacyPreviewNamespaceParts_append {identity hash : String}
    (hlength : hash.toList.length = 12) (hhex : ∀ c ∈ hash.toList, isLowerHexDigit c = true) :
    legacyPreviewNamespaceParts (joinPreviewName identity hash) = some (identity, hash) := by
  have hstrip : stripSuffix "-preview" (joinPreviewName identity hash) =
      some (identity ++ ("-" ++ hash)) := by
    rw [stripSuffix_eq_some_iff, ← String.append_assoc]
    rfl
  have hdash : '-' ∉ hash.toList := fun hmem ↦ absurd (hhex _ hmem) (by decide)
  have hsplit : rsplitOnce '-' (identity ++ ("-" ++ hash)) = some (identity, hash) :=
    rsplitOnce_append hdash
  have hsize : hash.utf8ByteSize = 12 := by rw [utf8ByteSize_of_lowerHexDigits hhex, hlength]
  have hall : hash.toList.all isLowerHexDigit = true := List.all_eq_true.mpr hhex
  rw [legacyPreviewNamespaceParts, hstrip]
  dsimp only
  rw [hsplit]
  simp only [hsize, hall, ne_eq, not_true_eq_false, decide_false, Bool.not_true, Bool.or_self,
    Bool.false_eq_true, ↓reduceIte]

/-- What is read is what was put together. -/
theorem eq_of_legacyPreviewNamespaceParts {previewNamespace identity hash : String}
    (h : legacyPreviewNamespaceParts previewNamespace = some (identity, hash)) :
    previewNamespace = joinPreviewName identity hash ∧ hash.toList.length = 12 := by
  unfold legacyPreviewNamespaceParts at h
  cases hstrip : stripSuffix "-preview" previewNamespace with
  | none => simp [hstrip] at h
  | some rest =>
    cases hsplit : rsplitOnce '-' rest with
    | none => simp [hstrip, hsplit] at h
    | some parts =>
      obtain ⟨identity', hash'⟩ := parts
      simp only [hstrip, hsplit] at h
      split at h
      · cases h
      · next hform =>
        cases h
        rw [Bool.or_eq_true, not_or, decide_eq_true_eq, not_not, Bool.not_eq_true,
          Bool.not_eq_false'] at hform
        have hhex := List.all_eq_true.mp hform.2
        rw [stripSuffix_eq_some_iff] at hstrip
        have hrest : rest = identity ++ ("-" ++ hash) := eq_of_rsplitOnce hsplit
        refine ⟨?_, ?_⟩
        · rw [hstrip, hrest, ← String.append_assoc]
          rfl
        · rw [← utf8ByteSize_of_lowerHexDigits hhex, hform.1]

/-! ## Exactness -/

/-- A sanitised component does not end in a dash. -/
theorem getLast_sanitizeDnsLabelComponent {value : String}
    (h : sanitizeDnsLabelComponent value ≠ "") :
    (sanitizeDnsLabelComponent value).toList.getLast?.any (· ≠ '-') = true := by
  unfold sanitizeDnsLabelComponent at h ⊢
  rw [String.toList_ofList, trimDashes, List.getLast?_reverse]
  have hhead := List.head?_dropWhile_not (fun c ↦ decide (c = '-'))
    ((foldDashes false value.toList).dropWhile (· = '-')).reverse
  cases hd : (((foldDashes false value.toList).dropWhile (· = '-')).reverse.dropWhile
      (· = '-')).head? with
  | none =>
    rw [List.head?_eq_none_iff] at hd
    rw [trimDashes, hd] at h
    exact absurd rfl h
  | some c =>
    rw [hd] at hhead
    rw [Option.any_some, decide_eq_true_eq]
    exact of_decide_eq_false hhead

/-- Nor does an identity with one at its end. -/
theorem getLast_previewIdentity {parentNamespace parentName : String}
    (h : sanitizeDnsLabelComponent parentName ≠ "") :
    (previewIdentity parentNamespace parentName).toList.getLast?.any (· ≠ '-') = true := by
  have hlast := getLast_sanitizeDnsLabelComponent h
  have hlist : (previewIdentity parentNamespace parentName).toList =
      (parentNamespace ++ "-").toList ++ (sanitizeDnsLabelComponent parentName).toList := by
    rw [← String.toList_append]
    rfl
  obtain ⟨c, hc⟩ := Option.isSome_iff_exists.mp (Option.isSome_of_any hlast)
  rw [hlist, List.getLast?_append, hc, Option.some_or, ← hc]
  exact hlast

theorem previewNamespaceName_eq (parentNamespace parentName : String) :
    previewNamespaceName parentNamespace parentName =
      joinPreviewName (trimDnsLabelStart (previewIdentity parentNamespace parentName) 42)
        (identityHash parentNamespace parentName) := rfl

/-- Names with hashes of one length have the same start. -/
theorem start_eq_of_name_eq {start start' hash hash' : String}
    (hlength : hash.toList.length = hash'.toList.length)
    (h : joinPreviewName start hash = joinPreviewName start' hash') : start = start' := by
  have hlist := congrArg String.toList h
  simp only [joinPreviewName, toString, String.toList_append, List.append_assoc] at hlist
  have hparts := List.append_inj' hlist (by simp only [List.length_append, hlength])
  exact String.toList_inj.mp hparts.1

/-- A namespace is recognised exactly when it is the preview namespace of a parent namespace with
an identity that fits. -/
theorem legacyPreviewNamespaceMatches_iff {previewNamespace parentName : String}
    (h : sanitizeDnsLabelComponent parentName ≠ "") :
    legacyPreviewNamespaceMatches previewNamespace parentName = true ↔
      ∃ parentNamespace, parentNamespace ≠ "" ∧
        previewNamespaceName parentNamespace parentName = previewNamespace ∧
        (previewIdentity parentNamespace parentName).utf8ByteSize ≤ 42 := by
  have hsafe : (sanitizeDnsLabelComponent parentName).isEmpty = false := by
    rwa [Bool.eq_false_iff, ne_eq, String.isEmpty_iff]
  unfold legacyPreviewNamespaceMatches
  simp only [hsafe, Bool.false_eq_true, ↓reduceIte]
  constructor
  · intro hmatches
    cases hparts : legacyPreviewNamespaceParts previewNamespace with
    | none => simp [hparts] at hmatches
    | some parts =>
      obtain ⟨identity, hash⟩ := parts
      cases hstrip : stripSuffix ("-" ++ sanitizeDnsLabelComponent parentName) identity with
      | none => simp [hparts, hstrip] at hmatches
      | some parentNamespace =>
        simp only [hparts, hstrip] at hmatches
        by_cases hempty : parentNamespace.isEmpty = true
        · simp [hempty] at hmatches
        · rw [if_neg hempty, decide_eq_true_eq] at hmatches
          refine ⟨parentNamespace, fun h ↦ hempty (String.isEmpty_iff.mpr h), hmatches, ?_⟩
          -- Both names end in twelve digits, so the identity is what the new name begins with.
          obtain ⟨hname, hlength⟩ := eq_of_legacyPreviewNamespaceParts hparts
          have hidentity : identity = previewIdentity parentNamespace parentName := by
            rw [stripSuffix_eq_some_iff, ← String.append_assoc] at hstrip
            exact hstrip
          rw [← trimDnsLabelStart_eq_iff (getLast_previewIdentity h)]
          rw [hname, previewNamespaceName_eq, hidentity] at hmatches
          exact start_eq_of_name_eq (by rw [length_identityHash, hlength]) hmatches
  · rintro ⟨parentNamespace, hne, rfl, hfits⟩
    rw [← trimDnsLabelStart_eq_iff (getLast_previewIdentity h)] at hfits
    have hname := previewNamespaceName_eq parentNamespace parentName
    rw [hfits] at hname
    have hparts : legacyPreviewNamespaceParts (previewNamespaceName parentNamespace parentName) =
        some (previewIdentity parentNamespace parentName,
          identityHash parentNamespace parentName) := by
      rw [hname]
      exact legacyPreviewNamespaceParts_append (length_identityHash _ _) fun c hc ↦
        isLowerHexDigit_of_mem_identityHash hc
    have hstrip : stripSuffix ("-" ++ sanitizeDnsLabelComponent parentName)
        (previewIdentity parentNamespace parentName) = some parentNamespace := by
      rw [stripSuffix_eq_some_iff, ← String.append_assoc]
      rfl
    have hempty : parentNamespace.isEmpty = false := by
      rwa [Bool.eq_false_iff, ne_eq, String.isEmpty_iff]
    simp only [hparts, hstrip, hempty, Bool.false_eq_true, ↓reduceIte, decide_true]

/-! ## Well-formed names -/

/-- Folded characters are those of a label. -/
theorem isLabelChar_of_mem_foldDashes {previousDash : Bool} {l : List Char} {c : Char}
    (h : c ∈ foldDashes previousDash l) : IsLabelChar c := by
  induction l generalizing previousDash with
  | nil => cases h
  | cons d rest ih =>
    rw [foldDashes] at h
    by_cases hd : isDns1123Alphanumeric d = true
    · rw [if_pos hd] at h
      rcases List.mem_cons.mp h with rfl | hrest
      · exact .inl hd
      · exact ih hrest
    · rw [if_neg hd] at h
      split at h
      · exact ih h
      · rcases List.mem_cons.mp h with rfl | hrest
        · exact .inr rfl
        · exact ih hrest

theorem isLabelChar_of_mem_sanitize {value : String} {c : Char}
    (h : c ∈ (sanitizeDnsLabelComponent value).toList) : IsLabelChar c := by
  rw [sanitizeDnsLabelComponent, String.toList_ofList, trimDashes, List.mem_reverse] at h
  have hmem := (List.dropWhile_sublist _).subset h
  rw [List.mem_reverse] at hmem
  exact isLabelChar_of_mem_foldDashes ((List.dropWhile_sublist _).subset hmem)

/-- The start of a name keeps the first character of the parent namespace. -/
theorem head_trimDnsLabelStart {value : String} {maxLen : Nat} {c : Char}
    (hhead : value.toList.head? = some c) (hsize : c.utf8Size ≤ maxLen) (hdash : c ≠ '-') :
    (trimDnsLabelStart value maxLen).toList.head? = some c := by
  obtain ⟨rest, hvalue⟩ := List.head?_eq_some_iff.mp hhead
  rw [trimDnsLabelStart, String.toList_ofList, hvalue, takeBytes, if_pos hsize, List.reverse_cons,
    List.dropWhile_append]
  by_cases hall : ((takeBytes (maxLen - c.utf8Size) rest).reverse.dropWhile (· = '-')).isEmpty
  · rw [if_pos hall, List.dropWhile_cons_of_neg (by rwa [decide_eq_true_eq])]
    rfl
  · rw [if_neg hall, List.reverse_append, List.reverse_singleton]
    rfl

/-- The preview namespaces of a valid namespace are labels. -/
theorem isDns1123Label_previewNamespaceName {parentNamespace : String}
    (h : isDns1123Label parentNamespace = true) (parentName : String) :
    isDns1123Label (previewNamespaceName parentNamespace parentName) = true := by
  obtain ⟨-, hhead, -, hchars⟩ := isDns1123Label_iff.mp h
  obtain ⟨c, hc⟩ := Option.isSome_iff_exists.mp (Option.isSome_of_any hhead)
  rw [hc, Option.any_some] at hhead
  have hlist : (previewNamespaceName parentNamespace parentName).toList =
      (trimDnsLabelStart (previewIdentity parentNamespace parentName) 42).toList ++
        ('-' :: (identityHash parentNamespace parentName).toList ++ "-preview".toList) := by
    rw [previewNamespaceName_eq]
    simp [joinPreviewName, toString]
  have hidentity : (previewIdentity parentNamespace parentName).toList = parentNamespace.toList ++
      '-' :: (sanitizeDnsLabelComponent parentName).toList := by
    simp [previewIdentity, toString]
  have hstart : (trimDnsLabelStart (previewIdentity parentNamespace parentName) 42).toList.head? =
      some c := by
    apply head_trimDnsLabelStart
    · rw [hidentity, List.head?_append, hc, Option.some_or]
    · exact le_trans (Char.utf8Size_le_four c) (by decide)
    · rintro rfl
      exact absurd hhead (by decide)
  rw [isDns1123Label_iff]
  refine ⟨?_, ?_, ?_, ?_⟩
  · have hsize := utf8ByteSize_trimDnsLabelStart (previewIdentity parentNamespace parentName) 42
    have hhash : (identityHash parentNamespace parentName).utf8ByteSize = 12 := by
      rw [utf8ByteSize_of_lowerHexDigits fun d hd ↦ isLowerHexDigit_of_mem_identityHash hd,
        length_identityHash]
    have hfixed : "-".utf8ByteSize = 1 ∧ "-preview".utf8ByteSize = 8 := by decide
    rw [previewNamespaceName_eq]
    simp only [joinPreviewName, toString, String.utf8ByteSize_append, hhash, hfixed]
    omega
  · rw [hlist, List.head?_append, hstart, Option.some_or, Option.any_some]
    exact hhead
  · rw [hlist, List.getLast?_append, List.getLast?_append]
    rfl
  · intro d hd
    rw [hlist, List.mem_append, List.cons_append, List.mem_cons, List.mem_append] at hd
    rcases hd with hd | rfl | hd | hd
    · have hmem := (prefix_takeBytes _ _).subset
        ((prefix_toList_trimDnsLabelStart _ _).subset hd)
      rw [hidentity, List.mem_append, List.mem_cons] at hmem
      rcases hmem with hmem | rfl | hmem
      · exact hchars d hmem
      · exact .inr rfl
      · exact isLabelChar_of_mem_sanitize hmem
    · exact .inr rfl
    · exact .inl (isDns1123Alphanumeric_of_isLowerHexDigit
        (isLowerHexDigit_of_mem_identityHash hd))
    · have hfixed : ∀ e ∈ "-preview".toList, isDns1123Alphanumeric e || e = '-' :=
        List.all_eq_true.mp (by decide)
      have he := hfixed d hd
      rwa [Bool.or_eq_true, decide_eq_true_eq] at he

/-- Legacy previews are recognised exactly, and every preview namespace of a valid namespace is a
valid namespace. -/
theorem legacy_preview_namespaces_exact :
    (∀ previewNamespace parentName : String, sanitizeDnsLabelComponent parentName ≠ "" →
      (legacyPreviewNamespaceMatches previewNamespace parentName = true ↔
        ∃ parentNamespace, parentNamespace ≠ "" ∧
          previewNamespaceName parentNamespace parentName = previewNamespace ∧
          (previewIdentity parentNamespace parentName).utf8ByteSize ≤ 42)) ∧
      ∀ parentNamespace parentName : String, isDns1123Label parentNamespace = true →
        isDns1123Label (previewNamespaceName parentNamespace parentName) = true ∧
        (previewNamespaceName parentNamespace parentName).length ≤ 63 := by
  constructor
  · intro previewNamespace parentName h
    exact legacyPreviewNamespaceMatches_iff h
  · intro parentNamespace parentName h
    have hlabel := isDns1123Label_previewNamespaceName h parentName
    have hlength := length_le_utf8ByteSize
      (previewNamespaceName parentNamespace parentName).toList
    rw [String.ofList_toList, String.length_toList] at hlength
    exact ⟨hlabel, hlength.trans (isDns1123Label_iff.mp hlabel).1⟩

/-- A namespace and a Project with a dot in its name. -/
theorem legacy_preview_namespaces_exact_shop :
    sanitizeDnsLabelComponent "web.shop" ≠ "" ∧ isDns1123Label "team" = true ∧
      legacyPreviewNamespaceMatches (previewNamespaceName "team" "web.shop") "web.shop" = true ∧
      isDns1123Label (previewNamespaceName "team" "web.shop") = true := by
  have hsafe : sanitizeDnsLabelComponent "web.shop" ≠ "" := by decide
  have hteam : isDns1123Label "team" = true := by decide
  obtain ⟨hexact, hlabel⟩ := legacy_preview_namespaces_exact
  refine ⟨hsafe, hteam, ?_, (hlabel "team" "web.shop" hteam).1⟩
  rw [hexact _ _ hsafe]
  exact ⟨"team", by decide, rfl, by decide⟩

end ReinhardtCloud.Operator.Previews
