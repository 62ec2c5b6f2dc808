import ReinhardtCloud.Base.Affixes
import ReinhardtCloud.Base.Encoding
import ReinhardtCloud.Operator.Types

/-!
# Names and labels of previews

Library `Operator`. How a preview and its namespace are named after the parent, the labels that say
whose preview a Project is, and how both are read back (`resources/preview.rs:10–53`,
`resources/preview_namespace.rs:67–233`, `resources.rs:129–156`).
-/

namespace ReinhardtCloud.Operator

open ReinhardtCloud.Base

/-! ## Text -/

/-- `s.chars().take(n).collect()`. -/
def takeChars (n : Nat) (s : String) : String := String.ofList (s.toList.take n)

/-- `s.trim_matches('-')`. -/
def trimDashes (s : List Char) : List Char :=
  ((s.dropWhile (· = '-')).reverse.dropWhile (· = '-')).reverse

/-- A decimal numeral. -/
def isNumeric (number : String) : Bool := number.toList.all Char.isDigit

/-- `preview_project_name`, `preview.rs:51–53`. -/
def previewProjectName (parentName prNumber : String) : String := s!"{parentName}-pr-{prNumber}"

namespace Previews

/-! ## Names, `preview_namespace.rs:67–120` -/

/-- `sanitize_dns_label_component` before its dashes are trimmed. -/
def foldDashes (previousDash : Bool) : List Char → List Char
  | [] => []
  | c :: rest =>
    if isDns1123Alphanumeric c then c :: foldDashes false rest
    else if previousDash then foldDashes true rest
    else '-' :: foldDashes true rest

/-- `sanitize_dns_label_component`. -/
def sanitizeDnsLabelComponent (value : String) : String :=
  String.ofList (trimDashes (foldDashes false value.toList))

/-- The longest start of whole characters that fits in `maxLen` bytes. -/
def takeBytes : Nat → List Char → List Char
  | _, [] => []
  | maxLen, c :: rest =>
    if c.utf8Size ≤ maxLen then c :: takeBytes (maxLen - c.utf8Size) rest else []

/-- `trim_dns_label_prefix`. -/
def trimDnsLabelStart (value : String) (maxLen : Nat) : String :=
  String.ofList ((takeBytes maxLen value.toList).reverse.dropWhile (· = '-')).reverse

/-- `identity_hash`: twelve digits of the FNV-1a hash of both names, a zero byte between them. -/
def identityHash (parentNamespace parentName : String) : String :=
  let bytes := parentNamespace.toUTF8.data.toList ++ 0 :: parentName.toUTF8.data.toList
  let hash : UInt64 := bytes.foldl (fun hash byte ↦ (hash ^^^ byte.toUInt64) * 0x100000001b3)
    0xcbf29ce484222325
  takeChars 12 (hexEncode (beBytes 8 hash.toNat))

/-- `preview_namespace_name`. -/
def previewNamespaceName (parentNamespace parentName : String) : String :=
  let identity := s!"{parentNamespace}-{sanitizeDnsLabelComponent parentName}"
  let start := trimDnsLabelStart identity (63 - (1 + 12 + 1 + "preview".length))
  s!"{start}-{identityHash parentNamespace parentName}-preview"

/-! ## Labels -/

/-- `PREVIEW_LABEL_KEY`, `preview.rs:14`. -/
def previewLabelKey : String := "reinhardt.dev/preview"

/-- `PARENT_APP_LABEL_KEY` and `PARENT_LABEL_KEY`. -/
def parentAppLabelKey : String := "reinhardt.dev/parent-app"

/-- `PARENT_NAMESPACE_LABEL_KEY`. -/
def parentNamespaceLabelKey : String := "reinhardt.dev/parent-namespace"

/-- `PARENT_UID_LABEL_KEY`. -/
def parentUidLabelKey : String := "reinhardt.dev/parent-uid"

/-- `PR_NUMBER_LABEL_KEY`. -/
def prNumberLabelKey : String := "reinhardt.dev/pr-number"

/-- The label of every resource the operator creates. -/
def managedByLabelKey : String := "app.kubernetes.io/managed-by"

/-- The label of a preview namespace. -/
def previewNamespaceLabelKey : String := "reinhardt.dev/preview-namespace"

/-- `preview_labels`, `preview.rs:28–46`. -/
def previewLabels (parentNamespace parentName prNumber : String) : StringMap :=
  [(previewLabelKey, "true"), (parentAppLabelKey, parentName),
    (parentNamespaceLabelKey, parentNamespace), (prNumberLabelKey, prNumber),
    (managedByLabelKey, "reinhardt-cloud")]

/-- `preview_namespace_owner_labels`, `preview_namespace.rs:171–205`. -/
def previewNamespaceOwnerLabels (parentNamespace parentName : String) (parentUid : Uid) :
    StringMap :=
  [(managedByLabelKey, "reinhardt-cloud-operator"), (parentAppLabelKey, parentName),
    (parentNamespaceLabelKey, parentNamespace), (previewNamespaceLabelKey, "true"),
    (parentUidLabelKey, toString parentUid)]

/-- `labels_match_preview_owner`, `preview_namespace.rs:209–233`. -/
def labelsMatchPreviewOwner (labels : StringMap) (parentNamespace parentName : String)
    (parentUid : Uid) : Bool :=
  labels.lookup managedByLabelKey = some "reinhardt-cloud-operator" &&
    labels.lookup previewNamespaceLabelKey = some "true" &&
    labels.lookup parentAppLabelKey = some parentName &&
    labels.lookup parentNamespaceLabelKey = some parentNamespace &&
    labels.lookup parentUidLabelKey = some (toString parentUid)

/-- The PR number on a preview is digits only, `resources.rs:143–148`. -/
def isPrNumber (prNumber : String) : Bool := isNumeric prNumber && !prNumber.isEmpty

/-- `preview_parent_name_from_labels`, `resources.rs:129–156`. -/
def previewParentNameFromLabels (labels : StringMap) (appName : String) : Option String :=
  match labels.lookup parentAppLabelKey, labels.lookup prNumberLabelKey with
  | some parentName, some prNumber =>
    if labels.lookup previewLabelKey ≠ some "true" ||
        labels.lookup managedByLabelKey ≠ some "reinhardt-cloud" || !isPrNumber prNumber then none
    else if appName = previewProjectName parentName prNumber then some parentName else none
  | _, _ => none

/-! ## Namespaces without a parent namespace label -/

/-- `legacy_preview_namespace_parts`, `preview_namespace.rs:149–163`. -/
def legacyPreviewNamespaceParts (previewNamespace : String) : Option (String × String) :=
  match stripSuffix "-preview" previewNamespace with
  | none => none
  | some namespaceWithoutSuffix =>
    match rsplitOnce '-' namespaceWithoutSuffix with
    | none => none
    | some (identityStart, hash) =>
      if hash.utf8ByteSize ≠ 12 || !hash.toList.all isLowerHexDigit then none
      else some (identityStart, hash)

/-- `legacy_preview_namespace_matches`, `preview_namespace.rs:129–147`. -/
def legacyPreviewNamespaceMatches (previewNamespace parentName : String) : Bool :=
  let safeParentName := sanitizeDnsLabelComponent parentName
  if safeParentName.isEmpty then false
  else
    match legacyPreviewNamespaceParts previewNamespace with
    | none => false
    | some (identityStart, _) =>
      match stripSuffix ("-" ++ safeParentName) identityStart with
      | none => false
      | some parentNamespace =>
        if parentNamespace.isEmpty then false
        else previewNamespaceName parentNamespace parentName = previewNamespace

end Previews

end ReinhardtCloud.Operator
