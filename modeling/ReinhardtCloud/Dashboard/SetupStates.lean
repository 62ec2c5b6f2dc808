import Mathlib.Data.List.GetD
import ReinhardtCloud.Dashboard.AuthTokens

/-!
# The secret shared with GitHub

Library `Dashboard`. The states of the GitHub App setup (`apps/github/services/setup_state.rs`) and
the signatures of webhooks (`utils/vcs/signature.rs:8–25`, `apps/github/server_urls.rs:96–131`) are
made with one key. HMAC-SHA256, the text of UUIDs, the URL-safe Base64 engine, hexadecimal digits
and the JSON reader are parameters; the clock and the nonce are arguments.
-/

namespace ReinhardtCloud.Dashboard.SetupStates

open ReinhardtCloud.Base ReinhardtCloud.Dashboard.AuthTokens

/-- `GitHubSetupStateError`, `setup_state.rs:17–27`. -/
inductive GitHubSetupStateError where
  | malformed
  | expired
  | contextMismatch
  | invalidSignature
  deriving DecidableEq

/-- `URL_SAFE_NO_PAD`. -/
structure UrlSafeNoPad where
  encode : List UInt8 → String
  decode : String → Option (List UInt8)

/-- The digits of the URL-safe alphabet. -/
def urlSafeDigits : List Char := base64Chars.map toUrlDigit

/-- The engine encodes as `token.rs` does, decodes what it encodes, and takes no other digits. -/
structure UrlSafeNoPad.Lawful (engine : UrlSafeNoPad) : Prop where
  encode_eq : ∀ data, engine.encode data = base64UrlEncode data
  decode_encode : ∀ data, engine.decode (engine.encode data) = some data
  decode_digits : ∀ text data, engine.decode text = some data → ∀ c ∈ text.toList, c ∈ urlSafeDigits

/-- `SETUP_STATE_TTL_SECONDS`. -/
def setupStateTtlSeconds : Int := 600

/-- `SETUP_STATE_PURPOSE`. -/
def setupStatePurpose : String := "github_setup_v1"

section States

variable {Uuid : Type} (uuids : UuidText Uuid) (engine : UrlSafeNoPad)
  (hmac : String → List UInt8 → List UInt8)

/-- The text that is signed, `setup_state.rs:31–35`. -/
def payloadText (userId : Uuid) (organizationId expiresAt : Int) (nonce : List UInt8) : String :=
  s!"{setupStatePurpose}|{uuids.display userId}|{organizationId}|{expiresAt}|{engine.encode nonce}"

/-- `sign`, `setup_state.rs:98–103`. -/
def sign (secret payloadB64 : String) : List UInt8 := hmac secret (utf8Bytes payloadB64)

/-- The signed half of a state, `setup_state.rs:36`. -/
def payloadB64 (userId : Uuid) (organizationId expiresAt : Int) (nonce : List UInt8) : String :=
  engine.encode (utf8Bytes (payloadText uuids engine userId organizationId expiresAt nonce))

/-- `issue_setup_state`, `setup_state.rs:30–40`. -/
def issueSetupState (now : AuthTokens.Timestamp) (nonce : List UInt8) (userId : Uuid)
    (organizationId : Int) (secret : String) : String :=
  let payload := payloadB64 uuids engine userId organizationId (now.secs + setupStateTtlSeconds)
    nonce
  s!"{payload}.{engine.encode (sign hmac secret payload)}"

/-- `verify_setup_state`, `setup_state.rs:43–89`. -/
def verifySetupState [DecidableEq Uuid] (now : AuthTokens.Timestamp) (state : String)
    (userId : Uuid) (organizationId : Int) (secret : String) : Except GitHubSetupStateError Unit :=
  match splitOnce '.' state with
  | none => .error .malformed
  | some (payload, signature) =>
    match engine.decode signature with
    | none => .error .malformed
    | some provided =>
      if provided ≠ sign hmac secret payload then .error .invalidSignature
      else
        match engine.decode payload with
        | none => .error .malformed
        | some payloadBytes =>
          match ofUtf8 payloadBytes with
          | none => .error .malformed
          | some text =>
            match text.toList.splitOn '|' with
            | [purpose, stateUser, stateOrganization, stateExpiry, _] =>
              if purpose ≠ setupStatePurpose.toList then .error .malformed
              else
                match uuids.parse stateUser with
                | none => .error .malformed
                | some stateUserId =>
                  match parseSigned 64 stateOrganization with
                  | none => .error .malformed
                  | some stateOrganizationId =>
                    match parseSigned 64 stateExpiry with
                    | none => .error .malformed
                    | some expiresAt =>
                      if stateUserId ≠ userId ∨ stateOrganizationId ≠ organizationId then
                        .error .contextMismatch
                      else if expiresAt < now.secs then .error .expired
                      else .ok ()
            | _ => .error .malformed

end States

/-! ## Webhooks -/

section Webhooks

variable {Installation Dispatch : Type} (hmac : String → List UInt8 → List UInt8)
  (hexDecode : List Char → Option (List UInt8))
  (readInstallation : List UInt8 → Option Installation)
  (readDispatch : String → List UInt8 → Option Dispatch)

/-- `verify_github_signature`, `signature.rs:8–25`. -/
def verifyGithubSignature (secret : String) (payload : List UInt8) (signature : String) : Bool :=
  match "sha256=".toList.isPrefixOf? signature.toList with
  | none => false
  | some hexDigest =>
    match hexDecode hexDigest with
    | none => false
    | some expected => decide (hmac secret payload = expected)

/-- How `github_webhook` reads a request, `server_urls.rs:103–131`. -/
inductive WebhookReading (Installation Dispatch : Type) where
  | missingHeader (name : String)
  | invalidSignature
  | unreadable
  | installation (event : Installation)
  | dispatch (event : Dispatch)

/-- `github_webhook` up to its first access to the database. -/
def readGithubWebhook (secret : String) (eventType signature : Option String)
    (payload : List UInt8) : WebhookReading Installation Dispatch :=
  match eventType, signature with
  | none, _ => .missingHeader "X-GitHub-Event"
  | some _, none => .missingHeader "X-Hub-Signature-256"
  | some eventType, some signature =>
    if !verifyGithubSignature hmac hexDecode secret payload signature then .invalidSignature
    else if eventType = "installation" then
      (readInstallation payload).elim .unreadable .installation
    else (readDispatch eventType payload).elim .unreadable .dispatch

/-- The request was signed with the key and read. -/
def WebhookReading.accepted : WebhookReading Installation Dispatch → Bool
  | .installation _ | .dispatch _ => true
  | _ => false

end Webhooks

/-! ## Messages -/

section Messages

variable {Uuid : Type} {uuids : UuidText Uuid} {engine : UrlSafeNoPad}
  {hmac : String → List UInt8 → List UInt8}

/-- A signed half that states these three fields. -/
def States (uuids : UuidText Uuid) (engine : UrlSafeNoPad) (payload : String) (userId : Uuid)
    (organizationId expiresAt : Int) : Prop :=
  ∃ bytes text stateUser stateOrganization stateExpiry nonce,
    engine.decode payload = some bytes ∧ ofUtf8 bytes = some text ∧
      text.toList.splitOn '|' =
        [setupStatePurpose.toList, stateUser, stateOrganization, stateExpiry, nonce] ∧
      uuids.parse stateUser = some userId ∧
      parseSigned 64 stateOrganization = some organizationId ∧
      parseSigned 64 stateExpiry = some expiresAt

/-- A state whose halves are a message and a tag. -/
def Carries (engine : UrlSafeNoPad) (state payload : String) (tag : List UInt8) : Prop :=
  ∃ signature, splitOnce '.' state = some (payload, signature) ∧ engine.decode signature = some tag

/-- A call of `issue_setup_state`. -/
structure Issue (Uuid : Type) where
  now : AuthTokens.Timestamp
  nonce : List UInt8
  userId : Uuid
  organizationId : Int
  fits : FitsSigned 64 organizationId

/-- The end of the state's life. -/
def Issue.expiresAt (call : Issue Uuid) : Int := call.now.secs + setupStateTtlSeconds

/-- What the call signs. -/
def Issue.payload (uuids : UuidText Uuid) (engine : UrlSafeNoPad) (call : Issue Uuid) : String :=
  payloadB64 uuids engine call.userId call.organizationId call.expiresAt call.nonce

theorem fits_expiresAt (call : Issue Uuid) : FitsSigned 64 call.expiresAt := by
  obtain ⟨hlo, hhi⟩ := call.now.bounds
  rw [FitsSigned, Issue.expiresAt, setupStateTtlSeconds]
  omega

/-- No digit is a separator, and none opens a JSON object. -/
theorem not_mem_urlSafeDigits : '|' ∉ urlSafeDigits ∧ '.' ∉ urlSafeDigits := by decide

theorem digits_encode (hengine : engine.Lawful) (data : List UInt8) :
    ∀ c ∈ (engine.encode data).toList, c ∈ urlSafeDigits :=
  hengine.decode_digits _ data (hengine.decode_encode data)

theorem toList_payloadText (userId : Uuid) (organizationId expiresAt : Int) (nonce : List UInt8) :
    (payloadText uuids engine userId organizationId expiresAt nonce).toList =
      setupStatePurpose.toList ++ '|' :: ((uuids.display userId).toList ++ '|' ::
        ((toString organizationId).toList ++ '|' :: ((toString expiresAt).toList ++ '|' ::
          (engine.encode nonce).toList))) := by
  simp [payloadText, toString]

theorem splitOn_payloadText (huuids : uuids.Lawful) (hengine : engine.Lawful) (userId : Uuid)
    (organizationId expiresAt : Int) (nonce : List UInt8) :
    (payloadText uuids engine userId organizationId expiresAt nonce).toList.splitOn '|' =
      [setupStatePurpose.toList, (uuids.display userId).toList, (toString organizationId).toList,
        (toString expiresAt).toList, (engine.encode nonce).toList] := by
  have hpurpose : '|' ∉ setupStatePurpose.toList := by decide
  have hnonce : '|' ∉ (engine.encode nonce).toList := fun hmem ↦
    not_mem_urlSafeDigits.1 (digits_encode hengine nonce _ hmem)
  rw [toList_payloadText, List.splitOn_append_cons_self_of_not_mem hpurpose,
    List.splitOn_append_cons_self_of_not_mem (bar_not_mem_display huuids userId),
    List.splitOn_append_cons_self_of_not_mem (bar_not_mem_toString organizationId),
    List.splitOn_append_cons_self_of_not_mem (bar_not_mem_toString expiresAt),
    List.splitOn_eq_singleton hnonce]

/-- What a call signs states the call's own fields. -/
theorem states_payload (huuids : uuids.Lawful) (hengine : engine.Lawful) (call : Issue Uuid) :
    States uuids engine (call.payload uuids engine) call.userId call.organizationId
      call.expiresAt := by
  refine ⟨_, _, _, _, _, _, hengine.decode_encode _, ofUtf8_utf8Bytes _,
    splitOn_payloadText huuids hengine _ _ _ _, huuids.parse_display _, ?_, ?_⟩
  · exact parseSigned_toString call.fits
  · exact parseSigned_toString (fits_expiresAt call)

/-- What a call signs states nothing else. -/
theorem eq_of_states_payload (huuids : uuids.Lawful) (hengine : engine.Lawful) {call : Issue Uuid}
    {userId : Uuid} {organizationId expiresAt : Int}
    (h : States uuids engine (call.payload uuids engine) userId organizationId expiresAt) :
    call.userId = userId ∧ call.organizationId = organizationId ∧ call.expiresAt = expiresAt := by
  obtain ⟨bytes, text, stateUser, stateOrganization, stateExpiry, nonce, hbytes, htext, hsplit,
    huser, horganization, hexpiry⟩ := h
  rw [Issue.payload, payloadB64, hengine.decode_encode, Option.some_inj] at hbytes
  rw [← hbytes, ofUtf8_utf8Bytes, Option.some_inj] at htext
  rw [← htext, splitOn_payloadText huuids hengine] at hsplit
  simp only [List.cons.injEq] at hsplit
  obtain ⟨-, rfl, rfl, rfl, -⟩ := hsplit
  rw [huuids.parse_display, Option.some_inj] at huser
  rw [parseSigned_toString call.fits, Option.some_inj] at horganization
  rw [parseSigned_toString (fits_expiresAt call), Option.some_inj] at hexpiry
  exact ⟨huser, horganization, hexpiry⟩

/-- The states that verify: a tag over what states the expected fields and has not expired. -/
theorem verifySetupState_eq_ok_iff [DecidableEq Uuid] {now : AuthTokens.Timestamp}
    {state secret : String}
    {userId : Uuid} {organizationId : Int} :
    verifySetupState uuids engine hmac now state userId organizationId secret = .ok () ↔
      ∃ payload expiresAt, Carries engine state payload (sign hmac secret payload) ∧
        States uuids engine payload userId organizationId expiresAt ∧ now.secs ≤ expiresAt := by
  constructor
  · intro h
    rw [verifySetupState] at h
    split at h
    · cases h
    next payload signature hsplit =>
    split at h
    · cases h
    next tag htag =>
    split at h
    · cases h
    next hsign =>
    split at h
    · cases h
    next bytes hbytes =>
    split at h
    · cases h
    next text htext =>
    split at h
    next purpose stateUser stateOrganization stateExpiry nonce hfields =>
      split at h
      · cases h
      next hpurpose =>
      split at h
      · cases h
      next user huser =>
      split at h
      · cases h
      next organization horganization =>
      split at h
      · cases h
      next expiresAt hexpiry =>
      split at h
      · cases h
      next hcontext =>
      split at h
      · cases h
      next hnow =>
      rw [not_not] at hsign hpurpose
      rw [not_or, not_not, not_not] at hcontext
      obtain ⟨rfl, rfl⟩ := hcontext
      subst hsign hpurpose
      exact ⟨payload, expiresAt, ⟨signature, hsplit, htag⟩, ⟨bytes, text, stateUser,
        stateOrganization, stateExpiry, nonce, hbytes, htext, hfields, huser, horganization,
        hexpiry⟩, not_lt.mp hnow⟩
    · cases h
  · rintro ⟨payload, expiresAt, ⟨signature, hsplit, htag⟩, ⟨bytes, text, stateUser,
      stateOrganization, stateExpiry, nonce, hbytes, htext, hfields, huser, horganization,
      hexpiry⟩, hnow⟩
    simp [verifySetupState, hsplit, htag, hbytes, htext, hfields, huser, horganization, hexpiry,
      hnow]

/-- The halves of a state are found again. -/
theorem carries_issueSetupState (hengine : engine.Lawful) (call : Issue Uuid) (secret : String) :
    Carries engine (issueSetupState uuids engine hmac call.now call.nonce call.userId
      call.organizationId secret) (call.payload uuids engine)
      (sign hmac secret (call.payload uuids engine)) := by
  refine ⟨engine.encode (sign hmac secret (call.payload uuids engine)), ?_,
    hengine.decode_encode _⟩
  rw [splitOnce_eq_some_iff]
  constructor
  · rw [issueSetupState]
    apply String.toList_inj.mp
    simp [toString, Issue.payload, Issue.expiresAt]
  · exact fun hmem ↦ not_mem_urlSafeDigits.2 (digits_encode hengine _ _ hmem)

/-! ## First bytes -/

theorem utf8Bytes_eq (s : String) : utf8Bytes s = s.toList.flatMap String.utf8EncodeChar := by
  have hs : s.toByteArray = s.toList.utf8Encode := by
    conv_lhs => rw [← String.ofList_toList (s := s)]
    exact String.toByteArray_ofList
  rw [AuthTokens.utf8Bytes, hs, List.utf8Encode]
  simp

/-- The opening bracket of a JSON object. -/
def openingBracket : UInt8 := 0x7b

/-- A text of digits does not start as a JSON object does. -/
theorem head?_digits {text : String} (h : ∀ c ∈ text.toList, c ∈ urlSafeDigits) :
    (utf8Bytes text).head? ≠ some openingBracket := by
  rw [utf8Bytes_eq]
  cases htext : text.toList with
  | nil => simp
  | cons c rest =>
    have hall : (urlSafeDigits.all fun c ↦
        (String.utf8EncodeChar c).head?.any (· ≠ openingBracket)) = true := by decide +kernel
    have hc : c ∈ urlSafeDigits := h c (htext ▸ List.mem_cons_self)
    have hfirst := List.all_eq_true.mp hall c hc
    rw [List.flatMap_cons, List.head?_append]
    cases hbytes : (String.utf8EncodeChar c).head? with
    | none => simp [hbytes] at hfirst
    | some b =>
      rw [hbytes] at hfirst
      rw [Option.some_or]
      intro hb
      obtain rfl := Option.some.inj hb
      simp at hfirst

/-- What a call signs starts with the digits of its purpose. -/
theorem head?_payload (hengine : engine.Lawful) (call : Issue Uuid) :
    (utf8Bytes (call.payload uuids engine)).head? = some 0x5a := by
  obtain ⟨rest, hrest⟩ : ∃ rest, (payloadText uuids engine call.userId call.organizationId
      call.expiresAt call.nonce).toList = 'g' :: 'i' :: 't' :: rest :=
    ⟨_, toList_payloadText ..⟩
  have hbytes : utf8Bytes (payloadText uuids engine call.userId call.organizationId
      call.expiresAt call.nonce) =
        0x67 :: 0x69 :: 0x74 :: rest.flatMap String.utf8EncodeChar := by
    rw [utf8Bytes_eq, hrest]
    rfl
  rw [Issue.payload, payloadB64, hengine.encode_eq, hbytes, utf8Bytes_eq, base64UrlEncode,
    String.toList_ofList]
  rfl

/-! ## One key -/

variable {Installation Dispatch : Type} {hexDecode : List Char → Option (List UInt8)}
  {readInstallation : List UInt8 → Option Installation}
  {readDispatch : String → List UInt8 → Option Dispatch}

/-- The tag in the header of a webhook. -/
def HeaderTag (hexDecode : List Char → Option (List UInt8)) (signature : String)
    (tag : List UInt8) : Prop :=
  ∃ hexDigest, "sha256=".toList.isPrefixOf? signature.toList = some hexDigest ∧
    hexDecode hexDigest = some tag

theorem verifyGithubSignature_iff {secret : String} {payload : List UInt8} {signature : String} :
    verifyGithubSignature hmac hexDecode secret payload signature = true ↔
      HeaderTag hexDecode signature (hmac secret payload) := by
  rw [verifyGithubSignature, HeaderTag]
  cases hprefix : "sha256=".toList.isPrefixOf? signature.toList with
  | none => simp
  | some hexDigest =>
    cases htag : hexDecode hexDigest with
    | none => simp [htag]
    | some expected => simp [htag, eq_comm]

/-- A message shown with a tag: as the signed half of a state, or as the body of a webhook. -/
def Shown (engine : UrlSafeNoPad) (hexDecode : List Char → Option (List UInt8))
    (states : String → Prop) (webhooks : List UInt8 → String → Prop) (message tag : List UInt8) :
    Prop :=
  (∃ state payload, states state ∧ Carries engine state payload tag ∧
    message = utf8Bytes payload) ∨
  ∃ signature, webhooks message signature ∧ HeaderTag hexDecode signature tag

/-- Nobody shows the tag of a message that neither the dashboard nor GitHub has signed. -/
def KeyKept (hmac : String → List UInt8 → List UInt8) (secret : String)
    (signed : List UInt8 → Prop) (shown : List UInt8 → List UInt8 → Prop) : Prop :=
  ∀ message, shown message (hmac secret message) → signed message

/-- The reader takes JSON values that are no scalars: after white space, an opening bracket. -/
def ReadsBrackets {α : Type} (read : List UInt8 → Option α) : Prop :=
  ∀ payload x, read payload = some x →
    ∃ b, payload.head? = some b ∧ b ∈ [0x20, 0x09, 0x0a, 0x0d, openingBracket, 0x5b]

/-- Messages that are signed with the key: of calls of `issue_setup_state`, and of GitHub. -/
def SignedWithKey (uuids : UuidText Uuid) (engine : UrlSafeNoPad) (calls : Issue Uuid → Prop)
    (deliveries : List UInt8 → Prop) (message : List UInt8) : Prop :=
  (∃ call, calls call ∧ message = utf8Bytes (call.payload uuids engine)) ∨ deliveries message

/-- A state verifies until it expires. As long as the key is kept, a state that verifies was issued
for its user and organization and has not expired, and a webhook that is acted on was sent by
GitHub, whatever states and webhooks are shown: neither is ever taken for the other. -/
theorem setup_states_bind [DecidableEq Uuid] (huuids : uuids.Lawful) (hengine : engine.Lawful)
    (hinstallation : ReadsBrackets readInstallation)
    (hdispatch : ∀ eventType, ReadsBrackets (readDispatch eventType)) :
    (∀ (call : Issue Uuid) (secret : String) (now : AuthTokens.Timestamp),
      now.secs ≤ call.expiresAt →
        verifySetupState uuids engine hmac now
          (issueSetupState uuids engine hmac call.now call.nonce call.userId call.organizationId
            secret) call.userId call.organizationId secret = .ok ()) ∧
    ∀ (secret : String) (calls : Issue Uuid → Prop) (deliveries : List UInt8 → Prop)
      (states : String → Prop) (webhooks : List UInt8 → String → Prop),
      (∀ body, deliveries body → body.head? = some openingBracket) →
      KeyKept hmac secret (SignedWithKey uuids engine calls deliveries)
        (Shown engine hexDecode states webhooks) →
      (∀ now state userId organizationId, states state →
        verifySetupState uuids engine hmac now state userId organizationId secret = .ok () →
        ∃ call, calls call ∧ call.userId = userId ∧ call.organizationId = organizationId ∧
          now.secs ≤ call.expiresAt ∧
          ∃ signature, splitOnce '.' state = some (call.payload uuids engine, signature)) ∧
      ∀ eventType signature body, webhooks body signature →
        (readGithubWebhook hmac hexDecode readInstallation readDispatch secret (some eventType)
          (some signature) body).accepted = true → deliveries body := by
  refine ⟨?_, ?_⟩
  · intro call secret now hnow
    rw [verifySetupState_eq_ok_iff]
    exact ⟨call.payload uuids engine, call.expiresAt, carries_issueSetupState hengine call secret,
      states_payload huuids hengine call, hnow⟩
  · intro secret calls deliveries states webhooks hobjects hkept
    constructor
    · intro now state userId organizationId hstate hverify
      obtain ⟨payload, expiresAt, hcarries, hstates, hnow⟩ :=
        verifySetupState_eq_ok_iff.mp hverify
      have hsigned := hkept (utf8Bytes payload) (.inl ⟨state, payload, hstate, hcarries, rfl⟩)
      rcases hsigned with ⟨call, hcall, hpayload⟩ | hdelivered
      · have hsame : payload = call.payload uuids engine := by
          have hread := congrArg ofUtf8 hpayload
          rw [ofUtf8_utf8Bytes, ofUtf8_utf8Bytes] at hread
          exact Option.some.inj hread
        subst hsame
        obtain ⟨huser, horganization, hexpiry⟩ := eq_of_states_payload huuids hengine hstates
        obtain ⟨signature, hsplit, -⟩ := hcarries
        exact ⟨call, hcall, huser, horganization, hexpiry ▸ hnow, signature, hsplit⟩
      · obtain ⟨bytes, -, -, -, -, -, hdecode, -⟩ := hstates
        exact absurd (hobjects _ hdelivered) (head?_digits (hengine.decode_digits _ _ hdecode))
    · intro eventType signature body hshown haccepted
      rw [readGithubWebhook] at haccepted
      cases hverified : verifyGithubSignature hmac hexDecode secret body signature with
      | false =>
        rw [hverified] at haccepted
        cases haccepted
      | true =>
        rw [hverified] at haccepted
        have htag := verifyGithubSignature_iff.mp hverified
        rcases hkept body (.inr ⟨signature, hshown, htag⟩) with ⟨call, -, rfl⟩ | hdelivered
        · have hunread {α : Type} {read : List UInt8 → Option α} (hread : ReadsBrackets read) :
              read (utf8Bytes (call.payload uuids engine)) = none := by
            cases hsome : read (utf8Bytes (call.payload uuids engine)) with
            | none => rfl
            | some x =>
              obtain ⟨b, hb, hbracket⟩ := hread _ x hsome
              rw [head?_payload hengine] at hb
              obtain rfl := Option.some.inj hb
              exact absurd hbracket (by decide)
          by_cases heventType : eventType = "installation"
          · simp [heventType, hunread hinstallation, WebhookReading.accepted] at haccepted
          · simp [heventType, hunread (hdispatch eventType), WebhookReading.accepted] at haccepted
        · exact hdelivered

end Messages

/-! ## A state and a webhook -/

/-- `URL_SAFE_NO_PAD` by the functions of `token.rs`. -/
def tokenEngine : UrlSafeNoPad where
  encode := base64UrlEncode
  decode text :=
    if text.toList.all (urlSafeDigits.contains ·) then (base64UrlDecode text).toOption else none

theorem tokenEngine_lawful : tokenEngine.Lawful where
  encode_eq _ := rfl
  decode_encode data := by
    have hlength : base64Chars.length = 64 := by decide
    have hdigits : ((base64UrlEncode data).toList.all (urlSafeDigits.contains ·)) = true := by
      rw [List.all_eq_true, base64UrlEncode, String.toList_ofList]
      intro c hc
      obtain ⟨d, hd, rfl⟩ := List.mem_map.mp hc
      obtain ⟨n, rfl⟩ := digit_of_mem_encode hd
      have hn : n % 64 < base64Chars.length := by omega
      rw [base64Digit, List.getD_eq_getElem _ _ hn, List.contains_iff_mem]
      exact List.mem_map_of_mem (List.getElem_mem hn)
    have hdecode : (if (base64UrlEncode data).toList.all (urlSafeDigits.contains ·) then
        (base64UrlDecode (base64UrlEncode data)).toOption else none) = some data := by
      rw [if_pos hdigits, base64UrlDecode_encode]
      rfl
    exact hdecode
  decode_digits text data h := by
    obtain ⟨hdigits, -⟩ := Option.ite_none_right_eq_some.mp h
    intro c hc
    exact List.contains_iff_mem.mp (List.all_eq_true.mp hdigits c hc)

theorem fitsSigned_nilSetup : FitsSigned 64 42 := ⟨by decide, by decide⟩

theorem fitsSigned_epoch : FitsSigned 44 0 := ⟨by decide, by decide⟩

/-- The nil user's setup for organization 42, at the epoch. -/
def nilSetup : Issue Unit where
  now := ⟨0, fitsSigned_epoch⟩
  nonce := List.replicate 16 0
  userId := ()
  organizationId := 42
  fits := fitsSigned_nilSetup

/-- `{"repository":{"id":7}}`. -/
def pushBody : List UInt8 :=
  [123, 34, 114, 101, 112, 111, 115, 105, 116, 111, 114, 121, 34, 58, 123, 34, 105, 100, 34, 58, 55,
    125, 125]

/-- The tag of the body under `webhook-secret`. -/
def pushTag : List UInt8 :=
  [49, 133, 50, 71, 147, 154, 95, 39, 65, 159, 67, 104, 93, 115, 185, 215, 6, 208, 244, 26, 61, 117,
    0, 29, 129, 209, 75, 57, 253, 134, 252, 76]

/-- HMAC-SHA256 under `webhook-secret`, of the body and of the setup's message. -/
def webhookMac (_ : String) (message : List UInt8) : List UInt8 :=
  if message = pushBody then pushTag
  else [76, 11, 63, 158, 53, 24, 170, 243, 14, 38, 70, 119, 19, 189, 95, 124, 62, 163, 140, 80, 230,
    70, 255, 31, 124, 232, 172, 23, 93, 230, 194, 147]

/-- The hexadecimal digits of the body's tag. -/
def pushDigits : String := "31853247939a5f27419f43685d73b9d706d0f41a3d75001d81d14b39fd86fc4c"

/-- `hex::decode` on those digits. -/
def pushHex (digits : List Char) : Option (List UInt8) :=
  if digits = pushDigits.toList then some pushTag else none

/-- The repository that the body names. -/
def pushRepository (_ : String) (payload : List UInt8) : Option Nat :=
  if payload = pushBody then some 7 else none

/-- Its state. -/
def nilState : String :=
  issueSetupState nilUuids tokenEngine webhookMac nilSetup.now nilSetup.nonce nilSetup.userId
    nilSetup.organizationId "webhook-secret"

theorem carries_nilState : Carries tokenEngine nilState (nilSetup.payload nilUuids tokenEngine)
    (sign webhookMac "webhook-secret" (nilSetup.payload nilUuids tokenEngine)) :=
  carries_issueSetupState tokenEngine_lawful nilSetup "webhook-secret"

theorem setup_states_bind_nil :
    verifySetupState nilUuids tokenEngine webhookMac ⟨600, by decide⟩ nilState () 42
        "webhook-secret" = .ok () ∧
      (readGithubWebhook webhookMac pushHex (fun _ ↦ (none : Option Unit)) pushRepository
        "webhook-secret" (some "push") (some ("sha256=" ++ pushDigits)) pushBody).accepted = true ∧
      ∃ call, call = nilSetup ∧ call.userId = () ∧ call.organizationId = 42 ∧
        600 ≤ call.expiresAt ∧ ∃ signature, splitOnce '.' nilState =
          some (call.payload nilUuids tokenEngine, signature) := by
  have hinstallation : ReadsBrackets fun _ ↦ (none : Option Unit) :=
    fun payload x hnone ↦ by cases hnone
  have hdispatch : ∀ eventType, ReadsBrackets (pushRepository eventType) := by
    intro eventType payload x hread
    obtain ⟨rfl, -⟩ := Option.ite_none_right_eq_some.mp hread
    exact ⟨openingBracket, rfl, by decide⟩
  have hbind := @setup_states_bind Unit nilUuids tokenEngine webhookMac Unit Nat pushHex
    (fun _ ↦ none) pushRepository _ nilUuids_lawful tokenEngine_lawful hinstallation hdispatch
  have hverify := hbind.1 nilSetup "webhook-secret" ⟨600, by decide⟩ (by decide)
  have haccepted : (readGithubWebhook webhookMac pushHex (fun _ ↦ (none : Option Unit))
      pushRepository "webhook-secret" (some "push") (some ("sha256=" ++ pushDigits))
      pushBody).accepted = true := by decide +kernel
  refine ⟨hverify, haccepted, ?_⟩
  refine (hbind.2 "webhook-secret" (· = nilSetup) (· = pushBody) (· = nilState)
    (fun body signature ↦ body = pushBody ∧ signature = "sha256=" ++ pushDigits) ?_ ?_).1
    ⟨600, by decide⟩ nilState () 42 rfl hverify
  · rintro body rfl
    rfl
  · rintro message (⟨state, payload, rfl, ⟨signature, hsplit, -⟩, rfl⟩ | ⟨signature, ⟨rfl, -⟩, -⟩)
    · obtain ⟨signature', hsplit', -⟩ := carries_nilState
      rw [hsplit, Option.some_inj, Prod.mk.injEq] at hsplit'
      exact .inl ⟨nilSetup, rfl, congrArg AuthTokens.utf8Bytes hsplit'.1⟩
    · exact .inr rfl

end ReinhardtCloud.Dashboard.SetupStates
