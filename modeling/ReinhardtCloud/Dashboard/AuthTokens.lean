import ReinhardtCloud.Base.Affixes
import ReinhardtCloud.Base.Encoding
import ReinhardtCloud.Base.Numerals
import ReinhardtCloud.Dashboard.Accounts
import ReinhardtCloud.Dashboard.Base64

/-!
# Tokens of the auth flows

Library `Dashboard`. `generate_token` and `verify_token` with their helpers
(`apps/auth/services/token.rs:21–192`). HMAC-SHA256 and the text of UUIDs are parameters; the clock
is an argument.
-/

namespace ReinhardtCloud.Dashboard

open ReinhardtCloud.Base

/-- `TokenPurpose::as_str`. -/
def TokenPurpose.asStr : TokenPurpose → String
  | .emailVerification => "ev"
  | .passwordReset => "pr"

/-- `TokenPurpose::from_str`. -/
def TokenPurpose.fromStr (s : List Char) : Option TokenPurpose :=
  if s = ['e', 'v'] then some .emailVerification
  else if s = ['p', 'r'] then some .passwordReset
  else none

/-- The two expiry durations, `token.rs:74–76`. -/
def TokenPurpose.expirySecs : TokenPurpose → Int
  | .emailVerification => 86400
  | .passwordReset => 3600

namespace AuthTokens

/-- `Utc::now().timestamp()`: seconds within the years that `chrono` has. -/
structure Timestamp where
  secs : Int
  bounds : -(2 ^ 43) ≤ secs ∧ secs < 2 ^ 43

/-- `Uuid`'s `Display` and `FromStr`. -/
structure UuidText (Uuid : Type) where
  display : Uuid → String
  parse : List Char → Option Uuid

/-- UUIDs are written in hexadecimal digits and dashes and can be read back. -/
structure UuidText.Lawful {Uuid : Type} (uuids : UuidText Uuid) : Prop where
  parse_display : ∀ u, uuids.parse (uuids.display u).toList = some u
  chars : ∀ u, ∀ c ∈ (uuids.display u).toList, isLowerHexDigit c = true ∨ c = '-'

/-- `password_hash_prefix`, `token.rs:172–186`. -/
def passwordHashPrefix (hash : String) : String :=
  if hash.isEmpty then ""
  else String.ofList (hash.toList.drop (hash.toList.length - 16))

/-- `str::as_bytes`. -/
def utf8Bytes (s : String) : List UInt8 := s.toByteArray.data.toList

/-- `String::from_utf8`. -/
def ofUtf8 (bytes : List UInt8) : Option String := String.fromUTF8? ⟨bytes.toArray⟩

section Tokens

variable {Uuid : Type} (uuids : UuidText Uuid) (hmac : String → String → List UInt8)

/-- The text that is signed, `token.rs:98–105`. -/
def payloadText (expiryTs : Int) (purpose : TokenPurpose) (userId : Uuid) (passwordHash : String) :
    String :=
  s!"{purpose.asStr}|{uuids.display userId}|{expiryTs}|{passwordHashPrefix passwordHash}"

/-- The signed half of a token, `token.rs:107`. -/
def payloadB64 (expiryTs : Int) (purpose : TokenPurpose) (userId : Uuid) (passwordHash : String) :
    String :=
  base64UrlEncode (utf8Bytes (payloadText uuids expiryTs purpose userId passwordHash))

/-- `generate_token`, `token.rs:85–114`. -/
def generateToken (now : Timestamp) (purpose : TokenPurpose) (userId : Uuid)
    (passwordHash secretKey : String) : String :=
  let payload := payloadB64 uuids (now.secs + purpose.expirySecs) purpose userId passwordHash
  s!"{payload}.{base64UrlEncode (hmac secretKey payload)}"

/-- `verify_token`, `token.rs:123–170`. -/
def verifyToken (now : Timestamp) (token : String) (expectedPurpose : TokenPurpose)
    (passwordHash secretKey : String) : Except TokenError Uuid :=
  match splitOnce '.' token with
  | none => .error .malformedToken
  | some (payload, sig) =>
    match base64UrlDecode sig with
    | .error _ => .error .malformedToken
    | .ok providedSig =>
      if hmac secretKey payload ≠ providedSig then .error .invalidSignature
      else
        match base64UrlDecode payload with
        | .error _ => .error .malformedToken
        | .ok payloadBytes =>
          match ofUtf8 payloadBytes with
          | none => .error .malformedToken
          | some text =>
            match text.toList.splitOn '|' with
            | [purpose, userId, expiryTs, hashPrefix] =>
              match TokenPurpose.fromStr purpose with
              | none => .error .malformedToken
              | some purpose =>
                if purpose ≠ expectedPurpose then .error .purposeMismatch
                else
                  match uuids.parse userId with
                  | none => .error .malformedToken
                  | some userId =>
                    match parseSigned 64 expiryTs with
                    | none => .error .malformedToken
                    | some expiryTs =>
                      if now.secs > expiryTs then .error .expired
                      else if hashPrefix ≠ (passwordHashPrefix passwordHash).toList then
                        .error .invalidSignature
                      else .ok userId
            | _ => .error .malformedToken

/-- A signed half that states these four fields. -/
def Says (payload : String) (purpose : TokenPurpose) (userId : Uuid) (expiryTs : Int)
    (hashPrefix : String) : Prop :=
  ∃ bytes text purposeText userText expiryText,
    base64UrlDecode payload = .ok bytes ∧ ofUtf8 bytes = some text ∧
      text.toList.splitOn '|' = [purposeText, userText, expiryText, hashPrefix.toList] ∧
      TokenPurpose.fromStr purposeText = some purpose ∧ uuids.parse userText = some userId ∧
      parseSigned 64 expiryText = some expiryTs

/-- A token whose halves are a message and a tag. -/
def Shows (token payload : String) (tag : List UInt8) : Prop :=
  ∃ sig, splitOnce '.' token = some (payload, sig) ∧ base64UrlDecode sig = .ok tag

/-- A call of `generate_token`. -/
structure Issue (Uuid : Type) where
  now : Timestamp
  purpose : TokenPurpose
  userId : Uuid
  passwordHash : String

/-- The end of the token's life. -/
def Issue.expiryTs (call : Issue Uuid) : Int := call.now.secs + call.purpose.expirySecs

/-- What the call signs. -/
def Issue.payload (call : Issue Uuid) : String :=
  payloadB64 uuids call.expiryTs call.purpose call.userId call.passwordHash

/-- No one shows the tag of a message that was not signed. -/
def Unforgeable (secretKey : String) (signed : String → Prop)
    (shown : String → List UInt8 → Prop) : Prop :=
  ∀ message, shown message (hmac secretKey message) → signed message

theorem fromStr_asStr (purpose : TokenPurpose) :
    TokenPurpose.fromStr purpose.asStr.toList = some purpose := by
  cases purpose <;> decide

theorem bar_not_mem_asStr (purpose : TokenPurpose) : '|' ∉ purpose.asStr.toList := by
  cases purpose <;> decide

theorem ofUtf8_utf8Bytes (s : String) : ofUtf8 (utf8Bytes s) = some s := by
  have hbytes : (⟨(utf8Bytes s).toArray⟩ : ByteArray) = s.toByteArray := rfl
  rw [ofUtf8, hbytes, String.fromUTF8?, dif_pos s.isValidUTF8, Option.some_inj,
    ← String.toByteArray_inj]
  rfl

variable {uuids} in
theorem bar_not_mem_display (huuids : uuids.Lawful) (userId : Uuid) :
    '|' ∉ (uuids.display userId).toList := by
  intro h
  rcases huuids.chars userId _ h with h | h
  · exact absurd h (by decide)
  · exact absurd h (by decide)

theorem bar_not_mem_toString (n : Int) : '|' ∉ (toString n).toList := by
  intro h
  rcases isDigit_or_sign_of_isNumeral (isNumeral_toString n) h with h | h | h
  · exact absurd h (by decide)
  · exact absurd h (by decide)
  · exact absurd h (by decide)

variable {uuids} in
/-- The first three fields are free of the separator; the fourth may not be. -/
theorem splitOn_payloadText (huuids : uuids.Lawful) (expiryTs : Int) (purpose : TokenPurpose)
    (userId : Uuid) (passwordHash : String) :
    (payloadText uuids expiryTs purpose userId passwordHash).toList.splitOn '|' =
      purpose.asStr.toList :: (uuids.display userId).toList :: (toString expiryTs).toList ::
        (passwordHashPrefix passwordHash).toList.splitOn '|' := by
  have hlist : (payloadText uuids expiryTs purpose userId passwordHash).toList =
      purpose.asStr.toList ++ '|' :: ((uuids.display userId).toList ++ '|' ::
        ((toString expiryTs).toList ++ '|' :: (passwordHashPrefix passwordHash).toList)) := by
    simp [payloadText, toString]
  rw [hlist, List.splitOn_append_cons_self_of_not_mem (bar_not_mem_asStr purpose),
    List.splitOn_append_cons_self_of_not_mem (bar_not_mem_display huuids userId),
    List.splitOn_append_cons_self_of_not_mem (bar_not_mem_toString expiryTs)]

/-- A signed half states the end of the token's life within the range of the type. -/
theorem fits_expiryTs (call : Issue Uuid) : FitsSigned 64 call.expiryTs := by
  obtain ⟨hlo, hhi⟩ := call.now.bounds
  have hsecs : 0 ≤ call.purpose.expirySecs ∧ call.purpose.expirySecs ≤ 86400 := by
    cases call.purpose <;> decide
  rw [FitsSigned, Issue.expiryTs]
  omega

variable {uuids} in
/-- What a call signs states the call's own fields, unless the hash ends with a separator in it. -/
theorem says_payload (huuids : uuids.Lawful) (call : Issue Uuid)
    (hbar : '|' ∉ (passwordHashPrefix call.passwordHash).toList) :
    Says uuids (call.payload uuids) call.purpose call.userId call.expiryTs
      (passwordHashPrefix call.passwordHash) := by
  refine ⟨_, _, _, _, _, base64UrlDecode_encode _, ofUtf8_utf8Bytes _, ?_, fromStr_asStr _,
    huuids.parse_display _, parseSigned_toString (fits_expiryTs call)⟩
  rw [splitOn_payloadText huuids, List.splitOn_eq_singleton hbar]

variable {uuids} in
/-- What a call signs states nothing else. -/
theorem eq_of_says_payload (huuids : uuids.Lawful) {call : Issue Uuid} {purpose : TokenPurpose}
    {userId : Uuid} {expiryTs : Int} {hashPrefix : String}
    (h : Says uuids (call.payload uuids) purpose userId expiryTs hashPrefix) :
    call.purpose = purpose ∧ call.userId = userId ∧ call.expiryTs = expiryTs ∧
      passwordHashPrefix call.passwordHash = hashPrefix := by
  obtain ⟨bytes, text, purposeText, userText, expiryText, hbytes, htext, hsplit, hpurpose, huser,
    hexpiry⟩ := h
  rw [Issue.payload, payloadB64, base64UrlDecode_encode, Except.ok.injEq] at hbytes
  rw [← hbytes, ofUtf8_utf8Bytes, Option.some_inj] at htext
  rw [← htext, splitOn_payloadText huuids] at hsplit
  simp only [List.cons.injEq] at hsplit
  obtain ⟨rfl, rfl, rfl, hprefix⟩ := hsplit
  rw [fromStr_asStr, Option.some_inj] at hpurpose
  rw [huuids.parse_display, Option.some_inj] at huser
  rw [parseSigned_toString (fits_expiryTs call), Option.some_inj] at hexpiry
  refine ⟨hpurpose, huser, hexpiry, ?_⟩
  -- the fourth field is the only part that the separator leaves of the hash's end
  apply String.toList_inj.mp
  have hjoin : ['|'].intercalate ((passwordHashPrefix call.passwordHash).toList.splitOn '|') =
      (passwordHashPrefix call.passwordHash).toList := List.intercalate_splitOn '|'
  rw [← hjoin, hprefix]
  simp

variable {uuids hmac} in
/-- The tokens that verify: a tag over what states the expected fields and has not expired. -/
theorem verifyToken_eq_ok_iff {now : Timestamp} {token passwordHash secretKey : String}
    {purpose : TokenPurpose} {userId : Uuid} :
    verifyToken uuids hmac now token purpose passwordHash secretKey = .ok userId ↔
      ∃ payload expiryTs, Shows token payload (hmac secretKey payload) ∧
        Says uuids payload purpose userId expiryTs (passwordHashPrefix passwordHash) ∧
        now.secs ≤ expiryTs := by
  constructor
  · intro h
    rw [verifyToken] at h
    split at h
    · cases h
    next payload sig hsplit =>
    split at h
    · cases h
    next tag htag =>
    split at h
    · cases h
    next hmac_eq =>
    split at h
    · cases h
    next bytes hbytes =>
    split at h
    · cases h
    next text htext =>
    split at h
    next purposeText userText expiryText hashPrefix hfields =>
      split at h
      · cases h
      next stated hstated =>
      split at h
      · cases h
      next hpurpose =>
      split at h
      · cases h
      next user huser =>
      split at h
      · cases h
      next expiryTs hexpiry =>
      split at h
      · cases h
      next hnow =>
      split at h
      · cases h
      next hhash =>
      cases h
      rw [not_not] at hmac_eq hpurpose hhash
      subst hpurpose hhash
      exact ⟨payload, expiryTs, ⟨sig, hsplit, hmac_eq ▸ htag⟩,
        ⟨bytes, text, purposeText, userText, expiryText, hbytes, htext, hfields, hstated, huser,
          hexpiry⟩, not_lt.mp hnow⟩
    · cases h
  · rintro ⟨payload, expiryTs, ⟨sig, hsplit, htag⟩, ⟨bytes, text, purposeText, userText, expiryText,
      hbytes, htext, hfields, hstated, huser, hexpiry⟩, hnow⟩
    simp [verifyToken, hsplit, htag, hbytes, htext, hfields, hstated, huser, hexpiry, hnow]

/-- The halves of a token are found again. -/
theorem shows_generateToken (call : Issue Uuid) (secretKey : String) :
    Shows (generateToken uuids hmac call.now call.purpose call.userId call.passwordHash secretKey)
      (call.payload uuids) (hmac secretKey (call.payload uuids)) := by
  refine ⟨base64UrlEncode (hmac secretKey (call.payload uuids)), ?_, base64UrlDecode_encode _⟩
  rw [splitOnce_eq_some_iff]
  constructor
  · rw [generateToken]
    apply String.toList_inj.mp
    simp [toString, Issue.payload, Issue.expiryTs]
  · rw [Issue.payload, payloadB64]
    exact dot_not_mem_base64UrlEncode _

/-- A token has one message. -/
theorem eq_of_shows {token payload payload' : String} {tag tag' : List UInt8}
    (h : Shows token payload tag) (h' : Shows token payload' tag') : payload = payload' := by
  obtain ⟨sig, hsplit, -⟩ := h
  obtain ⟨sig', hsplit', -⟩ := h'
  rw [hsplit, Option.some_inj, Prod.mk.injEq] at hsplit'
  exact hsplit'.1

/-- The end of the hash has no separator if the hash has none. -/
theorem bar_not_mem_passwordHashPrefix {hash : String} (h : '|' ∉ hash.toList) :
    '|' ∉ (passwordHashPrefix hash).toList := by
  rw [passwordHashPrefix]
  by_cases hempty : hash.isEmpty = true
  · rw [if_pos hempty]
    decide
  · rw [if_neg hempty, String.toList_ofList]
    exact fun hmem ↦ h (List.mem_of_mem_drop hmem)

variable {uuids} in
/-- A token of `generate_token` verifies until it expires. A token that verifies carries a message
that was signed for its purpose, its user and the end of the password hash: by `generate_token`, or
by another signer, in which case the message states them. The encoder is inverted throughout. -/
theorem auth_tokens_bind (huuids : uuids.Lawful) :
    (∀ (call : Issue Uuid) (secretKey : String) (now : Timestamp),
      '|' ∉ call.passwordHash.toList → now.secs ≤ call.expiryTs →
        verifyToken uuids hmac now
          (generateToken uuids hmac call.now call.purpose call.userId call.passwordHash secretKey)
          call.purpose call.passwordHash secretKey = .ok call.userId) ∧
    (∀ (secretKey : String) (calls : Issue Uuid → Prop) (others tokens : String → Prop),
      Unforgeable hmac secretKey
        (fun message ↦ (∃ call, calls call ∧ message = call.payload uuids) ∨ others message)
        (fun message tag ↦ ∃ token, tokens token ∧ Shows token message tag) →
      ∀ (now : Timestamp) (token : String) (purpose : TokenPurpose) (passwordHash : String)
        (userId : Uuid), tokens token →
        verifyToken uuids hmac now token purpose passwordHash secretKey = .ok userId →
        ∃ payload sig, splitOnce '.' token = some (payload, sig) ∧
          ((∃ call, calls call ∧ payload = call.payload uuids ∧ call.purpose = purpose ∧
              call.userId = userId ∧ now.secs ≤ call.expiryTs ∧
              passwordHashPrefix call.passwordHash = passwordHashPrefix passwordHash) ∨
            others payload ∧ ∃ expiryTs, now.secs ≤ expiryTs ∧
              Says uuids payload purpose userId expiryTs (passwordHashPrefix passwordHash))) ∧
    ∀ data : List UInt8, base64UrlDecode (base64UrlEncode data) = .ok data := by
  refine ⟨?_, ?_, base64UrlDecode_encode⟩
  · intro call secretKey now hbar hnow
    rw [verifyToken_eq_ok_iff]
    exact ⟨call.payload uuids, call.expiryTs, shows_generateToken uuids hmac call secretKey,
      says_payload huuids call (bar_not_mem_passwordHashPrefix hbar), hnow⟩
  · intro secretKey calls others tokens hunforgeable now token purpose passwordHash userId htoken
      hverify
    obtain ⟨payload, expiryTs, hshows, hsays, hnow⟩ := verifyToken_eq_ok_iff.mp hverify
    have hsigned := hunforgeable payload ⟨token, htoken, hshows⟩
    obtain ⟨sig, hsplit, -⟩ := hshows
    refine ⟨payload, sig, hsplit, ?_⟩
    rcases hsigned with ⟨call, hcall, rfl⟩ | hother
    · obtain ⟨hpurpose, huser, hexpiry, hhash⟩ := eq_of_says_payload huuids hsays
      exact .inl ⟨call, hcall, rfl, hpurpose, huser, hexpiry ▸ hnow, hhash⟩
    · exact .inr ⟨hother, expiryTs, hnow, hsays⟩

end Tokens

section Accounts

variable (uuids : UuidText Nat) (hmac : String → String → List UInt8)

/-- A text that has a payload under the dashboard's signature. -/
def Carries (secretKey token : String) (payload : TokenPayload) : Prop :=
  ∃ message, Shows token message (hmac secretKey message) ∧
    Says uuids message payload.purpose payload.userId payload.expiryTs payload.hashPrefix

/-- The accounts' own check of a payload is what is left of the check of a text that carries it. -/
theorem verifyToken_eq_ok_iff_carries {now : Timestamp} {token passwordHash secretKey : String}
    {purpose : TokenPurpose} {userId : Nat} :
    verifyToken uuids hmac now token purpose passwordHash secretKey = .ok userId ↔
      ∃ payload, Carries uuids hmac secretKey token payload ∧
        Dashboard.verifyToken (.ok payload) purpose (passwordHashPrefix passwordHash) now.secs =
          .ok userId := by
  rw [verifyToken_eq_ok_iff]
  constructor
  · rintro ⟨message, expiryTs, hshows, hsays, hnow⟩
    refine ⟨⟨purpose, userId, expiryTs, passwordHashPrefix passwordHash⟩,
      ⟨message, hshows, hsays⟩, ?_⟩
    simp [Dashboard.verifyToken, not_lt.mpr hnow]
  · rintro ⟨⟨purpose', userId', expiryTs, hashPrefix⟩, ⟨message, hshows, hsays⟩, hverify⟩
    simp only [Dashboard.verifyToken] at hverify
    split at hverify
    · cases hverify
    next hpurpose =>
    split at hverify
    · cases hverify
    next hnow =>
    split at hverify
    · cases hverify
    next hhash =>
    cases hverify
    rw [not_not] at hpurpose hhash
    subst hpurpose hhash
    exact ⟨message, expiryTs, hshows, hsays, not_lt.mp hnow⟩

end Accounts

/-- The nil UUID alone. -/
def nilUuids : UuidText Unit where
  display _ := "00000000-0000-0000-0000-000000000000"
  parse s := if s = "00000000-0000-0000-0000-000000000000".toList then some () else none

theorem nilUuids_lawful : nilUuids.Lawful where
  parse_display _ := if_pos rfl
  chars _ c hc := by
    have hall : ("00000000-0000-0000-0000-000000000000".toList.all fun c ↦
        isLowerHexDigit c || c = '-') = true := by decide
    have hchar := List.all_eq_true.mp hall c hc
    rwa [Bool.or_eq_true, decide_eq_true_eq] at hchar

/-- A verification mail for that user at the epoch. -/
def nilCall : Issue Unit where
  now := ⟨0, by decide⟩
  purpose := .emailVerification
  userId := ()
  passwordHash := ""

/-- The key of the module's tests. -/
def testSecret : String := "test-secret-key-for-hmac-token-generation"

/-- HMAC-SHA256 of the one message under that key. -/
def nilHmac (_ _ : String) : List UInt8 :=
  [165, 43, 1, 52, 226, 111, 36, 0, 119, 100, 28, 212, 255, 75, 127, 222, 222, 247, 58, 150, 21, 90,
    87, 103, 222, 18, 120, 207, 27, 149, 72, 142]

/-- Its token. -/
def nilToken : String :=
  generateToken nilUuids nilHmac nilCall.now nilCall.purpose nilCall.userId nilCall.passwordHash
    testSecret

example : nilToken =
    "ZXZ8MDAwMDAwMDAtMDAwMC0wMDAwLTAwMDAtMDAwMDAwMDAwMDAwfDg2NDAwfA." ++
      "pSsBNOJvJAB3ZBzU_0t_3t73OpYVWldn3hJ4zxuVSI4" := by decide +kernel

theorem shows_nilToken : Shows nilToken (nilCall.payload nilUuids) (nilHmac testSecret "") :=
  shows_generateToken nilUuids nilHmac nilCall testSecret

/-- The mail's token verifies within the day, and only because it was issued. -/
theorem auth_tokens_bind_nil :
    verifyToken nilUuids nilHmac ⟨86400, by decide⟩ nilToken .emailVerification "" testSecret =
        .ok () ∧
      ∃ payload sig, splitOnce '.' nilToken = some (payload, sig) ∧
        ((∃ call, call = nilCall ∧ payload = call.payload nilUuids ∧
            call.purpose = .emailVerification ∧ call.userId = () ∧ 86400 ≤ call.expiryTs ∧
            passwordHashPrefix call.passwordHash = passwordHashPrefix "") ∨
          False ∧ ∃ expiryTs, 86400 ≤ expiryTs ∧
            Says nilUuids payload .emailVerification () expiryTs (passwordHashPrefix "")) := by
  have hbind := auth_tokens_bind nilHmac nilUuids_lawful
  have hverify := hbind.1 nilCall testSecret ⟨86400, by decide⟩ (by decide) (by decide)
  refine ⟨hverify, ?_⟩
  refine hbind.2.1 testSecret (· = nilCall) (fun _ ↦ False) (· = nilToken) ?_ ⟨86400, by decide⟩
    nilToken .emailVerification "" () rfl hverify
  rintro message ⟨token, rfl, hshows⟩
  exact .inl ⟨nilCall, rfl, eq_of_shows hshows shows_nilToken⟩

end AuthTokens

end ReinhardtCloud.Dashboard
