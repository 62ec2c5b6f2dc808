import ReinhardtCloud.Base.Affixes
import ReinhardtCloud.Base.TomlText
import ReinhardtCloud.Grpc.Wire
import ReinhardtCloud.Operator.SourceBuild

/-!
# Who may call the gRPC server

Library `Dashboard`. The services of `start_grpc_server` (`dashboard/src/config/grpc.rs:136–240`)
behind their interceptors (`crates/reinhardt-cloud-grpc/src/interceptor.rs:14–300`). Tokens of users
(`crates/reinhardt-cloud-core/src/auth.rs`) and of agents
(`crates/reinhardt-cloud-grpc/src/agent_claims.rs`) are signed with one secret and differ in their
claims. The library of JSON web tokens and the check of stored agent tokens are parameters.
-/

namespace ReinhardtCloud.Dashboard.GrpcServer

open ReinhardtCloud.Base ReinhardtCloud.Grpc ReinhardtCloud.Operator

/-! ## Claims -/

/-- A value of a JSON object of claims. -/
inductive ClaimValue where
  | text (value : String)
  | number (value : Int)
  deriving DecidableEq

/-- A JSON object of claims. -/
abbrev Payload := List (String × ClaimValue)

/-- A required `String` claim. -/
def Payload.text (payload : Payload) (name : String) : Option String :=
  match payload.lookup name with
  | some (.text value) => some value
  | _ => none

/-- The range of `i64`. -/
def Fits (value : Int) : Prop := -9223372036854775808 ≤ value ∧ value < 9223372036854775808

instance (value : Int) : Decidable (Fits value) := inferInstanceAs (Decidable (_ ∧ _))

/-- A required `i64` claim. -/
def Payload.number (payload : Payload) (name : String) : Option Int :=
  match payload.lookup name with
  | some (.number value) => if Fits value then some value else none
  | _ => none

/-- A `String` claim with `#[serde(default)]`. -/
def Payload.textOrDefault (payload : Payload) (name : String) : Option String :=
  match payload.lookup name with
  | none => some ""
  | some (.text value) => some value
  | some (.number _) => none

/-- `Claims`, `auth.rs:9–20`. -/
structure Claims where
  sub : String
  username : String
  exp : Int
  iat : Int
  deriving DecidableEq

/-- `AgentClaims`, `agent_claims.rs:18–38`. -/
structure AgentClaims where
  sub : String
  clusterId : String
  exp : Int
  iat : Int
  iss : String
  aud : String
  deriving DecidableEq

/-- `Claims` as JSON. -/
def Claims.payload (claims : Claims) : Payload :=
  [("sub", .text claims.sub), ("username", .text claims.username), ("exp", .number claims.exp),
    ("iat", .number claims.iat)]

/-- A text that is left out when it is empty. -/
def skipEmpty (name value : String) : Payload := if value = "" then [] else [(name, .text value)]

/-- `AgentClaims` as JSON. -/
def AgentClaims.payload (claims : AgentClaims) : Payload :=
  [("sub", .text claims.sub), ("cluster_id", .text claims.clusterId), ("exp", .number claims.exp),
    ("iat", .number claims.iat)] ++ skipEmpty "iss" claims.iss ++ skipEmpty "aud" claims.aud

/-- `Claims` from JSON: other members are ignored. -/
def readClaims (payload : Payload) : Option Claims :=
  (payload.text "sub").bind fun sub ↦
    (payload.text "username").bind fun username ↦
      (payload.number "exp").bind fun exp ↦
        (payload.number "iat").map fun iat ↦ ⟨sub, username, exp, iat⟩

/-- `AgentClaims` from JSON. -/
def readAgentClaims (payload : Payload) : Option AgentClaims :=
  (payload.text "sub").bind fun sub ↦
    (payload.text "cluster_id").bind fun clusterId ↦
      (payload.number "exp").bind fun exp ↦
        (payload.number "iat").bind fun iat ↦
          (payload.textOrDefault "iss").bind fun iss ↦
            (payload.textOrDefault "aud").map fun aud ↦ ⟨sub, clusterId, exp, iat, iss, aud⟩

/-! ## Tokens -/

/-- `jsonwebtoken` with its defaults: HS256, and `decode` at a time; and what it says of a payload
that lacks a claim. -/
structure JsonWebTokens where
  encode : List UInt8 → Payload → String
  decode : List UInt8 → Int → String → Except String Payload
  lacking : Payload → String

/-- The default validation. -/
structure JsonWebTokens.Lawful (jwt : JsonWebTokens) : Prop where
  /-- A token decodes until it expires, unless it names an audience. -/
  decode_encode : ∀ secret payload exp now, payload.number "exp" = some exp →
    payload.lookup "aud" = none → now ≤ exp → jwt.decode secret now (jwt.encode secret payload) =
      .ok payload
  /-- A leeway of one minute. -/
  expires : ∀ secret now token payload, jwt.decode secret now token = .ok payload →
    ∃ exp, payload.lookup "exp" = some (.number exp) ∧ now ≤ exp + 60

section Interceptors

variable (jwt : JsonWebTokens) (validator : String → AgentClaims → Except Status Unit)
  (secret : List UInt8) (now : Int)

/-- `create_token`, `auth.rs:23–42`, from its claims. -/
def createToken (claims : Claims) : String := jwt.encode secret claims.payload

/-- `create_agent_token`, `agent_claims.rs:56–67`, from its claims. -/
def createAgentToken (claims : AgentClaims) : String := jwt.encode secret claims.payload

/-- `JwtInterceptor::validate_token`, `interceptor.rs:131–140`. -/
def validateToken (token : String) : Except Status Claims :=
  match jwt.decode secret now token with
  | .error e => .error ⟨.unauthenticated, "Invalid token: " ++ e⟩
  | .ok payload =>
    match readClaims payload with
    | none => .error ⟨.unauthenticated, "Invalid token: " ++ jwt.lacking payload⟩
    | some claims => .ok claims

/-- `verify_agent_token`, `agent_claims.rs:73–88`. -/
def verifyAgentToken (token : String) : Except String AgentClaims :=
  match jwt.decode secret now token with
  | .error e => .error e
  | .ok payload =>
    match readAgentClaims payload with
    | none => .error (jwt.lacking payload)
    | some claims => if isBlank claims.clusterId then .error "InvalidToken" else .ok claims

/-- `AgentJwtInterceptor::validate_token`, `interceptor.rs:199–207`. -/
def validateAgentToken (token : String) : Except Status AgentClaims :=
  match verifyAgentToken jwt secret now token with
  | .error e => .error ⟨.unauthenticated, "Invalid agent token: " ++ e⟩
  | .ok claims =>
    match validator token claims with
    | .error status => .error status
    | .ok () => .ok claims

/-! ## Interceptors -/

/-- A request as an interceptor sees it: the path recorded by `GrpcPathService`, and the
`authorization` of its metadata. -/
structure GrpcRequest where
  path : Option String
  authorization : Option String
  deriving DecidableEq

/-- The claims in the extensions of a request. -/
inductive Caller where
  | nobody
  | user (claims : Claims)
  | agent (claims : AgentClaims)
  deriving DecidableEq

/-- `PUBLIC_PATHS`. -/
def publicPaths : List String :=
  ["/grpc.health.v1.Health/Check", "/grpc.health.v1.Health/Watch",
    "/grpc.reflection.v1alpha.ServerReflection/ServerReflectionInfo",
    "/grpc.reflection.v1.ServerReflection/ServerReflectionInfo"]

/-- `AGENT_PATH_PREFIXES`. -/
def agentPathPrefixes : List String := ["/reinhardt.cloud.cluster_agent.AgentService/"]

/-- `LOG_SERVICE_PUSH_LOGS_PATH`. -/
def pushLogsPath : String := "/reinhardt.cloud.log.LogService/PushLogs"

/-- The bearer token of a request. -/
def GrpcRequest.bearer (request : GrpcRequest) : Option String :=
  (request.authorization.bind fun value ↦ "Bearer ".toList.isPrefixOf? value.toList).map
    String.ofList

/-- `JwtInterceptor::call`, `interceptor.rs:143–168`. -/
def jwtInterceptor (request : GrpcRequest) : Except Status Caller :=
  if request.path.any (publicPaths.contains ·) then .ok .nobody
  else
    match request.bearer with
    | none => .error ⟨.unauthenticated, "Missing authorization token"⟩
    | some token => (validateToken jwt secret now token).map .user

/-- `AgentJwtInterceptor::is_agent_path`, `interceptor.rs:210–217`. -/
def isAgentPath (path : String) : Bool :=
  if path = pushLogsPath then true else agentPathPrefixes.any (startsWith path)

/-- `AgentJwtInterceptor::call`, `interceptor.rs:220–255`. -/
def agentJwtInterceptor (request : GrpcRequest) : Except Status Caller :=
  match request.path with
  | none => .error ⟨.unauthenticated, "Missing gRPC path; cannot authorize agent request"⟩
  | some path =>
    if !isAgentPath path then
      .error ⟨.unauthenticated,
        "Not an agent path; cannot authorize request with the agent interceptor"⟩
    else
      match request.bearer with
      | none => .error ⟨.unauthenticated, "Missing agent authorization token"⟩
      | some token => (validateAgentToken jwt validator secret now token).map .agent

/-- `LogServiceJwtInterceptor::call`, `interceptor.rs:287–300`. -/
def logServiceJwtInterceptor (request : GrpcRequest) : Except Status Caller :=
  match request.path with
  | none => .error ⟨.unauthenticated, "Missing gRPC path; cannot authorize log service request"⟩
  | some path =>
    if path = pushLogsPath then agentJwtInterceptor jwt validator secret now request
    else jwtInterceptor jwt secret now request

/-! ## The server -/

/-- The services that are added to the server, `grpc.rs:236–258`. -/
inductive GrpcService where
  | health
  | reflection
  | build
  | log
  | agent
  deriving DecidableEq

/-- `NamedService::NAME`. -/
def GrpcService.name : GrpcService → String
  | .health => "grpc.health.v1.Health"
  | .reflection => "grpc.reflection.v1.ServerReflection"
  | .build => "reinhardt.cloud.build.BuildService"
  | .log => "reinhardt.cloud.log.LogService"
  | .agent => "reinhardt.cloud.cluster_agent.AgentService"

/-- The server's router: a service has the paths below its name. -/
def GrpcService.serves (service : GrpcService) (path : String) : Bool :=
  startsWith path ("/" ++ service.name ++ "/")

/-- What guards a service; the path of a guarded one is recorded. -/
def GrpcService.guard (service : GrpcService) (path : String) (authorization : Option String) :
    Except Status Caller :=
  match service with
  | .health | .reflection => .ok .nobody
  | .build => jwtInterceptor jwt secret now ⟨some path, authorization⟩
  | .log => logServiceJwtInterceptor jwt validator secret now ⟨some path, authorization⟩
  | .agent => agentJwtInterceptor jwt validator secret now ⟨some path, authorization⟩

end Interceptors

/-! ## Two kinds of claims -/

/-- A user's claims have no cluster. -/
theorem readAgentClaims_user (claims : Claims) : readAgentClaims claims.payload = none := by
  obtain ⟨sub, username, exp, iat⟩ := claims
  rfl

theorem lookup_skipEmpty {name other : String} (value : String) (h : name ≠ other) :
    (skipEmpty other value).lookup name = none := by
  rw [skipEmpty]
  by_cases hvalue : value = ""
  · rw [if_pos hvalue]
    rfl
  · rw [if_neg hvalue, List.lookup_cons, beq_false_of_ne h]
    rfl

/-- An agent's claims have no user name. -/
theorem readClaims_agent (claims : AgentClaims) : readClaims claims.payload = none := by
  have hname : claims.payload.text "username" = none := by
    rw [Payload.text, AgentClaims.payload, List.lookup_append, List.lookup_append,
      lookup_skipEmpty _ (by decide), lookup_skipEmpty _ (by decide)]
    rfl
  rw [readClaims, hname]
  cases claims.payload.text "sub" <;> rfl

theorem number_of_lookup {payload : Payload} {name : String} {value : Int}
    (h : payload.lookup name = some (.number value)) :
    payload.number name = if Fits value then some value else none := by
  rw [Payload.number, h]

/-- What is read of a user's claims is the claims. -/
theorem readClaims_payload (claims : Claims) :
    readClaims claims.payload =
      if Fits claims.exp ∧ Fits claims.iat then some claims else none := by
  have hexp : claims.payload.number "exp" = if Fits claims.exp then some claims.exp else none :=
    number_of_lookup rfl
  have hiat : claims.payload.number "iat" = if Fits claims.iat then some claims.iat else none :=
    number_of_lookup rfl
  have hsub : claims.payload.text "sub" = some claims.sub := rfl
  have husername : claims.payload.text "username" = some claims.username := rfl
  rw [readClaims, hsub, husername, hexp, hiat, Option.bind_some, Option.bind_some]
  by_cases he : Fits claims.exp
  · by_cases hi : Fits claims.iat
    · rw [if_pos he, if_pos hi, if_pos ⟨he, hi⟩]
      rfl
    · have hnot : ¬ (Fits claims.exp ∧ Fits claims.iat) := fun h ↦ hi h.2
      rw [if_pos he, if_neg hi, if_neg hnot]
      rfl
  · have hnot : ¬ (Fits claims.exp ∧ Fits claims.iat) := fun h ↦ he h.1
    rw [if_neg he, if_neg hnot]
    rfl

theorem textOrDefault_of_lookup {payload : Payload} {name value : String}
    (h : payload.lookup name = (skipEmpty name value).lookup name) :
    payload.textOrDefault name = some value := by
  rw [Payload.textOrDefault, h, skipEmpty]
  by_cases hvalue : value = ""
  · rw [if_pos hvalue, hvalue]
    rfl
  · rw [if_neg hvalue, List.lookup_cons_self]

/-- What is read of an agent's claims is the claims. -/
theorem readAgentClaims_payload (claims : AgentClaims) :
    readAgentClaims claims.payload =
      if Fits claims.exp ∧ Fits claims.iat then some claims else none := by
  have hexp : claims.payload.number "exp" = if Fits claims.exp then some claims.exp else none :=
    number_of_lookup rfl
  have hiat : claims.payload.number "iat" = if Fits claims.iat then some claims.iat else none :=
    number_of_lookup rfl
  have hsub : claims.payload.text "sub" = some claims.sub := rfl
  have hcluster : claims.payload.text "cluster_id" = some claims.clusterId := rfl
  have hiss : claims.payload.textOrDefault "iss" = some claims.iss := by
    apply textOrDefault_of_lookup
    rw [AgentClaims.payload, List.lookup_append, lookup_skipEmpty _ (by decide), Option.or_none]
    rfl
  have haud : claims.payload.textOrDefault "aud" = some claims.aud := by
    apply textOrDefault_of_lookup
    rw [AgentClaims.payload, List.append_assoc, List.lookup_append, List.lookup_append,
      lookup_skipEmpty _ (by decide)]
    rfl
  rw [readAgentClaims, hsub, hcluster, hexp, hiat, hiss, haud, Option.bind_some, Option.bind_some]
  by_cases he : Fits claims.exp
  · by_cases hi : Fits claims.iat
    · rw [if_pos he, if_pos hi, if_pos ⟨he, hi⟩]
      rfl
    · have hnot : ¬ (Fits claims.exp ∧ Fits claims.iat) := fun h ↦ hi h.2
      rw [if_pos he, if_neg hi, if_neg hnot]
      rfl
  · have hnot : ¬ (Fits claims.exp ∧ Fits claims.iat) := fun h ↦ he h.1
    rw [if_neg he, if_neg hnot]
    rfl

/-! ## Callers -/

section Callers

variable {jwt : JsonWebTokens} {validator : String → AgentClaims → Except Status Unit}
  {secret : List UInt8} {now : Int} {users : Claims → Prop} {agents : AgentClaims → Prop}

/-- Every token shown that decodes has the claims of a user or of an agent for whom one was
signed. -/
def SecretKept (jwt : JsonWebTokens) (secret : List UInt8) (users : Claims → Prop)
    (agents : AgentClaims → Prop) (shown : String → Prop) : Prop :=
  ∀ token now payload, shown token → jwt.decode secret now token = .ok payload →
    (∃ claims, users claims ∧ payload = claims.payload) ∨
      ∃ claims, agents claims ∧ payload = claims.payload

/-- A user for whom a token was signed that has not expired, but for a minute. -/
def IsUser (now : Int) (users : Claims → Prop) (caller : Caller) : Prop :=
  ∃ claims, caller = .user claims ∧ users claims ∧ now ≤ claims.exp + 60

/-- An agent for whom the token of the request was signed, that is stored and has not expired, but
for a minute. -/
def IsAgent (validator : String → AgentClaims → Except Status Unit) (now : Int)
    (agents : AgentClaims → Prop) (request : GrpcRequest) (caller : Caller) : Prop :=
  ∃ claims token, caller = .agent claims ∧ agents claims ∧ now ≤ claims.exp + 60 ∧
    isBlank claims.clusterId = false ∧ request.bearer = some token ∧ validator token claims = .ok ()

theorem validateToken_ok (hjwt : jwt.Lawful) {shown : String → Prop}
    (hkept : SecretKept jwt secret users agents shown) {token : String} {claims : Claims}
    (hshown : shown token) (h : validateToken jwt secret now token = .ok claims) :
    users claims ∧ now ≤ claims.exp + 60 := by
  rw [validateToken] at h
  split at h
  · cases h
  · next payload hdecode =>
    split at h
    · cases h
    · next claims' hread =>
      obtain rfl := Except.ok.inj h
      obtain ⟨exp, hexp, hnow⟩ := hjwt.expires _ _ _ _ hdecode
      rcases hkept token now payload hshown hdecode with ⟨signed, husers, rfl⟩ | ⟨signed, -, rfl⟩
      · rw [readClaims_payload] at hread
        obtain ⟨-, hsigned⟩ := Option.ite_none_right_eq_some.mp hread
        obtain rfl := Option.some.inj hsigned
        cases hexp
        exact ⟨husers, hnow⟩
      · rw [readClaims_agent] at hread
        cases hread

theorem verifyAgentToken_ok (hjwt : jwt.Lawful) {shown : String → Prop}
    (hkept : SecretKept jwt secret users agents shown) {token : String} {claims : AgentClaims}
    (hshown : shown token) (h : verifyAgentToken jwt secret now token = .ok claims) :
    agents claims ∧ now ≤ claims.exp + 60 ∧ isBlank claims.clusterId = false := by
  rw [verifyAgentToken] at h
  split at h
  · cases h
  · next payload hdecode =>
    split at h
    · cases h
    · next claims' hread =>
      obtain ⟨exp, hexp, hnow⟩ := hjwt.expires _ _ _ _ hdecode
      rcases hkept token now payload hshown hdecode with ⟨signed, -, rfl⟩ | ⟨signed, hagents, rfl⟩
      · rw [readAgentClaims_user] at hread
        cases hread
      · rw [readAgentClaims_payload] at hread
        obtain ⟨-, hsigned⟩ := Option.ite_none_right_eq_some.mp hread
        obtain rfl := Option.some.inj hsigned
        split at h
        · cases h
        · next hblank =>
          obtain rfl := Except.ok.inj h
          cases hexp
          exact ⟨hagents, hnow, Bool.eq_false_iff.mpr hblank⟩

theorem jwtInterceptor_ok (hjwt : jwt.Lawful) {shown : String → Prop}
    (hkept : SecretKept jwt secret users agents shown) {request : GrpcRequest} {caller : Caller}
    (hshown : ∀ token, request.bearer = some token → shown token)
    (hpath : request.path.any (publicPaths.contains ·) = false)
    (h : jwtInterceptor jwt secret now request = .ok caller) : IsUser now users caller := by
  rw [jwtInterceptor, hpath, if_neg Bool.false_ne_true] at h
  cases hbearer : request.bearer with
  | none =>
    rw [hbearer] at h
    cases h
  | some token =>
    rw [hbearer] at h
    cases hvalid : validateToken jwt secret now token with
    | error status =>
      simp only [hvalid] at h
      cases h
    | ok claims =>
      simp only [hvalid] at h
      obtain rfl := Except.ok.inj h
      obtain ⟨husers, hnow⟩ := validateToken_ok hjwt hkept (hshown token hbearer) hvalid
      exact ⟨claims, rfl, husers, hnow⟩

theorem agentJwtInterceptor_ok (hjwt : jwt.Lawful) {shown : String → Prop}
    (hkept : SecretKept jwt secret users agents shown) {request : GrpcRequest} {caller : Caller}
    (hshown : ∀ token, request.bearer = some token → shown token)
    (h : agentJwtInterceptor jwt validator secret now request = .ok caller) :
    IsAgent validator now agents request caller := by
  rw [agentJwtInterceptor] at h
  split at h
  · cases h
  · split at h
    · cases h
    · split at h
      · cases h
      · next token hbearer =>
        rw [validateAgentToken] at h
        cases hverified : verifyAgentToken jwt secret now token with
        | error e =>
          rw [hverified] at h
          cases h
        | ok claims =>
          cases hvalid : validator token claims with
          | error status =>
            simp only [hverified, hvalid] at h
            cases h
          | ok u =>
            simp only [hverified, hvalid] at h
            obtain rfl := Except.ok.inj h
            obtain ⟨hagents, hnow, hblank⟩ :=
              verifyAgentToken_ok hjwt hkept (hshown token hbearer) hverified
            exact ⟨claims, token, rfl, hagents, hnow, hblank, hbearer, hvalid⟩

/-- No path of a service that users call is public. -/
theorem not_public {service : GrpcService} {path : String} (hserves : service.serves path = true)
    (hservice : service = .build ∨ service = .log) :
    (some path).any (publicPaths.contains ·) = false := by
  have hapart : ∀ p ∈ publicPaths, GrpcService.build.serves p = false ∧
      GrpcService.log.serves p = false := by decide
  rw [Option.any_some, Bool.eq_false_iff]
  intro hpublic
  obtain ⟨hbuild, hlog⟩ := hapart path (List.contains_iff_mem.mp hpublic)
  rcases hservice with rfl | rfl
  · exact Bool.false_ne_true (hbuild ▸ hserves)
  · exact Bool.false_ne_true (hlog ▸ hserves)

/-- The bearer token of a request that carries one. -/
theorem bearer_of_token (path : Option String) (token : String) :
    GrpcRequest.bearer ⟨path, some ("Bearer " ++ token)⟩ = some token := by
  have hprefix : "Bearer ".toList.isPrefixOf? ("Bearer " ++ token).toList = some token.toList := by
    rw [String.toList_append]
    rfl
  rw [GrpcRequest.bearer, Option.bind_some, hprefix, Option.map_some, String.ofList_toList]

theorem jwtInterceptor_createToken (hjwt : jwt.Lawful) {claims : Claims} {path : String}
    (hpath : (some path).any (publicPaths.contains ·) = false) (hexp : Fits claims.exp)
    (hiat : Fits claims.iat) (hnow : now ≤ claims.exp) :
    jwtInterceptor jwt secret now ⟨some path, some ("Bearer " ++ createToken jwt secret claims)⟩ =
      .ok (.user claims) := by
  have hread : readClaims claims.payload = some claims := by
    rw [readClaims_payload, if_pos ⟨hexp, hiat⟩]
  have hnumber : claims.payload.number "exp" = some claims.exp := by
    have hlookup : claims.payload.lookup "exp" = some (.number claims.exp) := rfl
    rw [number_of_lookup hlookup, if_pos hexp]
  have hdecode := hjwt.decode_encode secret claims.payload claims.exp now hnumber rfl hnow
  rw [jwtInterceptor, hpath, if_neg Bool.false_ne_true, bearer_of_token, createToken]
  simp only [validateToken, hdecode, hread]
  rfl

theorem agentJwtInterceptor_createAgentToken (hjwt : jwt.Lawful) {claims : AgentClaims}
    {path : String} (hpath : isAgentPath path = true) (hexp : Fits claims.exp)
    (hiat : Fits claims.iat) (hnow : now ≤ claims.exp) (haud : claims.aud = "")
    (hblank : isBlank claims.clusterId = false)
    (hvalid : validator (createAgentToken jwt secret claims) claims = .ok ()) :
    agentJwtInterceptor jwt validator secret now
      ⟨some path, some ("Bearer " ++ createAgentToken jwt secret claims)⟩ =
        .ok (.agent claims) := by
  have hread : readAgentClaims claims.payload = some claims := by
    rw [readAgentClaims_payload, if_pos ⟨hexp, hiat⟩]
  have hnumber : claims.payload.number "exp" = some claims.exp := by
    have hlookup : claims.payload.lookup "exp" = some (.number claims.exp) := rfl
    rw [number_of_lookup hlookup, if_pos hexp]
  have hnone : claims.payload.lookup "aud" = none := by
    rw [AgentClaims.payload, haud, List.append_assoc, List.lookup_append, List.lookup_append,
      lookup_skipEmpty _ (by decide)]
    rfl
  have hdecode := hjwt.decode_encode secret claims.payload claims.exp now hnumber hnone hnow
  have hverified : verifyAgentToken jwt secret now (createAgentToken jwt secret claims) =
      .ok claims := by
    simp only [verifyAgentToken, createAgentToken, hdecode, hread]
    rw [hblank, if_neg Bool.false_ne_true]
  rw [agentJwtInterceptor]
  simp only [hpath, bearer_of_token, validateAgentToken, hverified, hvalid]
  rfl

/-! ## The whole server -/

/-- Who calls a service under a path. -/
def GrpcService.Expects (service : GrpcService)
    (validator : String → AgentClaims → Except Status Unit)
    (now : Int) (users : Claims → Prop) (agents : AgentClaims → Prop) (request : GrpcRequest)
    (caller : Caller) : Prop :=
  match service with
  | .health | .reflection => caller = .nobody
  | .build => IsUser now users caller
  | .log =>
    if request.path = some pushLogsPath then IsAgent validator now agents request caller
    else IsUser now users caller
  | .agent => IsAgent validator now agents request caller

/-- As long as the secret is kept, whatever tokens are shown: a request reaches the build service
and the reading of logs only with the token of a user, and the agent service and the pushing of logs
only with a stored token of an agent, and neither token is ever taken for the other. Up to its `exp`
a user's token opens the paths for users, and an agent's token, if stored, those for agents. -/
theorem grpc_callers (hjwt : jwt.Lawful) :
    (∀ (users : Claims → Prop) (agents : AgentClaims → Prop) (shown : String → Prop),
      SecretKept jwt secret users agents shown →
      ∀ (service : GrpcService) (path : String) (authorization : Option String) (caller : Caller),
        (∀ token, GrpcRequest.bearer ⟨some path, authorization⟩ = some token → shown token) →
        service.serves path = true →
        service.guard jwt validator secret now path authorization = .ok caller →
        service.Expects validator now users agents ⟨some path, authorization⟩ caller) ∧
    (∀ (claims : Claims) (service : GrpcService) (path : String),
      Fits claims.exp → Fits claims.iat → now ≤ claims.exp → service.serves path = true →
      service = .build ∨ service = .log ∧ path ≠ pushLogsPath →
        service.guard jwt validator secret now path
          (some ("Bearer " ++ createToken jwt secret claims)) = .ok (.user claims)) ∧
    ∀ (claims : AgentClaims) (service : GrpcService) (path : String),
      Fits claims.exp → Fits claims.iat → now ≤ claims.exp → claims.aud = "" →
      isBlank claims.clusterId = false →
      validator (createAgentToken jwt secret claims) claims = .ok () → service.serves path = true →
      service = .agent ∨ service = .log ∧ path = pushLogsPath →
        service.guard jwt validator secret now path
          (some ("Bearer " ++ createAgentToken jwt secret claims)) = .ok (.agent claims) := by
  refine ⟨?_, ?_, ?_⟩
  · intro users agents shown hkept service path authorization caller hshown hserves h
    cases service with
    | health => exact (Except.ok.inj h).symm
    | reflection => exact (Except.ok.inj h).symm
    | build => exact jwtInterceptor_ok hjwt hkept hshown (not_public hserves (.inl rfl)) h
    | agent => exact agentJwtInterceptor_ok hjwt hkept hshown h
    | log =>
      show if some path = some pushLogsPath then _ else _
      by_cases hpush : path = pushLogsPath
      · have hagent : agentJwtInterceptor jwt validator secret now ⟨some path, authorization⟩ =
            .ok caller := (if_pos hpush).symm.trans h
        rw [if_pos (congrArg some hpush)]
        exact agentJwtInterceptor_ok hjwt hkept hshown hagent
      · have huser : jwtInterceptor jwt secret now ⟨some path, authorization⟩ = .ok caller :=
          (if_neg hpush).symm.trans h
        rw [if_neg fun hsame ↦ hpush (Option.some.inj hsame)]
        exact jwtInterceptor_ok hjwt hkept hshown (not_public hserves (.inr rfl)) huser
  · rintro claims service path hexp hiat hnow hserves (rfl | ⟨rfl, hread⟩)
    · exact jwtInterceptor_createToken hjwt (not_public hserves (.inl rfl)) hexp hiat hnow
    · exact (if_neg hread).trans
        (jwtInterceptor_createToken hjwt (not_public hserves (.inr rfl)) hexp hiat hnow)
  · rintro claims service path hexp hiat hnow haud hblank hvalid hserves (rfl | ⟨rfl, rfl⟩)
    · have hpath : isAgentPath path = true := by
        rw [isAgentPath]
        split
        · rfl
        · exact Bool.or_eq_true_iff.mpr (.inl hserves)
      exact agentJwtInterceptor_createAgentToken hjwt hpath hexp hiat hnow haud hblank hvalid
    · have hpath : isAgentPath pushLogsPath = true := if_pos rfl
      simp only [GrpcService.guard, logServiceJwtInterceptor, if_true]
      exact agentJwtInterceptor_createAgentToken hjwt hpath hexp hiat hnow haud hblank hvalid

end Callers

/-! ## A user's token -/

/-- Claims of a user of the module's tests. -/
def alice : Claims := ⟨"00000000-0000-0000-0000-000000000000", "alice", 3600, 0⟩

/-- Their token under `test-secret-key-for-grpc-jwt`. -/
def aliceToken : String :=
  "eyJ0eXAiOiJKV1QiLCJhbGciOiJIUzI1NiJ9." ++
    "eyJzdWIiOiIwMDAwMDAwMC0wMDAwLTAwMDAtMDAwMC0wMDAwMDAwMDAwMDAiLCJ1c2VybmFtZSI6ImFs" ++
    "aWNlIiwiZXhwIjozNjAwLCJpYXQiOjB9." ++
    "OawDSk2V1fG0bn041_jjiXCYOmYQM2Tlcev6I_b1Wng"

/-- A claim as a value. -/
def ClaimValue.toToml : ClaimValue → Toml
  | .text value => .string value
  | .number value => .integer value

/-- Claims as a value. -/
def claimsValue (payload : Payload) : Toml := .table (payload.map (Prod.map id ClaimValue.toToml))

theorem claimsValue_injective : Function.Injective claimsValue := by
  have hvalue : Function.Injective ClaimValue.toToml := by
    intro a b h
    cases a <;> cases b <;> cases h <;> rfl
  intro a b h
  exact List.map_injective_iff.mpr (Function.injective_id.prodMap hvalue) (Toml.table.inj h)

/-- That token, and a code of all other claims. -/
def aliceEncode (payload : Payload) : String :=
  if payload = alice.payload then aliceToken else String.ofList (claimsValue payload).code

theorem aliceEncode_injective : Function.Injective aliceEncode := by
  have hapart (payload : Payload) : aliceToken ≠ String.ofList (claimsValue payload).code := by
    intro htoken
    have hhead := congrArg (fun s : String ↦ s.toList.head?) htoken
    rw [String.toList_ofList] at hhead
    have hfirst : aliceToken.toList.head? = some 'e' := by decide +kernel
    have hcode : (claimsValue payload).code.head? = some 't' := rfl
    rw [hfirst, hcode] at hhead
    exact absurd (Option.some.inj hhead) (by decide)
  intro a b h
  unfold aliceEncode at h
  split at h
  · next ha =>
    split at h
    · next hb => rw [ha, hb]
    · exact absurd h (hapart b)
  · split at h
    · exact absurd h.symm (hapart a)
    · exact claimsValue_injective (Toml.ofList_code_injective h)

open Classical in
/-- Tokens that are read back. -/
noncomputable def aliceTokens : JsonWebTokens where
  encode _ := aliceEncode
  decode _ now token :=
    if hencoded : ∃ payload, aliceEncode payload = token then
      match hencoded.choose.lookup "exp" with
      | some (.number exp) =>
        if now ≤ exp + 60 then .ok hencoded.choose else .error "ExpiredSignature"
      | _ => .error "Missing required claim: exp"
    else .error "InvalidToken"
  lacking _ := "missing field"

theorem aliceTokens_decode {secret : List UInt8} {now : Int} {token : String} {payload : Payload}
    (h : aliceTokens.decode secret now token = .ok payload) :
    aliceEncode payload = token ∧
      ∃ exp, payload.lookup "exp" = some (.number exp) ∧ now ≤ exp + 60 := by
  simp only [aliceTokens] at h
  split at h
  · next hencoded =>
    split at h
    · next exp hexp =>
      split at h
      · next hnow =>
        obtain rfl := Except.ok.inj h
        exact ⟨hencoded.choose_spec, exp, hexp, hnow⟩
      · cases h
    · cases h
  · cases h

theorem aliceTokens_lawful : aliceTokens.Lawful where
  decode_encode secret payload exp now hexp _ hnow := by
    have hencoded : ∃ other, aliceEncode other = aliceEncode payload := ⟨payload, rfl⟩
    have hchosen : hencoded.choose = payload := aliceEncode_injective hencoded.choose_spec
    have hlookup : payload.lookup "exp" = some (.number exp) := by
      rw [Payload.number] at hexp
      split at hexp
      · next value hvalue =>
        obtain ⟨-, hsame⟩ := Option.ite_none_right_eq_some.mp hexp
        rw [hvalue, Option.some.inj hsame]
      · cases hexp
    simp only [aliceTokens, dif_pos hencoded, hchosen, hlookup]
    rw [if_pos (by omega)]
  expires secret now token payload h := (aliceTokens_decode h).2

/-- Her token starts a build, and no other caller does. -/
theorem grpc_callers_alice :
    GrpcService.build.guard aliceTokens (fun _ _ ↦ .ok ()) [] 3600
        "/reinhardt.cloud.build.BuildService/StartBuild" (some ("Bearer " ++ aliceToken)) =
      .ok (.user alice) ∧
    ∀ caller, GrpcService.build.guard aliceTokens (fun _ _ ↦ .ok ()) [] 3600
        "/reinhardt.cloud.build.BuildService/StartBuild" (some ("Bearer " ++ aliceToken)) =
      .ok caller → IsUser 3600 (· = alice) caller := by
  obtain ⟨hcallers, husers, -⟩ := @grpc_callers aliceTokens (fun _ _ ↦ .ok ()) [] 3600
    aliceTokens_lawful
  have hserves : GrpcService.build.serves "/reinhardt.cloud.build.BuildService/StartBuild" =
      true := by decide
  refine ⟨husers alice .build _ (by decide) (by decide) (by decide) hserves (.inl rfl), ?_⟩
  intro caller hcaller
  have hbearer := bearer_of_token (some "/reinhardt.cloud.build.BuildService/StartBuild") aliceToken
  refine hcallers (· = alice) (fun _ ↦ False) (· = aliceToken) ?_ .build _ _ caller ?_ hserves
    hcaller
  · rintro token now payload rfl hdecode
    have hencoded : aliceEncode payload = aliceEncode alice.payload :=
      (aliceTokens_decode hdecode).1
    exact .inl ⟨alice, rfl, aliceEncode_injective hencoded⟩
  · intro token htoken
    exact Option.some.inj (htoken.symm.trans hbearer)

end ReinhardtCloud.Dashboard.GrpcServer
