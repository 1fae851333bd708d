import PolicyModelRouter.AuthorizationVerifier
import PolicyModelRouter.ModelRouting
import PolicyModelRouter.ViolationEvidence
import PolicyModelRouter.WireContracts

/-!
# The route endpoint

One `POST /route` from the outermost middleware in: the correlation identifier, the
limit per address, the admission of the body, the handler with its fixed order of
checks, and the response every exception is mapped to.
-/

namespace PolicyModelRouter.RouteEndpoint
open AuthorizationContract AuthorizationVerifier AwaitingPrograms GovernedVocabularies ModelRouting
open OrderedChecks PythonText RouterCalls RoutingCatalog RuntimeControl TrustedKeys Uuids
open ViolationContract ViolationEvidence WireContracts

abbrev Bytes := List UInt8

def ascii (s : String) : Bytes := s.toList.map fun c => c.toNat.toUInt8

/-- What the server knows about one `POST /route`. Header names arrive in lower case; the
server gives the body up after a number of messages. -/
structure RouteScope where
  headers : List (Bytes × Bytes)
  clientHost : Option String
  patience : ℕ

def latin1 (value : Bytes) : String := String.ofList (value.map fun b => Char.ofNat b.toNat)

def RouteScope.header (scope : RouteScope) (name : String) : Option String :=
  (scope.headers.find? fun field => field.1 = ascii name).map fun field => latin1 field.2

/-- What the framework makes of a complete body. Converting a timestamp of the signed claims to
UTC can leave the calendar, and that is no validation error. -/
inductive ParsedBody where
  | undecodable
  | unparsable
  | invalid
  | timestampOverflow
  | admitted (envelope : RouteRequestEnvelope)

/-- The framework decodes the body and validates it against the union of both schemas. -/
class BodyParser where
  parse : List (Bytes × Bytes) → Bytes → ParsedBody

/-- The application state after startup. The active use case is not part of it, because a
reload replaces it. -/
structure Application where
  apiKeys : AList fun _ : String => String
  maxRequestBodyBytes : ℕ
  runtimeAuthorizationRequired : Bool
  runtimeAuthorizationVerifier : Option RuntimeAuthorizationVerifier
  serviceVersion : EvidenceIdentifier
  environment : EvidenceIdentifier

/-- What the handler leaves for the exception handlers. -/
structure RequestState where
  correlationId : String
  routeRequest : RouteRequest
  authorization : Option SignedRuntimeAuthorization
  authorizationVerified : Bool
  selectedModelGroup : Option String

inductive Response [Cryptography] where
  | decision (decision : ModelRouteDecision)
  | error (statusCode : ℕ) (code message : String)
  | rejection (message : String) (decision : RouteRejection)
  | violation (code : DenialCode) (envelope : RuntimeViolationEnvelope)
  | unparsableBody
  | internalServerError
  | aborted

def maxCorrelationIdLength : ℕ := 200

def bindCorrelationId (scope : RouteScope) : Coroutine String :=
  match (scope.header "x-correlation-id").filter
      fun raw => raw ≠ "" ∧ raw.length ≤ maxCorrelationIdLength with
  | some raw => pure raw
  | none => do
    let id ← ask .uuid4
    pure id.str

def lowerAscii (b : UInt8) : UInt8 := if 65 ≤ b ∧ b ≤ 90 then b + 32 else b

def isBlank (b : UInt8) : Bool := b = 32 || b = 9

/-- The one Content-Length field, without the blanks around its value; a second field is
an error. -/
def contentLength : List (Bytes × Bytes) → Option Bytes → Option (Option Bytes)
  | [], found => some found
  | (name, value) :: rest, found =>
    if name.map lowerAscii = ascii "content-length" then
      match found with
      | some _ => none
      | none => contentLength rest (some ((value.dropWhile isBlank).rdropWhile isBlank))
    else contentLength rest found

def isAsciiDigit (b : UInt8) : Bool := 48 ≤ b && b ≤ 57

section Responses

variable [Cryptography]

def bodyTooLarge (maxBodyBytes : ℕ) : Response :=
  .error 413 "payload_too_large"
    ("request body exceeds the " ++ decimalText maxBodyBytes ++ "-byte limit")

def invalidContentLength : Response := .error 400 "invalid_request" "invalid Content-Length header"

/-- The declared length is compared as text, without converting it. The cap is a setting, itself
read from text short enough to convert back. -/
def declaredBodySizeError (headers : List (Bytes × Bytes)) (maxBodyBytes : ℕ) : Option Response :=
  match contentLength headers none with
  | none => some invalidContentLength
  | some none => none
  | some (some value) =>
    if value ≠ [] ∧ value.all isAsciiDigit then
      let stripped := value.dropWhile (· = 48)
      let normalized := if stripped = [] then [48] else stripped
      let cap := ascii (decimalText maxBodyBytes)
      if cap.length < normalized.length ∨ (normalized.length = cap.length ∧ cap < normalized) then
        some (bodyTooLarge maxBodyBytes)
      else none
    else some invalidContentLength

inductive Admission where
  | complete (body : Bytes)
  | disconnected
  | tooLarge

/-- The loop that reads the body, bounded by the cap in every round. -/
def admitBody (maxBodyBytes : ℕ) : ℕ → Bytes → Coroutine Admission
  | 0, _ => throw .cancelled
  | patience + 1, body => do
    match ← ask .receive with
    | .disconnect => pure .disconnected
    | .other => throw (.runtime "unexpected ASGI event during request body admission")
    | .request chunk moreBody =>
      if maxBodyBytes - body.length < chunk.length then pure .tooLarge
      else if moreBody then admitBody maxBodyBytes patience (body ++ chunk)
      else pure (.complete (body ++ chunk))

def clientHost (scope : RouteScope) : String := scope.clientHost.getD "unknown"

def tooManyRequests : Response :=
  .error 429 "rate_limit_exceeded" "too many requests, try again later"

/-- The limit per address and the cap on the body, in front of the framework. -/
def bodySizeAndIpRateLimit (app : Application) (scope : RouteScope)
    (downstream : Option Bytes → Coroutine Response) : Coroutine Response := do
  let ipAllowed ← ask (.allow .perIp ("ip:" ++ clientHost scope))
  match ipAllowed with
  | false => pure tooManyRequests
  | true =>
    match declaredBodySizeError scope.headers app.maxRequestBodyBytes with
    | some response => pure response
    | none =>
      match ← admitBody app.maxRequestBodyBytes scope.patience [] with
      | .tooLarge => pure (bodyTooLarge app.maxRequestBodyBytes)
      | .disconnected => downstream none
      | .complete body => downstream (some body)

end Responses

variable [UnicodeTables]

def isAsciiText (s : String) : Bool := s.toList.all fun c => c.toNat < 128

/-- The comparison in constant time refuses text outside ASCII. -/
def authenticate (xApiKey : Option String) (agentName : String)
    (apiKeys : AList fun _ : String => String) : Except PyException Unit :=
  let refused := PyException.authentication
    ("missing or invalid API key for agent " ++ reprText agentName)
  match apiKeys.lookup agentName, xApiKey with
  | some configured, some presented =>
    if isAsciiText presented && isAsciiText configured then raiseIf (presented ≠ configured) refused
    else .error .typeError
  | _, _ => .error refused

def rateLimitKey (scope : RouteScope) (agentName : String) : String :=
  clientHost scope ++ ":" ++ agentName

variable [Cryptography] [JsonDecoder]

/-- The signed scope of the request, in a deployment that requires one. -/
def authorize (app : Application) (authorization : Option SignedRuntimeAuthorization)
    (request : RouteRequest) :
    Coroutine (Option (RuntimeAuthorizationVerifier × VerifiedRuntimeAuthorization)) :=
  match app.runtimeAuthorizationRequired, authorization with
  | true, none => throw (denial .runtimeAuthorizationRequired
      "Signed Governance runtime authorization is required")
  | true, some envelope =>
    match app.runtimeAuthorizationVerifier with
    | none => throw (denial .runtimeAuthorizationUnavailable
        "Runtime authorization verifier is unavailable")
    | some verifier => do
      let now ← ask .utcNow
      let verified ← verifier.verify envelope request (.utc now)
      pure (some (verifier, verified))
  | false, some _ => throw (denial .runtimeAuthorizationNotConfigured
      "Runtime authorization is disabled for this deployment")
  | false, none => pure none

abbrev Handler (α : Type) := Fallible Call Reply (PyException × RequestState) α

def raising (state : RequestState) {α : Type} (x : Coroutine α) : Handler α :=
  mapError (fun e => (e, state)) x

def admitRequest (app : Application) (scope : RouteScope) (envelope : RouteRequestEnvelope) :
    Coroutine (Option (RuntimeAuthorizationVerifier × VerifiedRuntimeAuthorization)) := do
  let agentName := envelope.request.agentName.val
  let key := rateLimitKey scope agentName
  let agentAllowed : Bool ← ask (.allow .perAgent key)
  compute (raiseIf (agentAllowed = false)
    (.rateLimitExceeded ("rate limit exceeded for " ++ reprText key)))
  compute (authenticate (scope.header "x-api-key") agentName app.apiKeys)
  authorize app envelope.authorization (toDomainRequest envelope.request)

def initialState (envelope : RouteRequestEnvelope) (correlationId : String) : RequestState :=
  { correlationId := correlationId
    routeRequest := toDomainRequest envelope.request
    authorization := envelope.authorization
    authorizationVerified := false
    selectedModelGroup := none }

/-- The state once verification is over. -/
def verifiedState (envelope : RouteRequestEnvelope) (correlationId : String)
    (verified : Option (RuntimeAuthorizationVerifier × VerifiedRuntimeAuthorization)) :
    RequestState :=
  { initialState envelope correlationId with authorizationVerified := verified.isSome }

/-- The selected group is kept for the evidence only where there is a scope to check. -/
def selectedState (envelope : RouteRequestEnvelope) (correlationId : String)
    (verified : Option (RuntimeAuthorizationVerifier × VerifiedRuntimeAuthorization))
    (selectedModelGroup : ModelGroupId) : RequestState :=
  { verifiedState envelope correlationId verified with
    selectedModelGroup := verified.map fun _ => selectedModelGroup.value }

/-- The check of the signed scope after routing. -/
def requireScope
    (verified : Option (RuntimeAuthorizationVerifier × VerifiedRuntimeAuthorization))
    (selectedModelGroup : ModelGroupId) : Except PyException Unit :=
  match verified with
  | none => .ok ()
  | some (_, verified) =>
    RuntimeAuthorizationVerifier.requireSelectedModel verified selectedModelGroup

def route (app : Application) (scope : RouteScope) (useCase : RouteModelUseCase)
    (envelope : RouteRequestEnvelope) (correlationId : String) : Handler ModelRouteDecision := do
  let verified ← raising (initialState envelope correlationId) (admitRequest app scope envelope)
  let decision ← raising (verifiedState envelope correlationId verified)
    (ModelRouting.route useCase (toDomainRequest envelope.request)
      envelope.request.includeRejectedCandidates)
  raising (selectedState envelope correlationId verified decision.selectedModelGroup)
    (compute (requireScope verified decision.selectedModelGroup))
  raising (selectedState envelope correlationId verified decision.selectedModelGroup)
    (compute (fromDomainDecision decision))

def noViableMessage (decision : RejectedDecision) : String :=
  "no viable model group for workload " ++ reprText decision.workload.value ++ ": mapped group " ++
    reprText decision.rejectedModelGroup.value ++ " rejected (" ++ decision.reason ++ ")"

/-- The response of a denial: the evidence under the same code. -/
def handleRuntimeAuthorizationError (app : Application) (state : RequestState)
    (error : RuntimeAuthorizationError) : Coroutine Response := do
  let violation ← buildRuntimeViolation error.code state.routeRequest state.authorization
    (state.authorizationVerified || error.authorizationVerified) state.correlationId
    app.serviceVersion app.environment state.selectedModelGroup
  pure (.violation error.code violation)

/-- The registered exception handlers; what none of them takes goes on. -/
def handleException (app : Application) : PyException × RequestState → Coroutine Response
  | (.noViableModelGroup decision, _) => do
    let rejection ← compute (fromDomainRejection decision)
    pure (.rejection (noViableMessage decision) rejection)
  | (.incompleteRoutingPolicy _, _) =>
    pure (.error 500 "misconfigured_routing_policy" "the routing policy is misconfigured")
  | (.authentication _, _) => pure (.error 401 "unauthorized" "missing or invalid API key")
  | (.rateLimitExceeded _, _) => pure tooManyRequests
  | (.runtimeAuthorization error, state) => handleRuntimeAuthorizationError app state error
  | (e, _) => throw e

def validationError : Response :=
  .error 422 "invalid_request" "the request body does not match the expected schema"

/-- A published decision, or what the exception handlers make of an exception. -/
def respond (app : Application) (handler : Handler ModelRouteDecision) : Coroutine Response :=
  recover (handleException app) do
    let decision ← handler
    pure (.decision decision)

variable [BodyParser]

/-- The framework: decode the body, resolve the use case, validate, and call the handler. -/
def framework (app : Application) (scope : RouteScope) (correlationId : String) :
    Option Bytes → Coroutine Response
  | none => pure .unparsableBody
  | some body =>
    match BodyParser.parse scope.headers body with
    | .undecodable => pure validationError
    | .unparsable => pure .unparsableBody
    | .invalid => do
      let _ ← ask .activeUseCase
      pure validationError
    | .timestampOverflow => do
      let _ ← ask .activeUseCase
      throw .overflow
    | .admitted envelope => do
      let useCase ← ask .activeUseCase
      respond app (route app scope useCase envelope correlationId)

/-- One request below the outermost error handler. -/
def serve (app : Application) (scope : RouteScope) : Coroutine Response := do
  let correlationId ← bindCorrelationId scope
  bodySizeAndIpRateLimit app scope (framework app scope correlationId)

/-- What escapes every handler is an internal error; a request given up has no response. -/
def ending : Except PyException Response → Response
  | .ok response => response
  | .error .cancelled => .aborted
  | .error _ => .internalServerError

def postRoute (app : Application) (scope : RouteScope) : Async Call Reply Response :=
  (serve app scope).run >>= fun result => .done (ending result)

end PolicyModelRouter.RouteEndpoint
