import PolicyModelRouter.AnnotatedPrograms
import PolicyModelRouter.HandlerRuns

/-!
# Requests with their counters and log lines

The route endpoint with everything it counts and logs on its way. Without these notes it is
the endpoint itself, and what a request leaves in the counters is settled by its response.
-/

namespace PolicyModelRouter.ObservedRequests
open AnnotatedPrograms AuthorizationContract AuthorizationVerifier AwaitingPrograms
open GovernedVocabularies OrderedChecks PythonText RouteEndpoint RouteRuns RouterCalls RuntimeControl
open TrustedKeys ViolationContract ViolationEvidence
open RoutingCatalog hiding RejectedCandidate
open WireContracts hiding RejectedCandidate

inductive AuthorizationOutcome where
  | verified
  | legacyDev
  | denied
  deriving DecidableEq

inductive RejectionOutcome where
  | noViableModelGroup
  | misconfiguredPolicy
  deriving DecidableEq

/-- A line of the log about one decision, violation or reload, without its durations and
without the text of an exception. -/
inductive LogLine where
  | accepted (routingDecisionId workload modelGroup policyId policyVersion policyDigest : String)
  | rejected (routingDecisionId workload modelGroup : String) (reasonCode : ReasonCode)
      (policyId policyVersion policyDigest : String)
  | undeclared (workload : String)
  | violation (violationEventId : String) (violationCategory : RuntimeViolationCategory)
      (reasonCode correlationId : String) (authorizationState : RuntimeViolationAuthorizationState)
      (authorizationId selectedModelGroup : Option String) (violationDigest : String)
  | reloaded (policyId policyVersion policyDigest : String)
  | reloadFailed (retainedPolicyDigest : String)
  deriving DecidableEq

/-- One increment of a labelled counter, one observed duration, or one line of the log. -/
inductive Observation where
  | rateLimitDecision (tier : Tier) (allowed : Bool)
  | runtimeAuthorization (outcome : AuthorizationOutcome)
  | routeDecision (workload modelGroup : String)
  | routeRejection (workload : String) (outcome : RejectionOutcome)
  | routeDuration (workload : String)
  | runtimeViolation (category : RuntimeViolationCategory) (code : String)
  | policyReload (succeeded : Bool)
  | log (line : LogLine)
  deriving DecidableEq

abbrev Observed (α : Type) := Recording Call Reply Observation PyException α

abbrev ObservedHandler (α : Type) :=
  Recording Call Reply Observation (PyException × RequestState) α

/-- The label of every workload the active policy does not declare. -/
def undeclaredWorkloadLabel : String := "undeclared"

def declaresWorkload (useCase : RouteModelUseCase) (workload : WorkloadId) : Bool :=
  decide (workload ∈ useCase.policy.workloads)

def workloadLabel (useCase : RouteModelUseCase) (workload : WorkloadId) : String :=
  if declaresWorkload useCase workload then workload.value else undeclaredWorkloadLabel

def acceptedLine (workload : WorkloadId) (decision : RouteDecision) : LogLine :=
  .accepted decision.routingDecisionId workload.value decision.selectedModelGroup.value
    decision.policyId decision.policyVersion decision.policyDigest

def rejectedLine (workload : WorkloadId) (decision : RejectedDecision) : LogLine :=
  .rejected decision.routingDecisionId workload.value decision.rejectedModelGroup.value
    decision.reasonCode decision.policyId decision.policyVersion decision.policyDigest

section Violations

variable [Cryptography]

def violationLine (violation : RuntimeViolationEnvelope) : LogLine :=
  .violation violation.event.eventId.str violation.event.category violation.event.code
    violation.event.correlationId violation.event.authorization.state
    (violation.event.authorization.authorizationId.map Uuids.UUID.str)
    (violation.event.selectedModelGroup.map Subtype.val) violation.eventDigest

def violationNotes (violation : RuntimeViolationEnvelope) : List Observation :=
  [.runtimeViolation violation.event.category violation.event.code, .log (violationLine violation)]

end Violations

/-- The check of the authorization is counted where it passes, or where none is required. -/
def concludeAuthorization {α : Type} : Except PyException (Option α) → List Observation
  | .ok (some _) => [.runtimeAuthorization .verified]
  | .ok none => [.runtimeAuthorization .legacyDev]
  | .error _ => []

/-- Both rejections are counted and logged before they go on; the duration is observed in
every case. -/
def concludeRouting (label : String) (workload : WorkloadId) :
    Except PyException RouteDecision → List Observation
  | .error (.noViableModelGroup decision) =>
    [.routeRejection label .noViableModelGroup, .log (rejectedLine workload decision),
      .routeDuration label]
  | .error (.incompleteRoutingPolicy _) =>
    [.routeRejection label .misconfiguredPolicy, .log (.undeclared workload.value),
      .routeDuration label]
  | _ => [.routeDuration label]

section Endpoint

variable [UnicodeTables] [Cryptography] [JsonDecoder]

def observedAdmitRequest (app : Application) (scope : RouteScope) (envelope : RouteRequestEnvelope) :
    Observed (Option (RuntimeAuthorizationVerifier × VerifiedRuntimeAuthorization)) := do
  let agentName := envelope.request.agentName.val
  let key := rateLimitKey scope agentName
  let agentAllowed : Bool ← unrecorded (ask (.allow .perAgent key))
  takeNote (.rateLimitDecision .perAgent agentAllowed)
  compute (raiseIf (agentAllowed = false)
    (.rateLimitExceeded ("rate limit exceeded for " ++ reprText key)))
  compute (authenticate (scope.header "x-api-key") agentName app.apiKeys)
  concluding concludeAuthorization
    (unrecorded (authorize app envelope.authorization (toDomainRequest envelope.request)))

def observedRoute (app : Application) (scope : RouteScope) (useCase : RouteModelUseCase)
    (envelope : RouteRequestEnvelope) (correlationId : String) :
    ObservedHandler ModelRouteDecision := do
  let verified ← mapError (fun e => (e, initialState envelope correlationId))
    (observedAdmitRequest app scope envelope)
  let label := workloadLabel useCase envelope.request.workload
  let decision ← mapError (fun e => (e, verifiedState envelope correlationId verified))
    (concluding (concludeRouting label envelope.request.workload)
      (unrecorded (ModelRouting.route useCase (toDomainRequest envelope.request)
        envelope.request.includeRejectedCandidates)))
  let state := selectedState envelope correlationId verified decision.selectedModelGroup
  mapError (fun e => (e, state)) (compute (requireScope verified decision.selectedModelGroup))
  takeNote (.routeDecision label decision.selectedModelGroup.value)
  takeNote (.log (acceptedLine envelope.request.workload decision))
  mapError (fun e => (e, state)) (compute (fromDomainDecision decision))

/-- A denial is counted before its evidence is built, the evidence once it is. -/
def observedHandleRuntimeAuthorizationError (app : Application) (state : RequestState)
    (error : RuntimeAuthorizationError) : Observed Response := do
  takeNote (.runtimeAuthorization .denied)
  let violation ← concluding (fun
      | .ok violation => violationNotes violation
      | .error _ => [])
    (unrecorded (buildRuntimeViolation error.code state.routeRequest state.authorization
      (state.authorizationVerified || error.authorizationVerified) state.correlationId
      app.serviceVersion app.environment state.selectedModelGroup))
  pure (.violation error.code violation)

def observedHandleException (app : Application) : PyException × RequestState → Observed Response
  | (.runtimeAuthorization error, state) => observedHandleRuntimeAuthorizationError app state error
  | failure => unrecorded (handleException app failure)

def observedRespond (app : Application) (handler : ObservedHandler ModelRouteDecision) :
    Observed Response :=
  recover (observedHandleException app) do
    let decision ← handler
    pure (.decision decision)

variable [BodyParser]

def observedFramework (app : Application) (scope : RouteScope) (correlationId : String) :
    Option Bytes → Observed Response
  | none => pure .unparsableBody
  | some body =>
    match BodyParser.parse scope.headers body with
    | .undecodable => pure validationError
    | .unparsable => pure .unparsableBody
    | .invalid => do
      let _ ← unrecorded (ask .activeUseCase)
      pure validationError
    | .timestampOverflow => do
      let _ ← unrecorded (ask .activeUseCase)
      throw .overflow
    | .admitted envelope => do
      let useCase ← unrecorded (ask .activeUseCase)
      observedRespond app (observedRoute app scope useCase envelope correlationId)

omit [UnicodeTables] [JsonDecoder] [BodyParser] in
def observedBodySizeAndIpRateLimit (app : Application) (scope : RouteScope)
    (downstream : Option Bytes → Observed Response) : Observed Response := do
  let ipAllowed : Bool ← unrecorded (ask (.allow .perIp ("ip:" ++ clientHost scope)))
  takeNote (.rateLimitDecision .perIp ipAllowed)
  match ipAllowed with
  | false => pure tooManyRequests
  | true =>
    match declaredBodySizeError scope.headers app.maxRequestBodyBytes with
    | some response => pure response
    | none =>
      match ← unrecorded (admitBody app.maxRequestBodyBytes scope.patience []) with
      | .tooLarge => pure (bodyTooLarge app.maxRequestBodyBytes)
      | .disconnected => downstream none
      | .complete body => downstream (some body)

def observedServe (app : Application) (scope : RouteScope) : Observed Response := do
  let correlationId ← unrecorded (bindCorrelationId scope)
  observedBodySizeAndIpRateLimit app scope (observedFramework app scope correlationId)

def observedPostRoute (app : Application) (scope : RouteScope) :
    Async (Annotated Call Observation) (Answer Observation Reply) Response :=
  (observedServe app scope).run >>= fun result => .done (ending result)

variable {app : Application} {scope : RouteScope}

omit [BodyParser] in
private theorem forget_observedAdmitRequest (envelope : RouteRequestEnvelope) :
    forget (observedAdmitRequest app scope envelope) = admitRequest app scope envelope := by
  simp only [observedAdmitRequest, forget_bind, forget_unrecorded, forget_compute, forget_concluding]
  rfl

omit [BodyParser] in
theorem forget_observedRoute (useCase : RouteModelUseCase) (envelope : RouteRequestEnvelope)
    (correlationId : String) : forget (observedRoute app scope useCase envelope correlationId) =
      route app scope useCase envelope correlationId := by
  simp only [observedRoute, forget_bind, forget_mapError, forget_observedAdmitRequest,
    forget_concluding, forget_unrecorded, forget_compute]
  rfl

omit [UnicodeTables] [JsonDecoder] [BodyParser] in
private theorem forget_observedHandleRuntimeAuthorizationError [UnicodeTables] (state : RequestState)
    (error : RuntimeAuthorizationError) :
    forget (observedHandleRuntimeAuthorizationError app state error) =
      handleRuntimeAuthorizationError app state error := by
  simp only [observedHandleRuntimeAuthorizationError, forget_bind, forget_concluding,
    forget_unrecorded, forget_pure]
  rfl

omit [JsonDecoder] [BodyParser] in
theorem forget_observedHandleException (failure : PyException × RequestState) :
    forget (observedHandleException app failure) = handleException app failure := by
  obtain ⟨e, state⟩ := failure
  cases e with
  | runtimeAuthorization error => exact forget_observedHandleRuntimeAuthorizationError state error
  | _ => exact forget_unrecorded _

omit [JsonDecoder] [BodyParser] in
private theorem forget_observedRespond (handler : ObservedHandler ModelRouteDecision) :
    forget (observedRespond app handler) = respond app (forget handler) := by
  simp only [observedRespond, forget_recover, forget_observedHandleException, forget_bind, forget_pure]
  rfl

private theorem forget_observedFramework (correlationId : String) (body : Option Bytes) :
    forget (observedFramework app scope correlationId body) =
      framework app scope correlationId body := by
  cases body with
  | none => rfl
  | some body =>
    cases hparse : BodyParser.parse scope.headers body with
    | undecodable => simp only [observedFramework, framework, hparse, forget_pure]
    | unparsable => simp only [observedFramework, framework, hparse, forget_pure]
    | invalid =>
      simp only [observedFramework, framework, hparse, forget_bind, forget_unrecorded, forget_pure]
    | timestampOverflow =>
      simp only [observedFramework, framework, hparse, forget_bind, forget_unrecorded, forget_throw]
    | admitted envelope =>
      simp only [observedFramework, framework, hparse, forget_bind, forget_unrecorded,
        forget_observedRespond]
      exact congrArg _ (funext fun useCase =>
        congrArg (respond app) (forget_observedRoute useCase envelope correlationId))

omit [UnicodeTables] [JsonDecoder] [BodyParser] in
private theorem forget_observedBodySizeAndIpRateLimit (downstream : Option Bytes → Observed Response) :
    forget (observedBodySizeAndIpRateLimit app scope downstream) =
      bodySizeAndIpRateLimit app scope fun body => forget (downstream body) := by
  simp only [observedBodySizeAndIpRateLimit, forget_bind, forget_takeNote_bind]
  refine congrArg _ (funext fun ipAllowed => ?_)
  cases ipAllowed with
  | false => rfl
  | true =>
    dsimp only
    cases declaredBodySizeError scope.headers app.maxRequestBodyBytes with
    | some response => rfl
    | none =>
      dsimp only
      rw [forget_bind, forget_unrecorded]
      refine congrArg _ (funext fun admission => ?_)
      cases admission <;> rfl

/-- Without its notes the observed endpoint is the endpoint: recording changes neither what a
request awaits nor what it is answered. -/
theorem erase_observedPostRoute : erase (observedPostRoute app scope) = postRoute app scope := by
  have hserve : forget (observedServe app scope) = serve app scope := by
    simp only [observedServe, forget_bind, forget_unrecorded, forget_observedBodySizeAndIpRateLimit,
      forget_observedFramework]
    rfl
  rw [observedPostRoute, erase_bind]
  exact congrArg (fun x : Coroutine Response => x.run >>= fun result => .done (ending result)) hserve

end Endpoint

end PolicyModelRouter.ObservedRequests
