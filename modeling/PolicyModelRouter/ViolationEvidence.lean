import PolicyModelRouter.ViolationContract

/-! # How the evidence of a denial is built -/

namespace PolicyModelRouter.ViolationEvidence
open AuthorizationContract AwaitingPrograms DigitStrings PythonText RouterCalls RoutingCatalog
open UtcTimestamps Uuids ViolationContract

def replayCodes : List DenialCode := [.replayDetected, .replayStoreFull, .replayStoreUnavailable]

def requestBindingCodes : List DenialCode :=
  [.requestCostPrecisionUnsupported, .requestBindingMismatch, .agentBindingMismatch]

def provenanceCodes : List DenialCode := [.governancePolicyMismatch]

def modelScopeCodes : List DenialCode :=
  [.selectedModelGroupNotAuthorized, .selectedModelDataClassNotAuthorized]

def violationCategory (code : DenialCode) : RuntimeViolationCategory :=
  if code ∈ replayCodes then .replay
  else if code ∈ requestBindingCodes then .requestBinding
  else if code ∈ provenanceCodes then .governanceProvenance
  else if code ∈ modelScopeCodes then .modelScope
  else .authorization

section Building

variable [Cryptography]

/-- Structural identifiers only. -/
def authorizationContext (authorization : Option SignedRuntimeAuthorization) (verified : Bool) :
    Except PyException RuntimeViolationAuthorizationContext :=
  match authorization with
  | none => .ok ⟨.absent, none, none, none, none, fun _ => ⟨rfl, rfl, rfl, rfl⟩, by simp⟩
  | some envelope => do
    let keyId ← validated isEvidenceIdentifier envelope.protected_.kid
    let signingDigest ← validated isDigest envelope.signingDigest
    let scopeDigest ← validated isDigest envelope.claims.scopeDigest
    .ok ⟨if verified then .verified else .present, some envelope.claims.authorizationId, some keyId,
      some signingDigest, some scopeDigest, by split <;> simp, by simp⟩

def requestContext (request : RouteRequest) : Except PyException RuntimeViolationRequestContext := do
  let workflowId ← validated isEvidenceIdentifier request.workflowId
  let taskId ← validated isEvidenceIdentifier request.taskId
  let agentName ← validated isEvidenceIdentifier request.agentName
  let workload ← validated isEvidenceIdentifier request.workload.value
  .ok ⟨workflowId, taskId, agentName, workload⟩

/-- An envelope carries the digest of its event. -/
def fromEvent (event : RuntimeViolationEvent) : Except PyException RuntimeViolationEnvelope := do
  let eventDigest ← validated isDigest event.digest
  if h : event.digest = eventDigest then .ok ⟨event, eventDigest, h⟩ else .error .validation

def violationEvent (code : DenialCode) (request : RouteRequest)
    (authorization : RuntimeViolationAuthorizationContext)
    (correlationId serviceVersion environment : String) (selectedModelGroup : Option String)
    (eventId : UUID) (occurredAt : Datetime) : Except PyException RuntimeViolationEvent := do
  let request ← requestContext request
  let serviceVersion ← validated isEvidenceIdentifier serviceVersion
  let environment ← validated isEvidenceIdentifier environment
  let correlationId ← validated isEvidenceIdentifier correlationId
  let evidenceCode ← validated isEvidenceCode code.value
  let selectedModelGroup ← validatedOption isEvidenceModelGroup selectedModelGroup
  if h : ConsistentSemantics (violationCategory code) authorization.state selectedModelGroup then
    .ok
      { eventId := eventId
        occurredAt := occurredAt
        serviceVersion := serviceVersion
        environment := environment
        correlationId := correlationId
        category := violationCategory code
        code := evidenceCode
        request := request
        authorization := authorization
        selectedModelGroup := selectedModelGroup
        semantics := h }
  else .error .validation

def buildRuntimeViolation (code : DenialCode) (request : RouteRequest)
    (authorization : Option SignedRuntimeAuthorization) (authorizationVerified : Bool)
    (correlationId serviceVersion environment : String) (selectedModelGroup : Option String) :
    Coroutine RuntimeViolationEnvelope := do
  let occurredAt ← ask .utcNow
  let authorization ← compute (authorizationContext authorization authorizationVerified)
  let eventId ← ask .uuid4
  let event ← compute (violationEvent code request authorization correlationId serviceVersion
    environment selectedModelGroup eventId occurredAt)
  compute (fromEvent event)

end Building

end PolicyModelRouter.ViolationEvidence
