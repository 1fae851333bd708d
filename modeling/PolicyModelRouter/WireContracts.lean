import PolicyModelRouter.AuthorizationContract
import PolicyModelRouter.OrderedChecks
import PolicyModelRouter.RouterCalls

/-!
# The wire contract

Requests as validation admits them, and the two responses that carry a decision.
Responses are validated again when they are built from the domain.
-/

namespace PolicyModelRouter.WireContracts
open AuthorizationContract DecimalArithmetic GovernedVocabularies OrderedChecks RouterCalls
open UtcTimestamps
open RoutingCatalog hiding RejectedCandidate

abbrev BoundedIdentifier := { s : String // 1 ≤ s.length ∧ s.length ≤ 200 }

abbrev NonEmptyText := { s : String // 1 ≤ s.length }

abbrev PositiveDecimal := { d : Decimal // d.negative = false ∧ d.coefficient ≠ 0 }

/-- A request; its schema version is fixed by the contract. -/
structure ModelRouteRequest where
  requestedAt : Datetime
  workflowId : BoundedIdentifier
  taskId : BoundedIdentifier
  agentName : BoundedIdentifier
  workload : WorkloadId
  riskLevel : RiskLevel
  dataClassification : DataClassification
  contextTokensEstimated : Between 0 10000000
  maxOutputTokensEstimated : Between 0 10000000
  structuredOutputRequired : Bool
  maxLatencyMs : AtLeast 1
  maxCostUsd : PositiveDecimal
  includeRejectedCandidates : Bool

structure AuthorizedModelRouteRequest where
  request : ModelRouteRequest
  authorization : SignedRuntimeAuthorization

inductive RouteRequestEnvelope where
  | plain (request : ModelRouteRequest)
  | authorized (body : AuthorizedModelRouteRequest)

def RouteRequestEnvelope.request : RouteRequestEnvelope → ModelRouteRequest
  | .plain request => request
  | .authorized body => body.request

def RouteRequestEnvelope.authorization : RouteRequestEnvelope → Option SignedRuntimeAuthorization
  | .plain _ => none
  | .authorized body => some body.authorization

def toDomainRequest (request : ModelRouteRequest) : RouteRequest :=
  { schemaVersion := "1.0"
    requestedAt := request.requestedAt
    workflowId := request.workflowId
    taskId := request.taskId
    agentName := request.agentName
    workload := request.workload
    riskLevel := request.riskLevel
    dataClassification := request.dataClassification
    contextTokensEstimated := request.contextTokensEstimated
    maxOutputTokensEstimated := request.maxOutputTokensEstimated
    structuredOutputRequired := request.structuredOutputRequired
    maxLatencyMs := request.maxLatencyMs
    maxCostUsd := request.maxCostUsd }

structure RejectedCandidate where
  modelGroup : ModelGroupId
  reason : NonEmptyText
  reasonCode : ReasonCode
  observedValue : NonEmptyText
  requiredValue : NonEmptyText

structure ModelRouteDecision where
  routingDecisionId : NonEmptyText
  decidedAt : Datetime
  workflowId : NonEmptyText
  taskId : NonEmptyText
  selectedModelGroup : ModelGroupId
  reason : NonEmptyText
  rejectedCandidates : List RejectedCandidate
  policyId : NonEmptyText
  policyVersion : NonEmptyText
  policyDigest : NonEmptyText
  serviceVersion : NonEmptyText
  environment : NonEmptyText

structure RouteRejection where
  routingDecisionId : NonEmptyText
  decidedAt : Datetime
  workflowId : NonEmptyText
  taskId : NonEmptyText
  workload : WorkloadId
  rejectedModelGroup : ModelGroupId
  reason : NonEmptyText
  reasonCode : ReasonCode
  observedValue : NonEmptyText
  requiredValue : NonEmptyText
  policyId : NonEmptyText
  policyVersion : NonEmptyText
  policyDigest : NonEmptyText
  serviceVersion : NonEmptyText
  environment : NonEmptyText

def nonEmpty (s : String) : Except PyException NonEmptyText :=
  if h : 1 ≤ s.length then .ok ⟨s, h⟩ else .error .validation

/-- The one schema version both responses may carry. -/
def schemaVersion (s : String) : Except PyException Unit :=
  if s = "1.0" then .ok () else .error .validation

def fromDomainCandidate (candidate : RoutingCatalog.RejectedCandidate) :
    Except PyException RejectedCandidate := do
  let reason ← nonEmpty candidate.reason
  let observedValue ← nonEmpty candidate.observedValue
  let requiredValue ← nonEmpty candidate.requiredValue
  .ok
    { modelGroup := candidate.modelGroup
      reason := reason
      reasonCode := candidate.reasonCode
      observedValue := observedValue
      requiredValue := requiredValue }

def fromDomainCandidates :
    List RoutingCatalog.RejectedCandidate → Except PyException (List RejectedCandidate)
  | [] => .ok []
  | candidate :: rest => do
    let candidate ← fromDomainCandidate candidate
    let rest ← fromDomainCandidates rest
    .ok (candidate :: rest)

def fromDomainDecision (decision : RouteDecision) : Except PyException ModelRouteDecision := do
  schemaVersion decision.schemaVersion
  let routingDecisionId ← nonEmpty decision.routingDecisionId
  let workflowId ← nonEmpty decision.workflowId
  let taskId ← nonEmpty decision.taskId
  let reason ← nonEmpty decision.reason
  let rejectedCandidates ← fromDomainCandidates decision.rejectedCandidates
  let policyId ← nonEmpty decision.policyId
  let policyVersion ← nonEmpty decision.policyVersion
  let policyDigest ← nonEmpty decision.policyDigest
  let serviceVersion ← nonEmpty decision.serviceVersion
  let environment ← nonEmpty decision.environment
  .ok
    { routingDecisionId := routingDecisionId
      decidedAt := decision.decidedAt
      workflowId := workflowId
      taskId := taskId
      selectedModelGroup := decision.selectedModelGroup
      reason := reason
      rejectedCandidates := rejectedCandidates
      policyId := policyId
      policyVersion := policyVersion
      policyDigest := policyDigest
      serviceVersion := serviceVersion
      environment := environment }

def fromDomainRejection (decision : RejectedDecision) : Except PyException RouteRejection := do
  schemaVersion decision.schemaVersion
  let routingDecisionId ← nonEmpty decision.routingDecisionId
  let workflowId ← nonEmpty decision.workflowId
  let taskId ← nonEmpty decision.taskId
  let reason ← nonEmpty decision.reason
  let observedValue ← nonEmpty decision.observedValue
  let requiredValue ← nonEmpty decision.requiredValue
  let policyId ← nonEmpty decision.policyId
  let policyVersion ← nonEmpty decision.policyVersion
  let policyDigest ← nonEmpty decision.policyDigest
  let serviceVersion ← nonEmpty decision.serviceVersion
  let environment ← nonEmpty decision.environment
  .ok
    { routingDecisionId := routingDecisionId
      decidedAt := decision.decidedAt
      workflowId := workflowId
      taskId := taskId
      workload := decision.workload
      rejectedModelGroup := decision.rejectedModelGroup
      reason := reason
      reasonCode := decision.reasonCode
      observedValue := observedValue
      requiredValue := requiredValue
      policyId := policyId
      policyVersion := policyVersion
      policyDigest := policyDigest
      serviceVersion := serviceVersion
      environment := environment }

theorem eq_of_nonEmpty {s : String} {text : NonEmptyText} (h : nonEmpty s = .ok text) : text.val = s := by
  unfold nonEmpty at h
  split at h
  · cases h
    rfl
  · cases h

/-- A response repeats the decision it is built from. -/
structure Repeats (decision : RouteDecision) (published : ModelRouteDecision) : Prop where
  routingDecisionId : published.routingDecisionId.val = decision.routingDecisionId
  decidedAt : published.decidedAt = decision.decidedAt
  workflowId : published.workflowId.val = decision.workflowId
  taskId : published.taskId.val = decision.taskId
  selectedModelGroup : published.selectedModelGroup = decision.selectedModelGroup
  reason : published.reason.val = decision.reason
  rejectedCandidates :
    fromDomainCandidates decision.rejectedCandidates = .ok published.rejectedCandidates
  policyId : published.policyId.val = decision.policyId
  policyVersion : published.policyVersion.val = decision.policyVersion
  policyDigest : published.policyDigest.val = decision.policyDigest
  serviceVersion : published.serviceVersion.val = decision.serviceVersion
  environment : published.environment.val = decision.environment

theorem repeats_of_fromDomainDecision {decision : RouteDecision} {published : ModelRouteDecision}
    (h : fromDomainDecision decision = .ok published) : Repeats decision published := by
  unfold fromDomainDecision at h
  obtain ⟨_, -, h⟩ := bind_eq_ok.mp h
  obtain ⟨_, hid, h⟩ := bind_eq_ok.mp h
  obtain ⟨_, hworkflow, h⟩ := bind_eq_ok.mp h
  obtain ⟨_, htask, h⟩ := bind_eq_ok.mp h
  obtain ⟨_, hreason, h⟩ := bind_eq_ok.mp h
  obtain ⟨_, hcandidates, h⟩ := bind_eq_ok.mp h
  obtain ⟨_, hpolicy, h⟩ := bind_eq_ok.mp h
  obtain ⟨_, hversion, h⟩ := bind_eq_ok.mp h
  obtain ⟨_, hdigest, h⟩ := bind_eq_ok.mp h
  obtain ⟨_, hservice, h⟩ := bind_eq_ok.mp h
  obtain ⟨_, henvironment, h⟩ := bind_eq_ok.mp h
  cases h
  exact ⟨eq_of_nonEmpty hid, rfl, eq_of_nonEmpty hworkflow, eq_of_nonEmpty htask, rfl,
    eq_of_nonEmpty hreason, hcandidates, eq_of_nonEmpty hpolicy, eq_of_nonEmpty hversion,
    eq_of_nonEmpty hdigest, eq_of_nonEmpty hservice, eq_of_nonEmpty henvironment⟩

end PolicyModelRouter.WireContracts
