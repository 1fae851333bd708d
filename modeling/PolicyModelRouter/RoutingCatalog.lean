import PolicyModelRouter.DecimalArithmetic
import PolicyModelRouter.GovernedVocabularies
import PolicyModelRouter.UtcTimestamps
import Mathlib.Data.Finset.Basic
import Mathlib.Data.List.AList

/-!
# The routing policy, requests and decisions

Mappings are association lists without repeated keys, in the order the policy
declares them.
-/

namespace PolicyModelRouter.RoutingCatalog
open DecimalArithmetic GovernedVocabularies UtcTimestamps

def defaultContext : Context := ⟨28, -999999, 999999⟩

/-- Capabilities and authorizations of one logical model group. -/
structure ModelGroupProfile where
  authorizedDataClassifications : Finset DataClassification
  authorizedRiskLevels : Finset RiskLevel
  supportsStructuredOutput : Bool
  supportsToolCalling : Bool
  maxContextTokens : ℤ
  typicalLatencyMs : ℤ
  inputCostUsdPerMillionTokens : Decimal
  outputCostUsdPerMillionTokens : Decimal
  available : Bool
  allowedAgents : Finset String
  staged : Bool

def ModelGroupProfile.estimatedCost (profile : ModelGroupProfile)
    (inputTokens outputTokens : ℤ) : Except Signal Decimal := do
  let million := Decimal.ofInt 1000000
  let input ← Decimal.mul defaultContext (.ofInt inputTokens) profile.inputCostUsdPerMillionTokens
  let input ← Decimal.div defaultContext input million
  let output ←
    Decimal.mul defaultContext (.ofInt outputTokens) profile.outputCostUsdPerMillionTokens
  let output ← Decimal.div defaultContext output million
  Decimal.add defaultContext input output

/-- The model group a workload maps to, and what the workload requires. -/
structure WorkloadRule where
  modelGroup : ModelGroupId
  requiresToolCalling : Bool

abbrev ModelGroups := AList fun _ : ModelGroupId => ModelGroupProfile

abbrev Workloads := AList fun _ : WorkloadId => WorkloadRule

structure RoutingPolicy where
  schemaVersion : String
  policyId : String
  policyVersion : String
  policyDigest : String
  modelGroups : ModelGroups
  workloads : Workloads

/-- Every workload maps to a group the policy declares. -/
def RoutingPolicy.ReferentialIntegrity (policy : RoutingPolicy) : Prop :=
  ∀ workload rule, policy.workloads.lookup workload = some rule → rule.modelGroup ∈ policy.modelGroups

structure RouteRequest where
  schemaVersion : String
  requestedAt : Datetime
  workflowId : String
  taskId : String
  agentName : String
  workload : WorkloadId
  riskLevel : RiskLevel
  dataClassification : DataClassification
  contextTokensEstimated : ℤ
  maxOutputTokensEstimated : ℤ
  structuredOutputRequired : Bool
  maxLatencyMs : ℤ
  maxCostUsd : Decimal

/-- One group that was not selected, and why. -/
structure RejectedCandidate where
  modelGroup : ModelGroupId
  reason : String
  reasonCode : ReasonCode
  observedValue : String
  requiredValue : String
  deriving DecidableEq

structure RouteDecision where
  schemaVersion : String
  routingDecisionId : String
  decidedAt : Datetime
  workflowId : String
  taskId : String
  selectedModelGroup : ModelGroupId
  reason : String
  rejectedCandidates : List RejectedCandidate
  policyId : String
  policyVersion : String
  policyDigest : String
  serviceVersion : String
  environment : String
  deriving DecidableEq

/-- A hard rejection, with the provenance a decision carries. -/
structure RejectedDecision where
  schemaVersion : String
  routingDecisionId : String
  decidedAt : Datetime
  workflowId : String
  taskId : String
  workload : WorkloadId
  rejectedModelGroup : ModelGroupId
  reason : String
  reasonCode : ReasonCode
  observedValue : String
  requiredValue : String
  policyId : String
  policyVersion : String
  policyDigest : String
  serviceVersion : String
  environment : String
  deriving DecidableEq

end PolicyModelRouter.RoutingCatalog
