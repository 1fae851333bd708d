import PolicyModelRouter.DocumentFields
import PolicyModelRouter.SortedSets
import PolicyModelRouter.StrippedTexts
import PolicyModelRouter.TrustedKeys

/-!
# Validation of authorization documents

A decoded document is validated field by field. Texts have the white space at their ends
stripped, set-like arrays are sorted and have their repetitions removed, and the models
are sorted by their identifiers. Which values the validation library reads as a scalar is
left to it.
-/

namespace PolicyModelRouter.ClaimsValidation
open AuthorizationContract DocumentFields GovernedVocabularies RuntimeControl SortedSets TrustedKeys
open UtcTimestamps Uuids

/-- How the validation library reads a decoded value as a scalar. Texts come stripped. -/
class FieldReaders where
  str : PyValue → Option String
  int : PyValue → Option ℤ
  bool : PyValue → Option Bool
  uuid : PyValue → Option UUID
  datetime : PyValue → Option ClockReading

variable {α : Type}

def member (fields : Fields) (name : String) (parse : PyValue → Option α) : Option α :=
  (fields.lookup (points name)).bind parse

/-- A field with a default, given as the document would write it. -/
def memberOr (fields : Fields) (name : String) (default : PyValue) (parse : PyValue → Option α) :
    Option α :=
  parse ((fields.lookup (points name)).getD default)

def literal (text : String) (v : PyValue) : Option Unit := if v.isText text then some () else none

def literalTrue : PyValue → Option Unit
  | .bool true => some ()
  | _ => none

def enumeration (members : List α) (value : α → String) (v : PyValue) : Option α :=
  members.find? fun a => v.isText (value a)

def items (parse : PyValue → Option α) : PyValue → Option (List α)
  | .list xs => xs.mapM parse
  | _ => none

/-- A set-like array, sorted and without repetitions. -/
def setField [DecidableEq α] (key : α → String) (injective : Function.Injective key)
    (parse : PyValue → Option α) (required : Bool) (v : PyValue) :
    Option { xs : List α // StrictlyAscending key xs ∧ (required = true → xs ≠ []) } := do
  let xs ← items parse v
  if h : required = true → xs ≠ [] then
    some ⟨sortedSet key xs, ascending_sortedSet injective, fun hr => mt sortedSet_eq_nil.mp (h hr)⟩
  else none

variable [FieldReaders]

def constrained (p : String → Bool) (v : PyValue) : Option { s : String // p s = true } := do
  let s ← FieldReaders.str v
  if h : p s = true then some ⟨s, h⟩ else none

def atLeast (low : ℤ) (v : PyValue) : Option (AtLeast low) := do
  let n ← FieldReaders.int v
  if h : low ≤ n then some ⟨n, h⟩ else none

def between (low high : ℤ) (v : PyValue) : Option (Between low high) := do
  let n ← FieldReaders.int v
  if h : low ≤ n ∧ n ≤ high then some ⟨n, h⟩ else none

def utc (v : PyValue) : Option Datetime := do
  let reading ← FieldReaders.datetime v
  if reading.utcoffset = some 0 then some reading.wall else none

def dataClassification : PyValue → Option DataClassification :=
  enumeration [.public, .internal, .confidential, .restricted] DataClassification.value

omit [FieldReaders] in
theorem dataClassification_value_injective : Function.Injective DataClassification.value :=
  fun _ _ => DataClassification.value_inj

def dataClassSet : PyValue → Option { xs : List DataClassification //
    StrictlyAscending DataClassification.value xs ∧ (true = true → xs ≠ []) } :=
  setField DataClassification.value dataClassification_value_injective dataClassification true

def validateSubject : PyValue → Option RuntimeAuthorizationSubject
  | .dict fields => do
    guard (onlyFields ["initiative_id", "ai_system_id", "ai_system_version", "agent_id",
      "agent_version", "agent_review_digest"] fields)
    let initiativeId ← member fields "initiative_id" FieldReaders.uuid
    let aiSystemId ← member fields "ai_system_id" FieldReaders.uuid
    let aiSystemVersion ← member fields "ai_system_version" (atLeast 1)
    let agentId ← member fields "agent_id" FieldReaders.uuid
    let agentVersion ← member fields "agent_version" (atLeast 1)
    let agentReviewDigest ← member fields "agent_review_digest" (constrained isDigest)
    some ⟨initiativeId, aiSystemId, aiSystemVersion, agentId, agentVersion, agentReviewDigest⟩
  | _ => none

def validatePolicy : PyValue → Option RuntimeAuthorizationPolicyProvenance
  | .dict fields => do
    guard (onlyFields ["policy_id", "policy_version", "policy_digest", "control_catalog_id",
      "control_catalog_version", "control_catalog_digest"] fields)
    let policyId ← member fields "policy_id" (constrained isIdentifier)
    let policyVersion ← member fields "policy_version" (constrained isIdentifier)
    let policyDigest ← member fields "policy_digest" (constrained isDigest)
    let controlCatalogId ← member fields "control_catalog_id" (constrained isIdentifier)
    let controlCatalogVersion ← member fields "control_catalog_version" (constrained isIdentifier)
    let controlCatalogDigest ← member fields "control_catalog_digest" (constrained isDigest)
    some ⟨policyId, policyVersion, policyDigest, controlCatalogId, controlCatalogVersion,
      controlCatalogDigest⟩
  | _ => none

def validateModel : PyValue → Option AuthorizedRuntimeModel
  | .dict fields => do
    guard (onlyFields ["model_id", "entity_version", "model_version", "routing_group",
      "review_digest", "allowed_data_classes"] fields)
    let modelId ← member fields "model_id" FieldReaders.uuid
    let entityVersion ← member fields "entity_version" (atLeast 1)
    let modelVersion ← member fields "model_version" (constrained isIdentifier)
    let routingGroup ← member fields "routing_group" (constrained isRoutingGroup)
    let reviewDigest ← member fields "review_digest" (constrained isDigest)
    let classes ← member fields "allowed_data_classes" dataClassSet
    some ⟨modelId, entityVersion, modelVersion, routingGroup, reviewDigest, classes.val,
      classes.property.2 rfl, classes.property.1⟩
  | _ => none

/-- The models are sorted, and none is listed twice. -/
def validateModels (v : PyValue) : Option { models : List AuthorizedRuntimeModel //
    models ≠ [] ∧ StrictlyAscending (fun model => model.modelId.str) models } := do
  let models ← items validateModel v
  if h : models ≠ [] ∧ (models.map fun model => model.modelId.str).Nodup then
    some ⟨sortBy (fun model => model.modelId.str) models,
      fun hnil => h.1 (List.nil_perm.mp (hnil ▸ perm_sortBy)), ascending_sortBy h.2⟩
  else none

def validateRequest : PyValue → Option RuntimeRequestBinding
  | .dict fields => do
    guard (onlyFields ["workflow_id", "task_id", "workload", "context_tokens_estimated",
      "max_output_tokens_estimated", "structured_output_required", "max_latency_ms",
      "max_cost_usd_micros"] fields)
    let workflowId ← member fields "workflow_id" (constrained isIdentifier)
    let taskId ← member fields "task_id" (constrained isIdentifier)
    let workload ← member fields "workload" (constrained isIdentifier)
    let contextTokensEstimated ← member fields "context_tokens_estimated" (between 0 10000000)
    let maxOutputTokensEstimated ← member fields "max_output_tokens_estimated" (between 0 1000000)
    let structuredOutputRequired ← member fields "structured_output_required" FieldReaders.bool
    let maxLatencyMs ← member fields "max_latency_ms" (between 1 3600000)
    let maxCostUsdMicros ← member fields "max_cost_usd_micros" (between 0 1000000000000)
    some ⟨workflowId, taskId, workload, contextTokensEstimated, maxOutputTokensEstimated,
      structuredOutputRequired, maxLatencyMs, maxCostUsdMicros⟩
  | _ => none

def textSet (p : String → Bool) (required : Bool) (v : PyValue) :
    Option { xs : List { s : String // p s = true } //
      StrictlyAscending Subtype.val xs ∧ (required = true → xs ≠ []) } :=
  setField Subtype.val Subtype.val_injective (constrained p) required v

def validateScope : PyValue → Option RuntimeAuthorizationScope
  | .dict fields => do
    guard (onlyFields ["risk_tier", "data_classification", "autonomy_level", "models",
      "allowed_tools", "permissions", "max_runtime_seconds", "human_approval_points",
      "kill_switch_enabled"] fields)
    let riskTier ← member fields "risk_tier"
      (enumeration [.low, .medium, .high, .critical] AuthorizationRiskTier.value)
    let dataClass ← member fields "data_classification" dataClassification
    let autonomyLevel ← member fields "autonomy_level"
      (enumeration [.a0Information, .a1Recommendation, .a2PrepareForApproval, .a3ReversibleActions,
        .a4HighImpactActions, .a5HighAutonomy] AuthorizationAutonomyLevel.value)
    let models ← member fields "models" validateModels
    let allowedTools ← memberOr fields "allowed_tools" (.list []) (textSet isIdentifier false)
    let permissions ← memberOr fields "permissions" (.list []) (textSet isIdentifier false)
    let maxRuntimeSeconds ← member fields "max_runtime_seconds" (between 1 86400)
    let humanApprovalPoints ← memberOr fields "human_approval_points" (.list [])
      (textSet (isStripped 1 300) false)
    let _ ← memberOr fields "kill_switch_enabled" (.bool true) literalTrue
    if h : (allowedTools.val ≠ [] → permissions.val ≠ []) ∧
        (autonomyLevel.material = true → humanApprovalPoints.val ≠ []) ∧
        ∃ model ∈ models.val, dataClass ∈ model.allowedDataClasses then
      some ⟨riskTier, dataClass, autonomyLevel, models.val, allowedTools.val, permissions.val,
        maxRuntimeSeconds, humanApprovalPoints.val, models.property.1, models.property.2,
        allowedTools.property.1, permissions.property.1, humanApprovalPoints.property.1, h.1, h.2.1,
        h.2.2⟩
    else none
  | _ => none

def validateClaims : PyValue → Option RuntimeAuthorizationClaims
  | .dict fields => do
    guard (onlyFields ["schema_version", "authorization_id", "issuer", "audience", "issued_at",
      "not_before", "expires_at", "subject", "request", "scope", "scope_digest", "policy"] fields)
    let _ ← memberOr fields "schema_version" (.str (points "1.0")) (literal "1.0")
    let authorizationId ← member fields "authorization_id" FieldReaders.uuid
    let issuer ← member fields "issuer" (constrained isIdentifier)
    let audience ← member fields "audience" (textSet isIdentifier true)
    let issuedAt ← member fields "issued_at" utc
    let notBefore ← member fields "not_before" utc
    let expiresAt ← member fields "expires_at" utc
    let subject ← member fields "subject" validateSubject
    let request ← member fields "request" validateRequest
    let scope ← member fields "scope" validateScope
    let scopeDigest ← member fields "scope_digest" (constrained isDigest)
    let policy ← member fields "policy" validatePolicy
    if h : issuedAt ≤ notBefore ∧ notBefore < expiresAt ∧
        expiresAt.micros - issuedAt.micros ≤ maxLifetime then
      some ⟨authorizationId, issuer, audience.val, issuedAt, notBefore, expiresAt, subject, request,
        scope, scopeDigest, policy, audience.property.2 rfl, audience.property.1, h.1, h.2.1, h.2.2⟩
    else none
  | _ => none

def headerType : String :=
  "application/vnd.verifiable-ai-governance.runtime-authorization+json"

def validateHeader : PyValue → Option RuntimeAuthorizationProtectedHeader
  | .dict fields => do
    guard (onlyFields ["typ", "alg", "kid"] fields)
    let _ ← memberOr fields "typ" (.str (points headerType)) (literal headerType)
    let _ ← memberOr fields "alg" (.str (points "Ed25519")) (literal "Ed25519")
    let kid ← member fields "kid" (constrained isIdentifier)
    some ⟨kid⟩
  | _ => none

/-- A signature of this shape is always decoded to 64 bytes, so that this is not checked again. -/
def validateEnvelope : PyValue → Option SignedRuntimeAuthorization
  | .dict fields => do
    guard (onlyFields ["protected", "claims", "signature"] fields)
    let header ← member fields "protected" validateHeader
    let claims ← member fields "claims" validateClaims
    let signature ← member fields "signature" (constrained isSignatureText)
    some ⟨header, claims, signature⟩
  | _ => none

end PolicyModelRouter.ClaimsValidation
