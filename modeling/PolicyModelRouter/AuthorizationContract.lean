import PolicyModelRouter.CanonicalJson
import PolicyModelRouter.GovernedVocabularies
import PolicyModelRouter.PythonText
import PolicyModelRouter.UtcTimestamps
import PolicyModelRouter.Uuids

/-!
# The signed authorization contract

The records of a runtime authorization as validation leaves them: every field
carries the constraint it was checked against, and set-like tuples are in strictly
ascending order. The signed bytes are the canonical JSON text of header and claims.
-/

namespace PolicyModelRouter.AuthorizationContract
open CanonicalJson DigitStrings GovernedVocabularies PythonText UtcTimestamps Uuids

/-- SHA-256 and Ed25519 verification, as the back end provides them. -/
class Cryptography where
  sha256 : ByteArray → Fin 32 → UInt8
  verify : List UInt8 → List UInt8 → ByteArray → Bool

def sha256Hex [Cryptography] (bytes : ByteArray) : String :=
  String.ofList ((List.ofFn (Cryptography.sha256 bytes)).flatMap fun b => padded 16 2 b.toNat)

/-- Compact JSON with sorted keys, in UTF-8. -/
def canonicalJsonBytes (value : Json) : ByteArray := value.canonicalText.toUTF8

theorem canonicalJsonBytes_eq_iff {v w : Json} :
    canonicalJsonBytes v = canonicalJsonBytes w ↔ v.canonicalText = w.canonicalText :=
  String.toByteArray_inj

def isHexDigit (c : Char) : Bool := ('0' ≤ c && c ≤ '9') || ('a' ≤ c && c ≤ 'f')

def isAlphanumeric (c : Char) : Bool :=
  ('A' ≤ c && c ≤ 'Z') || ('a' ≤ c && c ≤ 'z') || ('0' ≤ c && c ≤ '9')

/-- A text of bounded length whose first character and later characters are of given kinds. -/
def hasShape (first rest : Char → Bool) (minLength maxLength : ℕ) (s : String) : Bool :=
  minLength ≤ s.length && s.length ≤ maxLength && s.toList.head?.any first &&
    s.toList.tail.all rest

def isDigest (s : String) : Bool := hasShape isHexDigit isHexDigit 64 64 s

def isIdentifier (s : String) : Bool :=
  hasShape isAlphanumeric
    (fun c => isAlphanumeric c || c == '.' || c == '_' || c == ':' || c == '/' || c == '-') 1 200 s

def isRoutingGroup (s : String) : Bool := hasShape isIdentifierEdge isIdentifierChar 2 100 s

/-- Text without white space at its ends, of bounded length. -/
def isStripped (minLength maxLength : ℕ) (s : String) : Bool :=
  strip s = s && minLength ≤ s.length && s.length ≤ maxLength

def isSignatureText (s : String) : Bool :=
  let signatureChar := fun c => isAlphanumeric c || c == '_' || c == '-'
  hasShape signatureChar signatureChar 86 86 s

abbrev Digest := { s : String // isDigest s = true }

abbrev Identifier := { s : String // isIdentifier s = true }

abbrev RoutingGroup := { s : String // isRoutingGroup s = true }

abbrev ShortText := { s : String // isStripped 1 300 s = true }

abbrev AtLeast (low : ℤ) := { n : ℤ // low ≤ n }

abbrev Between (low high : ℤ) := { n : ℤ // low ≤ n ∧ n ≤ high }

def StrictlyAscending {α : Type} (key : α → String) (xs : List α) : Prop :=
  xs.Pairwise fun a b => key a < key b

inductive AuthorizationRiskTier where
  | low
  | medium
  | high
  | critical
  deriving DecidableEq

def AuthorizationRiskTier.value : AuthorizationRiskTier → String
  | .low => "low"
  | .medium => "medium"
  | .high => "high"
  | .critical => "critical"

inductive AuthorizationAutonomyLevel where
  | a0Information
  | a1Recommendation
  | a2PrepareForApproval
  | a3ReversibleActions
  | a4HighImpactActions
  | a5HighAutonomy
  deriving DecidableEq

def AuthorizationAutonomyLevel.value : AuthorizationAutonomyLevel → String
  | .a0Information => "a0_information"
  | .a1Recommendation => "a1_recommendation"
  | .a2PrepareForApproval => "a2_prepare_for_approval"
  | .a3ReversibleActions => "a3_reversible_actions"
  | .a4HighImpactActions => "a4_high_impact_actions"
  | .a5HighAutonomy => "a5_high_autonomy"

/-- The levels that act on their own account and so need a human approval point. -/
def AuthorizationAutonomyLevel.material : AuthorizationAutonomyLevel → Bool
  | .a0Information => false
  | .a1Recommendation => false
  | .a2PrepareForApproval => true
  | .a3ReversibleActions => true
  | .a4HighImpactActions => true
  | .a5HighAutonomy => true

/-- The type and the algorithm of the header are fixed by the contract. -/
@[ext] structure RuntimeAuthorizationProtectedHeader where
  kid : Identifier
  deriving DecidableEq

@[ext] structure RuntimeAuthorizationPolicyProvenance where
  policyId : Identifier
  policyVersion : Identifier
  policyDigest : Digest
  controlCatalogId : Identifier
  controlCatalogVersion : Identifier
  controlCatalogDigest : Digest
  deriving DecidableEq

@[ext] structure RuntimeAuthorizationSubject where
  initiativeId : UUID
  aiSystemId : UUID
  aiSystemVersion : AtLeast 1
  agentId : UUID
  agentVersion : AtLeast 1
  agentReviewDigest : Digest
  deriving DecidableEq

@[ext] structure AuthorizedRuntimeModel where
  modelId : UUID
  entityVersion : AtLeast 1
  modelVersion : Identifier
  routingGroup : RoutingGroup
  reviewDigest : Digest
  allowedDataClasses : List DataClassification
  someDataClass : allowedDataClasses ≠ []
  dataClassesAscending : StrictlyAscending DataClassification.value allowedDataClasses

@[ext] structure RuntimeRequestBinding where
  workflowId : Identifier
  taskId : Identifier
  workload : Identifier
  contextTokensEstimated : Between 0 10000000
  maxOutputTokensEstimated : Between 0 1000000
  structuredOutputRequired : Bool
  maxLatencyMs : Between 1 3600000
  maxCostUsdMicros : Between 0 1000000000000
  deriving DecidableEq

@[ext] structure RuntimeAuthorizationScope where
  riskTier : AuthorizationRiskTier
  dataClassification : DataClassification
  autonomyLevel : AuthorizationAutonomyLevel
  models : List AuthorizedRuntimeModel
  allowedTools : List Identifier
  permissions : List Identifier
  maxRuntimeSeconds : Between 1 86400
  humanApprovalPoints : List ShortText
  someModel : models ≠ []
  modelsAscending : StrictlyAscending (fun model => model.modelId.str) models
  toolsAscending : StrictlyAscending Subtype.val allowedTools
  permissionsAscending : StrictlyAscending Subtype.val permissions
  approvalPointsAscending : StrictlyAscending Subtype.val humanApprovalPoints
  toolsBounded : allowedTools ≠ [] → permissions ≠ []
  autonomyApproved : autonomyLevel.material = true → humanApprovalPoints ≠ []
  dataClassAllowed : ∃ model ∈ models, dataClassification ∈ model.allowedDataClasses

/-- The longest lifetime of an authorization, in microseconds. -/
def maxLifetime : ℕ := 600 * microsPerSecond

@[ext] structure RuntimeAuthorizationClaims where
  authorizationId : UUID
  issuer : Identifier
  audience : List Identifier
  issuedAt : Datetime
  notBefore : Datetime
  expiresAt : Datetime
  subject : RuntimeAuthorizationSubject
  request : RuntimeRequestBinding
  scope : RuntimeAuthorizationScope
  scopeDigest : Digest
  policy : RuntimeAuthorizationPolicyProvenance
  someAudience : audience ≠ []
  audienceAscending : StrictlyAscending Subtype.val audience
  issuedFirst : issuedAt ≤ notBefore
  expiresLast : notBefore < expiresAt
  shortLived : expiresAt.micros - issuedAt.micros ≤ maxLifetime

@[ext] structure SignedRuntimeAuthorization where
  protected_ : RuntimeAuthorizationProtectedHeader
  claims : RuntimeAuthorizationClaims
  signature : { s : String // isSignatureText s = true }

def RuntimeAuthorizationProtectedHeader.toJson (header : RuntimeAuthorizationProtectedHeader) : Json :=
  .obj [("typ", .str "application/vnd.verifiable-ai-governance.runtime-authorization+json"),
    ("alg", .str "Ed25519"), ("kid", .str header.kid)]

def RuntimeAuthorizationPolicyProvenance.toJson (policy : RuntimeAuthorizationPolicyProvenance) :
    Json :=
  .obj [("policy_id", .str policy.policyId), ("policy_version", .str policy.policyVersion),
    ("policy_digest", .str policy.policyDigest),
    ("control_catalog_id", .str policy.controlCatalogId),
    ("control_catalog_version", .str policy.controlCatalogVersion),
    ("control_catalog_digest", .str policy.controlCatalogDigest)]

def RuntimeAuthorizationSubject.toJson (subject : RuntimeAuthorizationSubject) : Json :=
  .obj [("initiative_id", .str subject.initiativeId.str),
    ("ai_system_id", .str subject.aiSystemId.str),
    ("ai_system_version", .int subject.aiSystemVersion), ("agent_id", .str subject.agentId.str),
    ("agent_version", .int subject.agentVersion),
    ("agent_review_digest", .str subject.agentReviewDigest)]

def AuthorizedRuntimeModel.toJson (model : AuthorizedRuntimeModel) : Json :=
  .obj [("model_id", .str model.modelId.str), ("entity_version", .int model.entityVersion),
    ("model_version", .str model.modelVersion), ("routing_group", .str model.routingGroup),
    ("review_digest", .str model.reviewDigest),
    ("allowed_data_classes", .arr (model.allowedDataClasses.map fun c => .str c.value))]

def RuntimeRequestBinding.toJson (request : RuntimeRequestBinding) : Json :=
  .obj [("workflow_id", .str request.workflowId), ("task_id", .str request.taskId),
    ("workload", .str request.workload),
    ("context_tokens_estimated", .int request.contextTokensEstimated),
    ("max_output_tokens_estimated", .int request.maxOutputTokensEstimated),
    ("structured_output_required", .bool request.structuredOutputRequired),
    ("max_latency_ms", .int request.maxLatencyMs),
    ("max_cost_usd_micros", .int request.maxCostUsdMicros)]

def RuntimeAuthorizationScope.toJson (scope : RuntimeAuthorizationScope) : Json :=
  .obj [("risk_tier", .str scope.riskTier.value),
    ("data_classification", .str scope.dataClassification.value),
    ("autonomy_level", .str scope.autonomyLevel.value),
    ("models", .arr (scope.models.map AuthorizedRuntimeModel.toJson)),
    ("allowed_tools", .arr (scope.allowedTools.map fun tool => .str tool.val)),
    ("permissions", .arr (scope.permissions.map fun permission => .str permission.val)),
    ("max_runtime_seconds", .int scope.maxRuntimeSeconds),
    ("human_approval_points", .arr (scope.humanApprovalPoints.map fun point => .str point.val)),
    ("kill_switch_enabled", .bool true)]

def RuntimeAuthorizationClaims.toJson (claims : RuntimeAuthorizationClaims) : Json :=
  .obj [("schema_version", .str "1.0"), ("authorization_id", .str claims.authorizationId.str),
    ("issuer", .str claims.issuer),
    ("audience", .arr (claims.audience.map fun consumer => .str consumer.val)),
    ("issued_at", .str (isoformat claims.issuedAt)),
    ("not_before", .str (isoformat claims.notBefore)),
    ("expires_at", .str (isoformat claims.expiresAt)), ("subject", claims.subject.toJson),
    ("request", claims.request.toJson), ("scope", claims.scope.toJson),
    ("scope_digest", .str claims.scopeDigest), ("policy", claims.policy.toJson)]

namespace SignedRuntimeAuthorization

def toSignedJson (envelope : SignedRuntimeAuthorization) : Json :=
  .obj [("protected", envelope.protected_.toJson), ("claims", envelope.claims.toJson)]

/-- The bytes Governance signs. -/
def signingBytes (envelope : SignedRuntimeAuthorization) : ByteArray :=
  canonicalJsonBytes envelope.toSignedJson

def signingDigest [Cryptography] (envelope : SignedRuntimeAuthorization) : String :=
  sha256Hex envelope.signingBytes

end SignedRuntimeAuthorization

theorem AuthorizationRiskTier.value_inj {a b : AuthorizationRiskTier} (h : a.value = b.value) :
    a = b := by
  cases a <;> cases b <;> first | rfl | exact absurd h (by decide)

theorem AuthorizationAutonomyLevel.value_inj {a b : AuthorizationAutonomyLevel}
    (h : a.value = b.value) : a = b := by
  cases a <;> cases b <;> first | rfl | exact absurd h (by decide)

private theorem faithful_constrained {p : String → Prop} :
    Faithful fun s : { s : String // p s } => Json.str s.val :=
  Faithful.str Subtype.ext

private theorem faithful_header : Faithful RuntimeAuthorizationProtectedHeader.toJson := by
  refine Faithful.obj ["typ", "alg", "kid"] (by decide) (fun _ => rfl) (by simp) ?_
  intro a b h
  simp only [List.forall₂_cons, same_str] at h
  exact RuntimeAuthorizationProtectedHeader.ext (Subtype.ext h.2.2.1)

private theorem faithful_policy : Faithful RuntimeAuthorizationPolicyProvenance.toJson := by
  refine Faithful.obj ["policy_id", "policy_version", "policy_digest", "control_catalog_id",
    "control_catalog_version", "control_catalog_digest"] (by decide) (fun _ => rfl) (by simp) ?_
  intro a b h
  simp only [List.forall₂_cons, same_str] at h
  obtain ⟨h₁, h₂, h₃, h₄, h₅, h₆, -⟩ := h
  exact RuntimeAuthorizationPolicyProvenance.ext (Subtype.ext h₁) (Subtype.ext h₂) (Subtype.ext h₃)
    (Subtype.ext h₄) (Subtype.ext h₅) (Subtype.ext h₆)

private theorem faithful_subject : Faithful RuntimeAuthorizationSubject.toJson := by
  refine Faithful.obj ["initiative_id", "ai_system_id", "ai_system_version", "agent_id",
    "agent_version", "agent_review_digest"] (by decide) (fun _ => rfl) (by simp) ?_
  intro a b h
  simp only [List.forall₂_cons, same_str, same_int, str_eq_str_iff] at h
  obtain ⟨h₁, h₂, h₃, h₄, h₅, h₆, -⟩ := h
  exact RuntimeAuthorizationSubject.ext h₁ h₂ (Subtype.ext h₃) h₄ (Subtype.ext h₅) (Subtype.ext h₆)

private theorem faithful_dataClasses :
    Faithful fun classes : List DataClassification => Json.arr (classes.map fun c => .str c.value) :=
  Faithful.arr (Faithful.str DataClassification.value_inj)

private theorem faithful_model : Faithful AuthorizedRuntimeModel.toJson := by
  refine Faithful.obj ["model_id", "entity_version", "model_version", "routing_group",
    "review_digest", "allowed_data_classes"] (by decide) (fun _ => rfl) ?_ ?_
  · intro model
    simp [faithful_dataClasses.wellFormed]
  · intro a b h
    simp only [List.forall₂_cons, same_str, same_int, str_eq_str_iff] at h
    obtain ⟨h₁, h₂, h₃, h₄, h₅, h₆, -⟩ := h
    exact AuthorizedRuntimeModel.ext h₁ (Subtype.ext h₂) (Subtype.ext h₃) (Subtype.ext h₄)
      (Subtype.ext h₅) (faithful_dataClasses.determines h₆)

private theorem faithful_request : Faithful RuntimeRequestBinding.toJson := by
  refine Faithful.obj ["workflow_id", "task_id", "workload", "context_tokens_estimated",
    "max_output_tokens_estimated", "structured_output_required", "max_latency_ms",
    "max_cost_usd_micros"] (by decide) (fun _ => rfl) (by simp) ?_
  intro a b h
  simp only [List.forall₂_cons, same_str, same_int, same_bool] at h
  obtain ⟨h₁, h₂, h₃, h₄, h₅, h₆, h₇, h₈, -⟩ := h
  exact RuntimeRequestBinding.ext (Subtype.ext h₁) (Subtype.ext h₂) (Subtype.ext h₃)
    (Subtype.ext h₄) (Subtype.ext h₅) h₆ (Subtype.ext h₇) (Subtype.ext h₈)

private theorem faithful_models : Faithful fun models : List AuthorizedRuntimeModel =>
    Json.arr (models.map AuthorizedRuntimeModel.toJson) :=
  Faithful.arr faithful_model

theorem faithful_texts {p : String → Prop} :
    Faithful fun texts : List { s : String // p s } => Json.arr (texts.map fun s => .str s.val) :=
  Faithful.arr faithful_constrained

private theorem faithful_scope : Faithful RuntimeAuthorizationScope.toJson := by
  refine Faithful.obj ["risk_tier", "data_classification", "autonomy_level", "models",
    "allowed_tools", "permissions", "max_runtime_seconds", "human_approval_points",
    "kill_switch_enabled"] (by decide) (fun _ => rfl) ?_ ?_
  · intro scope
    simp only [List.forall_mem_cons, wellFormed_str, wellFormed_int, wellFormed_bool,
      faithful_models.wellFormed, faithful_texts.wellFormed, true_and]
    simp
  · intro a b h
    simp only [List.forall₂_cons, same_str, same_int, same_bool] at h
    obtain ⟨h₁, h₂, h₃, h₄, h₅, h₆, h₇, h₈, -⟩ := h
    exact RuntimeAuthorizationScope.ext (AuthorizationRiskTier.value_inj h₁)
      (DataClassification.value_inj h₂) (AuthorizationAutonomyLevel.value_inj h₃)
      (faithful_models.determines h₄) (faithful_texts.determines h₅)
      (faithful_texts.determines h₆) (Subtype.ext h₇) (faithful_texts.determines h₈)

private theorem faithful_claims : Faithful RuntimeAuthorizationClaims.toJson := by
  refine Faithful.obj ["schema_version", "authorization_id", "issuer", "audience", "issued_at",
    "not_before", "expires_at", "subject", "request", "scope", "scope_digest", "policy"] (by decide)
    (fun _ => rfl) ?_ ?_
  · intro claims
    simp only [List.forall_mem_cons, wellFormed_str, faithful_texts.wellFormed,
      faithful_subject.wellFormed, faithful_request.wellFormed, faithful_scope.wellFormed,
      faithful_policy.wellFormed, true_and]
    simp
  · intro a b h
    simp only [List.forall₂_cons, same_str, str_eq_str_iff] at h
    obtain ⟨-, h₁, h₂, h₃, h₄, h₅, h₆, h₇, h₈, h₉, h₁₀, h₁₁, -⟩ := h
    exact RuntimeAuthorizationClaims.ext h₁ (Subtype.ext h₂) (faithful_texts.determines h₃)
      (isoformat_inj h₄) (isoformat_inj h₅) (isoformat_inj h₆) (faithful_subject.determines h₇)
      (faithful_request.determines h₈) (faithful_scope.determines h₉) (Subtype.ext h₁₀)
      (faithful_policy.determines h₁₁)

/-- What the signature covers. -/
def signedPart (envelope : SignedRuntimeAuthorization) :
    RuntimeAuthorizationProtectedHeader × RuntimeAuthorizationClaims :=
  (envelope.protected_, envelope.claims)

private theorem faithful_signedPart :
    Faithful fun part : RuntimeAuthorizationProtectedHeader × RuntimeAuthorizationClaims =>
      Json.obj [("protected", part.1.toJson), ("claims", part.2.toJson)] := by
  refine Faithful.obj ["protected", "claims"] (by decide) (fun _ => rfl) ?_ ?_
  · intro part
    simp [faithful_header.wellFormed, faithful_claims.wellFormed]
  · intro a b h
    simp only [List.forall₂_cons] at h
    exact Prod.ext (faithful_header.determines h.1) (faithful_claims.determines h.2.1)

/-- The signed bytes are equal exactly for the same header and claims. -/
theorem signingBytes_eq_iff {a b : SignedRuntimeAuthorization} :
    a.signingBytes = b.signingBytes ↔ signedPart a = signedPart b :=
  canonicalJsonBytes_eq_iff.trans
    (faithful_signedPart.canonicalText_eq_iff (a := signedPart a) (b := signedPart b))

end PolicyModelRouter.AuthorizationContract
