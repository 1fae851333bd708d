import PolicyModelRouter.ReplayGuards
import PolicyModelRouter.RuntimeControl
import PolicyModelRouter.TrustedKeys

/-!
# Verification of one authorization

The fixed order of verification: identity and time, trusted key, signature, request
binding, agent binding, policy provenance, runtime control, and then the single use
of the identifier. Every step raises its own code.
-/

namespace PolicyModelRouter.AuthorizationVerifier
open AuthorizationContract AwaitingPrograms DecimalArithmetic GovernedVocabularies OrderedChecks
open ReplayGuards RouterCalls RoutingCatalog RuntimeControl TrustedKeys UtcTimestamps Uuids

structure RuntimeAuthorizationVerifier where
  keySet : TrustedRuntimeAuthorizationKeySet
  replayGuard : RuntimeAuthorizationReplayGuard
  issuer : String
  audience : String
  agentBindings : AList fun _ : String => UUID
  expectedPolicyId : String
  expectedPolicyVersion : String
  expectedPolicyDigest : String
  expectedControlCatalogId : String
  expectedControlCatalogVersion : String
  expectedControlCatalogDigest : String
  runtimeControl : Option RedisRuntimeControlStore
  clockSkewSeconds : ℕ
  identified : issuer ≠ "" ∧ audience ≠ ""
  skewBounded : clockSkewSeconds ≤ 60
  someBinding : agentBindings.entries ≠ []

structure VerifiedRuntimeAuthorization where
  envelope : SignedRuntimeAuthorization
  verifiedAt : ClockReading
  keySetGeneration : ℤ

/-- A timestamp outside the calendar is an arithmetic error. -/
def orOverflow : Option Datetime → Except PyException Datetime
  | some d => .ok d
  | none => .error .overflow

theorem orOverflow_eq_ok {result : Option Datetime} {d : Datetime} :
    orOverflow result = .ok d ↔ result = some d := by
  cases result <;> simp [orOverflow]

def costMicros (value : Decimal) : Except PyException ℤ := do
  let micros ← (Decimal.mul defaultContext value (.ofInt 1000000)).mapError .decimalSignal
  let integral := micros.toIntegralValue
  raiseIf (micros.eqv integral = false) (denial .requestCostPrecisionUnsupported
    "Route cost cannot be represented as integer USD micros")
  .ok integral.toInt

theorem costMicros_of_mul {value micros : Decimal}
    (h : Decimal.mul defaultContext value (.ofInt 1000000) = .ok micros) :
    costMicros value = (raiseIf (micros.eqv micros.toIntegralValue = false)
      (denial .requestCostPrecisionUnsupported
        "Route cost cannot be represented as integer USD micros")).bind
      fun _ => .ok micros.toIntegralValue.toInt := by
  rw [costMicros, h]
  rfl

/-- The bound request facts in ascending order of their names, and whether they differ. -/
def mismatches (claims : RuntimeAuthorizationClaims) (request : RouteRequest) (micros : ℤ) :
    List (String × Bool) :=
  let signed := claims.request
  [("context_tokens_estimated", signed.contextTokensEstimated.val ≠ request.contextTokensEstimated),
    ("data_classification", claims.scope.dataClassification ≠ request.dataClassification),
    ("max_cost_usd_micros", signed.maxCostUsdMicros.val ≠ micros),
    ("max_latency_ms", signed.maxLatencyMs.val ≠ request.maxLatencyMs),
    ("max_output_tokens_estimated",
      signed.maxOutputTokensEstimated.val ≠ request.maxOutputTokensEstimated),
    ("requested_at", claims.issuedAt ≠ request.requestedAt),
    ("risk_level", claims.scope.riskTier.value ≠ request.riskLevel.value),
    ("structured_output_required",
      signed.structuredOutputRequired ≠ request.structuredOutputRequired),
    ("task_id", signed.taskId.val ≠ request.taskId),
    ("workflow_id", signed.workflowId.val ≠ request.workflowId),
    ("workload", signed.workload.val ≠ request.workload.value)]

namespace RuntimeAuthorizationVerifier

def verifyIdentityAndTime (verifier : RuntimeAuthorizationVerifier)
    (claims : RuntimeAuthorizationClaims) (now : Datetime) : Except PyException Unit := do
  raiseIf (claims.issuer.val ≠ verifier.issuer)
    (denial .issuerMismatch "Runtime authorization issuer is not trusted")
  raiseIf (verifier.audience ∉ claims.audience.map Subtype.val)
    (denial .audienceMismatch "Runtime authorization audience does not include this service")
  let latest ← orOverflow (now.plusSeconds verifier.clockSkewSeconds)
  raiseIf (latest < claims.issuedAt)
    (denial .issuedInFuture "Runtime authorization was issued in the future")
  raiseIf (latest < claims.notBefore)
    (denial .notYetValid "Runtime authorization is not valid yet")
  let earliest ← orOverflow (now.minusSeconds verifier.clockSkewSeconds)
  raiseIf (claims.expiresAt ≤ earliest) (denial .expired "Runtime authorization has expired")

def requireKey (verifier : RuntimeAuthorizationVerifier) (envelope : SignedRuntimeAuthorization)
    (now : Datetime) : Except PyException TrustedRuntimeAuthorizationKey := do
  match verifier.keySet.resolve (points envelope.protected_.kid) with
  | none => .error (denial .unknownKey "Runtime authorization key is not trusted")
  | some key =>
    raiseIf (key.status = .revoked)
      (denial .keyRevoked "Runtime authorization key is revoked")
    raiseIf (¬ (key.notBefore ≤ envelope.claims.issuedAt ∧ envelope.claims.issuedAt < key.verifyUntil))
      (denial .keyNotValidForIssueTime "Authorization issue time is outside the key trust window")
    let earliest ← orOverflow (now.minusSeconds verifier.clockSkewSeconds)
    raiseIf (key.verifyUntil ≤ earliest) (denial .keyVerificationWindowClosed
      "Runtime authorization key verification window is closed")
    .ok key

/-- A signature that cannot be decoded and one that does not verify are the same denial. -/
def signatureVerifies [Cryptography] (envelope : SignedRuntimeAuthorization)
    (key : TrustedRuntimeAuthorizationKey) : Bool :=
  match decodeSignature envelope.signature with
  | .ok signature => Cryptography.verify key.publicKey signature envelope.signingBytes
  | .error _ => false

def verifySignature [Cryptography] (envelope : SignedRuntimeAuthorization)
    (key : TrustedRuntimeAuthorizationKey) : Except PyException Unit :=
  raiseIf (signatureVerifies envelope key = false)
    (denial .invalidSignature "Runtime authorization signature is invalid")

def verifyRequestBinding (claims : RuntimeAuthorizationClaims) (request : RouteRequest) :
    Except PyException Unit := do
  let micros ← costMicros request.maxCostUsd
  let failed := ((mismatches claims request micros).filter Prod.snd).map Prod.fst
  raiseIf (failed ≠ []) (denial .requestBindingMismatch
    ("Route request differs from signed Governance authorization: " ++
      String.intercalate ", " failed))

def verifyAgentBinding (verifier : RuntimeAuthorizationVerifier)
    (claims : RuntimeAuthorizationClaims) (agentName : String) : Except PyException Unit :=
  raiseIf (verifier.agentBindings.lookup agentName ≠ some claims.subject.agentId)
    (denial .agentBindingMismatch "Route agent identity does not match signed Governance subject")

def verifyPolicyProvenance (verifier : RuntimeAuthorizationVerifier)
    (claims : RuntimeAuthorizationClaims) : Except PyException Unit :=
  raiseIf (claims.policy.policyId.val ≠ verifier.expectedPolicyId ∨
      claims.policy.policyVersion.val ≠ verifier.expectedPolicyVersion ∨
      claims.policy.policyDigest.val ≠ verifier.expectedPolicyDigest ∨
      claims.policy.controlCatalogId.val ≠ verifier.expectedControlCatalogId ∨
      claims.policy.controlCatalogVersion.val ≠ verifier.expectedControlCatalogVersion ∨
      claims.policy.controlCatalogDigest.val ≠ verifier.expectedControlCatalogDigest)
    (denial .governancePolicyMismatch
      "Runtime authorization provenance is not trusted by this deployment")

/-- All the checks that read no store. -/
def verifyOffline [Cryptography] (verifier : RuntimeAuthorizationVerifier)
    (envelope : SignedRuntimeAuthorization) (request : RouteRequest) (now : ClockReading) :
    Except PyException Unit := do
  requireUtc now
  verifier.verifyIdentityAndTime envelope.claims now.wall
  let key ← verifier.requireKey envelope now.wall
  verifySignature envelope key
  verifyRequestBinding envelope.claims request
  verifier.verifyAgentBinding envelope.claims request.agentName
  verifier.verifyPolicyProvenance envelope.claims

/-- A denial of runtime control comes after the signature was verified. -/
def verifiedDenial : PyException → PyException
  | .runtimeControlEnforcement code message => .runtimeAuthorization ⟨code, message, true⟩
  | e => e

def enforceRuntimeControl [JsonDecoder] (verifier : RuntimeAuthorizationVerifier)
    (claims : RuntimeAuthorizationClaims) : Coroutine Unit :=
  match verifier.runtimeControl with
  | none => pure ()
  | some store => do
    let _ ← mapError verifiedDenial
      (enforce store claims.subject.agentId.str claims.subject.agentVersion)
    pure ()

/-- Every exception of the guard that is not a denial already becomes one. -/
def storeDenial : PyException → PyException
  | .runtimeAuthorization e => .runtimeAuthorization e
  | _ => denial .replayStoreUnavailable "Runtime authorization replay state is unavailable"

def consumeAuthorization (verifier : RuntimeAuthorizationVerifier)
    (claims : RuntimeAuthorizationClaims) (now : Datetime) : Coroutine Unit := do
  let fresh ← mapError storeDenial
    (verifier.replayGuard.consume claims.authorizationId claims.expiresAt now)
  compute (raiseIf (fresh = false)
    (denial .replayDetected "Runtime authorization identifier was already consumed"))

def verify [Cryptography] [JsonDecoder] (verifier : RuntimeAuthorizationVerifier)
    (envelope : SignedRuntimeAuthorization) (request : RouteRequest) (now : ClockReading) :
    Coroutine VerifiedRuntimeAuthorization := do
  compute (verifier.verifyOffline envelope request now)
  verifier.enforceRuntimeControl envelope.claims
  verifier.consumeAuthorization envelope.claims now.wall
  pure ⟨envelope, now, verifier.keySet.generation⟩

def matchingModels (verified : VerifiedRuntimeAuthorization) (selectedModelGroup : ModelGroupId) :
    List AuthorizedRuntimeModel :=
  verified.envelope.claims.scope.models.filter
    fun model => model.routingGroup.val = selectedModelGroup.value

/-- The group the router selected has to be signed, for the signed data classification. -/
def requireSelectedModel (verified : VerifiedRuntimeAuthorization)
    (selectedModelGroup : ModelGroupId) : Except PyException Unit := do
  let matching := matchingModels verified selectedModelGroup
  raiseIf (matching = [])
    (denial .selectedModelGroupNotAuthorized
      "Selected model group is outside the signed Governance scope")
  raiseIf (¬ ∃ model ∈ matching,
      verified.envelope.claims.scope.dataClassification ∈ model.allowedDataClasses)
    (denial .selectedModelDataClassNotAuthorized
      "Selected model group is not signed for this data classification")

end RuntimeAuthorizationVerifier

end PolicyModelRouter.AuthorizationVerifier
