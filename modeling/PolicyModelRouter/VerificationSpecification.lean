import PolicyModelRouter.AuthorizationVerifier
import PolicyModelRouter.RoutingSpecification

/-!
# Verification accepts exactly what was signed for this request, now

The conditions of acceptance in their order, each with the code its violation is
reported under. They name no step of the code; times are compared as integers, so
that the clock skew may reach outside the calendar.
-/

namespace PolicyModelRouter.VerificationSpecification
open AuthorizationContract AuthorizationVerifier AwaitingPrograms DecimalArithmetic OrderedChecks
open ReplayGuards RouterCalls RoutingCatalog RuntimeControl TrustedKeys UtcTimestamps
open RoutingSpecification (ports)
open RuntimeAuthorizationVerifier

def codeOf : PyException → Option DenialCode
  | .runtimeAuthorization e => some e.code
  | _ => none

abbrev Checks := List (Prop × DenialCode)

def skew (verifier : RuntimeAuthorizationVerifier) : ℤ :=
  verifier.clockSkewSeconds * microsPerSecond

def identityAndTimeChecks (verifier : RuntimeAuthorizationVerifier)
    (claims : RuntimeAuthorizationClaims) (now : Datetime) : Checks :=
  [(claims.issuer.val = verifier.issuer, .issuerMismatch),
    ((∃ consumer ∈ claims.audience, consumer.val = verifier.audience), .audienceMismatch),
    ((claims.issuedAt.micros : ℤ) ≤ now.micros + skew verifier, .issuedInFuture),
    ((claims.notBefore.micros : ℤ) ≤ now.micros + skew verifier, .notYetValid),
    (now.micros - skew verifier < claims.expiresAt.micros, .expired)]

def KeyWith (verifier : RuntimeAuthorizationVerifier) (envelope : SignedRuntimeAuthorization)
    (property : TrustedRuntimeAuthorizationKey → Prop) : Prop :=
  ∃ key, verifier.keySet.resolve (points envelope.protected_.kid) = some key ∧ property key

def trustedKeyChecks (verifier : RuntimeAuthorizationVerifier)
    (envelope : SignedRuntimeAuthorization) (now : Datetime) : Checks :=
  [(KeyWith verifier envelope fun _ => True, .unknownKey),
    (KeyWith verifier envelope fun key => key.status ≠ .revoked, .keyRevoked),
    (KeyWith verifier envelope fun key =>
      key.notBefore ≤ envelope.claims.issuedAt ∧ envelope.claims.issuedAt < key.verifyUntil,
      .keyNotValidForIssueTime),
    (KeyWith verifier envelope fun key => now.micros - skew verifier < key.verifyUntil.micros,
      .keyVerificationWindowClosed)]

def signatureChecks [Cryptography] (verifier : RuntimeAuthorizationVerifier)
    (envelope : SignedRuntimeAuthorization) : Checks :=
  [(KeyWith verifier envelope fun key => ∃ signature,
      decodeSignature envelope.signature = .ok signature ∧
        Cryptography.verify key.publicKey signature envelope.signingBytes = true,
    .invalidSignature)]

structure BindsRequest (claims : RuntimeAuthorizationClaims) (request : RouteRequest)
    (micros : ℤ) : Prop where
  requestedAt : claims.issuedAt = request.requestedAt
  workflowId : claims.request.workflowId.val = request.workflowId
  taskId : claims.request.taskId.val = request.taskId
  workload : claims.request.workload.val = request.workload.value
  contextTokens : claims.request.contextTokensEstimated.val = request.contextTokensEstimated
  outputTokens : claims.request.maxOutputTokensEstimated.val = request.maxOutputTokensEstimated
  structuredOutput : claims.request.structuredOutputRequired = request.structuredOutputRequired
  latency : claims.request.maxLatencyMs.val = request.maxLatencyMs
  cost : claims.request.maxCostUsdMicros.val = micros
  riskLevel : claims.scope.riskTier.value = request.riskLevel.value
  dataClassification : claims.scope.dataClassification = request.dataClassification

def requestBindingChecks (claims : RuntimeAuthorizationClaims) (request : RouteRequest) : Checks :=
  [((∃ micros, costMicros request.maxCostUsd = .ok micros), .requestCostPrecisionUnsupported),
    ((∃ micros, costMicros request.maxCostUsd = .ok micros ∧ BindsRequest claims request micros),
      .requestBindingMismatch)]

def agentBindingChecks (verifier : RuntimeAuthorizationVerifier)
    (claims : RuntimeAuthorizationClaims) (agentName : String) : Checks :=
  [(verifier.agentBindings.lookup agentName = some claims.subject.agentId, .agentBindingMismatch)]

/-- The six provenance fields are the ones this deployment expects. -/
structure TrustedProvenance (verifier : RuntimeAuthorizationVerifier)
    (policy : RuntimeAuthorizationPolicyProvenance) : Prop where
  policyId : policy.policyId.val = verifier.expectedPolicyId
  policyVersion : policy.policyVersion.val = verifier.expectedPolicyVersion
  policyDigest : policy.policyDigest.val = verifier.expectedPolicyDigest
  controlCatalogId : policy.controlCatalogId.val = verifier.expectedControlCatalogId
  controlCatalogVersion : policy.controlCatalogVersion.val = verifier.expectedControlCatalogVersion
  controlCatalogDigest : policy.controlCatalogDigest.val = verifier.expectedControlCatalogDigest

def provenanceChecks (verifier : RuntimeAuthorizationVerifier)
    (claims : RuntimeAuthorizationClaims) : Checks :=
  [(TrustedProvenance verifier claims.policy, .governancePolicyMismatch)]

def offlineChecks [Cryptography] (verifier : RuntimeAuthorizationVerifier)
    (envelope : SignedRuntimeAuthorization) (request : RouteRequest) (now : Datetime) : Checks :=
  identityAndTimeChecks verifier envelope.claims now ++
    (trustedKeyChecks verifier envelope now ++ (signatureChecks verifier envelope ++
      (requestBindingChecks envelope.claims request ++
        (agentBindingChecks verifier envelope.claims request.agentName ++
          provenanceChecks verifier envelope.claims))))

/-- The reply of the projection holds a snapshot for the agent with a property. -/
def SnapshotWith [JsonDecoder] (store : RedisRuntimeControlStore)
    (claims : RuntimeAuthorizationClaims) (answer : (call : Call) → Reply call)
    (property : RuntimeControlSnapshot → Prop) : Prop :=
  ∃ snapshot, interpretReply store claims.subject.agentId.str
    (answer (.redisGet (store.keyPrefix ++ claims.subject.agentId.str))) = .ok (some snapshot) ∧
      property snapshot

/-- Runtime control allows the signed agent, when it is configured. -/
def controlChecks [JsonDecoder] (verifier : RuntimeAuthorizationVerifier)
    (claims : RuntimeAuthorizationClaims) (answer : (call : Call) → Reply call) : Checks :=
  match verifier.runtimeControl with
  | none => []
  | some store =>
    [(SnapshotWith store claims answer fun _ => True, .runtimeControlUnavailable),
      (SnapshotWith store claims answer fun snapshot => snapshot.state = .inactive,
        .killSwitchEngaged),
      (SnapshotWith store claims answer fun snapshot =>
        snapshot.revokedThroughAgentVersion < claims.subject.agentVersion.val,
        .runtimeAuthorizationRevoked)]

/-- The replay guard reports the identifier fresh. -/
def replayChecks (verifier : RuntimeAuthorizationVerifier) (claims : RuntimeAuthorizationClaims)
    (now : Datetime) (answer : (call : Call) → Reply call) : Checks :=
  match verifier.replayGuard with
  | .inMemory _ _ =>
    let reply : ConsumeReply :=
      answer (.memoryConsume claims.authorizationId claims.expiresAt now)
    [(reply ≠ .full, .replayStoreFull), (reply = .fresh, .replayDetected)]
  | .redis keyPrefix _ =>
    let reply : SetReply := answer (.redisSet (keyPrefix ++ claims.authorizationId.str)
      (timeToLive claims.expiresAt now))
    [(reply ≠ .raises, .replayStoreUnavailable), (reply = .set, .replayDetected)]

/-- All the conditions of acceptance, in the order of verification. -/
def checks [Cryptography] [JsonDecoder] (verifier : RuntimeAuthorizationVerifier)
    (envelope : SignedRuntimeAuthorization) (request : RouteRequest) (now : Datetime)
    (answer : (call : Call) → Reply call) : Checks :=
  offlineChecks verifier envelope request now ++ (controlChecks verifier envelope.claims answer ++
    replayChecks verifier envelope.claims now answer)

section Steps

variable {verifier : RuntimeAuthorizationVerifier} {envelope : SignedRuntimeAuthorization}
variable {claims : RuntimeAuthorizationClaims} {request : RouteRequest} {now : Datetime}
variable {answer : (call : Call) → Reply call}

def Representable (verifier : RuntimeAuthorizationVerifier) (now : Datetime) : Prop :=
  now.plusSeconds verifier.clockSkewSeconds ≠ none ∧
    now.minusSeconds verifier.clockSkewSeconds ≠ none

private theorem exists_latest (h : Representable verifier now) :
    ∃ latest : Datetime, orOverflow (now.plusSeconds verifier.clockSkewSeconds) = .ok latest ∧
      (latest.micros : ℤ) = now.micros + skew verifier := by
  obtain ⟨latest, hlatest⟩ := Option.ne_none_iff_exists'.mp h.1
  refine ⟨latest, by rw [hlatest]; rfl, ?_⟩
  rw [Datetime.plusSeconds_eq_some.mp hlatest]
  simp [skew]

private theorem exists_earliest (h : Representable verifier now) :
    ∃ earliest : Datetime, orOverflow (now.minusSeconds verifier.clockSkewSeconds) = .ok earliest ∧
      (earliest.micros : ℤ) = now.micros - skew verifier := by
  obtain ⟨earliest, hearliest⟩ := Option.ne_none_iff_exists'.mp h.2
  refine ⟨earliest, by rw [hearliest]; rfl, ?_⟩
  rw [Datetime.minusSeconds_eq_some.mp hearliest]
  simp [skew]

private theorem decides_identityAndTime (h : Representable verifier now) :
    Decides codeOf (verifier.verifyIdentityAndTime claims now)
      (identityAndTimeChecks verifier claims now) := by
  obtain ⟨latest, hlatest, hlatest'⟩ := exists_latest h
  obtain ⟨earliest, hearliest, hearliest'⟩ := exists_earliest h
  refine Decides.raiseIf_bind rfl (by simp) fun _ => ?_
  refine Decides.raiseIf_bind rfl (by simp) fun _ => ?_
  apply Decides.bind_ok hlatest
  refine Decides.raiseIf_bind rfl (by rw [Datetime.lt_def]; omega) fun _ => ?_
  refine Decides.raiseIf_bind rfl (by rw [Datetime.lt_def]; omega) fun _ => ?_
  apply Decides.bind_ok hearliest
  exact Decides.raiseIf rfl (by rw [Datetime.le_def]; omega)

theorem keyWith_iff {property : TrustedRuntimeAuthorizationKey → Prop}
    {key : TrustedRuntimeAuthorizationKey}
    (hkey : verifier.keySet.resolve (points envelope.protected_.kid) = some key) :
    KeyWith verifier envelope property ↔ property key := by
  simp [KeyWith, hkey]

private theorem decides_trustedKey (h : Representable verifier now) :
    Decides codeOf (verifier.requireKey envelope now) (trustedKeyChecks verifier envelope now) := by
  obtain ⟨earliest, hearliest, hearliest'⟩ := exists_earliest h
  unfold requireKey
  cases hkey : verifier.keySet.resolve (points envelope.protected_.kid) with
  | none =>
    refine Decides.violated rfl ?_
    simp [KeyWith, hkey]
  | some key =>
    apply Decides.satisfied ((keyWith_iff hkey).mpr trivial)
    refine Decides.raiseIf_bind rfl (by simp [keyWith_iff hkey]) fun _ => ?_
    refine Decides.raiseIf_bind rfl (by rw [keyWith_iff hkey]) fun _ => ?_
    apply Decides.bind_ok hearliest
    refine Decides.raiseIf_bind rfl ?_ fun _ => Decides.pure key
    rw [keyWith_iff hkey, Datetime.le_def]
    omega

theorem resolve_of_requireKey {key : TrustedRuntimeAuthorizationKey}
    (h : verifier.requireKey envelope now = .ok key) :
    verifier.keySet.resolve (points envelope.protected_.kid) = some key := by
  unfold requireKey at h
  cases hkey : verifier.keySet.resolve (points envelope.protected_.kid) with
  | none => simp [hkey] at h
  | some found =>
    rw [hkey] at h
    obtain ⟨_, -, h⟩ := bind_eq_ok.mp h
    obtain ⟨_, -, h⟩ := bind_eq_ok.mp h
    obtain ⟨_, -, h⟩ := bind_eq_ok.mp h
    obtain ⟨_, -, h⟩ := bind_eq_ok.mp h
    rw [Except.ok.inj h]

private theorem signatureVerifies_iff [Cryptography] {key : TrustedRuntimeAuthorizationKey} :
    signatureVerifies envelope key = true ↔ ∃ signature,
      decodeSignature envelope.signature = .ok signature ∧
        Cryptography.verify key.publicKey signature envelope.signingBytes = true := by
  unfold signatureVerifies
  cases decodeSignature envelope.signature <;> simp

private theorem decides_signature [Cryptography] {key : TrustedRuntimeAuthorizationKey}
    (hkey : verifier.keySet.resolve (points envelope.protected_.kid) = some key) :
    Decides codeOf (verifySignature envelope key) (signatureChecks verifier envelope) := by
  refine Decides.raiseIf rfl ?_
  rw [keyWith_iff hkey, ← signatureVerifies_iff, Bool.not_eq_true]

def Convertible (request : RouteRequest) : Prop :=
  ∃ micros, Decimal.mul defaultContext request.maxCostUsd (.ofInt 1000000) = .ok micros

/-- No listed fact differs exactly when all eleven are bound. -/
theorem mismatches_eq_nil_iff {micros : ℤ} :
    ((mismatches claims request micros).filter Prod.snd).map Prod.fst = [] ↔
      BindsRequest claims request micros := by
  simp only [List.map_eq_nil_iff, List.filter_eq_nil_iff, mismatches, List.forall_mem_cons,
    decide_eq_true_eq, ne_eq, not_not]
  constructor
  · rintro ⟨h₁, h₂, h₃, h₄, h₅, h₆, h₇, h₈, h₉, h₁₀, h₁₁, -⟩
    exact ⟨h₆, h₁₀, h₉, h₁₁, h₁, h₅, h₈, h₄, h₃, h₇, h₂⟩
  · rintro ⟨h₆, h₁₀, h₉, h₁₁, h₁, h₅, h₈, h₄, h₃, h₇, h₂⟩
    exact ⟨h₁, h₂, h₃, h₄, h₅, h₆, h₇, h₈, h₉, h₁₀, h₁₁, by simp⟩

private theorem decides_requestBinding (h : Convertible request) :
    Decides codeOf (verifyRequestBinding claims request) (requestBindingChecks claims request) := by
  obtain ⟨product, hproduct⟩ := h
  have hcost : Decides codeOf (costMicros request.maxCostUsd)
      [((∃ micros, costMicros request.maxCostUsd = .ok micros),
        .requestCostPrecisionUnsupported)] := by
    rw [costMicros_of_mul hproduct]
    refine Decides.raiseIf_bind rfl ?_ fun _ => Decides.pure _
    cases product.eqv product.toIntegralValue <;> simp [raiseIf, Except.bind]
  apply hcost.bind
  intro micros hmicros
  refine Decides.raiseIf rfl ?_
  rw [ne_eq, mismatches_eq_nil_iff]
  simp [hmicros]

private theorem decides_agentBinding {agentName : String} :
    Decides codeOf (verifier.verifyAgentBinding claims agentName)
      (agentBindingChecks verifier claims agentName) :=
  Decides.raiseIf rfl Iff.rfl

private theorem decides_provenance :
    Decides codeOf (verifier.verifyPolicyProvenance claims) (provenanceChecks verifier claims) := by
  refine Decides.raiseIf rfl ?_
  constructor
  · rintro h ⟨h₁, h₂, h₃, h₄, h₅, h₆⟩
    simp [h₁, h₂, h₃, h₄, h₅, h₆] at h
  · intro h
    by_contra hne
    simp only [ne_eq, not_or, not_not] at hne
    obtain ⟨h₁, h₂, h₃, h₄, h₅, h₆⟩ := hne
    exact h ⟨h₁, h₂, h₃, h₄, h₅, h₆⟩

private theorem decides_offline [Cryptography] (h : Representable verifier now)
    (hcost : Convertible request) :
    Decides codeOf (verifier.verifyOffline envelope request (.utc now))
      (offlineChecks verifier envelope request now) := by
  refine (decides_identityAndTime h).bind fun _ _ => ?_
  refine (decides_trustedKey h).bind fun key hkey => ?_
  refine (decides_signature (resolve_of_requireKey hkey)).bind fun _ _ => ?_
  refine (decides_requestBinding hcost).bind fun _ _ => ?_
  exact decides_agentBinding.bind fun _ _ => decides_provenance

private theorem outcome_enforce [JsonDecoder] (store : RedisRuntimeControlStore) (agentVersion : ℤ) :
    outcome answer (enforce store claims.subject.agentId.str agentVersion) =
      ((interpretReply store claims.subject.agentId.str
        (answer (.redisGet (store.keyPrefix ++ claims.subject.agentId.str)))).mapError
          fun _ => unavailable).bind (permit agentVersion) := by
  simp only [enforce, RedisRuntimeControlStore.read, outcome_bind, outcome_mapError,
    outcome_compute, outcome_ask, raiseIf, Uuids.str_ne_empty, if_false, Except.bind]

private theorem decides_permit {snapshot : RuntimeControlSnapshot} {agentVersion : ℤ} :
    Decides codeOf ((permit agentVersion (some snapshot)).mapError verifiedDenial)
      [(snapshot.state = .inactive, .killSwitchEngaged),
        (snapshot.revokedThroughAgentVersion < agentVersion, .runtimeAuthorizationRevoked)] := by
  by_cases hactive : snapshot.state = .active
  · simp only [permit, raiseIf, hactive, if_true]
    exact Decides.violated rfl (by simp)
  · have hinactive : snapshot.state = .inactive := by
      cases hstate : snapshot.state with
      | inactive => rfl
      | active => exact absurd hstate hactive
    apply Decides.satisfied hinactive
    by_cases hrevoked : agentVersion ≤ snapshot.revokedThroughAgentVersion
    · simp only [permit, raiseIf, hactive, hrevoked, if_true, if_false]
      exact Decides.violated rfl (by omega)
    · simp only [permit, raiseIf, hactive, hrevoked, if_false]
      exact Decides.satisfied (by omega) (Decides.pure snapshot)

private theorem decides_control [JsonDecoder] :
    Decides codeOf (outcome answer (verifier.enforceRuntimeControl claims))
      (controlChecks verifier claims answer) := by
  unfold enforceRuntimeControl controlChecks
  cases verifier.runtimeControl with
  | none => exact Decides.pure ()
  | some store =>
    simp only [outcome_bind, outcome_mapError, outcome_enforce, outcome_pure, SnapshotWith]
    rcases hread : interpretReply store claims.subject.agentId.str
        (answer (.redisGet (store.keyPrefix ++ claims.subject.agentId.str))) with _ | snapshot
    · exact Decides.violated rfl (by simp)
    · cases snapshot with
      | none => exact Decides.violated rfl (by simp)
      | some snapshot =>
        apply Decides.satisfied (by simp)
        refine (decides_permit.bind fun _ _ => Decides.pure ()).congr ?_
        simp

private theorem decides_replay :
    Decides codeOf (outcome answer (verifier.consumeAuthorization claims now))
      (replayChecks verifier claims now answer) := by
  unfold consumeAuthorization replayChecks RuntimeAuthorizationReplayGuard.consume
  cases verifier.replayGuard with
  | inMemory maxEntries positive =>
    simp only [outcome_bind, outcome_mapError, outcome_ask, outcome_compute]
    cases answer (.memoryConsume claims.authorizationId claims.expiresAt now) with
    | fresh => exact Decides.satisfied (by simp) (Decides.satisfied rfl (Decides.pure ()))
    | replayed => exact Decides.satisfied (by simp) (Decides.violated rfl (by simp))
    | full => exact Decides.violated rfl (by simp)
  | redis keyPrefix named =>
    simp only [outcome_bind, outcome_mapError, outcome_ask, outcome_compute]
    cases answer (.redisSet (keyPrefix ++ claims.authorizationId.str)
        (timeToLive claims.expiresAt now)) with
    | set => exact Decides.satisfied (by simp) (Decides.satisfied rfl (Decides.pure ()))
    | notSet => exact Decides.satisfied (by simp) (Decides.violated rfl (by simp))
    | raises => exact Decides.violated rfl (by simp)

end Steps

section Verification

variable [Cryptography] [JsonDecoder] {verifier : RuntimeAuthorizationVerifier}
variable {envelope : SignedRuntimeAuthorization} {request : RouteRequest} {now : Datetime}
variable {answer : (call : Call) → Reply call}

private theorem decides_verify (representable : Representable verifier now)
    (convertible : Convertible request) :
    Decides codeOf (outcome answer (verifier.verify envelope request (.utc now)))
      (checks verifier envelope request now answer) := by
  simp only [verify, outcome_bind, outcome_compute, outcome_pure, checks]
  refine (decides_offline representable convertible).bind fun _ _ => ?_
  refine decides_control.bind fun _ _ => ?_
  refine (decides_replay.bind fun _ _ => Decides.pure _).congr ?_
  rw [List.append_nil]
  exact List.forall₂_same.mpr fun _ _ => ⟨Iff.rfl, rfl⟩

theorem returned_of_verify {verified : VerifiedRuntimeAuthorization}
    (h : outcome answer (verifier.verify envelope request (.utc now)) = .ok verified) :
    verified = ⟨envelope, .utc now, verifier.keySet.generation⟩ := by
  simp only [verify, outcome_bind, outcome_compute, outcome_pure] at h
  obtain ⟨_, -, h⟩ := bind_eq_ok.mp h
  obtain ⟨_, -, h⟩ := bind_eq_ok.mp h
  obtain ⟨_, -, h⟩ := bind_eq_ok.mp h
  exact (Except.ok.inj h).symm

/-- An exception of the first step is the outcome. -/
theorem outcome_of_identityAndTime {e : PyException}
    (h : verifier.verifyIdentityAndTime envelope.claims now = .error e) :
    outcome answer (verifier.verify envelope request (.utc now)) = .error e := by
  have hoffline : verifier.verifyOffline envelope request (.utc now) = .error e := by
    change (verifier.verifyIdentityAndTime envelope.claims now).bind _ = .error e
    rw [h]
    rfl
  simp only [verify, outcome_bind, outcome_compute, hoffline]
  rfl

/-- Acceptance lies between the issue time and the end of the longest lifetime, widened by
the skew on both sides. -/
theorem window_of_allHold (h : AllHold (checks verifier envelope request now answer)) :
    (envelope.claims.issuedAt.micros : ℤ) - skew verifier ≤ now.micros ∧
      now.micros < (envelope.claims.issuedAt.micros : ℤ) + maxLifetime + skew verifier := by
  simp only [checks, offlineChecks, allHold_append, identityAndTimeChecks, allHold_cons] at h
  obtain ⟨⟨⟨-, -, hissued, -, hexpired, -⟩, -⟩, -⟩ := h
  have hlifetime := envelope.claims.shortLived
  omega

end Verification

/-- What verification does with one envelope, request, instant and state of the stores. -/
structure AcceptsExactly [Cryptography] [JsonDecoder] (verifier : RuntimeAuthorizationVerifier)
    (envelope : SignedRuntimeAuthorization) (request : RouteRequest) (now : Datetime)
    (answer : (call : Call) → Reply call) : Prop where
  decides : Decides codeOf (outcome answer (verifier.verify envelope request (.utc now)))
    (checks verifier envelope request now answer)
  returned : ∀ verified, outcome answer (verifier.verify envelope request (.utc now)) = .ok verified →
    verified = ⟨envelope, .utc now, verifier.keySet.generation⟩
  window : ∀ verified, outcome answer (verifier.verify envelope request (.utc now)) = .ok verified →
    (envelope.claims.issuedAt.micros : ℤ) - skew verifier ≤ now.micros ∧
      now.micros < (envelope.claims.issuedAt.micros : ℤ) + maxLifetime + skew verifier

theorem verify_accepts_exactly [Cryptography] [JsonDecoder]
    (verifier : RuntimeAuthorizationVerifier) (envelope : SignedRuntimeAuthorization)
    (request : RouteRequest) (now : Datetime) (answer : (call : Call) → Reply call)
    (representable : Representable verifier now) (convertible : Convertible request) :
    AcceptsExactly verifier envelope request now answer := by
  have hdecides : Decides codeOf (outcome answer (verifier.verify envelope request (.utc now)))
      (checks verifier envelope request now answer) := decides_verify representable convertible
  refine ⟨hdecides, fun verified h => returned_of_verify h, ?_⟩
  intro verified h
  exact window_of_allHold (hdecides.returns.mp ⟨verified, h⟩)

namespace Deployed

open GovernedVocabularies Uuids
open RoutingSpecification.Deployed (noon request workload group useCase)

instance neZero_seconds : NeZero 1000 := ⟨by decide⟩

def afterNoon (seconds : Fin 1000) : Datetime :=
  ⟨noon.micros + seconds * microsPerSecond, by
    simp only [noon, calendarDays, microsPerDay, microsPerSecond]
    omega⟩

def digest : Digest :=
  ⟨"0000000000000000000000000000000000000000000000000000000000000000", by decide⟩

def model : AuthorizedRuntimeModel :=
  { modelId := ⟨3⟩
    entityVersion := ⟨1, by decide⟩
    modelVersion := ⟨"1.0.0", by decide⟩
    routingGroup := ⟨"fast-small", by decide⟩
    reviewDigest := digest
    allowedDataClasses := [.internal, .public]
    someDataClass := by decide
    dataClassesAscending := by
      unfold StrictlyAscending
      decide }

def scope : RuntimeAuthorizationScope :=
  { riskTier := .low
    dataClassification := .internal
    autonomyLevel := .a0Information
    models := [model]
    allowedTools := []
    permissions := []
    maxRuntimeSeconds := ⟨60, by decide⟩
    humanApprovalPoints := []
    someModel := by simp
    modelsAscending := List.pairwise_singleton _ _
    toolsAscending := .nil
    permissionsAscending := .nil
    approvalPointsAscending := .nil
    toolsBounded := by simp
    autonomyApproved := by decide
    dataClassAllowed := ⟨model, by simp, by decide⟩ }

def claims : RuntimeAuthorizationClaims :=
  { authorizationId := ⟨1⟩
    issuer := ⟨"verifiable-ai-governance:production", by decide⟩
    audience := [⟨"policy-model-router", by decide⟩]
    issuedAt := noon
    notBefore := noon
    expiresAt := afterNoon 300
    subject :=
      { initiativeId := ⟨4⟩
        aiSystemId := ⟨5⟩
        aiSystemVersion := ⟨1, by decide⟩
        agentId := ⟨2⟩
        agentVersion := ⟨7, by decide⟩
        agentReviewDigest := digest }
    request :=
      { workflowId := ⟨"wf-1", by decide⟩
        taskId := ⟨"task-1", by decide⟩
        workload := ⟨"rag.answer", by decide⟩
        contextTokensEstimated := ⟨1000, by decide⟩
        maxOutputTokensEstimated := ⟨500, by decide⟩
        structuredOutputRequired := false
        maxLatencyMs := ⟨1000, by decide⟩
        maxCostUsdMicros := ⟨10000, by decide⟩ }
    scope := scope
    scopeDigest := digest
    policy :=
      { policyId := ⟨"baseline-governance-policy", by decide⟩
        policyVersion := ⟨"1.0.0", by decide⟩
        policyDigest := digest
        controlCatalogId := ⟨"verifiable-ai-governance-baseline", by decide⟩
        controlCatalogVersion := ⟨"1.0.0", by decide⟩
        controlCatalogDigest := digest }
    someAudience := by simp
    audienceAscending := List.pairwise_singleton _ _
    issuedFirst := by decide
    expiresLast := by decide
    shortLived := by decide }

def envelope : SignedRuntimeAuthorization :=
  { protected_ := ⟨⟨"governance-key-1", by decide⟩⟩
    claims := claims
    signature := ⟨"AAAAAAAAAAAAAAAAAAAAAAAAAAAAAAAAAAAAAAAAAAAAAAAAAAAAAAAAAAAAAAAAAAAAAAAAAAAAAAAAAAAAAA",
      by decide⟩ }

def key : TrustedRuntimeAuthorizationKey :=
  { kid := points "governance-key-1"
    status := .active
    publicKey := List.replicate 32 0
    notBefore := noon
    verifyUntil := afterNoon 900
    keySize := by decide
    window := by decide }

def verifier (replayGuard : RuntimeAuthorizationReplayGuard)
    (runtimeControl : Option RedisRuntimeControlStore) (clockSkewSeconds : ℕ)
    (skewBounded : clockSkewSeconds ≤ 60) : RuntimeAuthorizationVerifier :=
  { keySet := ⟨1, [key]⟩
    replayGuard := replayGuard
    issuer := "verifiable-ai-governance:production"
    audience := "policy-model-router"
    agentBindings := AList.singleton "analyst" ⟨2⟩
    expectedPolicyId := "baseline-governance-policy"
    expectedPolicyVersion := "1.0.0"
    expectedPolicyDigest := digest
    expectedControlCatalogId := "verifiable-ai-governance-baseline"
    expectedControlCatalogVersion := "1.0.0"
    expectedControlCatalogDigest := digest
    runtimeControl := runtimeControl
    clockSkewSeconds := clockSkewSeconds
    identified := by decide
    skewBounded := skewBounded
    someBinding := by simp }

/-- The oracle of a back end for which the signature above is genuine. -/
@[reducible] def genuine : Cryptography :=
  { sha256 := fun _ _ => 0
    verify := fun _ signature _ => signature = List.replicate 64 0 }

@[reducible] def undecodable : JsonDecoder := ⟨fun _ => .error .jsonDecodeError⟩

theorem capacity_pos : 0 < 10000 := by decide

theorem widest_skew : 60 ≤ 60 := le_rfl

def inMemory : RuntimeAuthorizationReplayGuard := .inMemory 10000 capacity_pos

def controlStore : RedisRuntimeControlStore := ⟨"control:", 4096, by decide⟩

def snapshot : RuntimeControlSnapshot :=
  ⟨claims.subject.agentId.str, 1, .inactive, 0, none⟩

def snapshotText : String :=
  "\x7b\"agent_id\":\"00000000-0000-0000-0000-000000000002\",\"control_epoch\":1," ++
    "\"revoked_through_agent_version\":0,\"schema_version\":\"1.0\",\"state\":\"inactive\"," ++
    "\"transition_id\":null\x7d"

def document : PyValue :=
  .dict [(points "agent_id", .str (points snapshot.agentId)),
    (points "control_epoch", .int snapshot.controlEpoch),
    (points "revoked_through_agent_version", .int snapshot.revokedThroughAgentVersion),
    (points "schema_version", .str (points "1.0")),
    (points "state", .str (points snapshot.state.value)), (points "transition_id", .none)]

@[reducible] def decoder : JsonDecoder :=
  ⟨fun raw => if raw = snapshotText then .ok document else .error .jsonDecodeError⟩

theorem interpretReply_snapshotText :
    @interpretReply decoder controlStore claims.subject.agentId.str (.str snapshotText) =
      .ok (some snapshot) := by
  decide +kernel

def calendarEnd : Datetime := ⟨calendarDays * microsPerDay - 1, by decide⟩

theorem representable : Representable (verifier inMemory none 60 widest_skew) (afterNoon 1) :=
  ⟨by decide, by decide⟩

theorem convertible : Convertible request := ⟨⟨false, 1000000, -2⟩, by decide⟩

end Deployed

theorem verify_accepts_exactly_deployed :
    @AcceptsExactly Deployed.genuine Deployed.undecodable
      (Deployed.verifier Deployed.inMemory none 60 Deployed.widest_skew) Deployed.envelope
      RoutingSpecification.Deployed.request (Deployed.afterNoon 1)
      (ports RoutingSpecification.Deployed.useCase (fun _ => some true) "id-1"
        RoutingSpecification.Deployed.noon) :=
  @verify_accepts_exactly Deployed.genuine Deployed.undecodable
    (Deployed.verifier Deployed.inMemory none 60 Deployed.widest_skew) Deployed.envelope
    RoutingSpecification.Deployed.request (Deployed.afterNoon 1)
    (ports RoutingSpecification.Deployed.useCase (fun _ => some true) "id-1"
      RoutingSpecification.Deployed.noon)
    Deployed.representable Deployed.convertible

/-- At the end of the calendar the latest admissible issue time cannot be computed. -/
theorem verify_overflows_at_calendar_end : ¬ ∀ [Cryptography] [JsonDecoder]
    (verifier : RuntimeAuthorizationVerifier) (envelope : SignedRuntimeAuthorization)
    (request : RouteRequest) (now : Datetime) (answer : (call : Call) → Reply call),
    Convertible request → AcceptsExactly verifier envelope request now answer := by
  intro h
  obtain ⟨hdecides, -, -⟩ := @h Deployed.genuine Deployed.undecodable
    (Deployed.verifier Deployed.inMemory none 60 Deployed.widest_skew) Deployed.envelope
    RoutingSpecification.Deployed.request Deployed.calendarEnd
    (ports RoutingSpecification.Deployed.useCase (fun _ => some true) "id-1"
      RoutingSpecification.Deployed.noon) Deployed.convertible
  have hoverflow : (Deployed.verifier Deployed.inMemory none 60 Deployed.widest_skew).verifyIdentityAndTime
      Deployed.envelope.claims Deployed.calendarEnd = .error .overflow := by decide
  have houtcome := @outcome_of_identityAndTime Deployed.genuine Deployed.undecodable _ _
    RoutingSpecification.Deployed.request _ (ports RoutingSpecification.Deployed.useCase
      (fun _ => some true) "id-1" RoutingSpecification.Deployed.noon) _ hoverflow
  rcases hdecides.ok_or_error with ⟨verified, hok⟩ | ⟨e, code, herror, hcode, -⟩
  · exact absurd (houtcome.symm.trans hok) (by simp)
  · cases houtcome.symm.trans herror
    cases hcode

end PolicyModelRouter.VerificationSpecification
