import PolicyModelRouter.HandlerRuns

/-!
# The causes of a denial

A denial leaves the handler for one of four causes: the deployment cannot authorize the
request, the authorization was not verified, runtime control refused it after it was
verified, or the selected group is outside the signed scope. The cause decides how far the
trust recorded for the evidence reaches.
-/

namespace PolicyModelRouter.DenialRuns
open AuthorizationContract AuthorizationVerifier AwaitingPrograms HandlerRuns OrderedChecks
open PythonText ReplayGuards RouteEndpoint RouteRuns RouterCalls RoutingCatalog RuntimeControl
open TrustedKeys UtcTimestamps VerificationTraces ViolationContract ViolationEvidence WireContracts

def offlineCodes : List DenialCode :=
  [.invalidTime, .issuerMismatch, .audienceMismatch, .issuedInFuture, .notYetValid, .expired,
    .unknownKey, .keyRevoked, .keyNotValidForIssueTime, .keyVerificationWindowClosed,
    .invalidSignature, .requestCostPrecisionUnsupported, .requestBindingMismatch,
    .agentBindingMismatch, .governancePolicyMismatch]

/-- The errors of these checks: their own denials, and the errors of their arithmetic. -/
inductive OfflineFailure : PyException → Prop where
  | denied {code : DenialCode} {message : String} (own : code ∈ offlineCodes) :
      OfflineFailure (denial code message)
  | overflow : OfflineFailure .overflow
  | decimal (signal : DecimalArithmetic.Signal) : OfflineFailure (.decimalSignal signal)

section Checks

variable {verifier : RuntimeAuthorizationVerifier} {claims : RuntimeAuthorizationClaims}
variable {envelope : SignedRuntimeAuthorization} {request : RouteRequest} {now : Datetime}

theorem onlyErrors_denial {condition : Prop} [Decidable condition] {code : DenialCode}
    {message : String} (own : code ∈ offlineCodes) :
    OnlyErrors OfflineFailure (raiseIf condition (denial code message)) :=
  OnlyErrors.raiseIf (.denied own)

theorem onlyErrors_orOverflow {result : Option Datetime} :
    OnlyErrors OfflineFailure (orOverflow result) := by
  cases result with
  | none => exact .error .overflow
  | some d => exact .ok d

private theorem onlyErrors_identityAndTime :
    OnlyErrors OfflineFailure (verifier.verifyIdentityAndTime claims now) := by
  refine .bind (onlyErrors_denial (by decide)) fun _ => ?_
  refine .bind (onlyErrors_denial (by decide)) fun _ => ?_
  refine .bind onlyErrors_orOverflow fun _ => ?_
  refine .bind (onlyErrors_denial (by decide)) fun _ => ?_
  refine .bind (onlyErrors_denial (by decide)) fun _ => ?_
  refine .bind onlyErrors_orOverflow fun _ => ?_
  exact onlyErrors_denial (by decide)

private theorem onlyErrors_requireKey : OnlyErrors OfflineFailure
    (verifier.requireKey envelope now) := by
  unfold RuntimeAuthorizationVerifier.requireKey
  split
  · exact .error (.denied (by decide))
  · refine .bind (onlyErrors_denial (by decide)) fun _ => ?_
    refine .bind (onlyErrors_denial (by decide)) fun _ => ?_
    refine .bind onlyErrors_orOverflow fun _ => ?_
    refine .bind (onlyErrors_denial (by decide)) fun _ => ?_
    exact .ok _

private theorem onlyErrors_costMicros {value : DecimalArithmetic.Decimal} :
    OnlyErrors OfflineFailure (costMicros value) := by
  refine .bind ?_ fun _ => .bind (onlyErrors_denial (by decide)) fun _ => .ok _
  intro e h
  obtain ⟨signal, -, rfl⟩ := mapError_eq_error.mp h
  exact .decimal signal

theorem onlyErrors_verifyOffline [Cryptography] {now : ClockReading} :
    OnlyErrors OfflineFailure (verifier.verifyOffline envelope request now) := by
  refine .bind (onlyErrors_denial (by decide)) fun _ => ?_
  refine .bind onlyErrors_identityAndTime fun _ => ?_
  refine .bind onlyErrors_requireKey fun key => ?_
  refine .bind (onlyErrors_denial (by decide)) fun _ => ?_
  refine .bind (.bind onlyErrors_costMicros fun _ => onlyErrors_denial (by decide)) fun _ => ?_
  refine .bind (onlyErrors_denial (by decide)) fun _ => ?_
  exact onlyErrors_denial (by decide)

theorem code_of_requireSelectedModel {verified : VerifiedRuntimeAuthorization}
    {selected : GovernedVocabularies.ModelGroupId} {e : PyException}
    (h : RuntimeAuthorizationVerifier.requireSelectedModel verified selected = .error e) :
    ∃ code message, code ∈ modelScopeCodes ∧ e = denial code message := by
  have hkind : OnlyErrors (fun e => ∃ code message, code ∈ modelScopeCodes ∧
      e = denial code message) (RuntimeAuthorizationVerifier.requireSelectedModel verified selected) :=
    .bind (.raiseIf ⟨_, _, by decide, rfl⟩) fun _ => .raiseIf ⟨_, _, by decide, rfl⟩
  exact hkind e h

theorem code_of_refusal {e : Event Reply} {code : DenialCode} (h : refusal e = some code) :
    code ∈ replayCodes := by
  unfold refusal at h
  split at h
  · split at h <;> cases h <;> decide
  · split at h <;> cases h <;> decide
  · cases h

end Checks

theorem onlyErrors_nonEmpty {s : String} : OnlyErrors (· = .validation) (nonEmpty s) := by
  unfold nonEmpty
  split
  · exact .ok _
  · exact .error rfl

private theorem onlyErrors_schemaVersion {s : String} : OnlyErrors (· = .validation)
    (schemaVersion s) := by
  unfold schemaVersion
  split
  · exact .ok _
  · exact .error rfl

private theorem onlyErrors_fromDomainCandidates {candidates : List RoutingCatalog.RejectedCandidate} :
    OnlyErrors (· = .validation) (fromDomainCandidates candidates) := by
  induction candidates with
  | nil => exact .ok _
  | cons candidate rest ih =>
    refine .bind ?_ fun _ => .bind ih fun _ => .ok _
    exact .bind onlyErrors_nonEmpty fun _ => .bind onlyErrors_nonEmpty fun _ =>
      .bind onlyErrors_nonEmpty fun _ => .ok _

theorem onlyErrors_fromDomainDecision {decision : RouteDecision} :
    OnlyErrors (· = .validation) (fromDomainDecision decision) := by
  refine .bind onlyErrors_schemaVersion fun _ => ?_
  refine .bind onlyErrors_nonEmpty fun _ => ?_
  refine .bind onlyErrors_nonEmpty fun _ => ?_
  refine .bind onlyErrors_nonEmpty fun _ => ?_
  refine .bind onlyErrors_nonEmpty fun _ => ?_
  refine .bind onlyErrors_fromDomainCandidates fun _ => ?_
  refine .bind onlyErrors_nonEmpty fun _ => ?_
  refine .bind onlyErrors_nonEmpty fun _ => ?_
  refine .bind onlyErrors_nonEmpty fun _ => ?_
  refine .bind onlyErrors_nonEmpty fun _ => ?_
  refine .bind onlyErrors_nonEmpty fun _ => ?_
  exact .ok _

inductive AuthenticationFailure : PyException → Prop where
  | refused (message : String) : AuthenticationFailure (.authentication message)
  | typeError : AuthenticationFailure .typeError

theorem onlyErrors_authenticate [UnicodeTables] {xApiKey : Option String} {agentName : String}
    {apiKeys : AList fun _ : String => String} :
    OnlyErrors AuthenticationFailure (authenticate xApiKey agentName apiKeys) := by
  unfold authenticate
  simp only
  split
  · split
    · exact .raiseIf (.refused _)
    · exact .error .typeError
  · exact .error (.refused _)

section Handler

variable [UnicodeTables] [Cryptography] [JsonDecoder]

/-- The authorization of the body passed every check that reads no store, for this very
request, at an instant the clock gave in this run. -/
structure Trusted (app : Application) (body : RouteRequestEnvelope) (es : List (Event Reply)) :
    Prop where
  checked : ∃ (verifier : RuntimeAuthorizationVerifier) (envelope : SignedRuntimeAuthorization)
    (now : Datetime), Required app body.authorization verifier envelope ∧ ⟨.utcNow, now⟩ ∈ es ∧
    verifier.verifyOffline envelope (toDomainRequest body.request) (.utc now) = .ok ()

/-- Why the handler denied a request, with the state it left for the evidence. -/
inductive Cause (app : Application) (useCase : RouteModelUseCase) (body : RouteRequestEnvelope)
    (correlationId : String) : List (Event Reply) → RuntimeAuthorizationError → RequestState → Prop
    where
  | mode {es : List (Event Reply)} {code : DenialCode} {message : String}
      (own : code ∈ modeCodes) :
      Cause app useCase body correlationId es ⟨code, message, false⟩
        (initialState body correlationId)
  | unverified {es : List (Event Reply)} {code : DenialCode} {message : String}
      (present : body.authorization ≠ none) (own : code ∈ offlineCodes ++ replayCodes) :
      Cause app useCase body correlationId es ⟨code, message, false⟩
        (initialState body correlationId)
  | control {es : List (Event Reply)} {code : DenialCode} {message : String}
      (trusted : Trusted app body es) (own : code ∈ controlCodes) :
      Cause app useCase body correlationId es ⟨code, message, true⟩
        (initialState body correlationId)
  | scope {es routed : List (Event Reply)} {code : DenialCode} {message : String}
      {decision : RouteDecision} {verified : Verification} (trusted : Trusted app body es)
      (own : code ∈ modelScopeCodes) (some_ : verified.isSome = true) (part : routed <:+: es)
      (selected : Returns (routing useCase body) routed decision) :
      Cause app useCase body correlationId es ⟨code, message, false⟩
        (selectedState body correlationId verified decision.selectedModelGroup)

variable {app : Application} {scope : RouteScope} {useCase : RouteModelUseCase}
variable {body : RouteRequestEnvelope} {correlationId : String} {es : List (Event Reply)}
variable {error : RuntimeAuthorizationError} {state : RequestState}

omit [UnicodeTables] [JsonDecoder] in
theorem Trusted.mono {es' : List (Event Reply)} (h : Trusted app body es) (part : es ⊆ es') :
    Trusted app body es' := by
  obtain ⟨verifier, envelope, now, hrequired, hclock, hoffline⟩ := h.checked
  exact ⟨verifier, envelope, now, hrequired, part hclock, hoffline⟩

omit [UnicodeTables] [JsonDecoder] in
theorem Trusted.present (h : Trusted app body es) : body.authorization ≠ none := by
  obtain ⟨verifier, envelope, now, hrequired, -⟩ := h.checked
  simp [hrequired.present]

private theorem cause_of_unauthorized {rest : List (Event Reply)}
    (h : Unauthorized app body.authorization (toDomainRequest body.request) rest
      (.runtimeAuthorization error)) (part : rest ⊆ es) :
    Cause app useCase body correlationId es error (initialState body correlationId) := by
  generalize hraised : PyException.runtimeAuthorization error = e at h
  cases h with
  | mode own =>
    cases hraised
    exact .mode own
  | @denied verifier envelope now rest e required denied =>
    have hpresent : body.authorization ≠ none := by simp [required.present]
    have hclock : ⟨.utcNow, now⟩ ∈ es := part List.mem_cons_self
    cases denied with
    | offline check =>
      subst hraised
      cases onlyErrors_verifyOffline _ check with
      | denied own => exact .unverified hpresent (List.mem_append_left _ own)
    | control checked configured own =>
      cases hraised
      exact .control ⟨verifier, envelope, now, required, hclock, checked⟩ own
    | replay checked allowed refused =>
      cases hraised
      exact .unverified hpresent (List.mem_append_right _ (code_of_refusal refused))

theorem cause_of_raises
    (h : Raises (RouteEndpoint.route app scope useCase body correlationId) es
      (.runtimeAuthorization error, state)) :
    Cause app useCase body correlationId es error state := by
  generalize hraised : (PyException.runtimeAuthorization error, state) = failure at h
  cases failed_of_raises h with
  | refused refused =>
    obtain ⟨rfl, rfl⟩ := Prod.mk.inj hraised
    generalize hsame : PyException.runtimeAuthorization error = e at refused
    cases refused with
    | limited => cases hsame
    | unauthenticated mismatch =>
      subst hsame
      cases onlyErrors_authenticate _ mismatch
    | unauthorized authenticated unauthorized =>
      subst hsame
      exact cause_of_unauthorized unauthorized (List.subset_cons_self _ _)
  | unrouted passed failed =>
    obtain ⟨rfl, rfl⟩ := Prod.mk.inj hraised
    cases raises_route failed
  | @outOfScope admitted routed verified decision e passed selected outside =>
    obtain ⟨rfl, rfl⟩ := Prod.mk.inj hraised
    obtain ⟨rest, rfl, -, hauthorized⟩ := returns_admitRequest passed
    cases hauthorized with
    | notRequired disabled absent => cases outside
    | @verified verifier envelope now calls verified required returned =>
      obtain ⟨code, message, hcode, hsame⟩ := code_of_requireSelectedModel outside
      cases hsame
      refine .scope ⟨verifier, envelope, now, required, by simp, (returns_verify.mp returned).1⟩
        hcode rfl (List.suffix_append _ _).isInfix selected
  | unpublished passed selected within invalid =>
    obtain ⟨rfl, rfl⟩ := Prod.mk.inj hraised
    cases onlyErrors_fromDomainDecision _ invalid

end Handler

end PolicyModelRouter.DenialRuns
