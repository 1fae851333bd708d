import PolicyModelRouter.RouteRuns
import PolicyModelRouter.RoutingRuns

/-!
# The runs of the handler

The handler limits, authenticates, authorizes, routes, checks the signed scope and
publishes, in this order. Every exit is one case, with the calls made before it.
-/

namespace PolicyModelRouter.HandlerRuns
open AuthorizationContract AuthorizationVerifier AwaitingPrograms EliminatoryConstraints
open GovernedVocabularies ModelRouting OrderedChecks PythonText ReplayGuards RouteEndpoint RouteRuns
open RouterCalls RuntimeControl TrustedKeys UtcTimestamps Uuids VerificationTraces
open ViolationEvidence WireContracts
open RoutingCatalog hiding RejectedCandidate
open RoutingRuns (passes_of_rejectionReasons routed_of_completes)

inductive RoutingCall : Call → Prop where
  | resolve (declared : List (ModelGroupId × Bool)) : RoutingCall (.resolve declared)
  | newId : RoutingCall .newId
  | utcNow : RoutingCall .utcNow

theorem RoutingCall.storeless {c : Call} (h : RoutingCall c) : touchesStore c = false := by
  cases h <;> rfl

section Routing

variable [UnicodeTables] {useCase : RouteModelUseCase} {request : RouteRequest}
variable {includeRejected : Bool} {es : List (Event Reply)}

theorem issues_route {c : Call}
    (h : Issues (ModelRouting.route useCase request includeRejected).run es c) : RoutingCall c := by
  unfold ModelRouting.route at h
  simp only at h
  split at h
  · exact absurd h (not_issues_throw _ _)
  rcases issues_bind.mp h with h | ⟨_, _, _, -, -, h⟩
  · exact absurd h (not_issues_compute _ _)
  rcases issues_bind.mp h with h | ⟨_, _, _, -, -, h⟩
  · rw [(issues_ask.mp h).2]
    exact .resolve _
  rcases issues_bind.mp h with h | ⟨_, _, _, -, -, h⟩
  · exact absurd h (not_issues_compute _ _)
  split at h
  all_goals
    rcases issues_bind.mp h with h | ⟨_, _, _, -, -, h⟩
    · rw [(issues_ask.mp h).2]
      exact .newId
    rcases issues_bind.mp h with h | ⟨_, _, _, -, -, h⟩
    · rw [(issues_ask.mp h).2]
      exact .utcNow
  · exact absurd h (not_issues_throw _ _)
  · exact absurd h (not_issues_pure _ _)

inductive RoutingFailure : PyException → Prop where
  | incomplete (message : String) : RoutingFailure (.incompleteRoutingPolicy message)
  | noViable (decision : RejectedDecision) : RoutingFailure (.noViableModelGroup decision)
  | keyError : RoutingFailure .keyError
  | decimal (signal : DecimalArithmetic.Signal) : RoutingFailure (.decimalSignal signal)
  | valueError : RoutingFailure .valueError

theorem raises_route {e : PyException}
    (h : Raises (ModelRouting.route useCase request includeRejected) es e) : RoutingFailure e := by
  have hrouted := routed_of_completes h
  generalize hr : (Except.error e : Except PyException RouteDecision) = r at hrouted
  cases hrouted with
  | unmapped missing =>
    cases hr
    exact .incomplete _
  | undeclared mapped missing fast =>
    cases hr
    exact .keyError
  | @raised _ _ _ exception evaluates =>
    cases hr
    cases exception with
    | signal signal => exact .decimal signal
    | valueError => exact .valueError
  | rejected evaluates failed =>
    cases hr
    exact .noViable _
  | selected evaluates passed => cases hr

/-- The group a decision selects: the one the workload maps to, under the availability
answered in this run, with every constraint passed. -/
structure Selects (useCase : RouteModelUseCase) (request : RouteRequest) (es : List (Event Reply))
    (selected : ModelGroupId) (rule : WorkloadRule) (profile : ModelGroupProfile)
    (answer : Availability) : Prop where
  mapped : useCase.policy.workloads.lookup request.workload = some rule
  chosen : selected = rule.modelGroup
  declared : useCase.policy.modelGroups.lookup selected = some profile
  resolved : ∃ declared, (⟨.resolve declared, answer⟩ : Event Reply) ∈ es
  passes : ∀ constraint ∈ constraints,
    constraint request (effectiveProfile answer selected profile) rule = .ok none

theorem Selects.mono {es' : List (Event Reply)} {selected : ModelGroupId} {rule : WorkloadRule}
    {profile : ModelGroupProfile} {answer : Availability}
    (h : Selects useCase request es selected rule profile answer) (subset : es ⊆ es') :
    Selects useCase request es' selected rule profile answer := by
  obtain ⟨declared, hmem⟩ := h.resolved
  exact ⟨h.mapped, h.chosen, h.declared, ⟨declared, subset hmem⟩, h.passes⟩

theorem selects_of_route {decision : RouteDecision}
    (integrity : useCase.policy.ReferentialIntegrity)
    (h : Returns (ModelRouting.route useCase request includeRejected) es decision) :
    ∃ rule profile answer,
      Selects useCase request es decision.selectedModelGroup rule profile answer := by
  have hrouted := routed_of_completes h
  generalize hr : (Except.ok decision : Except PyException RouteDecision) = r at hrouted
  cases hrouted with
  | unmapped missing => cases hr
  | undeclared mapped missing fast => cases hr
  | raised evaluates => cases hr
  | rejected evaluates failed => cases hr
  | @selected answer rule listed reasons id now evaluates passed =>
    cases hr
    obtain ⟨profile, hprofile⟩ := Option.isSome_iff_exists.mp
      (AList.lookup_isSome.mpr (integrity _ rule evaluates.mapped))
    refine ⟨rule, profile, answer, evaluates.mapped, rfl, hprofile, ⟨_, List.mem_cons_self⟩, ?_⟩
    exact passes_of_rejectionReasons evaluates.evaluated evaluates.nodupKeys
      (evaluates.mapped_listed hprofile) passed

end Routing

section Handler

variable [UnicodeTables] [Cryptography] [JsonDecoder]
variable {app : Application} {scope : RouteScope} {es : List (Event Reply)}

abbrev Verification := Option (RuntimeAuthorizationVerifier × VerifiedRuntimeAuthorization)

/-- The authorization the deployment requires is there, and so is the verifier. -/
structure Required (app : Application) (authorization : Option SignedRuntimeAuthorization)
    (verifier : RuntimeAuthorizationVerifier) (envelope : SignedRuntimeAuthorization) : Prop where
  required : app.runtimeAuthorizationRequired = true
  configured : app.runtimeAuthorizationVerifier = some verifier
  present : authorization = some envelope

/-- The runs of authorization that return. -/
inductive Authorized (app : Application) (authorization : Option SignedRuntimeAuthorization)
    (request : RouteRequest) : List (Event Reply) → Verification → Prop where
  | notRequired (disabled : app.runtimeAuthorizationRequired = false)
      (absent : authorization = none) : Authorized app authorization request [] none
  | verified {verifier : RuntimeAuthorizationVerifier} {envelope : SignedRuntimeAuthorization}
      {now : Datetime} {es : List (Event Reply)} {verified : VerifiedRuntimeAuthorization}
      (required : Required app authorization verifier envelope)
      (returned : Returns (verifier.verify envelope request (.utc now)) es verified) :
      Authorized app authorization request (⟨.utcNow, now⟩ :: es) (some (verifier, verified))

def modeCodes : List DenialCode :=
  [.runtimeAuthorizationRequired, .runtimeAuthorizationUnavailable,
    .runtimeAuthorizationNotConfigured]

inductive Unauthorized (app : Application) (authorization : Option SignedRuntimeAuthorization)
    (request : RouteRequest) : List (Event Reply) → PyException → Prop where
  | mode {code : DenialCode} {message : String} (own : code ∈ modeCodes) :
      Unauthorized app authorization request [] (denial code message)
  | denied {verifier : RuntimeAuthorizationVerifier} {envelope : SignedRuntimeAuthorization}
      {now : Datetime} {es : List (Event Reply)} {e : PyException}
      (required : Required app authorization verifier envelope)
      (denied : Denied verifier envelope request (.utc now) es e) :
      Unauthorized app authorization request (⟨.utcNow, now⟩ :: es) e

section Authorization

variable {authorization : Option SignedRuntimeAuthorization} {request : RouteRequest}

omit [UnicodeTables] in
theorem authorized_of_returns {verified : Verification}
    (h : Returns (authorize app authorization request) es verified) :
    Authorized app authorization request es verified := by
  unfold authorize at h
  split at h
  · exact absurd h (not_returns_throw _ _)
  · rename_i envelope hrequired
    split at h
    · exact absurd h (not_returns_throw _ _)
    · rename_i verifier hverifier
      obtain ⟨_, _, now, rfl, hask, hrest⟩ := returns_bind.mp h
      obtain rfl := returns_ask.mp hask
      obtain ⟨_, _, result, rfl, hverify, hpure⟩ := returns_bind.mp hrest
      obtain ⟨rfl, rfl⟩ := (returns_pure _ _).mp hpure
      rw [List.append_nil]
      exact .verified ⟨hrequired, hverifier, rfl⟩ hverify
  · exact absurd h (not_returns_throw _ _)
  · rename_i hdisabled
    obtain ⟨rfl, rfl⟩ := (returns_pure _ _).mp h
    exact .notRequired hdisabled rfl

omit [UnicodeTables] in
theorem unauthorized_of_raises {e : PyException}
    (h : Raises (authorize app authorization request) es e) :
    Unauthorized app authorization request es e := by
  unfold authorize at h
  split at h
  · obtain ⟨rfl, rfl⟩ := (raises_throw _ _).mp h
    exact .mode (by simp [modeCodes])
  · rename_i envelope hrequired
    split at h
    · obtain ⟨rfl, rfl⟩ := (raises_throw _ _).mp h
      exact .mode (by simp [modeCodes])
    · rename_i verifier hverifier
      rcases raises_bind.mp h with hask | ⟨_, _, now, rfl, hask, hrest⟩
      · exact absurd hask not_raises_ask
      obtain rfl := returns_ask.mp hask
      rcases raises_bind.mp hrest with hverify | ⟨_, _, _, -, -, hpure⟩
      · exact .denied ⟨hrequired, hverifier, rfl⟩ (denied_of_raises hverify)
      · exact absurd hpure (not_raises_pure _ _)
  · obtain ⟨rfl, rfl⟩ := (raises_throw _ _).mp h
    exact .mode (by simp [modeCodes])
  · exact absurd h (not_raises_pure _ _)

omit [UnicodeTables] in
theorem issues_authorize {c : Call} (h : Issues (authorize app authorization request).run es c) :
    c = .utcNow ∨ ∃ verifier envelope now rest, Required app authorization verifier envelope ∧
      es = ⟨.utcNow, now⟩ :: rest ∧
      Issues (verifier.verify envelope request (.utc now)).run rest c := by
  unfold authorize at h
  split at h
  · exact absurd h (not_issues_throw _ _)
  · rename_i envelope hrequired
    split at h
    · exact absurd h (not_issues_throw _ _)
    · rename_i verifier hverifier
      rcases issues_bind.mp h with hask | ⟨_, _, now, rfl, hask, hrest⟩
      · exact .inl (issues_ask.mp hask).2
      obtain rfl := returns_ask.mp hask
      rcases issues_bind.mp hrest with hverify | ⟨_, _, _, -, -, hpure⟩
      · exact .inr ⟨verifier, envelope, now, _, ⟨hrequired, hverifier, rfl⟩, rfl, hverify⟩
      · exact absurd hpure (not_issues_pure _ _)
  · exact absurd h (not_issues_throw _ _)
  · exact absurd h (not_issues_pure _ _)

end Authorization

variable {envelope : RouteRequestEnvelope}

def agentLimit (scope : RouteScope) (envelope : RouteRequestEnvelope) : Call :=
  .allow .perAgent (rateLimitKey scope envelope.request.agentName)

/-- The presented key is the one configured for the request's agent. -/
def Authenticated (app : Application) (scope : RouteScope) (envelope : RouteRequestEnvelope) : Prop :=
  authenticate (scope.header "x-api-key") envelope.request.agentName app.apiKeys = .ok ()

theorem returns_admitRequest {verified : Verification}
    (h : Returns (admitRequest app scope envelope) es verified) :
    ∃ rest, es = ⟨agentLimit scope envelope, true⟩ :: rest ∧ Authenticated app scope envelope ∧
      Authorized app envelope.authorization (toDomainRequest envelope.request) rest verified := by
  unfold admitRequest at h
  obtain ⟨_, _, allowed, rfl, hask, h₁⟩ := returns_bind.mp h
  obtain rfl := returns_ask.mp hask
  obtain ⟨_, _, _, rfl, hpassed, h₂⟩ := returns_bind.mp h₁
  obtain ⟨rfl, hlimit⟩ := (returns_compute _ _).mp hpassed
  cases allowed with
  | false => cases hlimit
  | true =>
    obtain ⟨_, _, _, rfl, hreturns, h₃⟩ := returns_bind.mp h₂
    obtain ⟨rfl, hkey⟩ := (returns_compute _ _).mp hreturns
    exact ⟨_, rfl, hkey, authorized_of_returns h₃⟩

inductive Refused (app : Application) (scope : RouteScope) (envelope : RouteRequestEnvelope) :
    List (Event Reply) → PyException → Prop where
  | limited {message : String} :
      Refused app scope envelope [⟨agentLimit scope envelope, false⟩] (.rateLimitExceeded message)
  | unauthenticated {e : PyException}
      (mismatch : authenticate (scope.header "x-api-key") envelope.request.agentName app.apiKeys =
        .error e) : Refused app scope envelope [⟨agentLimit scope envelope, true⟩] e
  | unauthorized {es : List (Event Reply)} {e : PyException}
      (authenticated : Authenticated app scope envelope)
      (unauthorized : Unauthorized app envelope.authorization (toDomainRequest envelope.request)
        es e) : Refused app scope envelope (⟨agentLimit scope envelope, true⟩ :: es) e

private theorem refused_of_raises {e : PyException}
    (h : Raises (admitRequest app scope envelope) es e) :
    Refused app scope envelope es e := by
  unfold admitRequest at h
  rcases raises_bind.mp h with hask | ⟨_, _, allowed, rfl, hask, h₁⟩
  · exact absurd hask not_raises_ask
  obtain rfl := returns_ask.mp hask
  rcases raises_bind.mp h₁ with hraises | ⟨_, _, _, rfl, hreturns, h₂⟩
  · obtain ⟨rfl, hlimit⟩ := (raises_compute _ _).mp hraises
    cases allowed with
    | true => cases hlimit
    | false =>
      cases hlimit
      exact .limited
  obtain ⟨rfl, hlimit⟩ := (returns_compute _ _).mp hreturns
  cases allowed with
  | false => cases hlimit
  | true =>
    rcases raises_bind.mp h₂ with hraises | ⟨_, _, _, rfl, hreturns, h₃⟩
    · obtain ⟨rfl, hkey⟩ := (raises_compute _ _).mp hraises
      exact .unauthenticated hkey
    · obtain ⟨rfl, hkey⟩ := (returns_compute _ _).mp hreturns
      exact .unauthorized hkey (unauthorized_of_raises h₃)

theorem issues_admitRequest {c : Call} (h : Issues (admitRequest app scope envelope).run es c) :
    c = agentLimit scope envelope ∨
      ∃ rest, es = ⟨agentLimit scope envelope, true⟩ :: rest ∧ Authenticated app scope envelope ∧
        Issues (authorize app envelope.authorization (toDomainRequest envelope.request)).run rest
          c := by
  unfold admitRequest at h
  rcases issues_bind.mp h with hask | ⟨_, _, allowed, rfl, hask, h₁⟩
  · exact .inl (issues_ask.mp hask).2
  obtain rfl := returns_ask.mp hask
  rcases issues_bind.mp h₁ with hissues | ⟨_, _, _, rfl, hreturns, h₂⟩
  · exact absurd hissues (not_issues_compute _ _)
  obtain ⟨rfl, hlimit⟩ := (returns_compute _ _).mp hreturns
  cases allowed with
  | false => cases hlimit
  | true =>
    rcases issues_bind.mp h₂ with hissues | ⟨_, _, _, rfl, hreturns, h₃⟩
    · exact absurd hissues (not_issues_compute _ _)
    · obtain ⟨rfl, hkey⟩ := (returns_compute _ _).mp hreturns
      exact .inr ⟨_, rfl, hkey, h₃⟩

variable {useCase : RouteModelUseCase} {correlationId : String}

abbrev routing (useCase : RouteModelUseCase) (envelope : RouteRequestEnvelope) :
    Coroutine RouteDecision :=
  ModelRouting.route useCase (toDomainRequest envelope.request)
    envelope.request.includeRejectedCandidates

/-- A published decision was admitted, routed, and found within the signed scope. -/
theorem returns_route {published : ModelRouteDecision}
    (h : Returns (RouteEndpoint.route app scope useCase envelope correlationId) es published) :
    ∃ admitted routed verified decision, es = admitted ++ routed ∧
      Returns (admitRequest app scope envelope) admitted verified ∧
      Returns (routing useCase envelope) routed decision ∧
      requireScope verified decision.selectedModelGroup = .ok () ∧
      fromDomainDecision decision = .ok published := by
  unfold RouteEndpoint.route raising at h
  obtain ⟨admitted, _, verified, rfl, hadmitted, h₁⟩ := returns_bind.mp h
  obtain ⟨routed, _, decision, rfl, hrouted, h₂⟩ := returns_bind.mp h₁
  obtain ⟨_, _, _, rfl, hscope, hpublish⟩ := returns_bind.mp h₂
  obtain ⟨rfl, hwithin⟩ := (returns_compute _ _).mp ((returns_mapError _ _ _).mp hscope)
  obtain ⟨rfl, hvalid⟩ := (returns_compute _ _).mp ((returns_mapError _ _ _).mp hpublish)
  exact ⟨admitted, routed, verified, decision, by simp, (returns_mapError _ _ _).mp hadmitted,
    (returns_mapError _ _ _).mp hrouted, hwithin, hvalid⟩

/-- The runs of the handler that raise, with the state left for the evidence. -/
inductive Failed (app : Application) (scope : RouteScope) (useCase : RouteModelUseCase)
    (envelope : RouteRequestEnvelope) (correlationId : String) :
    List (Event Reply) → PyException × RequestState → Prop where
  | refused {es : List (Event Reply)} {e : PyException} (refused : Refused app scope envelope es e) :
      Failed app scope useCase envelope correlationId es (e, initialState envelope correlationId)
  | unrouted {admitted routed : List (Event Reply)} {verified : Verification} {e : PyException}
      (passed : Returns (admitRequest app scope envelope) admitted verified)
      (failed : Raises (routing useCase envelope) routed e) :
      Failed app scope useCase envelope correlationId (admitted ++ routed)
        (e, verifiedState envelope correlationId verified)
  | outOfScope {admitted routed : List (Event Reply)} {verified : Verification}
      {decision : RouteDecision} {e : PyException}
      (passed : Returns (admitRequest app scope envelope) admitted verified)
      (selected : Returns (routing useCase envelope) routed decision)
      (outside : requireScope verified decision.selectedModelGroup = .error e) :
      Failed app scope useCase envelope correlationId (admitted ++ routed)
        (e, selectedState envelope correlationId verified decision.selectedModelGroup)
  | unpublished {admitted routed : List (Event Reply)} {verified : Verification}
      {decision : RouteDecision} {e : PyException}
      (passed : Returns (admitRequest app scope envelope) admitted verified)
      (selected : Returns (routing useCase envelope) routed decision)
      (within : requireScope verified decision.selectedModelGroup = .ok ())
      (invalid : fromDomainDecision decision = .error e) :
      Failed app scope useCase envelope correlationId (admitted ++ routed)
        (e, selectedState envelope correlationId verified decision.selectedModelGroup)

theorem failed_of_raises {failure : PyException × RequestState}
    (h : Raises (RouteEndpoint.route app scope useCase envelope correlationId) es failure) :
    Failed app scope useCase envelope correlationId es failure := by
  unfold RouteEndpoint.route raising at h
  rcases raises_bind.mp h with hraises | ⟨admitted, _, verified, rfl, hadmitted, h₁⟩
  · obtain ⟨e, rfl, he⟩ := (raises_mapError _ _ _).mp hraises
    exact .refused (refused_of_raises he)
  have hpassed := (returns_mapError _ _ _).mp hadmitted
  rcases raises_bind.mp h₁ with hraises | ⟨routed, _, decision, rfl, hrouted, h₂⟩
  · obtain ⟨e, rfl, he⟩ := (raises_mapError _ _ _).mp hraises
    exact .unrouted hpassed he
  have hselected := (returns_mapError _ _ _).mp hrouted
  rcases raises_bind.mp h₂ with hraises | ⟨_, _, _, rfl, hscope, hpublish⟩
  · obtain ⟨e, rfl, he⟩ := (raises_mapError _ _ _).mp hraises
    obtain ⟨rfl, houtside⟩ := (raises_compute _ _).mp he
    rw [List.append_nil]
    exact .outOfScope hpassed hselected houtside
  · obtain ⟨rfl, hwithin⟩ := (returns_compute _ _).mp ((returns_mapError _ _ _).mp hscope)
    obtain ⟨e, rfl, he⟩ := (raises_mapError _ _ _).mp hpublish
    obtain ⟨rfl, hinvalid⟩ := (raises_compute _ _).mp he
    rw [List.append_nil, List.append_nil]
    exact .unpublished hpassed hselected hwithin hinvalid

theorem issues_handler {c : Call}
    (h : Issues (RouteEndpoint.route app scope useCase envelope correlationId).run es c) :
    Issues (admitRequest app scope envelope).run es c ∨
      ∃ admitted routed verified, es = admitted ++ routed ∧
        Returns (admitRequest app scope envelope) admitted verified ∧
        Issues (routing useCase envelope).run routed c := by
  unfold RouteEndpoint.route raising at h
  rcases issues_bind.mp h with hissues | ⟨admitted, _, verified, rfl, hadmitted, h₁⟩
  · exact .inl ((issues_mapError _ _ _).mp hissues)
  rcases issues_bind.mp h₁ with hissues | ⟨_, _, _, -, -, h₂⟩
  · exact .inr ⟨admitted, _, verified, rfl, (returns_mapError _ _ _).mp hadmitted,
      (issues_mapError _ _ _).mp hissues⟩
  rcases issues_bind.mp h₂ with hissues | ⟨_, _, _, -, -, h₃⟩
  · exact absurd ((issues_mapError _ _ _).mp hissues) (not_issues_compute _ _)
  · exact absurd ((issues_mapError _ _ _).mp h₃) (not_issues_compute _ _)

end Handler

section Stores

variable [UnicodeTables] [Cryptography] [JsonDecoder] [BodyParser]
variable {app : Application} {scope : RouteScope} {es : List (Event Reply)}

/-- The request is past every check of its verification that reads no store. -/
structure Checked (app : Application) (scope : RouteScope) (es : List (Event Reply))
    (body : RouteRequestEnvelope) (verifier : RuntimeAuthorizationVerifier)
    (envelope : SignedRuntimeAuthorization) (now : Datetime) : Prop where
  parsed : BodyParser.parse scope.headers (received es) = .admitted body
  required : Required app body.authorization verifier envelope
  clock : (⟨.utcNow, now⟩ : Event Reply) ∈ es
  offline : verifier.verifyOffline envelope (toDomainRequest body.request) (.utc now) = .ok ()

omit [UnicodeTables] [Cryptography] [JsonDecoder] [BodyParser] in
private theorem touchesStore_consumption (replayGuard : RuntimeAuthorizationReplayGuard)
    (authorizationId : UUID) (expiresAt now : Datetime) :
    touchesStore (consumption replayGuard authorizationId expiresAt now) = true := by
  cases replayGuard <;> rfl

inductive Inside : Call → Prop where
  | allow (key : String) : Inside (.allow .perAgent key)
  | utcNow : Inside .utcNow
  | store {c : Call} (touches : touchesStore c = true) : Inside c
  | routing {c : Call} (routing : RoutingCall c) : Inside c

omit [UnicodeTables] [Cryptography] [JsonDecoder] [BodyParser] in
theorem Inside.not_front {c : Call} (h : Inside c) : ¬ Front c := by
  intro hfront
  cases h with
  | allow key => cases hfront with | outer outer => cases outer
  | utcNow => cases hfront with | outer outer => cases outer
  | store touches =>
    rw [hfront.storeless] at touches
    cases touches
  | routing routing => cases routing <;> cases hfront with | outer outer => cases outer

omit [UnicodeTables] [Cryptography] [JsonDecoder] [BodyParser] in
theorem received_inside (h : ∀ e ∈ es, Inside e.1) : received es = [] :=
  received_eq_nil fun e he hreceive => (h e he).not_front (hreceive ▸ .outer .receive)

variable {useCase : RouteModelUseCase} {body : RouteRequestEnvelope} {correlationId : String}

omit [BodyParser] in
theorem inside_of_issues {c : Call}
    (h : Issues (RouteEndpoint.route app scope useCase body correlationId).run es c) : Inside c := by
  rcases issues_handler h with hadmit | ⟨_, _, _, -, -, hrouting⟩
  · rcases issues_admitRequest hadmit with rfl | ⟨_, -, -, hauthorize⟩
    · exact .allow _
    · rcases issues_authorize hauthorize with rfl | ⟨verifier, envelope, now, _, -, -, hverify⟩
      · exact .utcNow
      · rcases (issues_verify.mp hverify).2 with ⟨-, store, -, rfl⟩ | ⟨-, rfl⟩
        · exact .store rfl
        · exact .store (touchesStore_consumption _ _ _ _)
  · exact .routing (issues_route hrouting)

/-- The body is received before everything else but the middleware. -/
theorem outer_of_receive (h : Issues (postRoute app scope) es .receive) : ∀ e ∈ es, Outer e.1 := by
  rcases issues_postRoute h with ⟨-, hearlier⟩ | hresolve | hown | ⟨_, _, _, _, _, -, -, hissued⟩
  · exact hearlier
  · cases hresolve
  · rcases hown with hown | hown <;> cases hown
  · exact absurd (.outer .receive) (inside_of_issues hissued).not_front

omit [UnicodeTables] [Cryptography] [BodyParser] in
private theorem storeEvents_allowed {verifier : RuntimeAuthorizationVerifier}
    {claims : RuntimeAuthorizationClaims} (h : Allowed verifier claims es) :
    storeEvents es = es := by
  unfold Allowed at h
  split at h
  · rw [h]
    rfl
  · obtain ⟨reply, snapshot, rfl, -⟩ := h
    rfl

/-- Where a request is when it calls a store. -/
inductive StoreCall (app : Application) (scope : RouteScope) (es : List (Event Reply)) :
    Call → Prop where
  | read {body : RouteRequestEnvelope} {verifier : RuntimeAuthorizationVerifier}
      {envelope : SignedRuntimeAuthorization} {now : Datetime} {store : RedisRuntimeControlStore}
      (checked : Checked app scope es body verifier envelope now) (first : storeEvents es = [])
      (configured : verifier.runtimeControl = some store) :
      StoreCall app scope es (.redisGet (controlKey store envelope.claims))
  | consume {body : RouteRequestEnvelope} {verifier : RuntimeAuthorizationVerifier}
      {envelope : SignedRuntimeAuthorization} {now : Datetime}
      (checked : Checked app scope es body verifier envelope now)
      (allowed : Allowed verifier envelope.claims (storeEvents es)) :
      StoreCall app scope es (consumption verifier.replayGuard envelope.claims.authorizationId
        envelope.claims.expiresAt now)

/-- Every call of a store is the read of the control projection or the consumption, and
comes after everything in front of it has passed. -/
theorem storeCall_of_issues {c : Call} (h : Issues (postRoute app scope) es c)
    (touches : touchesStore c = true) : StoreCall app scope es c := by
  cases makes_of_issues h with
  | inFront front => rw [front.storeless] at touches; cases touches
  | answering own => rcases own with rfl | rfl <;> cases touches
  | @inHandler before handled useCase body correlationId c reaches issued =>
    have hbefore : storeEvents before = [] :=
      storeEvents_eq_nil fun e he => (reaches.front e he).storeless
    have hquiet : received handled = [] :=
      received_inside (issued.each_call Inside fun _ _ h => inside_of_issues h)
    rcases issues_handler issued with hadmit | ⟨_, _, _, -, -, hrouting⟩
    swap
    · rw [(issues_route hrouting).storeless] at touches
      cases touches
    rcases issues_admitRequest hadmit with rfl | ⟨_, rfl, -, hauthorize⟩
    · cases touches
    rcases issues_authorize hauthorize with rfl | ⟨verifier, envelope, now, rest, hreq, rfl, hverify⟩
    · cases touches
    obtain ⟨hoffline, hcall⟩ := issues_verify.mp hverify
    have hchecked : Checked app scope
        (before ++ ⟨agentLimit scope body, true⟩ :: ⟨.utcNow, now⟩ :: rest) body verifier envelope
          now := by
      refine ⟨?_, hreq, by simp, hoffline⟩
      rw [received_append, hquiet, List.append_nil]
      exact reaches.parsed
    have hstore : storeEvents (before ++ ⟨agentLimit scope body, true⟩ :: ⟨.utcNow, now⟩ :: rest) =
        storeEvents rest := by
      rw [storeEvents_append, hbefore]
      rfl
    rcases hcall with ⟨rfl, store, hstored, rfl⟩ | ⟨hallowed, rfl⟩
    · exact .read hchecked hstore hstored
    · refine .consume hchecked ?_
      rw [hstore, storeEvents_allowed hallowed]
      exact hallowed

end Stores

end PolicyModelRouter.HandlerRuns
