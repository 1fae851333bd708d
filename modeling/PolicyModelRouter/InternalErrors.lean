import PolicyModelRouter.AgentAuthentication
import PolicyModelRouter.DecidingPolicies
import PolicyModelRouter.DenialEvidence
import PolicyModelRouter.RelaxedRequests
import PolicyModelRouter.ServedPolicies
import PolicyModelRouter.SignedBudgets

/-!
# What ends in an internal error

An exception that no handler takes is answered with 500. Under a policy that was loaded there
are ten ways to get there, each a fact about what arrived, about the clock, or about the size
of a number; every other failure has its own response.
-/

namespace PolicyModelRouter.InternalErrors
open AgentAuthentication AuthorizationContract AuthorizationVerifier AwaitingPrograms CostEstimates
open DecidingPolicies DecimalArithmetic DenialEvidence DenialRuns EliminatoryConstraints
open GovernedVocabularies HandlerRuns
open InterleavedPrograms ModelRouting OrderedChecks PolicyReload PythonText RelaxedRequests RouteEndpoint
open RouteRuns
open RouterCalls RouterServer RoutingCatalog RoutingPolicyLoader RoutingRuns RuntimeControl
open ServedPolicies SignedBudgets UtcTimestamps VerificationTraces ViolationContract ViolationEvidence
open WireContracts

section Endpoint

variable [UnicodeTables] [Cryptography] [JsonDecoder] [BodyParser]
variable {app : Application} {scope : RouteScope} {es : List (Event Reply)}

/-- The request reached the handler in this run. -/
structure Handled (scope : RouteScope) (es : List (Event Reply)) (useCase : RouteModelUseCase)
    (body : RouteRequestEnvelope) (correlationId : String) : Prop where
  resolved : ⟨.activeUseCase, useCase⟩ ∈ es
  parsed : BodyParser.parse scope.headers (received es) = .admitted body
  bound : Bound scope correlationId

/-- The texts that the evidence of a denial repeats. -/
def repeated (request : ModelRouteRequest) (correlationId : String) : List String :=
  [request.workflowId, request.taskId, request.agentName, correlationId]

/-- What makes a request end in an internal error. -/
inductive Fault (app : Application) (scope : RouteScope) (es : List (Event Reply)) : Prop where
  | unexpectedMessage (arrived : ⟨.receive, AsgiMessage.other⟩ ∈ es)
  | timestampOverflow (arrived : BodyParser.parse scope.headers (received es) = .timestampOverflow)
  | incomparableKey {useCase : RouteModelUseCase} {body : RouteRequestEnvelope}
      {correlationId : String} (handled : Handled scope es useCase body correlationId)
      (incomparable : ¬ Comparable (scope.header "x-api-key") body.request.agentName app.apiKeys)
  | endOfCalendar {useCase : RouteModelUseCase} {body : RouteRequestEnvelope}
      {correlationId : String} {verifier : RuntimeAuthorizationVerifier}
      {envelope : SignedRuntimeAuthorization} {now : Datetime}
      (handled : Handled scope es useCase body correlationId)
      (required : Required app body.authorization verifier envelope) (read : ⟨.utcNow, now⟩ ∈ es)
      (outside : now.plusSeconds verifier.clockSkewSeconds = none ∨
        now.minusSeconds verifier.clockSkewSeconds = none)
  | hugeCeiling {useCase : RouteModelUseCase} {body : RouteRequestEnvelope}
      {correlationId : String} {verifier : RuntimeAuthorizationVerifier}
      {envelope : SignedRuntimeAuthorization}
      (handled : Handled scope es useCase body correlationId)
      (required : Required app body.authorization verifier envelope)
      (huge : defaultContext.limit ≤ exactMicros (toDomainRequest body.request).maxCostUsd)
  | hugePrice {useCase : RouteModelUseCase} {body : RouteRequestEnvelope} {correlationId : String}
      {group : ModelGroupId} {profile : ModelGroupProfile}
      (handled : Handled scope es useCase body correlationId)
      (declared : useCase.policy.modelGroups.lookup group = some profile)
      (huge : ¬ Estimable profile (toDomainRequest body.request))
  | longLatency {useCase : RouteModelUseCase} {body : RouteRequestEnvelope} {correlationId : String}
      {group : ModelGroupId} {profile : ModelGroupProfile}
      (handled : Handled scope es useCase body correlationId)
      (declared : useCase.policy.modelGroups.lookup group = some profile)
      (long : ¬ Short profile.typicalLatencyMs)
  | blankIdentifier {useCase : RouteModelUseCase} {body : RouteRequestEnvelope}
      {correlationId : String} (handled : Handled scope es useCase body correlationId)
      (blank : ∃ text ∈ repeated body.request correlationId, strip text = "")
  | longGroup {useCase : RouteModelUseCase} {body : RouteRequestEnvelope} {correlationId : String}
      {rule : WorkloadRule} (handled : Handled scope es useCase body correlationId)
      (mapped : useCase.policy.workloads.lookup body.request.workload = some rule)
      (long : 100 < rule.modelGroup.value.length)
  | emptyId (given : ⟨.newId, ""⟩ ∈ es)

omit [UnicodeTables] [Cryptography] [JsonDecoder] [BodyParser] in
private theorem raises_admitBody {cap patience : ℕ} {body : Bytes} {e : PyException}
    (h : Raises (admitBody cap patience body) es e) :
    e = .cancelled ∨ ⟨.receive, AsgiMessage.other⟩ ∈ es := by
  induction patience generalizing body es with
  | zero => exact .inl ((raises_throw _ _).mp h).2
  | succ patience ih =>
    rcases raises_bind.mp h with hask | ⟨_, rest, message, rfl, hask, hrest⟩
    · exact absurd hask not_raises_ask
    obtain rfl := returns_ask.mp hask
    cases message with
    | disconnect => exact absurd hrest (not_raises_pure _ _)
    | other => exact .inr (by simp)
    | request chunk moreBody =>
      simp only at hrest
      split at hrest
      · exact absurd hrest (not_raises_pure _ _)
      · split at hrest
        · exact (ih hrest).imp_right fun hmem => List.mem_append_right _ hmem
        · exact absurd hrest (not_raises_pure _ _)

omit [UnicodeTables] [JsonDecoder] [BodyParser] in
/-- The middleware is given up, sees an unexpected message, or hands an exception on. -/
theorem raises_bodySizeAndIpRateLimit {downstream : Option Bytes → Coroutine Response} {e : PyException}
    (h : Raises (bodySizeAndIpRateLimit app scope downstream) es e) :
    e = .cancelled ∨ ⟨.receive, AsgiMessage.other⟩ ∈ es ∨
      ∃ before after body, es = before ++ after ∧ (body = none ∨ body = some (received before)) ∧
        Raises (downstream body) after e := by
  unfold bodySizeAndIpRateLimit at h
  rcases raises_bind.mp h with hask | ⟨first, rest, allowed, rfl, hask, hrest⟩
  · exact absurd hask not_raises_ask
  obtain rfl := returns_ask.mp hask
  cases allowed with
  | false => exact absurd hrest (not_raises_pure _ _)
  | true =>
    simp only at hrest
    split at hrest
    · exact absurd hrest (not_raises_pure _ _)
    · rcases raises_bind.mp hrest with hreads | ⟨reads, after, admission, rfl, hadmitted, hafter⟩
      · exact (raises_admitBody hreads).imp_right fun hmem => .inl (List.mem_append_right _ hmem)
      · refine .inr (.inr ⟨⟨.allow .perIp ("ip:" ++ clientHost scope), true⟩ :: reads, after, ?_⟩)
        cases admission with
        | tooLarge => exact absurd hafter (not_raises_pure _ _)
        | disconnected => exact ⟨none, rfl, .inl rfl, hafter⟩
        | complete body =>
          refine ⟨some body, rfl, .inr ?_, hafter⟩
          rw [complete_of_admitBody hadmitted]
          rfl

omit [JsonDecoder] [BodyParser] in
/-- What an exception handler returns is no internal error. -/
theorem ne_internalServerError_of_handled [JsonDecoder] {failure : PyException × RequestState}
    {response : Response} (h : Returns (handleException app failure) es response) :
    response ≠ .internalServerError := by
  unfold handleException at h
  split at h
  · obtain ⟨_, _, _, -, -, hpure⟩ := returns_bind.mp h
    obtain ⟨-, rfl⟩ := (returns_pure _ _).mp hpure
    simp
  · obtain ⟨-, rfl⟩ := (returns_pure _ _).mp h
    simp
  · obtain ⟨-, rfl⟩ := (returns_pure _ _).mp h
    simp
  · obtain ⟨-, rfl⟩ := (returns_pure _ _).mp h
    simp [tooManyRequests]
  · obtain ⟨_, _, _, -, -, hpure⟩ := returns_bind.mp h
    obtain ⟨-, rfl⟩ := (returns_pure _ _).mp hpure
    simp
  · exact absurd h (not_returns_throw _ _)

private theorem ne_internalServerError_of_framework {correlationId : String} {body : Option Bytes}
    {response : Response} (h : Returns (framework app scope correlationId body) es response) :
    response ≠ .internalServerError := by
  unfold framework at h
  cases body with
  | none =>
    obtain ⟨-, rfl⟩ := (returns_pure _ _).mp h
    simp
  | some bytes =>
    simp only at h
    split at h
    · obtain ⟨-, rfl⟩ := (returns_pure _ _).mp h
      simp [validationError]
    · obtain ⟨-, rfl⟩ := (returns_pure _ _).mp h
      simp
    · obtain ⟨_, _, _, -, -, hpure⟩ := returns_bind.mp h
      obtain ⟨-, rfl⟩ := (returns_pure _ _).mp hpure
      simp [validationError]
    · obtain ⟨_, _, _, -, -, hthrow⟩ := returns_bind.mp h
      exact absurd hthrow (not_returns_throw _ _)
    · obtain ⟨_, _, _, -, -, hrespond⟩ := returns_bind.mp h
      rcases returns_recover.mp hrespond with hdecided | ⟨_, _, _, -, -, hhandled⟩
      · obtain ⟨_, _, _, -, -, hpure⟩ := returns_bind.mp hdecided
        obtain ⟨-, rfl⟩ := (returns_pure _ _).mp hpure
        simp
      · exact ne_internalServerError_of_handled hhandled

omit [BodyParser] in
/-- The handler starts at its limiter. -/
theorem limits_of_completes {useCase : RouteModelUseCase} {envelope : RouteRequestEnvelope}
    {correlationId : String} {r : Except (PyException × RequestState) ModelRouteDecision}
    (h : Completes (RouteEndpoint.route app scope useCase envelope correlationId).run es r) :
    ∃ allowed rest, es = ⟨agentLimit scope envelope, allowed⟩ :: rest := by
  have hstart : (RouteEndpoint.route app scope useCase envelope correlationId).run =
    .await (agentLimit scope envelope) _ := rfl
  rw [hstart] at h
  obtain ⟨allowed, rest, rfl, -⟩ := completes_await_iff.mp h
  exact ⟨allowed, rest, rfl⟩

/-- An exception of the framework is one of the handler, which has called its limiter, or comes
from the validation of the body. -/
theorem exists_inside_of_framework {correlationId : String} {body : Option Bytes} {e : PyException}
    (h : Raises (framework app scope correlationId body) es e) :
    (∃ x ∈ es, ¬ Front x.1) ∨ received es = [] ∧
      ∃ bytes, body = some bytes ∧ BodyParser.parse scope.headers bytes = .timestampOverflow := by
  rcases completes_framework h with ⟨-, ⟨_, hr, -⟩ | ⟨bytes, _, rfl, hparsed, rfl, -⟩⟩ |
    ⟨_, envelope, useCase, rest, -, -, rfl, hrespond⟩
  · cases hr
  · exact .inr ⟨rfl, bytes, rfl, hparsed⟩
  rcases completes_run_recover.mp hrespond with ⟨_, hr, -⟩ | ⟨handled, after, _, rfl, hraises, -⟩
  · cases hr
  rcases raises_bind.mp hraises with hraises | ⟨_, _, _, rfl, -, hpure⟩
  · obtain ⟨allowed, _, rfl⟩ := limits_of_completes hraises
    refine .inl ⟨⟨agentLimit scope envelope, allowed⟩, by simp, ?_⟩
    exact Inside.not_front (.allow _)
  · exact absurd hpure (not_raises_pure _ _)

/-- In front of the handler only what arrives ends in an internal error. -/
theorem fault_of_front (h : Completes (postRoute app scope) es .internalServerError)
    (front : ∀ e ∈ es, Front e.1) : Fault app scope es := by
  obtain ⟨es, _, r, rfl, hserve, hdone⟩ := completes_bind_iff.mp h
  obtain ⟨rfl, hresponse⟩ := (completes_done_iff _ _ _).mp hdone
  rw [List.append_nil] at front ⊢
  rcases completes_run_bind.mp hserve with ⟨_, -, hraises⟩ | ⟨bound, rest, _, rfl, hbound, hrest⟩
  · exact absurd hraises not_raises_bindCorrelationId
  cases r with
  | ok response =>
    obtain rfl : Response.internalServerError = response := hresponse
    rcases completes_bodySizeAndIpRateLimit hrest with ⟨-, hplain⟩ | ⟨_, _, _, rfl, -, -, hframework⟩
    · obtain ⟨_, _, _, hplain⟩ := hplain _ rfl
      cases hplain
    · exact absurd rfl (ne_internalServerError_of_framework hframework)
  | error e =>
    rcases raises_bodySizeAndIpRateLimit hrest with rfl | hother |
      ⟨before, after, _, rfl, hbody, hraises⟩
    · cases hresponse
    · exact .unexpectedMessage (List.mem_append_right _ hother)
    · rcases exists_inside_of_framework hraises with ⟨x, hx, hinside⟩ | ⟨hafter, bytes, rfl, hparsed⟩
      · exact absurd (front x (by simp [hx])) hinside
      · have hbind : received bound = [] := received_eq_nil fun x hx hreceive => by
          rw [Completes.each_call hbound (· = .uuid4) (fun _ _ h => issues_bindCorrelationId h) x hx]
            at hreceive
          cases hreceive
        obtain rfl := Option.some.inj (hbody.resolve_left (by simp))
        refine .timestampOverflow ?_
        rw [received_append, received_append, hbind, hafter, List.nil_append, List.append_nil]
        exact hparsed

/-- The errors of the checks without a store, with what the two that are no denials say. -/
inductive OfflineFault (verifier : RuntimeAuthorizationVerifier) (request : RouteRequest)
    (now : Datetime) : PyException → Prop where
  | denied {code : DenialCode} {message : String} :
      OfflineFault verifier request now (denial code message)
  | overflow (outside : now.plusSeconds verifier.clockSkewSeconds = none ∨
      now.minusSeconds verifier.clockSkewSeconds = none) : OfflineFault verifier request now .overflow
  | decimal {signal : Signal}
      (huge : Decimal.mul defaultContext request.maxCostUsd (.ofInt 1000000) = .error signal) :
      OfflineFault verifier request now (.decimalSignal signal)

section Checks

variable {verifier : RuntimeAuthorizationVerifier} {envelope : SignedRuntimeAuthorization}
variable {request : RouteRequest} {now : Datetime}

omit [UnicodeTables] [Cryptography] [JsonDecoder] [BodyParser] in
private theorem onlyErrors_latest : OnlyErrors (OfflineFault verifier request now)
    (orOverflow (now.plusSeconds verifier.clockSkewSeconds)) := by
  cases hlatest : now.plusSeconds verifier.clockSkewSeconds with
  | none => exact .error (.overflow (.inl hlatest))
  | some d => exact .ok d

omit [UnicodeTables] [Cryptography] [JsonDecoder] [BodyParser] in
private theorem onlyErrors_earliest : OnlyErrors (OfflineFault verifier request now)
    (orOverflow (now.minusSeconds verifier.clockSkewSeconds)) := by
  cases hearliest : now.minusSeconds verifier.clockSkewSeconds with
  | none => exact .error (.overflow (.inr hearliest))
  | some d => exact .ok d

omit [UnicodeTables] [JsonDecoder] [BodyParser] in
private theorem offlineFault_of_verifyOffline :
    OnlyErrors (OfflineFault verifier request now) (verifier.verifyOffline envelope request (.utc now)) := by
  have hdenial : ∀ {condition : Prop} [Decidable condition] {code : DenialCode} {message : String},
      OnlyErrors (OfflineFault verifier request now) (raiseIf condition (denial code message)) :=
    .raiseIf .denied
  have htimes : OnlyErrors (OfflineFault verifier request now)
      (verifier.verifyIdentityAndTime envelope.claims now) := by
    refine .bind hdenial fun _ => .bind hdenial fun _ => .bind onlyErrors_latest fun _ => ?_
    exact .bind hdenial fun _ => .bind hdenial fun _ => .bind onlyErrors_earliest fun _ => hdenial
  have hkey : OnlyErrors (OfflineFault verifier request now) (verifier.requireKey envelope now) := by
    unfold RuntimeAuthorizationVerifier.requireKey
    split
    · exact .error .denied
    · refine .bind hdenial fun _ => .bind hdenial fun _ => .bind onlyErrors_earliest fun _ => ?_
      exact .bind hdenial fun _ => .ok _
  have hmicros : OnlyErrors (OfflineFault verifier request now) (costMicros request.maxCostUsd) := by
    refine .bind (fun e h => ?_) fun _ => .bind hdenial fun _ => .ok _
    obtain ⟨signal, hsignal, rfl⟩ := mapError_eq_error.mp h
    exact .decimal hsignal
  refine .bind hdenial fun _ => .bind htimes fun _ => .bind hkey fun _ => .bind hdenial fun _ => ?_
  exact .bind (.bind hmicros fun _ => hdenial) fun _ => .bind hdenial fun _ => hdenial

end Checks

variable {useCase : RouteModelUseCase} {body : RouteRequestEnvelope} {correlationId : String}

omit [UnicodeTables] [Cryptography] [JsonDecoder] [BodyParser] in
theorem visible_or {state : RequestState} (bound : Bound scope correlationId)
    (left : Left body correlationId state) :
    Visible state.routeRequest state.correlationId state.selectedModelGroup ∨
      (∃ text ∈ repeated body.request correlationId, strip text = "") ∨
      ∃ group ∈ state.selectedModelGroup, 100 < group.length := by
  by_cases hblank : ∃ text ∈ repeated body.request correlationId, strip text = ""
  · exact .inr (.inl hblank)
  by_cases hlong : ∃ group ∈ state.selectedModelGroup, 100 < group.length
  · exact .inr (.inr hlong)
  have hvisible : ∀ text ∈ repeated body.request correlationId, strip text ≠ "" := fun text htext h =>
    hblank ⟨text, htext, h⟩
  have hidentifier : ∀ s : BoundedIdentifier, s.val ∈ repeated body.request correlationId →
      isEvidenceIdentifier (strip s.val) = true := fun s hs =>
    isEvidenceIdentifier_strip (hvisible _ hs) s.property.2
  have hshort : correlationId.length ≤ 200 := by
    cases bound with
    | caller sent some_ bounded => exact bounded
    | fresh id => exact (Uuids.length_str id).trans_le (by decide)
  rw [left.request, left.correlation]
  refine .inl ⟨hidentifier _ (by simp [repeated]), hidentifier _ (by simp [repeated]),
    hidentifier _ (by simp [repeated]), isEvidenceIdentifier_strip (hvisible _ (by simp [repeated])) hshort,
    fun group hgroup => ?_⟩
  refine (isEvidenceModelGroup_strip (left.group group hgroup)).mpr ?_
  exact not_lt.mp fun h => hlong ⟨group, hgroup, h⟩

/-- A denial that is not answered has texts that its evidence cannot repeat. -/
theorem fault_of_unanswered {handled after : List (Event Reply)} {error : RuntimeAuthorizationError}
    {state : RequestState} {e : PyException} (integrity : useCase.policy.ReferentialIntegrity)
    (reached : Handled scope es useCase body correlationId)
    (raised : Raises (RouteEndpoint.route app scope useCase body correlationId) handled
      (.runtimeAuthorization error, state))
    (unanswered : Raises (handleRuntimeAuthorizationError app state error) after e) :
    Fault app scope es := by
  have hcause := cause_of_raises raised
  have hbuild : ∃ after' e', Raises (buildRuntimeViolation error.code state.routeRequest
      state.authorization (state.authorizationVerified || error.authorizationVerified)
      state.correlationId app.serviceVersion app.environment state.selectedModelGroup) after' e' := by
    rcases raises_bind.mp unanswered with hbuild | ⟨_, _, _, -, -, hpure⟩
    · exact ⟨_, _, hbuild⟩
    · exact absurd hpure (not_raises_pure _ _)
  obtain ⟨_, _, hbuild⟩ := hbuild
  rcases visible_or reached.bound (left_of_cause hcause) with hvisible | hblank | ⟨group, hgroup, hlong⟩
  · exact absurd hbuild (not_raises_build hcause hvisible)
  · exact .blankIdentifier reached hblank
  · cases hcause with
    | mode own => cases hgroup
    | unverified present own => cases hgroup
    | control trusted own => cases hgroup
    | @scope routed code message decision verified trusted own some_ part selected =>
      obtain ⟨pair, rfl⟩ := Option.isSome_iff_exists.mp some_
      obtain rfl := Option.some.inj hgroup
      obtain ⟨rule, _, _, hselects⟩ := selects_of_route integrity selected
      rw [hselects.chosen] at hlong
      exact .longGroup reached hselects.mapped hlong

omit [JsonDecoder] [Cryptography] [BodyParser] in
/-- A constraint only raises over a declared group whose estimate or whose latency is too large. -/
theorem exists_group_of_raised {includeRejected : Bool} {answer : Availability} {rule : WorkloadRule}
    {listed : List (Σ _ : ModelGroupId, ModelGroupProfile)} {exception : ConstraintException}
    {request : ModelRouteRequest} (servable : Servable useCase.policy)
    (h : Evaluates useCase (toDomainRequest request) includeRejected answer rule listed
      (.error exception)) :
    ∃ group profile, useCase.policy.modelGroups.lookup group = some profile ∧
      (¬ Estimable profile (toDomainRequest request) ∨ ¬ Short profile.typicalLatencyMs) := by
  obtain ⟨⟨group, profile⟩, hmem, herror⟩ :=
    RoutingSpecification.exists_of_rejectionReasons_error h.evaluated
  have hdeclared := h.declared (List.mem_dlookup_iff h.nodupKeys |>.mpr hmem)
  refine ⟨group, profile, hdeclared, ?_⟩
  by_contra hboth
  obtain ⟨hestimable, hshort⟩ := not_or.mp hboth
  obtain ⟨result, hresult⟩ := (@evaluated_iff_assessable _ request answer _ _ servable profile rule hdeclared).mpr
    ⟨fun _ => not_not.mp hestimable, fun _ _ => not_not.mp hshort⟩
  cases hresult.symm.trans herror

/-- What the application state has to be for a decision to be published. -/
structure Ready (useCase : RouteModelUseCase) : Prop where
  servable : Servable useCase.policy
  serviceVersion : useCase.serviceVersion ≠ ""
  environment : useCase.environment ≠ ""

/-- A refused admission is answered, but for the causes in front of routing. -/
theorem fault_of_refused {handled after : List (Event Reply)} {raisedBy e : PyException}
    (integrity : useCase.policy.ReferentialIntegrity)
    (reached : Handled scope es useCase body correlationId) (part : handled ⊆ es)
    (refused : Refused app scope body handled raisedBy)
    (raised : Raises (RouteEndpoint.route app scope useCase body correlationId) handled
      (raisedBy, initialState body correlationId))
    (unanswered : Raises (handleException app (raisedBy, initialState body correlationId)) after e) :
    Fault app scope es := by
  cases refused with
  | limited => exact absurd unanswered (not_raises_pure _ _)
  | unauthenticated mismatch =>
    cases onlyErrors_authenticate _ mismatch with
    | refused message => exact absurd unanswered (not_raises_pure _ _)
    | typeError =>
      refine .incomparableKey reached fun hcomparable => ?_
      obtain ⟨haccepts, hrefuses⟩ := exact_iff.mpr hcomparable
      by_cases hpresents : Presents (scope.header "x-api-key") body.request.agentName app.apiKeys
      · cases mismatch.symm.trans (haccepts.mpr hpresents)
      · obtain ⟨_, hrefused⟩ := hrefuses hpresents
        cases mismatch.symm.trans hrefused
  | unauthorized authenticated unauthorized =>
    cases unauthorized with
    | mode own => exact fault_of_unanswered integrity reached raised unanswered
    | @denied verifier envelope now rest _ required denied =>
      cases denied with
      | control checked configured own =>
        exact fault_of_unanswered integrity reached raised unanswered
      | replay checked allowed refused =>
        exact fault_of_unanswered integrity reached raised unanswered
      | offline check =>
        cases offlineFault_of_verifyOffline _ check with
        | denied => exact fault_of_unanswered integrity reached raised unanswered
        | overflow outside =>
          exact .endOfCalendar reached required (part (by simp)) outside
        | decimal huge =>
          refine .hugeCeiling reached required (not_lt.mp fun hlt => ?_)
          have hceiling : body.request.maxCostUsd.val.NonNegative :=
            .inl body.request.maxCostUsd.property.1
          obtain ⟨_, hmicros⟩ := (computes_micros hceiling).total hlt
          cases hmicros.symm.trans huge

theorem fault_of_raised {handled after : List (Event Reply)} {failure : PyException × RequestState}
    {e : PyException} (ready : Ready useCase) (reached : Handled scope es useCase body correlationId)
    (part : handled ⊆ es)
    (raised : Raises (RouteEndpoint.route app scope useCase body correlationId) handled failure)
    (unanswered : Raises (handleException app failure) after e) : Fault app scope es := by
  have hintegrity := ready.servable.integrity
  by_cases hids : ⟨.newId, ""⟩ ∈ es
  · exact .emptyId hids
  have hidentified : ∀ routed : List (Event Reply), routed ⊆ es → Identified useCase routed :=
    fun routed hrouted => ⟨ready.serviceVersion, ready.environment, fun id hid => by
      rintro rfl
      exact hids (hrouted hid)⟩
  cases failed_of_raises raised with
  | refused refused => exact fault_of_refused hintegrity reached part refused raised unanswered
  | @unrouted admitted routed verified _ passed failed =>
    have hrouted := routed_of_completes failed
    have hpublishable := publishable_of_routed ready.servable
      (hidentified routed fun x hx => part (List.mem_append_right _ hx)) hrouted
    generalize hr : (Except.error _ : Except PyException RouteDecision) = r at hrouted
    cases hrouted with
    | unmapped missing =>
      cases hr
      exact absurd unanswered (not_raises_pure _ _)
    | undeclared mapped missing fast =>
      cases hr
      exact absurd rfl hpublishable.found
    | raised evaluates =>
      obtain ⟨_, _, hdeclared, hhuge | hlong⟩ := exists_group_of_raised ready.servable evaluates
      · exact .hugePrice reached hdeclared hhuge
      · exact .longLatency reached hdeclared hlong
    | rejected evaluates failed =>
      cases hr
      obtain ⟨_, hpublished⟩ := hpublishable.rejection _ rfl
      rcases raises_bind.mp unanswered with hraises | ⟨_, _, _, -, -, hpure⟩
      · cases hpublished.symm.trans ((raises_compute _ _).mp hraises).2
      · exact absurd hpure (not_raises_pure _ _)
    | selected evaluates passed => cases hr
  | @outOfScope admitted routed verified decision _ passed selected outside =>
    cases verified with
    | none => cases outside
    | some verified =>
      obtain ⟨_, _, -, rfl⟩ := code_of_requireSelectedModel outside
      exact fault_of_unanswered hintegrity reached raised unanswered
  | @unpublished admitted routed verified decision _ passed selected within invalid =>
    have hpublishable := publishable_of_routed ready.servable
      (hidentified routed fun x hx => part (List.mem_append_right _ hx)) (routed_of_completes selected)
    obtain ⟨_, hpublished⟩ := hpublishable.decision _ rfl
    cases hpublished.symm.trans invalid

/-- A request that ends in an internal error has one of the causes. -/
theorem fault_of_completes (ready : ∀ useCase, ⟨.activeUseCase, useCase⟩ ∈ es → Ready useCase)
    (h : Completes (postRoute app scope) es .internalServerError) : Fault app scope es := by
  generalize hresponse : Response.internalServerError = response at h
  cases ended_of_completes h with
  | inFront front unhandled =>
    exact fault_of_front (hresponse ▸ h) front
  | decided reaches returned => cases hresponse
  | @raised before handled after useCase body correlationId failure r reaches raised answered =>
    have hinside : ∀ e ∈ handled, Inside e.1 :=
      Completes.each_call raised Inside fun _ _ h => inside_of_issues h
    have hreceived : received (before ++ (handled ++ after)) = received before := by
      have hafter : received after = [] := received_eq_nil fun e he hreceive => by
        rcases Completes.each_call answered (fun c => c = .utcNow ∨ c = .uuid4)
          (fun _ _ h => issues_handleException h) e he with hown | hown
        all_goals
          rw [hreceive] at hown
          cases hown
      rw [received_append, received_append, received_inside hinside, hafter]
      simp
    have hresolved : ⟨.activeUseCase, useCase⟩ ∈ before ++ (handled ++ after) :=
      List.mem_append_left _ ((reaches.resolved useCase).mpr rfl)
    have hreached : Handled scope (before ++ (handled ++ after)) useCase body correlationId :=
      ⟨hresolved, hreceived ▸ reaches.parsed, reaches.bound⟩
    cases r with
    | ok response => exact absurd hresponse.symm (ne_internalServerError_of_handled answered)
    | error e =>
      exact fault_of_raised (ready useCase hresolved) hreached (fun x hx => by simp [hx]) raised answered

end Endpoint

section Server

variable [UnicodeTables] [Cryptography] [JsonDecoder] [BodyParser] [PolicyLibraries]
variable {app : Application}

omit [UnicodeTables] [JsonDecoder] [BodyParser] in
theorem ready_newUseCase {file : PolicyFile} {policy : RoutingPolicy}
    (loads : loadRoutingPolicy file = .ok policy) : Ready (newUseCase app policy) := by
  have hsome : ∀ identifier : EvidenceIdentifier, identifier.val ≠ "" := by
    intro identifier h
    have hidentifier := identifier.property
    simp only [isEvidenceIdentifier, isStripped, Bool.and_eq_true, decide_eq_true_eq] at hidentifier
    rw [h] at hidentifier
    exact absurd hidentifier.1.2 (by decide)
  exact ⟨servable_of_loadRoutingPolicy loads, hsome _, hsome _⟩

/-- However requests, reloads and replacements of the file interleave, a request is answered
with an internal error only for one of the causes. -/
theorem internal_errors_explained {s : Host} (started : Started app s) {ls : List (Label Task Reply)}
    {pool : Pool (server app)} (h : Run (Step (server app)) (Pool.start _ s) ls pool)
    {p : Process (server app)} (listed : p ∈ pool.processes) {scope : RouteScope}
    (request : p.tag = .request scope) (finished : p.Finished (.response .internalServerError)) :
    Fault app scope (p.log.map Prod.snd) := by
  refine fault_of_completes (fun useCase hresolved => ?_) (completes_of_finished request finished)
  obtain ⟨file, policy, -, hload, rfl⟩ := loaded_of_resolved started h listed hresolved
  exact ready_newUseCase hload

end Server

namespace Deployed

open AuthorizedDecisions.Deployed (route)
open DecidingPolicies.Deployed (deployed hashing plain plainParser served)
open RoutingPolicyLoader.Deployed (baseline libraries load_policyFile policyFile policyOf)
open VerificationSpecification.Deployed (decoder)

/-- A request whose channel speaks another protocol. -/
theorem internal_errors_explained_deployed : ∃ ls pool p,
    Run (Step deployed) (Pool.start deployed ⟨policyFile baseline, served baseline, 0⟩) ls pool ∧
    p ∈ pool.processes ∧ p.Finished (@Result.response hashing (@Response.internalServerError hashing)) ∧
    @Fault plainParser plain route (p.log.map Prod.snd) := by
  have hcompletes : Completes (@postRoute asciiTables hashing decoder plainParser plain route)
      [⟨.allow .perIp "ip:10.0.0.1", true⟩, ⟨.receive, AsgiMessage.other⟩]
      (@Response.internalServerError hashing) := .await (.await (.done _))
  have hunresolved : ∀ useCase, ⟨.activeUseCase, useCase⟩ ∈ ([⟨.allow .perIp "ip:10.0.0.1", true⟩,
      ⟨.receive, AsgiMessage.other⟩] : List (Event Reply)) → useCase = served baseline := by
    intro useCase h
    rcases List.mem_pair.mp h with h | h <;> cases h
  obtain ⟨ls, p, hrun, htag, -, hfinished⟩ := @run_request asciiTables hashing decoder plainParser
    libraries plain _ _ _ ⟨policyFile baseline, served baseline, 0⟩ hcompletes hunresolved []
  have hstarted : @Started hashing libraries plain ⟨policyFile baseline, served baseline, 0⟩ :=
    ⟨@policyOf hashing baseline, @load_policyFile hashing baseline (.inl rfl), rfl⟩
  exact ⟨ls, _, p, hrun, by simp, hfinished, @internal_errors_explained asciiTables hashing decoder
    plainParser libraries plain _ hstarted _ _ hrun _ (by simp) _ htag hfinished⟩

end Deployed

end PolicyModelRouter.InternalErrors
