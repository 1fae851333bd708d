import PolicyModelRouter.DenialRuns
import PolicyModelRouter.ObservedRequests

/-!
# What a request leaves in the record

Every run of the observed endpoint is one of a few records, by its response. What a limiter
answered and whether an identifier was used for the first time is in the record as it was
answered.
-/

namespace PolicyModelRouter.RequestRecords
open AnnotatedPrograms AuthorizationContract AuthorizationVerifier AwaitingPrograms DenialRuns
open GovernedVocabularies HandlerRuns ObservedRequests OrderedChecks PythonText RouteEndpoint
open RouteRuns RouterCalls RoutingRuns RuntimeControl TrustedKeys VerificationTraces ViolationContract
open ViolationEvidence
open RoutingCatalog hiding RejectedCandidate
open WireContracts hiding RejectedCandidate

section Records

variable [UnicodeTables] [Cryptography] [JsonDecoder]
variable {app : Application} {scope : RouteScope} {envelope : RouteRequestEnvelope}
variable {useCase : RouteModelUseCase} {correlationId : String} {workload : WorkloadId}
variable {es : List (Event (Answer Observation Reply))}

/-- The increment that an answer alone decides: the outcome of a limiter, or the first use of
an identifier. -/
def counterOf : Event Reply → Option Observation
  | ⟨.allow tier _, allowed⟩ => some (.rateLimitDecision tier allowed)
  | ⟨.redisSet _ _, reply⟩ =>
    match reply with
    | SetReply.set => some (.runtimeAuthorization .verified)
    | _ => none
  | ⟨.memoryConsume _ _ _, reply⟩ =>
    match reply with
    | ConsumeReply.fresh => some (.runtimeAuthorization .verified)
    | _ => none
  | _ => none

/-- The increments that answers alone decide. -/
def decidedByAnswer : Observation → Bool
  | .rateLimitDecision _ _ => true
  | .runtimeAuthorization .verified => true
  | _ => false

def Told (es : List (Event (Answer Observation Reply))) : Prop :=
  (calls es).filterMap counterOf = (notes es).filter decidedByAnswer

omit [UnicodeTables] [Cryptography] [JsonDecoder] in
theorem Told.append {es' : List (Event (Answer Observation Reply))} (h : Told es) (h' : Told es') :
    Told (es ++ es') := by
  unfold Told at h h' ⊢
  rw [calls_append, notes_append, List.filterMap_append, List.filter_append, h, h']

def countsNothing : Call → Bool
  | .allow _ _ => false
  | .redisSet _ _ => false
  | .memoryConsume _ _ _ => false
  | _ => true

omit [UnicodeTables] [Cryptography] [JsonDecoder] in
private theorem filterMap_counterOf_eq_nil {cs : List (Event Reply)}
    (h : ∀ e ∈ cs, countsNothing e.1 = true) : cs.filterMap counterOf = [] := by
  refine List.filterMap_eq_nil_iff.mpr fun e he => ?_
  obtain ⟨c, r⟩ := e
  have hc := h ⟨c, r⟩ he
  cases c <;> first | rfl | cases hc

omit [UnicodeTables] [Cryptography] [JsonDecoder] in
theorem told_of_calls {cs : List (Event Reply)} (h : ∀ e ∈ cs, countsNothing e.1 = true) :
    Told (cs.map (called Observation)) := by
  rw [Told, calls_map_called, notes_map_called, filterMap_counterOf_eq_nil h]
  rfl

omit [UnicodeTables] [Cryptography] [JsonDecoder] in
private theorem told_of_concluded {cs : List (Event Reply)} {ns : List Observation}
    (h : cs.filterMap counterOf = ns.filter decidedByAnswer) :
    Told (cs.map (called Observation) ++ ns.map (noted Reply)) := by
  unfold Told
  rw [calls_append, notes_append, calls_map_called, calls_map_noted, notes_map_called,
    notes_map_noted, List.append_nil, h]
  rfl

omit [UnicodeTables] [Cryptography] [JsonDecoder] in
theorem told_of_limit {tier : Tier} {key : String} {allowed : Bool} (h : Told es) :
    Told (called Observation ⟨.allow tier key, allowed⟩ ::
      noted Reply (.rateLimitDecision tier allowed) :: es) := by
  have hlimit : Told [called Observation ⟨.allow tier key, allowed⟩,
    noted Reply (.rateLimitDecision tier allowed)] := rfl
  exact hlimit.append h

omit [UnicodeTables] [Cryptography] [JsonDecoder] in
private theorem told_of_notes {ns : List Observation} (h : ns.filter decidedByAnswer = []) :
    Told (ns.map (noted Reply)) := by
  rw [Told, calls_map_noted, notes_map_noted, h]
  rfl

inductive AdmissionFailure : PyException → Prop where
  | authorization (error : RuntimeAuthorizationError) : AdmissionFailure (.runtimeAuthorization error)
  | authentication (message : String) : AdmissionFailure (.authentication message)
  | typeError : AdmissionFailure .typeError
  | overflow : AdmissionFailure .overflow
  | decimal (signal : DecimalArithmetic.Signal) : AdmissionFailure (.decimalSignal signal)

omit [UnicodeTables] in
private theorem admissionFailure_of_unauthorized {authorization : Option SignedRuntimeAuthorization}
    {request : RouteRequest} {cs : List (Event Reply)} {e : PyException}
    (h : Unauthorized app authorization request cs e) : AdmissionFailure e := by
  cases h with
  | mode own => exact .authorization _
  | denied required denied =>
    cases denied with
    | offline check =>
      cases onlyErrors_verifyOffline _ check with
      | denied own => exact .authorization _
      | overflow => exact .overflow
      | decimal signal => exact .decimal signal
    | control checked configured own => exact .authorization _
    | replay checked allowed refused => exact .authorization _

omit [Cryptography] [JsonDecoder] in
private theorem admissionFailure_of_authenticate {xApiKey : Option String} {agentName : String}
    {apiKeys : AList fun _ : String => String} {e : PyException}
    (h : authenticate xApiKey agentName apiKeys = .error e) : AdmissionFailure e := by
  cases onlyErrors_authenticate _ h with
  | refused message => exact .authentication message
  | typeError => exact .typeError

omit [UnicodeTables] [Cryptography] in
private theorem counters_of_allowed {verifier : RuntimeAuthorizationVerifier}
    {claims : RuntimeAuthorizationClaims} {control : List (Event Reply)}
    (h : Allowed verifier claims control) : control.filterMap counterOf = [] := by
  unfold Allowed at h
  split at h
  · rw [h]
    rfl
  · obtain ⟨reply, snapshot, rfl, -⟩ := h
    rfl

omit [UnicodeTables] [Cryptography] [JsonDecoder] in
private theorem counterOf_consumed (replayGuard : ReplayGuards.RuntimeAuthorizationReplayGuard)
    (authorizationId : Uuids.UUID) (expiresAt now : UtcTimestamps.Datetime) :
    counterOf (consumed replayGuard authorizationId expiresAt now) =
      some (.runtimeAuthorization .verified) := by
  cases replayGuard <;> rfl

omit [UnicodeTables] [Cryptography] [JsonDecoder] in
private theorem counterOf_of_refusal {c : Call} {r : Reply c} {code : DenialCode}
    (h : refusal ⟨c, r⟩ = some code) : counterOf ⟨c, r⟩ = none := by
  cases c with
  | redisSet key ttl => cases r <;> first | rfl | cases h
  | memoryConsume authorizationId expiresAt now => cases r <;> first | rfl | cases h
  | _ => cases h

omit [UnicodeTables] in
/-- An authorization that returns has used its identifier for the first time, where one is
required. -/
theorem counters_of_authorized {authorization : Option SignedRuntimeAuthorization}
    {request : RouteRequest} {cs : List (Event Reply)} {verified : Verification}
    (h : Authorized app authorization request cs verified) :
    cs.filterMap counterOf = (concludeAuthorization (.ok verified)).filter decidedByAnswer ∧
      verified.isSome = app.runtimeAuthorizationRequired := by
  cases h with
  | notRequired disabled absent => exact ⟨rfl, disabled.symm⟩
  | verified required returned =>
    obtain ⟨-, ⟨control, hallowed, rfl⟩, -⟩ := returns_verify.mp returned
    refine ⟨?_, required.required.symm⟩
    rw [List.filterMap_cons_none rfl, List.filterMap_append, counters_of_allowed hallowed,
      List.nil_append, List.filterMap_cons_some (counterOf_consumed _ _ _ _)]
    rfl

omit [UnicodeTables] in
/-- An authorization that is denied has used no identifier. -/
theorem counters_of_unauthorized {authorization : Option SignedRuntimeAuthorization}
    {request : RouteRequest} {cs : List (Event Reply)} {e : PyException}
    (h : Unauthorized app authorization request cs e) : cs.filterMap counterOf = [] := by
  cases h with
  | mode own => rfl
  | denied required denied =>
    cases denied with
    | offline check => rfl
    | control checked configured own => rfl
    | replay checked allowed refused =>
      rw [List.filterMap_cons_none rfl, List.filterMap_append, counters_of_allowed allowed,
        List.nil_append, List.filterMap_cons_none (counterOf_of_refusal refused)]
      rfl

def admittedNotes (verified : Verification) : List Observation :=
  .rateLimitDecision .perAgent true :: concludeAuthorization (.ok verified)

/-- What the checks in front of routing record, by their outcome. -/
inductive Admitted (app : Application) : List Observation → Except PyException Verification → Prop where
  | limited {message : String} :
      Admitted app [.rateLimitDecision .perAgent false] (.error (.rateLimitExceeded message))
  | refused {e : PyException} (failure : AdmissionFailure e) :
      Admitted app [.rateLimitDecision .perAgent true] (.error e)
  | passed {verified : Verification} (mode : verified.isSome = app.runtimeAuthorizationRequired) :
      Admitted app (admittedNotes verified) (.ok verified)

private theorem admitted_of_completes {r : Except PyException Verification}
    (h : Completes (observedAdmitRequest app scope envelope).run es r) :
    Told es ∧ Admitted app (notes es) r := by
  unfold observedAdmitRequest at h
  rcases completes_run_bind.mp h with ⟨e, rfl, hraises⟩ | ⟨_, _, allowed, rfl, hask, h₁⟩
  · obtain ⟨_, -, ⟨⟩⟩ := completes_unrecorded_perform.mp hraises
  obtain ⟨_, rfl, ⟨⟩⟩ := completes_unrecorded_perform.mp hask
  rcases completes_run_bind.mp h₁ with ⟨e, rfl, hraises⟩ | ⟨_, _, _, rfl, hnote, h₂⟩
  · cases (completes_takeNote.mp hraises).2
  obtain ⟨rfl, -⟩ := completes_takeNote.mp hnote
  cases allowed with
  | false =>
    rcases completes_run_bind.mp h₂ with ⟨e, rfl, hraises⟩ | ⟨_, _, _, -, hreturns, -⟩
    · obtain ⟨rfl, hlimit⟩ := (raises_compute _ _).mp hraises
      cases hlimit
      exact ⟨rfl, .limited⟩
    · cases ((returns_compute _ _).mp hreturns).2
  | true =>
    rcases completes_run_bind.mp h₂ with ⟨e, -, hraises⟩ | ⟨_, _, _, rfl, hreturns, h₃⟩
    · cases ((raises_compute _ _).mp hraises).2
    obtain ⟨rfl, -⟩ := (returns_compute _ _).mp hreturns
    rcases completes_run_bind.mp h₃ with ⟨e, rfl, hraises⟩ | ⟨_, _, _, rfl, hreturns, h₄⟩
    · obtain ⟨rfl, hmismatch⟩ := (raises_compute _ _).mp hraises
      exact ⟨rfl, .refused (admissionFailure_of_authenticate hmismatch)⟩
    obtain ⟨rfl, -⟩ := (returns_compute _ _).mp hreturns
    obtain ⟨_, rfl, hunrecorded⟩ := completes_concluding.mp h₄
    obtain ⟨rest, rfl, hauthorize⟩ := completes_unrecorded.mp hunrecorded
    cases r with
    | error e =>
      have hunauthorized := unauthorized_of_raises hauthorize
      have hfailure := admissionFailure_of_unauthorized hunauthorized
      exact ⟨told_of_limit (told_of_concluded (counters_of_unauthorized hunauthorized)),
        by simpa [concludeAuthorization] using .refused hfailure⟩
    | ok verified =>
      obtain ⟨hcounters, hmode⟩ := counters_of_authorized (authorized_of_returns hauthorize)
      exact ⟨told_of_limit (told_of_concluded hcounters), by simpa [admittedNotes] using .passed hmode⟩

/-- What a request decided under a policy can count: decisions by what the policy maps,
durations and rejections by what it declares, and one label for every other workload. -/
def Series (policy : RoutingPolicy) : Observation → Prop
  | .routeDecision workload modelGroup => ∃ mapped rule,
      policy.workloads.lookup mapped = some rule ∧ workload = mapped.value ∧
        modelGroup = rule.modelGroup.value
  | .routeRejection workload .noViableModelGroup =>
    ∃ declared ∈ policy.workloads, workload = declared.value
  | .routeRejection workload .misconfiguredPolicy => workload = undeclaredWorkloadLabel
  | .routeDuration workload =>
    workload = undeclaredWorkloadLabel ∨ ∃ declared ∈ policy.workloads, workload = declared.value
  | .policyReload _ => False
  | _ => True

omit [UnicodeTables] [Cryptography] [JsonDecoder] in
private theorem workloadLabel_of_lookup {rule : WorkloadRule}
    (h : useCase.policy.workloads.lookup workload = some rule) :
    workloadLabel useCase workload = workload.value := by
  have hdeclared : workload ∈ useCase.policy.workloads := by
    rw [← AList.lookup_isSome, h]
    rfl
  simp [workloadLabel, declaresWorkload, hdeclared]

omit [UnicodeTables] [Cryptography] [JsonDecoder] in
private theorem workloadLabel_of_missing (h : useCase.policy.workloads.lookup workload = none) :
    workloadLabel useCase workload = undeclaredWorkloadLabel := by
  simp [workloadLabel, declaresWorkload, AList.lookup_eq_none.mp h]

omit [UnicodeTables] [Cryptography] [JsonDecoder] in
theorem series_routeDuration :
    Series useCase.policy (.routeDuration (workloadLabel useCase workload)) := by
  by_cases hdeclared : workload ∈ useCase.policy.workloads
  · exact .inr ⟨workload, hdeclared, by simp [workloadLabel, declaresWorkload, hdeclared]⟩
  · exact .inl (by simp [workloadLabel, declaresWorkload, hdeclared])

omit [UnicodeTables] [Cryptography] [JsonDecoder] in
theorem series_admittedNotes {policy : RoutingPolicy} {verified : Verification} {n : Observation}
    (h : n ∈ admittedNotes verified) : Series policy n := by
  cases verified with
  | none =>
    simp only [admittedNotes, concludeAuthorization, List.mem_cons, List.not_mem_nil, or_false] at h
    rcases h with rfl | rfl <;> trivial
  | some verified =>
    simp only [admittedNotes, concludeAuthorization, List.mem_cons, List.not_mem_nil, or_false] at h
    rcases h with rfl | rfl <;> trivial

omit [Cryptography] [JsonDecoder] in
/-- What is counted about a rejection is by what the policy maps. -/
theorem series_of_routed {request : RouteRequest} {includeRejected : Bool} {cs : List (Event Reply)}
    {e : PyException} (h : Routed useCase request includeRejected cs (.error e)) {n : Observation}
    (counted : n ∈ concludeRouting (workloadLabel useCase request.workload) request.workload (.error e)) :
    Series useCase.policy n := by
  generalize hr : (Except.error e : Except PyException RouteDecision) = r at h
  cases h with
  | unmapped missing =>
    cases hr
    simp only [concludeRouting, List.mem_cons, List.not_mem_nil, or_false] at counted
    rcases counted with rfl | rfl | rfl
    · exact workloadLabel_of_missing missing
    · trivial
    · exact series_routeDuration
  | rejected evaluates failed =>
    cases hr
    simp only [concludeRouting, List.mem_cons, List.not_mem_nil, or_false] at counted
    rcases counted with rfl | rfl | rfl
    · refine ⟨request.workload, ?_, workloadLabel_of_lookup evaluates.mapped⟩
      rw [← AList.lookup_isSome, evaluates.mapped]
      rfl
    · trivial
    · exact series_routeDuration
  | undeclared mapped missing fast =>
    cases hr
    obtain rfl := List.mem_singleton.mp counted
    exact series_routeDuration
  | @raised _ _ _ exception evaluates =>
    cases hr
    cases exception
    all_goals
      obtain rfl := List.mem_singleton.mp counted
      exact series_routeDuration
  | selected evaluates passed => cases hr

omit [Cryptography] [JsonDecoder] in
private theorem exists_rule_of_routed {request : RouteRequest} {includeRejected : Bool}
    {cs : List (Event Reply)} {decision : RouteDecision}
    (h : Routed useCase request includeRejected cs (.ok decision)) :
    ∃ rule, useCase.policy.workloads.lookup request.workload = some rule ∧
      decision.selectedModelGroup = rule.modelGroup := by
  generalize hr : (Except.ok decision : Except PyException RouteDecision) = r at h
  cases h with
  | selected evaluates passed =>
    cases hr
    exact ⟨_, evaluates.mapped, rfl⟩
  | unmapped => cases hr
  | undeclared => cases hr
  | raised => cases hr
  | rejected => cases hr

/-- What the handler records, by its result. -/
inductive Handled (app : Application) (useCase : RouteModelUseCase) (workload : WorkloadId) :
    List Observation → Except PyException ModelRouteDecision → Prop where
  | unadmitted {ns : List Observation} {e : PyException} (unadmitted : Admitted app ns (.error e)) :
      Handled app useCase workload ns (.error e)
  | unrouted {verified : Verification} {e : PyException}
      (mode : verified.isSome = app.runtimeAuthorizationRequired) (failure : RoutingFailure e)
      (series : ∀ n ∈ concludeRouting (workloadLabel useCase workload) workload (.error e),
        Series useCase.policy n) :
      Handled app useCase workload (admittedNotes verified ++
        concludeRouting (workloadLabel useCase workload) workload (.error e)) (.error e)
  | outOfScope {verified : RuntimeAuthorizationVerifier × VerifiedRuntimeAuthorization}
      {error : RuntimeAuthorizationError} (mode : app.runtimeAuthorizationRequired = true) :
      Handled app useCase workload (admittedNotes (some verified) ++
        [.routeDuration (workloadLabel useCase workload)]) (.error (.runtimeAuthorization error))
  | selected {verified : Verification} {decision : RouteDecision} {rule : WorkloadRule}
      {r : Except PyException ModelRouteDecision}
      (mode : verified.isSome = app.runtimeAuthorizationRequired)
      (mapped : useCase.policy.workloads.lookup workload = some rule)
      (selected : decision.selectedModelGroup = rule.modelGroup)
      (published : fromDomainDecision decision = r) :
      Handled app useCase workload (admittedNotes verified ++
        [.routeDuration (workloadLabel useCase workload),
          .routeDecision (workloadLabel useCase workload) decision.selectedModelGroup.value,
          .log (acceptedLine workload decision)]) r

omit [UnicodeTables] [JsonDecoder] [Cryptography] in
private theorem denial_of_requireScope {verified : Verification} {selected : ModelGroupId}
    {e : PyException}
    (h : requireScope verified selected = .error e) :
    ∃ own error, verified = some own ∧ e = .runtimeAuthorization error := by
  cases verified with
  | none => cases h
  | some verified =>
    obtain ⟨code, message, -, rfl⟩ := code_of_requireSelectedModel h
    exact ⟨verified, _, rfl, rfl⟩

omit [Cryptography] [JsonDecoder] in
private theorem countsNothing_of_routing {request : RouteRequest} {includeRejected : Bool}
    {cs : List (Event Reply)} {r : Except PyException RouteDecision}
    (h : Completes (ModelRouting.route useCase request includeRejected).run cs r) :
    ∀ e ∈ cs, countsNothing e.1 = true := by
  refine h.each_call (fun c => countsNothing c = true) fun _ _ hissued => ?_
  cases issues_route hissued <;> rfl

omit [UnicodeTables] [Cryptography] [JsonDecoder] in
/-- What follows routing in the record is decided by no answer. -/
theorem filter_concludeRouting (label : String) (workload : WorkloadId)
    (r : Except PyException RouteDecision) :
    (concludeRouting label workload r).filter decidedByAnswer = [] := by
  cases r with
  | ok decision => rfl
  | error e => cases e <;> rfl

private theorem handled_of_completes {r : Except (PyException × RequestState) ModelRouteDecision}
    (h : Completes (observedRoute app scope useCase envelope correlationId).run es r) :
    Told es ∧ Handled app useCase envelope.request.workload (notes es) (r.mapError Prod.fst) := by
  unfold observedRoute at h
  rcases completes_run_bind.mp h with ⟨_, rfl, hraises⟩ | ⟨_, _, verified, rfl, hadmitted, h₁⟩
  · obtain ⟨e, rfl, hraised⟩ := (raises_mapError _ _ _).mp hraises
    obtain ⟨htold, hadmitted⟩ := admitted_of_completes hraised
    exact ⟨htold, .unadmitted hadmitted⟩
  obtain ⟨htold, hnotes⟩ := admitted_of_completes ((returns_mapError _ _ _).mp hadmitted)
  generalize hns : notes _ = ns at hnotes
  cases hnotes with
  | passed mode =>
    rw [notes_append, hns]
    rcases completes_run_bind.mp h₁ with ⟨_, rfl, hraises⟩ | ⟨_, _, decision, rfl, hrouted, h₂⟩
    · obtain ⟨e, rfl, hraised⟩ := (raises_mapError _ _ _).mp hraises
      obtain ⟨_, rfl, hunrecorded⟩ := completes_concluding.mp hraised
      obtain ⟨cs, rfl, hrouting⟩ := completes_unrecorded.mp hunrecorded
      have hseries := fun n => series_of_routed (n := n) (routed_of_completes hrouting)
      refine ⟨htold.append ((told_of_calls (countsNothing_of_routing hrouting)).append ?_), ?_⟩
      · exact told_of_notes (filter_concludeRouting _ _ _)
      · simpa using .unrouted mode (raises_route hrouting) hseries
    obtain ⟨_, rfl, hunrecorded⟩ := completes_concluding.mp ((returns_mapError _ _ _).mp hrouted)
    obtain ⟨cs, rfl, hrouting⟩ := completes_unrecorded.mp hunrecorded
    obtain ⟨rule, hmapped, hselected⟩ := exists_rule_of_routed (routed_of_completes hrouting)
    replace htold := htold.append ((told_of_calls (countsNothing_of_routing hrouting)).append
      (told_of_notes (filter_concludeRouting (workloadLabel useCase envelope.request.workload)
        envelope.request.workload (.ok decision))))
    rcases completes_run_bind.mp h₂ with ⟨_, rfl, hraises⟩ | ⟨_, _, _, rfl, hwithin, h₃⟩
    · obtain ⟨e, rfl, hraised⟩ := (raises_mapError _ _ _).mp hraises
      obtain ⟨rfl, houtside⟩ := (raises_compute _ _).mp hraised
      obtain ⟨own, error, rfl, rfl⟩ := denial_of_requireScope houtside
      rw [List.append_nil]
      exact ⟨htold, by simpa [concludeRouting] using .outOfScope mode.symm⟩
    obtain ⟨rfl, -⟩ := (returns_compute _ _).mp ((returns_mapError _ _ _).mp hwithin)
    rcases completes_run_bind.mp h₃ with ⟨_, rfl, hraises⟩ | ⟨_, _, _, rfl, hnote, h₄⟩
    · cases (completes_takeNote.mp hraises).2
    obtain ⟨rfl, -⟩ := completes_takeNote.mp hnote
    rcases completes_run_bind.mp h₄ with ⟨_, rfl, hraises⟩ | ⟨_, _, _, rfl, hnote, h₅⟩
    · cases (completes_takeNote.mp hraises).2
    obtain ⟨rfl, -⟩ := completes_takeNote.mp hnote
    obtain ⟨rfl, rfl⟩ := (completes_run_compute ((fromDomainDecision decision).mapError fun e =>
      (e, selectedState envelope correlationId verified decision.selectedModelGroup)) r).mp h₅
    have hresult : ((fromDomainDecision decision).mapError fun e =>
        (e, selectedState envelope correlationId verified decision.selectedModelGroup)).mapError
          Prod.fst = fromDomainDecision decision := by
      cases fromDomainDecision decision <;> rfl
    refine ⟨?_, by simpa [concludeRouting] using .selected mode hmapped hselected hresult.symm⟩
    rw [← List.append_assoc]
    exact htold.append rfl

omit [UnicodeTables] [Cryptography] [JsonDecoder] in
/-- What the handler counts are series of the policy it decides under. -/
theorem series_of_handled {ns : List Observation} {r : Except PyException ModelRouteDecision}
    (h : Handled app useCase workload ns r) {n : Observation} (noted : n ∈ ns) :
    Series useCase.policy n := by
  cases h with
  | unadmitted unadmitted =>
    generalize hr : (Except.error _ : Except PyException Verification) = r at unadmitted
    cases unadmitted with
    | limited =>
      obtain rfl := List.mem_singleton.mp noted
      trivial
    | refused failure =>
      obtain rfl := List.mem_singleton.mp noted
      trivial
    | passed => cases hr
  | unrouted mode failure series =>
    rcases List.mem_append.mp noted with h | h
    · exact series_admittedNotes h
    · exact series n h
  | outOfScope =>
    rcases List.mem_append.mp noted with h | h
    · exact series_admittedNotes h
    · obtain rfl := List.mem_singleton.mp h
      exact series_routeDuration
  | @selected _ _ rule _ mode mapped selected published =>
    rcases List.mem_append.mp noted with h | h
    · exact series_admittedNotes h
    · simp only [List.mem_cons, List.not_mem_nil, or_false] at h
      rcases h with rfl | rfl | rfl
      · exact series_routeDuration
      · exact ⟨workload, rule, mapped, workloadLabel_of_lookup mapped, by rw [selected]⟩
      · trivial

def hasHandler : PyException → Bool
  | .runtimeAuthorization _ => true
  | .noViableModelGroup _ => true
  | .incompleteRoutingPolicy _ => true
  | .authentication _ => true
  | .rateLimitExceeded _ => true
  | _ => false

/-- What the handler of an exception records, and the response it ends in. -/
inductive Answered : PyException → List Observation → Response → Prop where
  | denied {error : RuntimeAuthorizationError} {violation : RuntimeViolationEnvelope} :
      Answered (.runtimeAuthorization error)
        (.runtimeAuthorization .denied :: violationNotes violation) (.violation error.code violation)
  | unevidenced {error : RuntimeAuthorizationError} {response : Response}
      (escaped : Escaped response) :
      Answered (.runtimeAuthorization error) [.runtimeAuthorization .denied] response
  | rejected {decision : RejectedDecision} {rejection : RouteRejection}
      (published : fromDomainRejection decision = .ok rejection) :
      Answered (.noViableModelGroup decision) [] (.rejection (noViableMessage decision) rejection)
  | misconfigured {message : String} : Answered (.incompleteRoutingPolicy message) []
      (.error 500 "misconfigured_routing_policy" "the routing policy is misconfigured")
  | unauthenticated {message : String} : Answered (.authentication message) []
      (.error 401 "unauthorized" "missing or invalid API key")
  | limited {message : String} : Answered (.rateLimitExceeded message) [] tooManyRequests
  | unpublished {decision : RejectedDecision} {response : Response} (escaped : Escaped response) :
      Answered (.noViableModelGroup decision) [] response
  | escaped {e : PyException} {response : Response} (unhandled : hasHandler e = false)
      (escaped : Escaped response) : Answered e [] response

omit [JsonDecoder] in
private theorem answered_of_completes {failure : PyException × RequestState}
    {r : Except PyException Response}
    (h : Completes (observedHandleException app failure).run es r) :
    Answered failure.1 (notes es) (ending r) := by
  obtain ⟨e, state⟩ := failure
  cases e with
  | runtimeAuthorization error =>
    change Completes (observedHandleRuntimeAuthorizationError app state error).run es r at h
    unfold observedHandleRuntimeAuthorizationError at h
    rcases completes_run_bind.mp h with ⟨_, rfl, hraises⟩ | ⟨_, _, _, rfl, hnote, h₁⟩
    · cases (completes_takeNote.mp hraises).2
    obtain ⟨rfl, -⟩ := completes_takeNote.mp hnote
    rcases completes_run_bind.mp h₁ with ⟨e, rfl, hraises⟩ | ⟨_, _, violation, rfl, hbuilt, h₂⟩
    · obtain ⟨_, rfl, hunrecorded⟩ := completes_concluding.mp hraises
      obtain ⟨cs, rfl, -⟩ := completes_unrecorded.mp hunrecorded
      simpa using .unevidenced ⟨e, rfl⟩
    · obtain ⟨_, rfl, hunrecorded⟩ := completes_concluding.mp hbuilt
      obtain ⟨cs, rfl, -⟩ := completes_unrecorded.mp hunrecorded
      obtain ⟨rfl, rfl⟩ := (completes_run_pure _ _).mp h₂
      simpa [ending] using .denied
  | noViableModelGroup decision =>
    obtain ⟨cs, rfl, hplain⟩ := completes_unrecorded.mp h
    rw [notes_map_called]
    rcases completes_run_bind.mp hplain with ⟨e, rfl, -⟩ | ⟨_, _, rejection, rfl, hpublished, hpure⟩
    · exact .unpublished ⟨e, rfl⟩
    · obtain ⟨rfl, rfl⟩ := (completes_run_pure _ _).mp hpure
      exact .rejected ((returns_compute _ _).mp hpublished).2
  | incompleteRoutingPolicy message =>
    obtain ⟨cs, rfl, hplain⟩ := completes_unrecorded.mp h
    obtain ⟨rfl, rfl⟩ := (completes_run_pure _ _).mp hplain
    exact .misconfigured
  | authentication message =>
    obtain ⟨cs, rfl, hplain⟩ := completes_unrecorded.mp h
    obtain ⟨rfl, rfl⟩ := (completes_run_pure _ _).mp hplain
    exact .unauthenticated
  | rateLimitExceeded message =>
    obtain ⟨cs, rfl, hplain⟩ := completes_unrecorded.mp h
    obtain ⟨rfl, rfl⟩ := (completes_run_pure _ _).mp hplain
    exact .limited
  | _ =>
    obtain ⟨cs, rfl, hplain⟩ := completes_unrecorded.mp h
    obtain ⟨rfl, rfl⟩ := (completes_run_throw _ _).mp hplain
    exact .escaped rfl ⟨_, rfl⟩

omit [JsonDecoder] in
/-- What the handler of an exception records is decided by no answer. -/
theorem undecided_of_answered {e : PyException} {ns : List Observation} {response : Response}
    (h : Answered e ns response) : ns.filter decidedByAnswer = [] := by
  cases h <;> rfl

omit [UnicodeTables] [Cryptography] [JsonDecoder] in
private theorem countsNothing_of_reading {cap patience : ℕ} {body : Bytes} {cs : List (Event Reply)}
    {r : Except PyException Admission} (h : Completes (admitBody cap patience body).run cs r) :
    ∀ e ∈ cs, countsNothing e.1 = true := by
  refine h.each_call (fun c => countsNothing c = true) fun _ _ hissued => ?_
  rw [issues_admitBody hissued]
  rfl

/-- The responses given without the handler, other than the refusal of the limit. -/
inductive Early : Response → Prop where
  | tooLarge (cap : ℕ) : Early (bodyTooLarge cap)
  | invalidLength : Early invalidContentLength
  | invalid : Early validationError
  | unparsable : Early .unparsableBody
  | escaped {response : Response} (escaped : Escaped response) : Early response

variable [BodyParser]

/-- What one request records, by its calls and its response. -/
inductive Recorded (app : Application) (scope : RouteScope) :
    List (Event (Answer Observation Reply)) → Response → Prop where
  | limited {es : List (Event (Answer Observation Reply))}
      (front : notes es = [.rateLimitDecision .perIp false]) : Recorded app scope es tooManyRequests
  | early {es : List (Event (Answer Observation Reply))} {response : Response}
      (front : notes es = [.rateLimitDecision .perIp true]) (early : Early response) :
      Recorded app scope es response
  | decided {before after : List (Event (Answer Observation Reply))} {useCase : RouteModelUseCase}
      {envelope : RouteRequestEnvelope} {correlationId : String} {decision : ModelRouteDecision}
      (front : notes before = [.rateLimitDecision .perIp true])
      (reaches : Reaches scope (calls before) useCase envelope correlationId)
      (quiet : received (calls after) = [])
      (handled : Handled app useCase envelope.request.workload (notes after) (.ok decision)) :
      Recorded app scope (before ++ after) (.decision decision)
  | raised {before after answering : List (Event (Answer Observation Reply))}
      {useCase : RouteModelUseCase} {envelope : RouteRequestEnvelope} {correlationId : String}
      {e : PyException} {response : Response}
      (front : notes before = [.rateLimitDecision .perIp true])
      (reaches : Reaches scope (calls before) useCase envelope correlationId)
      (quiet : received (calls (after ++ answering)) = [])
      (handled : Handled app useCase envelope.request.workload (notes after) (.error e))
      (answered : Answered e (notes answering) response) :
      Recorded app scope (before ++ (after ++ answering)) response

omit [UnicodeTables] [JsonDecoder] [BodyParser] in
private theorem early_of_declaredBodySizeError {headers : List (Bytes × Bytes)} {cap : ℕ}
    {response : Response}
    (h : declaredBodySizeError headers cap = some response) : Early response := by
  unfold declaredBodySizeError at h
  split at h
  · cases h
    exact .invalidLength
  · cases h
  · dsimp only at h
    split_ifs at h
    all_goals cases h
    · exact .tooLarge cap
    · exact .tooLarge cap
    · exact .invalidLength

omit [UnicodeTables] [Cryptography] [JsonDecoder] [BodyParser] in
/-- What was noted in the beginning of a run was noted in front of the handler, or after all
of what is in front of it. -/
theorem noted_of_split {before after seen rest : List (Event (Answer Observation Reply))}
    {first n : Observation} (front : notes before = [first]) (split : before ++ after = seen ++ rest)
    (noted : n ∈ notes seen) :
    n = first ∨ (∀ e ∈ calls before, e ∈ calls seen) ∧ n ∈ notes after := by
  rcases List.append_eq_append_iff.mp split with ⟨middle, rfl, rfl⟩ | ⟨middle, rfl, -⟩
  · rw [notes_append, front, List.singleton_append, List.mem_cons] at noted
    refine noted.imp_right fun h => ⟨fun e he => ?_, ?_⟩
    · rw [calls_append]
      exact List.mem_append_left _ he
    · rw [notes_append]
      exact List.mem_append_left _ h
  · rw [notes_append] at front
    have hn : n ∈ [first] := front ▸ List.mem_append_left _ noted
    exact .inl (List.mem_singleton.mp hn)

omit [JsonDecoder] [BodyParser] in
private theorem series_of_answered {policy : RoutingPolicy} {e : PyException} {ns : List Observation}
    {response : Response} (h : Answered e ns response) {n : Observation} (noted : n ∈ ns) :
    Series policy n := by
  cases h with
  | denied =>
    simp only [violationNotes, List.mem_cons, List.not_mem_nil, or_false] at noted
    rcases noted with rfl | rfl | rfl <;> trivial
  | unevidenced escaped =>
    obtain rfl := List.mem_singleton.mp noted
    trivial
  | _ => cases noted

omit [JsonDecoder] in
/-- Whatever a request has noted at any time is the answer of the first limiter, or a series
of the policy it has resolved by then. -/
theorem source_of_recorded {response : Response} (h : Recorded app scope es response)
    {seen rest : List (Event (Answer Observation Reply))} (split : es = seen ++ rest)
    {n : Observation} (noted : n ∈ notes seen) :
    (∃ allowed, n = .rateLimitDecision .perIp allowed) ∨
      ∃ useCase, ⟨.activeUseCase, useCase⟩ ∈ calls seen ∧ Series useCase.policy n := by
  cases h with
  | limited front =>
    have hn : n ∈ notes (seen ++ rest) := by simp [noted]
    rw [← split, front] at hn
    exact .inl ⟨false, List.mem_singleton.mp hn⟩
  | early front early =>
    have hn : n ∈ notes (seen ++ rest) := by simp [noted]
    rw [← split, front] at hn
    exact .inl ⟨true, List.mem_singleton.mp hn⟩
  | @decided _ _ useCase _ _ _ front reaches quiet handled =>
    rcases noted_of_split front split noted with rfl | ⟨hcalls, hn⟩
    · exact .inl ⟨true, rfl⟩
    · exact .inr ⟨useCase, hcalls _ ((reaches.resolved useCase).mpr rfl), series_of_handled handled hn⟩
  | @raised _ _ _ useCase _ _ _ _ front reaches quiet handled answered =>
    rcases noted_of_split front split noted with rfl | ⟨hcalls, hn⟩
    · exact .inl ⟨true, rfl⟩
    · refine .inr ⟨useCase, hcalls _ ((reaches.resolved useCase).mpr rfl), ?_⟩
      rw [notes_append] at hn
      rcases List.mem_append.mp hn with h | h
      · exact series_of_handled handled h
      · exact series_of_answered answered h

omit [BodyParser] in
theorem quiet_of_handler {r : Except (PyException × RequestState) ModelRouteDecision}
    (h : Completes (observedRoute app scope useCase envelope correlationId).run es r) :
    received (calls es) = [] := by
  have herased : Completes (forget (observedRoute app scope useCase envelope correlationId)).run
      (calls es) r := completes_erase h
  rw [forget_observedRoute] at herased
  exact received_inside (herased.each_call Inside fun _ _ hissued => inside_of_issues hissued)

omit [JsonDecoder] [BodyParser] in
/-- No handler of an exception reads a body, and no answer it gets decides an increment. -/
theorem quiet_of_exception {failure : PyException × RequestState} {r : Except PyException Response}
    (h : Completes (observedHandleException app failure).run es r) :
    received (calls es) = [] ∧ Told es := by
  have herased : Completes (forget (observedHandleException app failure)).run (calls es) r :=
    completes_erase h
  rw [forget_observedHandleException] at herased
  have hcalls := herased.each_call (fun c => c ≠ .receive ∧ countsNothing c = true)
    fun _ _ hissued => by rcases issues_handleException hissued with rfl | rfl <;> simp [countsNothing]
  refine ⟨received_eq_nil fun e he => (hcalls e he).1, ?_⟩
  rw [Told, filterMap_counterOf_eq_nil fun e he => (hcalls e he).2,
    undecided_of_answered (answered_of_completes h)]

private theorem recorded_of_respond {before : List (Event (Answer Observation Reply))}
    {r : Except PyException Response} (front : notes before = [.rateLimitDecision .perIp true])
    (reaches : Reaches scope (calls before) useCase envelope correlationId)
    (h : Completes (observedRespond app
      (observedRoute app scope useCase envelope correlationId)).run es r) :
    Told es ∧ Recorded app scope (before ++ es) (ending r) := by
  rcases completes_run_recover.mp h with ⟨response, rfl, hreturns⟩ |
    ⟨after, answering, failure, rfl, hraises, hanswered⟩
  · obtain ⟨after, _, decision, rfl, hhandled, hpure⟩ := returns_bind.mp hreturns
    obtain ⟨rfl, rfl⟩ := (returns_pure _ _).mp hpure
    rw [List.append_nil]
    obtain ⟨htold, hhandled'⟩ := handled_of_completes hhandled
    exact ⟨htold, .decided front reaches (quiet_of_handler hhandled) hhandled'⟩
  · rcases raises_bind.mp hraises with hhandler | ⟨_, _, _, -, -, hpure⟩
    · obtain ⟨htold, hhandled⟩ := handled_of_completes hhandler
      obtain ⟨hquiet, hanswers⟩ := quiet_of_exception hanswered
      refine ⟨htold.append hanswers, .raised front reaches ?_ hhandled (answered_of_completes hanswered)⟩
      rw [calls_append, received_append, quiet_of_handler hhandler, hquiet]
      rfl
    · exact absurd hpure (not_raises_pure _ _)

private theorem recorded_of_framework {before : List (Event (Answer Observation Reply))} {body : Bytes}
    {r : Except PyException Response} (front : notes before = [.rateLimitDecision .perIp true])
    (reaches : ∀ envelope useCase, BodyParser.parse scope.headers body = .admitted envelope →
      Reaches scope (calls before ++ [⟨.activeUseCase, useCase⟩]) useCase envelope correlationId)
    (h : Completes (observedFramework app scope correlationId (some body)).run es r) :
    Told es ∧ Recorded app scope (before ++ es) (ending r) := by
  cases hparse : BodyParser.parse scope.headers body with
  | undecodable =>
    simp only [observedFramework, hparse, completes_run_pure] at h
    obtain ⟨rfl, rfl⟩ := h
    exact ⟨rfl, .early (by simpa using front) .invalid⟩
  | unparsable =>
    simp only [observedFramework, hparse, completes_run_pure] at h
    obtain ⟨rfl, rfl⟩ := h
    exact ⟨rfl, .early (by simpa using front) .unparsable⟩
  | invalid =>
    simp only [observedFramework, hparse] at h
    rcases completes_run_bind.mp h with ⟨e, rfl, hraises⟩ | ⟨_, _, _, rfl, hask, hpure⟩
    · obtain ⟨_, -, ⟨⟩⟩ := completes_unrecorded_perform.mp hraises
    · obtain ⟨_, rfl, ⟨⟩⟩ := completes_unrecorded_perform.mp hask
      obtain ⟨rfl, rfl⟩ := (completes_run_pure _ _).mp hpure
      exact ⟨rfl, .early (by simpa using front) .invalid⟩
  | timestampOverflow =>
    simp only [observedFramework, hparse] at h
    rcases completes_run_bind.mp h with ⟨e, rfl, hraises⟩ | ⟨_, _, _, rfl, hask, hthrow⟩
    · obtain ⟨_, -, ⟨⟩⟩ := completes_unrecorded_perform.mp hraises
    · obtain ⟨_, rfl, ⟨⟩⟩ := completes_unrecorded_perform.mp hask
      obtain ⟨rfl, rfl⟩ := (completes_run_throw _ _).mp hthrow
      exact ⟨rfl, .early (by simpa using front) (.escaped ⟨_, rfl⟩)⟩
  | admitted envelope =>
    simp only [observedFramework, hparse] at h
    rcases completes_run_bind.mp h with ⟨e, rfl, hraises⟩ | ⟨_, rest, useCase, rfl, hask, hrespond⟩
    · obtain ⟨_, -, ⟨⟩⟩ := completes_unrecorded_perform.mp hraises
    · obtain ⟨_, rfl, ⟨⟩⟩ := completes_unrecorded_perform.mp hask
      rw [← List.append_assoc]
      refine (recorded_of_respond (by simpa using front) ?_ hrespond).imp_left fun htold => ?_
      · simpa using reaches envelope useCase hparse
      · exact Told.append rfl htold

private theorem recorded_of_admission {before : List (Event (Answer Observation Reply))}
    {bound reads : List (Event Reply)} {admission : Admission} {r : Except PyException Response}
    (front : notes before = [.rateLimitDecision .perIp true])
    (made : calls before = bound ++ reads) (hbound : Returns (bindCorrelationId scope) bound correlationId)
    (outer : ∀ e ∈ reads, Outer e.1)
    (h : Completes (ExceptT.run (match admission with
      | .tooLarge => pure (bodyTooLarge app.maxRequestBodyBytes)
      | .disconnected => observedFramework app scope correlationId none
      | .complete body => observedFramework app scope correlationId (some body) :
        Observed Response)) es r)
    (complete : ∀ body, admission = .complete body → received reads = body) :
    Told es ∧ Recorded app scope (before ++ es) (ending r) := by
  cases admission with
  | tooLarge =>
    obtain ⟨rfl, rfl⟩ := (completes_run_pure _ _).mp h
    exact ⟨rfl, .early (by simpa using front) (.tooLarge _)⟩
  | disconnected =>
    obtain ⟨rfl, rfl⟩ := (completes_run_pure _ _).mp h
    exact ⟨rfl, .early (by simpa using front) .unparsable⟩
  | complete body =>
    refine recorded_of_framework front (fun envelope useCase hparse => ?_) h
    rw [made, List.append_assoc]
    exact reaches_of_parts useCase hbound outer (.inr (congrArg some (complete body rfl).symm)) rfl
      hparse

/-- Every run of the observed endpoint is one of the records. -/
theorem recorded_of_completes {response : Response}
    (h : Completes (observedPostRoute app scope) es response) :
    Told es ∧ Recorded app scope es response := by
  obtain ⟨_, _, r, rfl, hserve, hdone⟩ := completes_bind_iff.mp h
  obtain ⟨rfl, rfl⟩ := (completes_done_iff _ _ _).mp hdone
  rw [List.append_nil]
  rcases completes_run_bind.mp hserve with ⟨e, rfl, hraises⟩ | ⟨_, _, correlationId, rfl, hbound, h₁⟩
  · obtain ⟨cs, -, hraises⟩ := completes_unrecorded.mp hraises
    exact absurd hraises not_raises_bindCorrelationId
  obtain ⟨bound, rfl, hplain⟩ := completes_unrecorded.mp hbound
  have htold : Told (bound.map (called Observation)) :=
    told_of_calls (Completes.each_call hplain (fun c => countsNothing c = true)
      fun _ _ hissued => by rw [issues_bindCorrelationId hissued]; rfl)
  unfold observedBodySizeAndIpRateLimit at h₁
  rcases completes_run_bind.mp h₁ with ⟨e, rfl, hraises⟩ | ⟨_, _, allowed, rfl, hask, h₂⟩
  · obtain ⟨_, -, ⟨⟩⟩ := completes_unrecorded_perform.mp hraises
  obtain ⟨_, rfl, ⟨⟩⟩ := completes_unrecorded_perform.mp hask
  rcases completes_run_bind.mp h₂ with ⟨e, rfl, hraises⟩ | ⟨_, rest, _, rfl, hnote, h₃⟩
  · cases (completes_takeNote.mp hraises).2
  obtain ⟨rfl, -⟩ := completes_takeNote.mp hnote
  cases allowed with
  | false =>
    obtain ⟨rfl, rfl⟩ := (completes_run_pure _ _).mp h₃
    exact ⟨htold.append rfl, .limited (by simp)⟩
  | true =>
    dsimp only at h₃
    cases hdeclared : declaredBodySizeError scope.headers app.maxRequestBodyBytes with
    | some response =>
      simp only [hdeclared, completes_run_pure] at h₃
      obtain ⟨rfl, rfl⟩ := h₃
      exact ⟨htold.append rfl, .early (by simp) (early_of_declaredBodySizeError hdeclared)⟩
    | none =>
      simp only [hdeclared] at h₃
      rcases completes_run_bind.mp h₃ with ⟨e, rfl, hraises⟩ | ⟨_, after, admission, rfl, hadmit, h₄⟩
      · obtain ⟨cs, rfl, hreads⟩ := completes_unrecorded.mp hraises
        exact ⟨htold.append (told_of_limit (told_of_calls (countsNothing_of_reading hreads))),
          .early (by simp) (.escaped ⟨e, rfl⟩)⟩
      obtain ⟨reads, rfl, hreads⟩ := completes_unrecorded.mp hadmit
      have houter : ∀ e ∈ ⟨.allow .perIp ("ip:" ++ clientHost scope), true⟩ :: reads, Outer e.1 := by
        intro e he
        rcases List.mem_cons.mp he with rfl | he
        · exact .allow _
        · exact front_of_admitBody hreads e he
      rw [← List.append_assoc, ← List.append_assoc, ← List.append_assoc]
      refine (recorded_of_admission (by simp) (by simp) hplain houter h₄ fun body hbody => ?_).imp_left
        fun hrest => ?_
      · rw [hbody] at hreads
        exact (complete_of_admitBody hreads).symm
      · have hread : Told (called Observation ⟨.allow .perIp ("ip:" ++ clientHost scope), true⟩ ::
            noted Reply (.rateLimitDecision .perIp true) :: reads.map (called Observation)) :=
          told_of_limit (told_of_calls (countsNothing_of_reading hreads))
        simpa using (htold.append hread).append hrest

end Records

end PolicyModelRouter.RequestRecords
