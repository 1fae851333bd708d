import PolicyModelRouter.AuthorizedDecisions
import PolicyModelRouter.RequestRecords

/-!
# The record and the response

What a request leaves in the counters and in the log can be computed from what it was
answered on its way and from its response. Only an internal error leaves open how far the
request had come.
-/

namespace PolicyModelRouter.RecordedVerdicts
open AnnotatedPrograms AuthorizationContract AuthorizationVerifier AwaitingPrograms DenialRuns
open GovernedVocabularies HandlerRuns ObservedRequests OrderedChecks PythonText RequestRecords
open RouteEndpoint RouteRuns RouterCalls RuntimeControl TrustedKeys ViolationContract ViolationEvidence
open RoutingCatalog hiding RejectedCandidate
open WireContracts hiding RejectedCandidate

/-- What a request came to, as the counters have it. -/
inductive Verdict where
  | decided
  | noViableModelGroup
  | misconfiguredPolicy
  | denied
  deriving DecidableEq

def verdictOf : Observation → Option Verdict
  | .routeDecision _ _ => some .decided
  | .routeRejection _ .noViableModelGroup => some .noViableModelGroup
  | .routeRejection _ .misconfiguredPolicy => some .misconfiguredPolicy
  | .runtimeAuthorization .denied => some .denied
  | _ => none

def evidenceOf : Observation → Option (RuntimeViolationCategory × String)
  | .runtimeViolation category code => some (category, code)
  | _ => none

def limitOf : Observation → Option (Tier × Bool)
  | .rateLimitDecision tier allowed => some (tier, allowed)
  | _ => none

def workloadLabelOf : Observation → Option String
  | .routeDecision workload _ => some workload
  | .routeRejection workload _ => some workload
  | .routeDuration workload => some workload
  | _ => none

section Expected

variable [Cryptography]

/-- Only the refusal of a limit has the status 429. -/
def answeredBlocked : Response → Bool
  | .error 429 _ _ => true
  | _ => false

def answeredEvidence : Response → Option (RuntimeViolationCategory × String)
  | .violation _ violation => some (violation.event.category, violation.event.code)
  | _ => none

/-- The outcome of an authorization that none is required for. -/
def unsigned (app : Application) : List Observation :=
  if app.runtimeAuthorizationRequired then [] else [.runtimeAuthorization .legacyDev]

/-- What the counters and the log get by the response, besides what answers decide. A denied
request was routed only if it was verified before. -/
def answeredNotes (app : Application) (useCase : RouteModelUseCase) (workload : WorkloadId)
    (verified : Bool) : Response → List Observation
  | .decision decision => unsigned app ++
    [.routeDuration (workloadLabel useCase workload),
      .routeDecision (workloadLabel useCase workload) decision.selectedModelGroup.value,
      .log (.accepted decision.routingDecisionId workload.value decision.selectedModelGroup.value
        decision.policyId decision.policyVersion decision.policyDigest)]
  | .rejection _ rejection => unsigned app ++
    [.routeRejection (workloadLabel useCase workload) .noViableModelGroup,
      .log (.rejected rejection.routingDecisionId workload.value rejection.rejectedModelGroup.value
        rejection.reasonCode rejection.policyId rejection.policyVersion rejection.policyDigest),
      .routeDuration (workloadLabel useCase workload)]
  | .error 500 _ _ => unsigned app ++
    [.routeRejection (workloadLabel useCase workload) .misconfiguredPolicy,
      .log (.undeclared workload.value), .routeDuration (workloadLabel useCase workload)]
  | .violation _ violation =>
    (if verified then [.routeDuration (workloadLabel useCase workload)] else []) ++
      .runtimeAuthorization .denied :: violationNotes violation
  | _ => []

def resolvedBy : Event Reply → Option RouteModelUseCase
  | ⟨.activeUseCase, useCase⟩ => some useCase
  | _ => none

def requested [BodyParser] (scope : RouteScope) (cs : List (Event Reply)) :
    Option (RouteModelUseCase × RouteRequestEnvelope) :=
  match cs.findSome? resolvedBy, BodyParser.parse scope.headers (received cs) with
  | some useCase, .admitted envelope => some (useCase, envelope)
  | _, _ => none

def verifiedBy (answers : List Observation) : Bool :=
  answers.contains (.runtimeAuthorization .verified)

/-- The record of a request, from what it was answered on its way and from its response. -/
def recordOf [BodyParser] (app : Application) (scope : RouteScope) (cs : List (Event Reply))
    (response : Response) : List Observation :=
  cs.filterMap counterOf ++ match requested scope cs with
    | some (useCase, envelope) => answeredNotes app useCase envelope.request.workload
        (verifiedBy (cs.filterMap counterOf)) response
    | none => []

end Expected

section Responses

variable [Cryptography] {app : Application} {useCase : RouteModelUseCase} {workload : WorkloadId}
variable {verified : Verification} {ns ns' : List Observation} {response : Response}

/-- What the handler and the handlers of exceptions record tells the response. -/
structure Tells (app : Application) (useCase : RouteModelUseCase) (workload : WorkloadId)
    (ns : List Observation) (response : Response) : Prop where
  settled : ¬ Escaped response → ns = ns.filter decidedByAnswer ++ answeredNotes app useCase workload
    (verifiedBy (ns.filter decidedByAnswer)) response
  once : ns.Nodup
  limited : ns.filterMap limitOf = [(.perAgent, !answeredBlocked response)]
  oneVerdict : (ns.filterMap verdictOf).length ≤ 1
  evidence : ns.filterMap evidenceOf = (answeredEvidence response).toList
  labelled : ∀ n ∈ ns, ∀ label, workloadLabelOf n = some label → label = workloadLabel useCase workload

theorem answeredEvidence_of_escaped (h : Escaped response) : answeredEvidence response = none := by
  rcases h.eq_or with rfl | rfl <;> rfl

theorem answeredBlocked_of_escaped (h : Escaped response) : answeredBlocked response = false := by
  rcases h.eq_or with rfl | rfl <;> rfl

/-- An internal error may follow any verdict, but no evidence. -/
theorem tells_of_escaped (h : Escaped response) (once : ns.Nodup)
    (limited : ns.filterMap limitOf = [(.perAgent, true)])
    (oneVerdict : (ns.filterMap verdictOf).length ≤ 1) (unevidenced : ns.filterMap evidenceOf = [])
    (labelled : ∀ n ∈ ns, ∀ label, workloadLabelOf n = some label →
      label = workloadLabel useCase workload) : Tells app useCase workload ns response where
  settled hnot := absurd h hnot
  once := once
  limited := by rw [limited, answeredBlocked_of_escaped h]; rfl
  oneVerdict := oneVerdict
  evidence := by rw [unevidenced, answeredEvidence_of_escaped h]; rfl
  labelled := labelled

/-- What is in the record of a request that was admitted to routing and then left alone by
answers. -/
theorem tells_of_admitted (mode : verified.isSome = app.runtimeAuthorizationRequired)
    (undecided : ns.filter decidedByAnswer = [])
    (settled : ¬ Escaped response →
      unsigned app ++ ns = answeredNotes app useCase workload verified.isSome response)
    (unblocked : answeredBlocked response = false) (once : ns.Nodup)
    (foreign : .runtimeAuthorization .legacyDev ∉ ns)
    (oneVerdict : (ns.filterMap verdictOf).length ≤ 1)
    (evidence : ns.filterMap evidenceOf = (answeredEvidence response).toList)
    (labelled : ∀ n ∈ ns, ∀ label, workloadLabelOf n = some label →
      label = workloadLabel useCase workload) :
    Tells app useCase workload (admittedNotes verified ++ ns) response := by
  have hlimited : ns.filterMap limitOf = [] := by
    refine List.filterMap_eq_nil_iff.mpr fun n hn => ?_
    have hundecided := List.filter_eq_nil_iff.mp undecided n hn
    cases n <;> first | rfl | exact absurd rfl hundecided
  have hunverified : .runtimeAuthorization .verified ∉ ns := fun hn =>
    List.filter_eq_nil_iff.mp undecided _ hn rfl
  have hunlimited : .rateLimitDecision .perAgent true ∉ ns := fun hn =>
    List.filter_eq_nil_iff.mp undecided _ hn rfl
  cases verified with
  | none =>
    have hunsigned : unsigned app = [.runtimeAuthorization .legacyDev] := by simp [unsigned, ← mode]
    rw [hunsigned] at settled
    constructor
    · intro h
      simpa [admittedNotes, concludeAuthorization, List.filter_cons, decidedByAnswer, undecided,
        verifiedBy] using settled h
    · simp [admittedNotes, concludeAuthorization, once, foreign, hunlimited]
    · simp [admittedNotes, concludeAuthorization, List.filterMap_cons, limitOf, hlimited, unblocked]
    · simpa [admittedNotes, concludeAuthorization, List.filterMap_cons, verdictOf] using oneVerdict
    · simpa [admittedNotes, concludeAuthorization, List.filterMap_cons, evidenceOf] using evidence
    · simpa [admittedNotes, concludeAuthorization, workloadLabelOf] using labelled
  | some verified =>
    have hunsigned : unsigned app = [] := by simp [unsigned, ← mode]
    rw [hunsigned] at settled
    constructor
    · intro h
      simpa [admittedNotes, concludeAuthorization, List.filter_cons, decidedByAnswer, undecided,
        verifiedBy] using settled h
    · simp [admittedNotes, concludeAuthorization, once, hunverified, hunlimited]
    · simp [admittedNotes, concludeAuthorization, List.filterMap_cons, limitOf, hlimited, unblocked]
    · simpa [admittedNotes, concludeAuthorization, List.filterMap_cons, verdictOf] using oneVerdict
    · simpa [admittedNotes, concludeAuthorization, List.filterMap_cons, evidenceOf] using evidence
    · simpa [admittedNotes, concludeAuthorization, workloadLabelOf] using labelled

private theorem tells_of_published {decision : ModelRouteDecision}
    (h : Handled app useCase workload ns (.ok decision)) :
    Tells app useCase workload ns (.decision decision) := by
  generalize hr : (Except.ok decision : Except PyException ModelRouteDecision) = r at h
  cases h with
  | unadmitted => cases hr
  | unrouted => cases hr
  | outOfScope => cases hr
  | selected mode mapped selected published =>
    have hrepeats := repeats_of_fromDomainDecision (published.trans hr.symm)
    apply tells_of_admitted mode
    · rfl
    · intro _
      simp [answeredNotes, acceptedLine, hrepeats.routingDecisionId, hrepeats.policyId,
        hrepeats.selectedModelGroup, hrepeats.policyVersion, hrepeats.policyDigest]
    · rfl
    · simp
    · simp
    · simp [List.filterMap_cons, verdictOf]
    · simp [List.filterMap_cons, evidenceOf, answeredEvidence]
    · simp [workloadLabelOf]

omit [Cryptography] in
private theorem rejectedLine_of_published {decision : RejectedDecision} {rejection : RouteRejection}
    (h : fromDomainRejection decision = .ok rejection) : rejectedLine workload decision =
      .rejected rejection.routingDecisionId workload.value rejection.rejectedModelGroup.value
        rejection.reasonCode rejection.policyId rejection.policyVersion rejection.policyDigest := by
  unfold fromDomainRejection at h
  obtain ⟨_, -, h⟩ := bind_eq_ok.mp h
  obtain ⟨_, hid, h⟩ := bind_eq_ok.mp h
  obtain ⟨_, -, h⟩ := bind_eq_ok.mp h
  obtain ⟨_, -, h⟩ := bind_eq_ok.mp h
  obtain ⟨_, -, h⟩ := bind_eq_ok.mp h
  obtain ⟨_, -, h⟩ := bind_eq_ok.mp h
  obtain ⟨_, -, h⟩ := bind_eq_ok.mp h
  obtain ⟨_, hpolicy, h⟩ := bind_eq_ok.mp h
  obtain ⟨_, hversion, h⟩ := bind_eq_ok.mp h
  obtain ⟨_, hdigest, h⟩ := bind_eq_ok.mp h
  obtain ⟨_, -, h⟩ := bind_eq_ok.mp h
  obtain ⟨_, -, h⟩ := bind_eq_ok.mp h
  cases h
  simp [rejectedLine, eq_of_nonEmpty hid, eq_of_nonEmpty hpolicy, eq_of_nonEmpty hversion,
    eq_of_nonEmpty hdigest]

variable [UnicodeTables]

/-- A request that is refused in front of routing has nothing else in its record. -/
theorem tells_of_unadmitted {e : PyException} (failure : AdmissionFailure e)
    (answered : Answered e ns response) :
    Tells app useCase workload (.rateLimitDecision .perAgent true :: ns) response := by
  cases failure with
  | authorization error =>
    cases answered with
    | denied =>
      constructor
      · simp [List.filter_cons, decidedByAnswer, verifiedBy, answeredNotes, violationNotes]
      · simp [violationNotes]
      · simp [List.filterMap_cons, limitOf, violationNotes, answeredBlocked]
      · simp [List.filterMap_cons, verdictOf, violationNotes]
      · simp [List.filterMap_cons, evidenceOf, violationNotes, answeredEvidence]
      · simp [workloadLabelOf, violationNotes]
    | unevidenced escaped =>
      apply tells_of_escaped escaped
      · simp
      · simp [limitOf]
      · simp [List.filterMap_cons, verdictOf]
      · simp [List.filterMap_cons, evidenceOf]
      · simp [workloadLabelOf]
    | escaped unhandled => cases unhandled
  | authentication message =>
    cases answered with
    | unauthenticated =>
      constructor
      · simp [List.filter_cons, decidedByAnswer, answeredNotes]
      · simp
      · simp [limitOf, answeredBlocked]
      · simp [List.filterMap_cons, verdictOf]
      · simp [List.filterMap_cons, evidenceOf, answeredEvidence]
      · simp [workloadLabelOf]
    | escaped unhandled => cases unhandled
  | _ =>
    cases answered with
    | escaped unhandled escaped =>
      apply tells_of_escaped escaped
      · simp
      · simp [limitOf]
      · simp [List.filterMap_cons, verdictOf]
      · simp [List.filterMap_cons, evidenceOf]
      · simp [workloadLabelOf]

/-- A request whose routing raised is a rejection, or an internal error. -/
theorem tells_of_unrouted {e : PyException}
    (mode : verified.isSome = app.runtimeAuthorizationRequired) (failure : RoutingFailure e)
    (answered : Answered e ns response) : Tells app useCase workload
      (admittedNotes verified ++ (concludeRouting (workloadLabel useCase workload) workload (.error e) ++
        ns)) response := by
  cases failure with
  | incomplete message =>
    cases answered with
    | misconfigured =>
      apply tells_of_admitted mode
      · rfl
      · simp [answeredNotes, concludeRouting]
      · rfl
      · simp [concludeRouting]
      · simp [concludeRouting]
      · simp [concludeRouting, List.filterMap_cons, verdictOf]
      · simp [concludeRouting, List.filterMap_cons, evidenceOf, answeredEvidence]
      · simp [concludeRouting, workloadLabelOf]
    | escaped unhandled => cases unhandled
  | noViable decision =>
    cases answered with
    | rejected published =>
      apply tells_of_admitted mode
      · rfl
      · simp [answeredNotes, concludeRouting, rejectedLine_of_published published]
      · rfl
      · simp [concludeRouting]
      · simp [concludeRouting]
      · simp [concludeRouting, List.filterMap_cons, verdictOf]
      · simp [concludeRouting, List.filterMap_cons, evidenceOf, answeredEvidence]
      · simp [concludeRouting, workloadLabelOf]
    | unpublished escaped =>
      apply tells_of_admitted mode
      · rfl
      · exact fun h => absurd escaped h
      · exact answeredBlocked_of_escaped escaped
      · simp [concludeRouting]
      · simp [concludeRouting]
      · simp [concludeRouting, List.filterMap_cons, verdictOf]
      · simp [concludeRouting, List.filterMap_cons, evidenceOf, answeredEvidence_of_escaped escaped]
      · simp [concludeRouting, workloadLabelOf]
    | escaped unhandled => cases unhandled
  | _ =>
    cases answered with
    | escaped unhandled escaped =>
      apply tells_of_admitted mode
      · rfl
      · exact fun h => absurd escaped h
      · exact answeredBlocked_of_escaped escaped
      · simp [concludeRouting]
      · simp [concludeRouting]
      · simp [concludeRouting, List.filterMap_cons, verdictOf]
      · simp [concludeRouting, List.filterMap_cons, evidenceOf, answeredEvidence_of_escaped escaped]
      · simp [concludeRouting, workloadLabelOf]

/-- A request that is denied after routing was verified before. -/
theorem tells_of_outOfScope {verified : RuntimeAuthorizationVerifier × VerifiedRuntimeAuthorization}
    {error : RuntimeAuthorizationError}
    (mode : app.runtimeAuthorizationRequired = true)
    (answered : Answered (.runtimeAuthorization error) ns response) :
    Tells app useCase workload (admittedNotes (some verified) ++
      (.routeDuration (workloadLabel useCase workload) :: ns)) response := by
  have hmode : ∀ own : RuntimeAuthorizationVerifier × VerifiedRuntimeAuthorization,
      (some own).isSome = app.runtimeAuthorizationRequired := fun _ => mode.symm
  cases answered with
  | denied =>
    apply tells_of_admitted (hmode verified)
    · rfl
    · simp [answeredNotes, unsigned, mode]
    · rfl
    · simp [violationNotes]
    · simp [violationNotes]
    · simp [List.filterMap_cons, verdictOf, violationNotes]
    · simp [List.filterMap_cons, evidenceOf, violationNotes, answeredEvidence]
    · simp [workloadLabelOf, violationNotes]
  | unevidenced escaped =>
    apply tells_of_admitted (hmode verified)
    · rfl
    · exact fun h => absurd escaped h
    · exact answeredBlocked_of_escaped escaped
    · simp
    · simp
    · simp [List.filterMap_cons, verdictOf]
    · simp [List.filterMap_cons, evidenceOf, answeredEvidence_of_escaped escaped]
    · simp [workloadLabelOf]
  | escaped unhandled => cases unhandled

private theorem tells_of_raised {e : PyException} (h : Handled app useCase workload ns (.error e))
    (answered : Answered e ns' response) : Tells app useCase workload (ns ++ ns') response := by
  generalize hr : (Except.error e : Except PyException ModelRouteDecision) = r at h
  cases h with
  | unadmitted unadmitted =>
    cases hr
    generalize hr : (Except.error e : Except PyException Verification) = r at unadmitted
    cases unadmitted with
    | limited =>
      cases hr
      cases answered with
      | limited =>
        constructor
        · simp [List.filter_cons, decidedByAnswer, answeredNotes, tooManyRequests]
        · simp
        · simp [limitOf, answeredBlocked, tooManyRequests]
        · simp [List.filterMap_cons, verdictOf]
        · simp [List.filterMap_cons, evidenceOf, answeredEvidence, tooManyRequests]
        · simp [workloadLabelOf]
      | escaped unhandled => cases unhandled
    | refused failure =>
      cases hr
      exact tells_of_unadmitted failure answered
    | passed => cases hr
  | unrouted mode failure series =>
    cases hr
    rw [List.append_assoc]
    exact tells_of_unrouted mode failure answered
  | outOfScope mode =>
    cases hr
    rw [List.append_assoc]
    exact tells_of_outOfScope mode answered
  | selected mode mapped selected published =>
    obtain rfl := onlyErrors_fromDomainDecision _ (published.trans hr.symm)
    cases answered with
    | escaped unhandled escaped =>
      rw [List.append_nil]
      apply tells_of_admitted mode
      · rfl
      · exact fun h => absurd escaped h
      · exact answeredBlocked_of_escaped escaped
      · simp
      · simp
      · simp [List.filterMap_cons, verdictOf]
      · simp [List.filterMap_cons, evidenceOf, answeredEvidence_of_escaped escaped]
      · simp [workloadLabelOf]

end Responses

section Requests

variable [Cryptography] [BodyParser]
variable {app : Application} {scope : RouteScope} {response : Response}
variable {es : List (Event (Answer Observation Reply))}

/-- The record of a request agrees with what it was answered on its way and with its response. -/
structure Agrees (app : Application) (scope : RouteScope)
    (es : List (Event (Answer Observation Reply))) (response : Response) : Prop where
  answered : Told es
  settled : ¬ Escaped response → notes es = recordOf app scope (calls es) response
  once : (notes es).Nodup
  onePerIp : ((notes es).filterMap limitOf).countP (·.1 = .perIp) = 1
  onePerAgent : ((notes es).filterMap limitOf).countP (·.1 = .perAgent) ≤ 1
  blocked : ((notes es).filterMap limitOf).countP (·.2 = false) = (answeredBlocked response).toNat
  oneVerdict : ((notes es).filterMap verdictOf).length ≤ 1
  evidence : (notes es).filterMap evidenceOf = (answeredEvidence response).toList
  labelled : ∀ n ∈ notes es, ∀ label, workloadLabelOf n = some label →
    ∃ useCase envelope, requested scope (calls es) = some (useCase, envelope) ∧
      label = workloadLabel useCase envelope.request.workload

/-- Where the response adds nothing, the record is what the answers decide. -/
theorem recordOf_eq_answers {cs : List (Event Reply)} (h : ∀ useCase workload, answeredNotes app useCase
    workload (verifiedBy (cs.filterMap counterOf)) response = []) :
    recordOf app scope cs response = cs.filterMap counterOf := by
  unfold recordOf
  cases requested scope cs with
  | none => exact List.append_nil _
  | some request =>
    dsimp only
    rw [h, List.append_nil]

/-- Where only the limit per address was counted, the response is given without the handler. -/
theorem agrees_of_unhandled {allowed : Bool} (told : Told es)
    (front : notes es = [.rateLimitDecision .perIp allowed])
    (unrouted : ∀ useCase workload, answeredNotes app useCase workload false response = [])
    (blocked : answeredBlocked response = !allowed) (unevidenced : answeredEvidence response = none) :
    Agrees app scope es response := by
  have hanswers : (calls es).filterMap counterOf = notes es := by
    rw [told, front]
    rfl
  have hunverified : verifiedBy ((calls es).filterMap counterOf) = false := by
    rw [hanswers, front]
    rfl
  constructor
  · exact told
  · intro _
    rw [recordOf_eq_answers (by rw [hunverified]; exact unrouted), hanswers]
  · simp [front]
  · simp [front, limitOf]
  · simp [front, limitOf]
  · cases allowed <;> simp [front, limitOf, blocked]
  · simp [front, List.filterMap_cons, verdictOf]
  · simp [front, evidenceOf, unevidenced]
  · simp [front, workloadLabelOf]

private theorem agrees_of_early (told : Told es) (front : notes es = [.rateLimitDecision .perIp true])
    (h : Early response) : Agrees app scope es response := by
  apply agrees_of_unhandled told front
  · intro useCase workload
    cases h with
    | escaped escaped => rcases escaped.eq_or with rfl | rfl <;> rfl
    | _ => rfl
  · cases h with
    | escaped escaped => exact answeredBlocked_of_escaped escaped
    | _ => rfl
  · cases h with
    | escaped escaped => exact answeredEvidence_of_escaped escaped
    | _ => rfl

omit [Cryptography] in
private theorem requested_eq {cs : List (Event Reply)} {useCase : RouteModelUseCase}
    {envelope : RouteRequestEnvelope} (resolved : cs.findSome? resolvedBy = some useCase)
    (parsed : BodyParser.parse scope.headers (received cs) = .admitted envelope) :
    requested scope cs = some (useCase, envelope) := by
  rw [requested, resolved, parsed]

omit [Cryptography] in
/-- What is in front of the handler settles what the run is about. -/
theorem requested_of_reaches {cs cs' : List (Event Reply)} {useCase : RouteModelUseCase}
    {envelope : RouteRequestEnvelope} {correlationId : String}
    (reaches : Reaches scope cs useCase envelope correlationId) (quiet : received cs' = []) :
    requested scope (cs ++ cs') = some (useCase, envelope) := by
  have hresolved : (cs ++ cs').findSome? resolvedBy = some useCase := by
    rw [List.findSome?_append]
    cases hfound : cs.findSome? resolvedBy with
    | some other =>
      obtain ⟨⟨c, r⟩, hmem, hother⟩ := List.exists_of_findSome?_eq_some hfound
      cases c with
      | activeUseCase =>
        obtain rfl := Option.some.inj hother
        rw [(reaches.resolved r).mp hmem]
        rfl
      | _ => cases hother
    | none =>
      have hmem := (reaches.resolved useCase).mpr rfl
      exact nomatch List.findSome?_eq_none_iff.mp hfound _ hmem
  refine requested_eq hresolved ?_
  rw [received_append, quiet, List.append_nil, reaches.parsed]

/-- The whole record agrees when its part from the handler on tells the response. -/
theorem agrees_of_tells {before : List (Event (Answer Observation Reply))}
    {useCase : RouteModelUseCase} {envelope : RouteRequestEnvelope} {correlationId : String}
    (told : Told (before ++ es)) (front : notes before = [.rateLimitDecision .perIp true])
    (reaches : Reaches scope (calls before) useCase envelope correlationId)
    (quiet : received (calls es) = [])
    (h : Tells app useCase envelope.request.workload (notes es) response) :
    Agrees app scope (before ++ es) response := by
  have hrequested : requested scope (calls (before ++ es)) = some (useCase, envelope) := by
    rw [calls_append]
    exact requested_of_reaches reaches quiet
  have hnotes : notes (before ++ es) = .rateLimitDecision .perIp true :: notes es := by
    rw [notes_append, front]
    rfl
  have hforeign : .rateLimitDecision .perIp true ∉ notes es := by
    intro hn
    have hlimit : (Tier.perIp, true) ∈ (notes es).filterMap limitOf :=
      List.mem_filterMap.mpr ⟨_, hn, rfl⟩
    rw [h.limited] at hlimit
    cases List.mem_singleton.mp hlimit
  constructor
  · exact told
  · intro hsettled
    have hanswers : (calls (before ++ es)).filterMap counterOf =
        .rateLimitDecision .perIp true :: (notes es).filter decidedByAnswer := by
      rw [told, hnotes]
      rfl
    have hverified : verifiedBy ((calls (before ++ es)).filterMap counterOf) =
        verifiedBy ((notes es).filter decidedByAnswer) := by
      rw [hanswers]
      rfl
    rw [recordOf, hrequested, hverified, hanswers, hnotes, List.cons_append]
    exact congrArg _ (h.settled hsettled)
  · rw [hnotes]
    exact List.nodup_cons.mpr ⟨hforeign, h.once⟩
  · simp [hnotes, limitOf, h.limited]
  · simp [hnotes, limitOf, h.limited]
  · cases hblocked : answeredBlocked response <;>
      simp [hnotes, limitOf, h.limited, hblocked]
  · simpa [hnotes, List.filterMap_cons, verdictOf] using h.oneVerdict
  · simpa [hnotes, List.filterMap_cons, evidenceOf] using h.evidence
  · rw [hnotes, hrequested]
    refine List.forall_mem_cons.mpr ⟨fun _ h => (nomatch h), fun n hn label hlabel => ?_⟩
    exact ⟨useCase, envelope, rfl, h.labelled n hn label hlabel⟩

variable [UnicodeTables]

theorem agrees_of_recorded (told : Told es) (h : Recorded app scope es response) :
    Agrees app scope es response := by
  cases h with
  | limited front => exact agrees_of_unhandled told front (fun _ _ => rfl) rfl rfl
  | early front early => exact agrees_of_early told front early
  | decided front reaches quiet handled =>
    exact agrees_of_tells told front reaches quiet (tells_of_published handled)
  | raised front reaches quiet handled answered =>
    refine agrees_of_tells told front reaches quiet ?_
    rw [notes_append]
    exact tells_of_raised handled answered

variable [JsonDecoder]

end Requests

namespace Deployed

open AuthorizedDecisions.Deployed
open RoutingSpecification.Deployed (useCase)
open VerificationSpecification.Deployed (genuine decoder envelope)

def made : List (Event Reply) := front ++ handled.2.1

/-- The handler's limiter let it through, its identifier was fresh, and it read no more. -/
theorem handled_eq : handled.2.1.filterMap counterOf =
      [.rateLimitDecision .perAgent true, .runtimeAuthorization .verified] ∧
    (received handled.2.1).isEmpty = true ∧ @isDecision genuine handled.1 = true := by
  decide +kernel

theorem answers_made : made.filterMap counterOf =
    [.rateLimitDecision .perIp true, .rateLimitDecision .perAgent true,
      .runtimeAuthorization .verified] := by
  rw [made, List.filterMap_append, handled_eq.1]
  rfl

theorem requested_made : @requested parser route made =
    some (useCase, .authorized ⟨request, envelope⟩) := by
  have hreceived : received made = bodyBytes := by
    rw [made, received_append, List.isEmpty_iff.mp handled_eq.2.1, List.append_nil]
    simp only [received, front, List.flatMap_cons, List.flatMap_nil, chunk, List.nil_append,
      List.append_nil]
  have hparsed : @BodyParser.parse parser route.headers bodyBytes =
      .admitted (.authorized ⟨request, envelope⟩) := if_pos rfl
  apply @requested_eq parser
  · rfl
  · rw [hreceived]
    exact hparsed

theorem exists_observed : ∃ es decision,
    Completes (@observedPostRoute asciiTables genuine decoder parser application route) es
      (@Response.decision genuine decision) ∧ calls es = made := by
  have hcompletes : Completes handler handled.2.1 handled.1 := completes_of_run rfl
  obtain ⟨decision, hresult⟩ := @exists_decision genuine _ handled_eq.2.2
  rw [hresult] at hcompletes
  have hplain := postRoute_completes hcompletes
  rw [← @erase_observedPostRoute asciiTables genuine decoder parser] at hplain
  obtain ⟨es, hes, hcalls⟩ := exists_of_completes_erase hplain
  exact ⟨es, decision, hes, hcalls⟩

end Deployed

open AuthorizedDecisions.Deployed (application route parser)
open VerificationSpecification.Deployed (genuine decoder)

end PolicyModelRouter.RecordedVerdicts
