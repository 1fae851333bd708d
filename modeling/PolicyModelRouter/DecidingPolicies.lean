import PolicyModelRouter.DenialRuns
import PolicyModelRouter.RouterServer
import PolicyModelRouter.ServedPolicies

/-!
# The policy that decided

Whatever is swapped while a request waits, its outcome is that of routing under the one use
case it resolved, and names that policy. Outcomes under the same digest agree.
-/

namespace PolicyModelRouter.DecidingPolicies
open AuthorizationContract AuthorizedDecisions AwaitingPrograms DenialRuns GovernedVocabularies
open HandlerRuns InterleavedPrograms ModelRouting OrderedChecks PolicyReload PythonText RouteEndpoint
open RouteRuns RouterCalls RouterServer RoutingPolicyLoader RoutingRuns RuntimeControl ServedPolicies
open UtcTimestamps WireContracts
open RoutingCatalog hiding RejectedCandidate
open RoutingSpecification (ports)

/-- Accepted or rejected, for which group, and with which reason codes. -/
inductive Verdict where
  | accepted (group : ModelGroupId) (reasons : List (ModelGroupId × ReasonCode))
  | rejected (group : ModelGroupId) (reason : ReasonCode)

structure Provenance where
  policyId : String
  policyVersion : String
  policyDigest : String

def provenanceOf (policy : RoutingPolicy) : Provenance :=
  ⟨policy.policyId, policy.policyVersion, policy.policyDigest⟩

def verdict : Except PyException RouteDecision → Option (Verdict × Provenance)
  | .ok decision => some
    (.accepted decision.selectedModelGroup
      (decision.rejectedCandidates.map fun candidate => (candidate.modelGroup, candidate.reasonCode)),
      ⟨decision.policyId, decision.policyVersion, decision.policyDigest⟩)
  | .error (.noViableModelGroup decision) => some
    (.rejected decision.rejectedModelGroup decision.reasonCode,
      ⟨decision.policyId, decision.policyVersion, decision.policyDigest⟩)
  | .error _ => none

def stated [Cryptography] : Response → Option (Verdict × Provenance)
  | .decision decision => some
    (.accepted decision.selectedModelGroup
      (decision.rejectedCandidates.map fun candidate => (candidate.modelGroup, candidate.reasonCode)),
      ⟨decision.policyId, decision.policyVersion, decision.policyDigest⟩)
  | .rejection _ decision => some
    (.rejected decision.rejectedModelGroup decision.reasonCode,
      ⟨decision.policyId, decision.policyVersion, decision.policyDigest⟩)
  | _ => none

section Publishing

private theorem codes_of_fromDomainCandidates {candidates : List RoutingCatalog.RejectedCandidate}
    {published : List RejectedCandidate} (h : fromDomainCandidates candidates = .ok published) :
    published.map (fun candidate => (candidate.modelGroup, candidate.reasonCode)) =
      candidates.map fun candidate => (candidate.modelGroup, candidate.reasonCode) := by
  induction candidates generalizing published with
  | nil =>
    cases h
    rfl
  | cons candidate rest ih =>
    obtain ⟨first, hfirst, h⟩ := bind_eq_ok.mp h
    obtain ⟨others, hothers, h⟩ := bind_eq_ok.mp h
    cases h
    unfold fromDomainCandidate at hfirst
    obtain ⟨_, -, hfirst⟩ := bind_eq_ok.mp hfirst
    obtain ⟨_, -, hfirst⟩ := bind_eq_ok.mp hfirst
    obtain ⟨_, -, hfirst⟩ := bind_eq_ok.mp hfirst
    cases hfirst
    simp only [List.map_cons, ih hothers]

variable [Cryptography]

theorem stated_of_fromDomainDecision {decision : RouteDecision} {published : ModelRouteDecision}
    (h : fromDomainDecision decision = .ok published) :
    stated (.decision published) = verdict (.ok decision) := by
  have hrepeats := repeats_of_fromDomainDecision h
  simp only [stated, verdict, codes_of_fromDomainCandidates hrepeats.rejectedCandidates,
    hrepeats.selectedModelGroup, hrepeats.policyId, hrepeats.policyVersion, hrepeats.policyDigest]

theorem stated_of_fromDomainRejection {decision : RejectedDecision} {published : RouteRejection}
    (h : fromDomainRejection decision = .ok published) (message : String) :
    stated (.rejection message published) = verdict (.error (.noViableModelGroup decision)) := by
  unfold fromDomainRejection at h
  obtain ⟨_, -, h⟩ := bind_eq_ok.mp h
  obtain ⟨_, -, h⟩ := bind_eq_ok.mp h
  obtain ⟨_, -, h⟩ := bind_eq_ok.mp h
  obtain ⟨_, -, h⟩ := bind_eq_ok.mp h
  obtain ⟨_, -, h⟩ := bind_eq_ok.mp h
  obtain ⟨_, -, h⟩ := bind_eq_ok.mp h
  obtain ⟨_, -, h⟩ := bind_eq_ok.mp h
  obtain ⟨_, hid, h⟩ := bind_eq_ok.mp h
  obtain ⟨_, hversion, h⟩ := bind_eq_ok.mp h
  obtain ⟨_, hdigest, h⟩ := bind_eq_ok.mp h
  obtain ⟨_, -, h⟩ := bind_eq_ok.mp h
  obtain ⟨_, -, h⟩ := bind_eq_ok.mp h
  cases h
  simp only [stated, verdict, eq_of_nonEmpty hid, eq_of_nonEmpty hversion, eq_of_nonEmpty hdigest]

end Publishing

section Verdicts

variable [UnicodeTables] {useCase useCase' : RouteModelUseCase} {request : RouteRequest}
variable {includeRejected : Bool} {answer : Availability} {id id' : String} {now now' : Datetime}

/-- The verdict depends on the policy, the request and the availability only. -/
theorem verdict_congr (same : useCase'.policy = useCase.policy) :
    verdict (outcome (ports useCase' answer id' now') (ModelRouting.route useCase' request includeRejected)) =
      verdict (outcome (ports useCase answer id now) (ModelRouting.route useCase request includeRejected)) := by
  unfold ModelRouting.route
  simp only [same]
  cases useCase.policy.workloads.lookup request.workload with
  | none => rfl
  | some rule =>
    simp only [outcome_bind, outcome_compute, outcome_ask, ports]
    cases candidates useCase.policy rule.modelGroup includeRejected with
    | error e => rfl
    | ok listed =>
      simp only [Except.bind]
      cases rejectionReasons request rule answer listed ∅ with
      | error signal => rfl
      | ok reasons =>
        simp only [Except.mapError]
        cases reasons.lookup rule.modelGroup with
        | some failure =>
          simp [Except.bind, verdict, rejectedDecision, same]
        | none =>
          simp [Except.bind, verdict, routeDecision, same]

theorem provenance_of_verdict {v : Verdict} {provenance : Provenance}
    (h : verdict (outcome (ports useCase answer id now)
      (ModelRouting.route useCase request includeRejected)) = some (v, provenance)) :
    provenance = provenanceOf useCase.policy := by
  obtain ⟨es, hrouted, -⟩ := @routed_outcome _ useCase request includeRejected answer id now
  generalize outcome (ports useCase answer id now)
    (ModelRouting.route useCase request includeRejected) = result at h hrouted
  cases hrouted with
  | unmapped missing => cases h
  | undeclared mapped missing fast => cases h
  | @raised _ _ _ exception evaluates => cases exception <;> cases h
  | rejected evaluates failed =>
    cases h
    rfl
  | selected evaluates passed =>
    cases h
    rfl

end Verdicts

/-- The response is what routing this request comes to, under one use case and one
availability. -/
inductive Decides [UnicodeTables] [Cryptography] (useCase : RouteModelUseCase)
    (request : ModelRouteRequest) (answer : Availability) : Response → Prop where
  | accepted {id : String} {now : Datetime} {decision : RouteDecision} {published : ModelRouteDecision}
      (routed : outcome (ports useCase answer id now) (ModelRouting.route useCase
        (toDomainRequest request) request.includeRejectedCandidates) = .ok decision)
      (valid : fromDomainDecision decision = .ok published) :
      Decides useCase request answer (.decision published)
  | rejected {id : String} {now : Datetime} {decision : RejectedDecision} {published : RouteRejection}
      (routed : outcome (ports useCase answer id now) (ModelRouting.route useCase
        (toDomainRequest request) request.includeRejectedCandidates) =
          .error (.noViableModelGroup decision))
      (valid : fromDomainRejection decision = .ok published) :
      Decides useCase request answer (.rejection (noViableMessage decision) published)

/-- What a request that was decided got: its body, one use case, and one availability. -/
structure Decided [UnicodeTables] [Cryptography] [BodyParser] (scope : RouteScope)
    (es : List (Event Reply)) (useCase : RouteModelUseCase) (request : ModelRouteRequest)
    (answer : Availability) (response : Response) : Prop where
  parsed : ∃ body, BodyParser.parse scope.headers (received es) = .admitted body ∧
    body.request = request
  resolved : ∀ other, ⟨.activeUseCase, other⟩ ∈ es ↔ other = useCase
  asked : ∃ listed, ⟨.resolve listed, answer⟩ ∈ es
  answered : ∀ listed other, ⟨.resolve listed, other⟩ ∈ es → other = answer
  decides : Decides useCase request answer response

section Requests

variable [UnicodeTables] [Cryptography] {useCase useCase' : RouteModelUseCase}
variable {request : ModelRouteRequest} {answer : Availability} {response response' : Response}

theorem Decides.stated_eq (h : Decides useCase request answer response) : ∃ id now,
    stated response = verdict (outcome (ports useCase answer id now) (ModelRouting.route useCase
      (toDomainRequest request) request.includeRejectedCandidates)) := by
  cases h with
  | accepted routed valid => exact ⟨_, _, routed ▸ stated_of_fromDomainDecision valid⟩
  | rejected routed valid => exact ⟨_, _, routed ▸ stated_of_fromDomainRejection valid _⟩

theorem Decides.provenance (h : Decides useCase request answer response) {v : Verdict}
    {provenance : Provenance} (states : stated response = some (v, provenance)) :
    provenance = provenanceOf useCase.policy := by
  obtain ⟨id, now, hstated⟩ := h.stated_eq
  exact provenance_of_verdict (hstated.symm.trans states)

theorem Decides.stated_congr (h : Decides useCase request answer response)
    (h' : Decides useCase' request answer response') (same : useCase'.policy = useCase.policy) :
    stated response' = stated response := by
  obtain ⟨id, now, hstated⟩ := h.stated_eq
  obtain ⟨id', now', hstated'⟩ := h'.stated_eq
  rw [hstated, hstated', verdict_congr same]

variable {app : Application} {scope : RouteScope} {body : RouteRequestEnvelope}
variable {es : List (Event Reply)} {correlationId : String}

omit [Cryptography] in
/-- A run of routing that comes to a verdict asked three calls, and has the outcome of their
answers. -/
theorem outcome_of_routing {r : Except PyException RouteDecision}
    (h : Completes (routing useCase body).run es r) (decided : (verdict r).isSome = true) :
    ∃ listed answer id now, es = [⟨question listed, answer⟩, ⟨.newId, id⟩, ⟨.utcNow, now⟩] ∧
      outcome (ports useCase answer id now) (routing useCase body) = r := by
  have hvalue : ∀ {listed answer id now}, es = [⟨question listed, answer⟩, ⟨.newId, id⟩, ⟨.utcNow, now⟩] →
      outcome (ports useCase answer id now) (routing useCase body) = r := by
    rintro listed answer id now rfl
    refine h.value_eq _ fun e he => ?_
    simp only [List.mem_cons, List.not_mem_nil, or_false] at he
    rcases he with rfl | rfl | rfl <;> rfl
  cases routed_of_completes h with
  | unmapped missing => cases decided
  | undeclared mapped missing fast => cases decided
  | @raised _ _ _ exception evaluates => cases exception <;> cases decided
  | @rejected answer rule listed reasons failure id now evaluates failed =>
    exact ⟨listed, answer, id, now, rfl, hvalue rfl⟩
  | @selected answer rule listed reasons id now evaluates passed =>
    exact ⟨listed, answer, id, now, rfl, hvalue rfl⟩

variable [JsonDecoder]

theorem ne_resolve_of_admitRequest {c : Call} (h : Issues (admitRequest app scope body).run es c)
    (declared : List (ModelGroupId × Bool)) : c ≠ .resolve declared := by
  rcases issues_admitRequest h with rfl | ⟨_, -, -, hauthorize⟩
  · exact nofun
  · rcases issues_authorize hauthorize with rfl | ⟨verifier, envelope, now, _, -, -, hverify⟩
    · exact nofun
    · rcases (VerificationTraces.issues_verify.mp hverify).2 with ⟨-, store, -, rfl⟩ | ⟨-, rfl⟩
      · exact nofun
      · cases verifier.replayGuard <;> exact nofun

theorem unrouted_of_raises {decision : RejectedDecision} {state : RequestState}
    (h : Raises (RouteEndpoint.route app scope useCase body correlationId) es
      (.noViableModelGroup decision, state)) : ∃ admitted routed verified, es = admitted ++ routed ∧
      Returns (admitRequest app scope body) admitted verified ∧
      Raises (routing useCase body) routed (.noViableModelGroup decision) := by
  generalize hraised : (PyException.noViableModelGroup decision, state) = failure at h
  cases failed_of_raises h with
  | refused refused =>
    obtain ⟨rfl, rfl⟩ := Prod.mk.inj hraised
    generalize hsame : PyException.noViableModelGroup decision = e at refused
    cases refused with
    | limited => cases hsame
    | unauthenticated mismatch =>
      subst hsame
      cases onlyErrors_authenticate _ mismatch
    | unauthorized authenticated unauthorized =>
      cases unauthorized with
      | mode own => cases hsame
      | denied required denied =>
        cases denied with
        | offline check =>
          subst hsame
          cases onlyErrors_verifyOffline _ check
        | control checked configured own => cases hsame
        | replay checked allowed refused => cases hsame
  | unrouted passed failed =>
    obtain ⟨rfl, rfl⟩ := Prod.mk.inj hraised
    exact ⟨_, _, _, rfl, passed, failed⟩
  | @outOfScope admitted routed verified decision e passed selected outside =>
    obtain ⟨rfl, rfl⟩ := Prod.mk.inj hraised
    cases verified with
    | none => cases outside
    | some verified =>
      obtain ⟨code, message, -, hsame⟩ := code_of_requireSelectedModel outside
      cases hsame
  | unpublished passed selected within invalid =>
    obtain ⟨rfl, rfl⟩ := Prod.mk.inj hraised
    cases onlyErrors_fromDomainDecision _ invalid

omit [JsonDecoder] in
theorem rejected_of_completes {failure : PyException × RequestState} {message : String}
    {published : RouteRejection}
    (h : Completes (handleException app failure).run es (.ok (.rejection message published))) :
    es = [] ∧ ∃ decision, failure.1 = .noViableModelGroup decision ∧
      fromDomainRejection decision = .ok published ∧ message = noViableMessage decision := by
  unfold handleException at h
  split at h
  · rename_i decision state
    obtain ⟨_, _, rejection, rfl, hrejection, hpure⟩ := returns_bind.mp h
    obtain ⟨rfl, hvalid⟩ := (returns_compute _ _).mp hrejection
    obtain ⟨rfl, hsame⟩ := (returns_pure _ _).mp hpure
    cases hsame
    exact ⟨rfl, decision, rfl, hvalid, rfl⟩
  · cases ((returns_pure _ _).mp h).2
  · cases ((returns_pure _ _).mp h).2
  · cases ((returns_pure _ _).mp h).2
  · obtain ⟨_, _, _, -, -, hpure⟩ := returns_bind.mp h
    cases ((returns_pure _ _).mp hpure).2
  · exact absurd h (not_returns_throw _ _)

omit [UnicodeTables] [JsonDecoder] in
private theorem stated_of_escaped (h : Escaped response) : stated response = none := by
  rcases h.eq_or with rfl | rfl <;> rfl

omit [UnicodeTables] [JsonDecoder] in
private theorem stated_of_unhandled (h : Unhandled response) : stated response = none := by
  rcases h with ⟨_, _, _, rfl⟩ | rfl | h
  · rfl
  · rfl
  · exact stated_of_escaped h

variable [BodyParser] {before admitted : List (Event Reply)}
variable {listed : List (Σ _ : ModelGroupId, ModelGroupProfile)} {id : String} {now : Datetime}

omit [JsonDecoder] in
private theorem decided_of_parts (reaches : Reaches scope before useCase body correlationId)
    (inside : ∀ e ∈ admitted ++ [⟨question listed, answer⟩, ⟨.newId, id⟩, ⟨.utcNow, now⟩], Inside e.1)
    (unasked : ∀ e ∈ admitted, ∀ declared, e.1 ≠ .resolve declared)
    (decides : Decides useCase body.request answer response) :
    Decided scope (before ++ (admitted ++ [⟨question listed, answer⟩, ⟨.newId, id⟩, ⟨.utcNow, now⟩]))
      useCase body.request answer response := by
  constructor
  · refine ⟨body, ?_, rfl⟩
    rw [received_append, received_inside inside, List.append_nil]
    exact reaches.parsed
  · intro other
    rw [List.mem_append, reaches.resolved other]
    refine or_iff_left fun hinside => ?_
    exact (inside _ hinside).not_front .activeUseCase
  · exact ⟨_, List.mem_append_right _ (List.mem_append_right _ List.mem_cons_self)⟩
  · intro declared other hother
    rcases List.mem_append.mp hother with hfront | hother
    · cases reaches.front _ hfront with
      | outer outer => cases outer
    · rcases List.mem_append.mp hother with hadmitted | hrouted
      · exact absurd rfl (unasked _ hadmitted declared)
      · simp only [List.mem_cons, List.not_mem_nil, or_false] at hrouted
        rcases hrouted with hsame | hsame | hsame
        · cases hsame
          rfl
        · cases hsame
        · cases hsame
  · exact decides

/-- Whoever got a verdict went through routing under the one use case it resolved. -/
theorem decided_of_completes (h : Completes (postRoute app scope) es response)
    (outcome : (stated response).isSome = true) : ∃ useCase request answer,
      Decided scope es useCase request answer response := by
  cases ended_of_completes h with
  | inFront front unhandled =>
    rw [stated_of_unhandled unhandled] at outcome
    cases outcome
  | @decided before handled useCase body correlationId decision reaches returned =>
    have hinside : ∀ e ∈ handled, Inside e.1 :=
      Completes.each_call returned Inside fun _ _ h => inside_of_issues h
    obtain ⟨admitted, routed, verified, decided, rfl, hadmitted, hrouted, -, hvalid⟩ :=
      returns_route returned
    obtain ⟨listed, answer, id, now, rfl, houtcome⟩ := outcome_of_routing hrouted rfl
    have hunasked := Completes.each_call hadmitted (fun c => ∀ declared, c ≠ .resolve declared)
      fun _ _ h => ne_resolve_of_admitRequest h
    exact ⟨_, _, _, decided_of_parts reaches hinside hunasked (.accepted houtcome hvalid)⟩
  | @raised before handled after useCase body correlationId failure r reaches raised answered =>
    cases r with
    | error e =>
      rw [stated_of_escaped ⟨e, rfl⟩] at outcome
      cases outcome
    | ok response =>
      have hinside : ∀ e ∈ handled, Inside e.1 :=
        Completes.each_call raised Inside fun _ _ h => inside_of_issues h
      cases response with
      | decision decision => exact absurd rfl ((answers_of_completes answered).ne_decision decision)
      | rejection message published =>
        obtain ⟨e, state⟩ := failure
        obtain ⟨rfl, decision, rfl, hvalid, rfl⟩ := rejected_of_completes answered
        obtain ⟨admitted, routed, verified, rfl, hadmitted, hrouted⟩ := unrouted_of_raises raised
        obtain ⟨listed, answer, id, now, rfl, houtcome⟩ := outcome_of_routing hrouted rfl
        have hunasked := Completes.each_call hadmitted (fun c => ∀ declared, c ≠ .resolve declared)
          fun _ _ h => ne_resolve_of_admitRequest h
        rw [List.append_nil]
        exact ⟨_, _, _, decided_of_parts reaches hinside hunasked (.rejected houtcome hvalid)⟩
      | error statusCode code message => cases outcome
      | violation code envelope => cases outcome
      | unparsableBody => cases outcome
      | internalServerError => cases outcome
      | aborted => cases outcome

end Requests

section Server

variable [UnicodeTables] [Cryptography] [JsonDecoder] [BodyParser] [PolicyLibraries]
variable {app : Application} {startup : PolicyFile} {s : Host}

/-- The policy files that were read: at startup, and by the reloads of the run. -/
inductive FileRead (startup : PolicyFile) (pool : Pool (server app)) : PolicyFile → Prop where
  | startup : FileRead startup pool startup
  | reload {p : Process (server app)} {t : Host} {file : PolicyFile} (listed : p ∈ pool.processes)
      (read : (t, ⟨.readPolicyFile, file⟩) ∈ p.log) : FileRead startup pool file

/-- SHA-256 tells the texts apart that were read. -/
def CollisionFree (startup : PolicyFile) (pool : Pool (server app)) : Prop :=
  ∀ file file' text text', FileRead startup pool file → FileRead startup pool file' →
    readText file = .ok text → readText file' = .ok text' →
      sha256Hex text.toUTF8 = sha256Hex text'.toUTF8 → text = text'

/-- The use case has a policy that was loaded from a file that was read. -/
def Loaded (startup : PolicyFile) (pool : Pool (server app)) (useCase : RouteModelUseCase) : Prop :=
  ∃ file policy, FileRead startup pool file ∧ loadRoutingPolicy file = .ok policy ∧
    useCase = newUseCase app policy

def Started (app : Application) (s : Host) : Prop :=
  ∃ policy, loadRoutingPolicy s.file = .ok policy ∧ s.useCase = newUseCase app policy

theorem Loaded.step {a b : Pool (server app)} {l : Label Task Reply} (h : Step (server app) a l b)
    {useCase : RouteModelUseCase} (loaded : Loaded startup a useCase) : Loaded startup b useCase := by
  obtain ⟨file, policy, hread, hload, huseCase⟩ := loaded
  refine ⟨file, policy, ?_, hload, huseCase⟩
  cases hread with
  | startup => exact .startup
  | @reload p t _ listed read =>
    let event : Event Reply := ⟨.readPolicyFile, file⟩
    obtain ⟨q, hq, hkept⟩ := some_process h (fun p => (t, event) ∈ p.log)
      (fun p c k r suspended _ hmem => List.mem_append_left _ hmem) ⟨p, listed, read⟩
    exact .reload hq hkept

theorem loaded_of_swap {a : Pool (server app)} {p : Process (server app)} (listed : p ∈ a.processes)
    {next : RouteModelUseCase} {k : Reply (.swapUseCase next) → Async Call Reply Result}
    (suspended : p.rest = .await (.swapUseCase next) k) : Loaded startup a next := by
  obtain ⟨file, policy, hevents, hload, hnext⟩ := swap_of_issues (Process.issues_of_rest suspended)
  obtain ⟨⟨t, e⟩, rest, hlog, rfl, -⟩ := List.map_eq_cons_iff.mp hevents
  exact ⟨file, policy, .reload listed (by rw [hlog]; exact List.mem_cons_self), hload, hnext⟩

/-- Every use case that is active, or was when something was answered, was loaded. -/
structure AllLoaded (startup : PolicyFile) (pool : Pool (server app)) : Prop where
  active : Loaded startup pool pool.shared.useCase
  stamps : ∀ p ∈ pool.processes, ∀ x ∈ p.log, Loaded startup pool x.1.useCase

private theorem allLoaded_of_step {a b : Pool (server app)} {l : Label Task Reply}
    (h : Step (server app) a l b) (held : AllLoaded startup a) : AllLoaded startup b := by
  constructor
  · have hkept := held.active.step h
    have hswapped : ∀ {p : Process (server app)} {next : RouteModelUseCase}
        {k : Reply (.swapUseCase next) → Async Call Reply Result}, p ∈ a.processes →
        p.rest = .await (.swapUseCase next) k → Loaded startup b next :=
      fun listed suspended => (loaded_of_swap listed suspended).step h
    cases h with
    | surroundings move => exact move.1 ▸ hkept
    | launch admitted => exact hkept
    | @serve t t' ps i p c k r pending suspended answer =>
      by_cases hswap : ∃ next, c = .swapUseCase next
      · obtain ⟨next, rfl⟩ := hswap
        have hactive : t'.useCase = next := by rw [answer]
        exact hactive ▸ hswapped (List.mem_of_getElem? pending) suspended
      · rw [useCase_of_answering answer fun next hnext => hswap ⟨next, hnext⟩]
        exact hkept
  · refine each_answer h (fun _ t _ _ => Loaded startup b t.useCase) ?_ ?_ ?_ ?_
    · exact fun p hp x hx => (held.stamps p hp x hx).step h
    · exact fun _ _ _ _ hloaded => hloaded
    · exact fun _ _ _ _ _ _ hloaded => hloaded
    · exact fun _ _ _ _ _ _ _ _ _ => held.active.step h

private theorem allLoaded_of_run (started : Started app s) {ls : List (Label Task Reply)}
    {pool : Pool (server app)} (h : Run (Step (server app)) (Pool.start (server app) s) ls pool) :
    AllLoaded s.file pool := by
  refine h.invariant (AllLoaded s.file) ⟨?_, fun _ hp => nomatch hp⟩ fun _ _ _ held step =>
    allLoaded_of_step step held
  obtain ⟨policy, hload, huseCase⟩ := started
  exact ⟨s.file, policy, .startup, hload, huseCase⟩

/-- Without a collision, one digest is one policy. -/
theorem policy_eq_of_digest {pool : Pool (server app)} (collisionFree : CollisionFree startup pool)
    {useCase useCase' : RouteModelUseCase} (h : Loaded startup pool useCase)
    (h' : Loaded startup pool useCase')
    (same : useCase'.policy.policyDigest = useCase.policy.policyDigest) :
    useCase'.policy = useCase.policy := by
  obtain ⟨file, policy, hread, hload, rfl⟩ := h
  obtain ⟨file', policy', hread', hload', rfl⟩ := h'
  obtain ⟨text, htext, hdigest⟩ := digest_of_loadRoutingPolicy hload
  obtain ⟨text', htext', hdigest'⟩ := digest_of_loadRoutingPolicy hload'
  have hsame : RoutingPolicyLoader.policyDigest text' = RoutingPolicyLoader.policyDigest text :=
    hdigest'.symm.trans (same.trans hdigest)
  have hhash : sha256Hex text'.toUTF8 = sha256Hex text.toUTF8 := (String.append_right_inj _).mp hsame
  obtain rfl := collisionFree file' file text' text hread' hread htext' htext hhash
  have hboth := loadRoutingPolicy_congr (htext'.trans htext.symm)
  exact Except.ok.inj (hload'.symm.trans (hboth.trans hload))

/-- The request of this process was decided under the use case that was active when it
resolved it, and its response names that policy. -/
structure DecidedIn (p : Process (server app)) (scope : RouteScope) (t : Host)
    (request : ModelRouteRequest) (answer : Availability) (response : Response) : Prop where
  decided : Decided scope (p.log.map Prod.snd) t.useCase request answer response
  active : (t, ⟨.activeUseCase, t.useCase⟩) ∈ p.log
  named : ∃ v, stated response = some (v, provenanceOf t.useCase.policy)

/-- A request has ended with this verdict, after the provider gave this answer. -/
structure Concluded (p : Process (server app)) (request : ModelRouteRequest) (answer : Availability)
    (v : Verdict) (provenance : Provenance) : Prop where
  ended : ∃ scope response body, p.tag = .request scope ∧ p.Finished (.response response) ∧
    stated response = some (v, provenance) ∧
    BodyParser.parse scope.headers (received (p.log.map Prod.snd)) = .admitted body ∧
    body.request = request
  answered : ∃ t listed, (t, ⟨.resolve listed, answer⟩) ∈ p.log

/-- Every outcome is that of one loaded policy, and outcomes that name one digest agree. -/
structure Traceable (startup : PolicyFile) (pool : Pool (server app)) : Prop where
  decided : ∀ p ∈ pool.processes, ∀ scope response, p.tag = .request scope →
    p.Finished (.response response) → (stated response).isSome = true →
      ∃ t request answer, DecidedIn p scope t request answer response ∧
        Loaded startup pool t.useCase
  agree : CollisionFree startup pool → ∀ p ∈ pool.processes, ∀ q ∈ pool.processes,
    ∀ request answer v v' provenance provenance', Concluded p request answer v provenance →
      Concluded q request answer v' provenance' →
        provenance.policyDigest = provenance'.policyDigest → v = v'

theorem completes_of_finished {p : Process (server app)} {scope : RouteScope} {response : Response}
    (request : p.tag = .request scope) (finished : p.Finished (.response response)) :
    Completes (postRoute app scope) (p.log.map Prod.snd) response := by
  have hcompletes : Completes (program app p.tag) (p.log.map Prod.snd) (.response response) :=
    finished.completes
  rw [request] at hcompletes
  obtain ⟨es, _, ended, hevents, hended, hdone⟩ := completes_bind_iff.mp hcompletes
  obtain ⟨rfl, hsame⟩ := (completes_done_iff _ _ _).mp hdone
  cases hsame
  rw [hevents, List.append_nil]
  exact hended

private theorem decidedIn_of_finished {pool : Pool (server app)} {ls : List (Label Task Reply)}
    (h : Run (Step (server app)) (Pool.start (server app) s) ls pool) {p : Process (server app)}
    (listed : p ∈ pool.processes) {scope : RouteScope} {response : Response}
    (request : p.tag = .request scope) (finished : p.Finished (.response response))
    (outcome : (stated response).isSome = true) :
    ∃ t request answer, DecidedIn p scope t request answer response := by
  obtain ⟨useCase, body, answer, hdecided⟩ :=
    decided_of_completes (completes_of_finished request finished) outcome
  obtain ⟨⟨t, e⟩, hlogged, rfl⟩ := List.mem_map.mp ((hdecided.resolved useCase).mpr rfl)
  have hactive : useCase = t.useCase := (faithful_of_run h p listed _ hlogged).2 useCase rfl
  subst hactive
  obtain ⟨⟨v, provenance⟩, hstated⟩ := Option.isSome_iff_exists.mp outcome
  obtain rfl := hdecided.decides.provenance hstated
  exact ⟨t, body, answer, hdecided, hlogged, v, hstated⟩

theorem loaded_of_resolved (started : Started app s) {ls : List (Label Task Reply)}
    {pool : Pool (server app)} (h : Run (Step (server app)) (Pool.start (server app) s) ls pool)
    {p : Process (server app)} (listed : p ∈ pool.processes) {useCase : RouteModelUseCase}
    (resolved : ⟨.activeUseCase, useCase⟩ ∈ p.log.map Prod.snd) : Loaded s.file pool useCase := by
  obtain ⟨⟨t, _⟩, hlogged, rfl⟩ := List.mem_map.mp resolved
  obtain rfl : useCase = t.useCase := (faithful_of_run h p listed _ hlogged).2 useCase rfl
  exact (allLoaded_of_run started h).stamps p listed _ hlogged

/-- The service publishes no decision without everything it has to rest on: the loader is why
the policy that decided has integrity. -/
theorem published_decisions_justified (started : Started app s) {ls : List (Label Task Reply)}
    {pool : Pool (server app)} (h : Run (Step (server app)) (Pool.start (server app) s) ls pool)
    {p : Process (server app)} (listed : p ∈ pool.processes) {scope : RouteScope}
    (request : p.tag = .request scope) {decision : ModelRouteDecision}
    (finished : p.Finished (.response (.decision decision))) :
    ∃ body useCase, Justified app scope (p.log.map Prod.snd) body useCase decision.selectedModelGroup := by
  obtain ⟨before, handled, useCase, body, correlationId, hevents, hreaches, hreturned⟩ :=
    returned_of_decision (completes_of_finished request finished)
  have hresolved : ⟨.activeUseCase, useCase⟩ ∈ p.log.map Prod.snd := by
    rw [hevents]
    exact List.mem_append_left _ ((hreaches.resolved useCase).mpr rfl)
  obtain ⟨file, policy, -, hload, rfl⟩ := loaded_of_resolved started h listed hresolved
  rw [hevents]
  exact ⟨body, _, justified_of_returned hreaches hreturned (servable_of_loadRoutingPolicy hload).integrity⟩

theorem outcomes_traceable (started : Started app s) {ls : List (Label Task Reply)}
    {pool : Pool (server app)} (h : Run (Step (server app)) (Pool.start (server app) s) ls pool) :
    Traceable s.file pool := by
  have hloaded := allLoaded_of_run started h
  have hconcluded : ∀ p ∈ pool.processes, ∀ request answer v provenance,
      Concluded p request answer v provenance → ∃ useCase response, Loaded s.file pool useCase ∧
        Decides useCase request answer response ∧ stated response = some (v, provenance) := by
    rintro p hp request answer v provenance ⟨⟨scope, response, body, htag, hfinished, hstated, hparsed,
      rfl⟩, u, listed, hlogged⟩
    obtain ⟨t, request, answer', hdecidedIn⟩ :=
      decidedIn_of_finished h hp htag hfinished (Option.isSome_iff_exists.mpr ⟨_, hstated⟩)
    obtain ⟨body', hparsed', rfl⟩ := hdecidedIn.decided.parsed
    cases hparsed.symm.trans hparsed'
    obtain rfl := hdecidedIn.decided.answered listed answer (List.mem_map_of_mem hlogged)
    exact ⟨t.useCase, response, hloaded.stamps p hp _ hdecidedIn.active, hdecidedIn.decided.decides,
      hstated⟩
  constructor
  · intro p hp scope response htag hfinished houtcome
    obtain ⟨t, request, answer, hdecidedIn⟩ := decidedIn_of_finished h hp htag hfinished houtcome
    exact ⟨t, request, answer, hdecidedIn, hloaded.stamps p hp _ hdecidedIn.active⟩
  · intro hcollisionFree p hp q hq request answer v v' provenance provenance' hfirst hsecond hdigest
    obtain ⟨useCase, response, huseCase, hdecides, hstated⟩ := hconcluded p hp _ _ _ _ hfirst
    obtain ⟨useCase', response', huseCase', hdecides', hstated'⟩ := hconcluded q hq _ _ _ _ hsecond
    have hpolicy : useCase'.policy = useCase.policy := by
      apply policy_eq_of_digest hcollisionFree huseCase huseCase'
      rw [hdecides.provenance hstated, hdecides'.provenance hstated'] at hdigest
      exact hdigest.symm
    have hsame := hdecides.stated_congr hdecides' hpolicy
    rw [hstated, hstated'] at hsame
    exact (Prod.ext_iff.mp (Option.some.inj hsame)).1.symm

end Server

section Plain

variable [UnicodeTables] [Cryptography] [JsonDecoder] {app : Application} {scope : RouteScope}
variable {request : ModelRouteRequest} {useCase : RouteModelUseCase} {correlationId : String}

/-- Without an authorization, an authenticated request is published as it is routed. -/
theorem returns_of_plain
    (disabled : app.runtimeAuthorizationRequired = false)
    (authentic : authenticate (scope.header "x-api-key") request.agentName app.apiKeys = .ok ())
    {routed : List (Event Reply)} {decision : RouteDecision} {published : ModelRouteDecision}
    (selected : Returns (routing useCase (.plain request)) routed decision)
    (valid : fromDomainDecision decision = .ok published) :
    Returns (RouteEndpoint.route app scope useCase (.plain request) correlationId)
      (⟨agentLimit scope (.plain request), true⟩ :: routed) published := by
  have hauthorized : Returns (authorize app none (toDomainRequest request)) [] none := by
    unfold authorize
    rw [disabled]
    exact (returns_pure _ _).mpr ⟨rfl, rfl⟩
  have hadmitted : Returns (admitRequest app scope (.plain request))
      [⟨agentLimit scope (.plain request), true⟩] none := by
    refine returns_bind.mpr ⟨_, [], true, rfl, returns_ask.mpr rfl, ?_⟩
    refine returns_bind.mpr ⟨[], [], (), rfl, (returns_compute _ _).mpr ⟨rfl, rfl⟩, ?_⟩
    refine returns_bind.mpr ⟨[], [], (), rfl, (returns_compute _ _).mpr ⟨rfl, authentic⟩, ?_⟩
    exact hauthorized
  unfold RouteEndpoint.route raising
  refine returns_bind.mpr ⟨_, routed, _, rfl, (returns_mapError _ _ _).mpr hadmitted, ?_⟩
  refine returns_bind.mpr ⟨_, [], _, (List.append_nil _).symm, (returns_mapError _ _ _).mpr selected, ?_⟩
  refine returns_bind.mpr ⟨[], [], (), rfl, (returns_mapError _ _ _).mpr
    ((returns_compute _ _).mpr ⟨rfl, rfl⟩), ?_⟩
  exact (returns_mapError _ _ _).mpr ((returns_compute _ _).mpr ⟨rfl, valid⟩)

end Plain

section Alone

variable [UnicodeTables] [Cryptography] [JsonDecoder] [BodyParser] [PolicyLibraries]
variable {app : Application} {scope : RouteScope} {s : Host}

/-- A request that gets a verdict can be run alone, and is concluded under the active policy. -/
theorem exists_concluded {es : List (Event Reply)} {response : Response} {body : RouteRequestEnvelope}
    {listed : List (ModelGroupId × Bool)} {answer : Availability}
    (completes : Completes (postRoute app scope) es response)
    (outcome : (stated response).isSome = true) (active : ⟨.activeUseCase, s.useCase⟩ ∈ es)
    (parsed : BodyParser.parse scope.headers (received es) = .admitted body)
    (asked : ⟨.resolve listed, answer⟩ ∈ es) (ps : List (Process (server app))) : ∃ ls p v,
    Run (Step (server app)) ⟨s, ps⟩ ls ⟨s, ps ++ [p]⟩ ∧
    Concluded p body.request answer v (provenanceOf s.useCase.policy) ∧ p.tag = .request scope := by
  obtain ⟨useCase, request, answer', hdecided⟩ := decided_of_completes completes outcome
  obtain rfl : s.useCase = useCase := (hdecided.resolved s.useCase).mp active
  obtain ⟨⟨v, provenance⟩, hstated⟩ := Option.isSome_iff_exists.mp outcome
  obtain rfl := hdecided.decides.provenance hstated
  obtain ⟨ls, p, hrun, htag, hlog, hfinished⟩ :=
    run_request completes (fun other => (hdecided.resolved other).mp) ps
  have hevents : p.log.map Prod.snd = es := by
    rw [hlog, List.map_map]
    exact List.map_id es
  refine ⟨ls, p, v, hrun, ⟨⟨scope, response, body, htag, hfinished, hstated, ?_, rfl⟩, s, listed, ?_⟩,
    htag⟩
  · rw [hevents]
    exact parsed
  · rw [hlog]
    exact List.mem_map_of_mem asked

end Alone

namespace Deployed

open AuthorizedDecisions.Deployed (application request requestJson route)
open RoutingPolicyLoader.Deployed
open RoutingSpecification.Deployed (group noon)
open VerificationSpecification.Deployed (decoder)

def baselineDigest : List UInt8 :=
  [152, 45, 68, 102, 146, 203, 54, 2, 181, 32, 120, 93, 45, 202, 98, 186, 38, 77, 135, 84, 75, 53, 7,
    145, 112, 116, 251, 157, 88, 119, 117, 120]

def revisedDigest : List UInt8 :=
  [248, 202, 98, 118, 86, 70, 249, 175, 228, 221, 120, 92, 118, 170, 233, 125, 119, 131, 140, 56, 74,
    230, 77, 88, 96, 166, 202, 134, 186, 135, 121, 24]

def digestOf (bytes : ByteArray) : List UInt8 :=
  if bytes.data = (policyText baseline).toUTF8.data then baselineDigest else revisedDigest

private theorem digestOf_revised : digestOf (policyText revised).toUTF8 = revisedDigest :=
  if_neg fun h => absurd (policyText_inj (String.toByteArray_inj.mp (ByteArray.ext h))) (by decide)

@[reducible] def hashing : Cryptography :=
  { sha256 := fun bytes i => (digestOf bytes).getD i 0
    verify := fun _ _ _ => false }

private theorem sha256Hex_eq (bytes : ByteArray) : @sha256Hex hashing bytes = String.ofList
    ((List.ofFn fun i : Fin 32 => (digestOf bytes).getD i 0).flatMap fun b =>
      DigitStrings.padded 16 2 b.toNat) := rfl

private theorem sha256Hex_ne : @sha256Hex hashing (policyText baseline).toUTF8 ≠
    @sha256Hex hashing (policyText revised).toUTF8 := by
  have hbaseline : digestOf (policyText baseline).toUTF8 = baselineDigest := if_pos rfl
  rw [sha256Hex_eq, sha256Hex_eq, hbaseline, digestOf_revised]
  decide +kernel

def plainBytes : Bytes := requestJson.render.map fun c => c.toNat.toUInt8

def plain : Application :=
  { application with
    maxRequestBodyBytes := plainBytes.length
    runtimeAuthorizationRequired := false
    runtimeAuthorizationVerifier := none }

@[reducible] def plainParser : BodyParser :=
  ⟨fun _ body => if body = plainBytes then .admitted (.plain request) else .unparsable⟩

abbrev deployed : System Host Task Call Reply (@Result hashing) :=
  @server asciiTables hashing decoder plainParser libraries plain

def served (version : NonEmptyText) : RouteModelUseCase := newUseCase plain (@policyOf hashing version)

def available : Availability := fun _ => some true

/-- The request is routed under either policy, and the decision can be published. -/
theorem request_routed {version : NonEmptyText} (known : version = baseline ∨ version = revised) :
    ∃ es decision published, Returns (@routing asciiTables (served version) (.plain request)) es decision ∧
      (∀ e ∈ es, e.2 = ports (served version) available "id-1" noon e.1) ∧
      fromDomainDecision decision = .ok published := by
  have hselected : (outcome (ports (served version) available "id-1" noon)
      (@routing asciiTables (served version) (.plain request))).toOption.map
        RouteDecision.selectedModelGroup = some group := by
    rcases known with rfl | rfl <;> decide +kernel
  have hcompletes := completes_run
    (fun call (s : Unit) => (ports (served version) available "id-1" noon call, s))
    (@routing asciiTables (served version) (.plain request)).run ()
  have hfixed : ∀ e ∈ ((@routing asciiTables (served version) (.plain request)).run.run
      (fun call (s : Unit) => (ports (served version) available "id-1" noon call, s)) ()).2.1,
      e.2 = ports (served version) available "id-1" noon e.1 := fun e he => fixed_of_mem_run _ _ () he
  rw [outcome, hcompletes.value_eq _ hfixed] at hselected
  generalize (@routing asciiTables (served version) (.plain request)).run.run
    (fun call (s : Unit) => (ports (served version) available "id-1" noon call, s)) () = run
    at hselected hcompletes hfixed
  obtain ⟨result, es, _⟩ := run
  cases result with
  | error e => cases hselected
  | ok decision =>
    have hservable : Servable (served version).policy :=
      @servable_of_loadRoutingPolicy libraries hashing _ _ (@load_policyFile hashing version known)
    have hidentified : Identified (served version) es := by
      refine ⟨(by decide : ("1.0.0" : String) ≠ ""), (by decide : ("test" : String) ≠ ""), fun id hid => ?_⟩
      obtain rfl : id = "id-1" := hfixed _ hid
      exact (by decide : ("id-1" : String) ≠ "")
    have hpublishable := @publishable_of_routed asciiTables _ request _ _ hservable hidentified _
      (@routed_of_completes asciiTables _ _ _ _ _ hcompletes)
    obtain ⟨published, hpublished⟩ := hpublishable.decision decision rfl
    exact ⟨es, decision, published, hcompletes, hfixed, hpublished⟩

theorem request_completes {version : NonEmptyText} {es : List (Event Reply)} {decision : RouteDecision}
    {published : ModelRouteDecision}
    (routed : Returns (@routing asciiTables (served version) (.plain request)) es decision)
    (valid : fromDomainDecision decision = .ok published) :
    Completes (@postRoute asciiTables hashing decoder plainParser plain route)
      ([⟨.allow .perIp "ip:10.0.0.1", true⟩, ⟨.receive, .request plainBytes false⟩,
        ⟨.activeUseCase, served version⟩] ++ ⟨agentLimit route (.plain request), true⟩ :: es)
      (@Response.decision hashing published) := by
  have hhandled := @returns_of_plain asciiTables hashing decoder plain route request (served version)
    "corr-1" rfl rfl _ _ _ routed valid
  have hresponded : Returns (@respond asciiTables hashing plain (@RouteEndpoint.route asciiTables
      hashing decoder plain route (served version) (.plain request) "corr-1"))
      (⟨agentLimit route (.plain request), true⟩ :: es) (@Response.decision hashing published) :=
    returns_recover.mpr (.inl (returns_bind.mpr
      ⟨_, [], published, (List.append_nil _).symm, hhandled, (returns_pure _ _).mpr ⟨rfl, rfl⟩⟩))
  refine @completes_of_respond asciiTables hashing decoder plainParser _ _ _ "corr-1" plainBytes _ _ _
    ?_ ?_ (by decide) le_rfl (if_pos rfl) hresponded
  · exact (returns_pure _ _).mpr ⟨rfl, rfl⟩
  · rfl

/-- The request is decided under the policy that is active. -/
theorem request_concluded {version : NonEmptyText} (known : version = baseline ∨ version = revised)
    {s : Host} (active : s.useCase = served version) (ps : List (Process deployed)) : ∃ ls p v,
    Run (Step deployed) ⟨s, ps⟩ ls ⟨s, ps ++ [p]⟩ ∧
    @Concluded asciiTables hashing decoder plainParser libraries plain p request available v
      (provenanceOf (@policyOf hashing version)) ∧ p.tag = .request route := by
  obtain ⟨es, decision, published, hrouted, hfixed, hvalid⟩ := request_routed known
  obtain ⟨listed, answer, id, now, rfl, -⟩ := @outcome_of_routing asciiTables _ _ _ _ hrouted rfl
  obtain rfl : answer = available := hfixed ⟨question listed, answer⟩ List.mem_cons_self
  have hreceived : received ([⟨.allow .perIp "ip:10.0.0.1", true⟩, ⟨.receive, .request plainBytes false⟩,
      ⟨.activeUseCase, served version⟩] ++ [⟨agentLimit route (.plain request), true⟩,
        ⟨question listed, available⟩, ⟨.newId, id⟩, ⟨.utcNow, now⟩]) = plainBytes := by
    rw [received_append]
    simp only [received, List.flatMap_cons, List.flatMap_nil, chunk, agentLimit, question,
      List.nil_append, List.append_nil]
  have hconcluded := @exists_concluded asciiTables hashing decoder plainParser libraries plain route s
    _ _ (.plain request) _ available (request_completes hrouted hvalid) rfl
    (List.mem_append_left _ (by rw [active]; exact List.mem_cons_of_mem _ (List.mem_cons_of_mem _ List.mem_cons_self)))
    (if_pos hreceived) (List.mem_append_right _ (List.mem_cons_of_mem _ List.mem_cons_self)) ps
  rw [active] at hconcluded
  exact hconcluded

private theorem readText_policyFile {version : NonEmptyText}
    (known : version = baseline ∨ version = revised) :
    readText (policyFile version) = .ok (policyText version) :=
  readText_encoded (isUnixText_known known)

theorem collisionFree_of_known {pool : Pool deployed}
    (known : ∀ p ∈ pool.processes, ∀ t file, (t, ⟨.readPolicyFile, file⟩) ∈ p.log →
      file = policyFile revised) :
    @CollisionFree asciiTables hashing decoder plainParser libraries plain (policyFile baseline) pool := by
  have hread : ∀ file, @FileRead asciiTables hashing decoder plainParser libraries plain
      (policyFile baseline) pool file → ∃ version, (version = baseline ∨ version = revised) ∧
        file = policyFile version := by
    rintro file (_ | ⟨listed, read⟩)
    · exact ⟨baseline, .inl rfl, rfl⟩
    · exact ⟨revised, .inr rfl, known _ listed _ _ read⟩
  intro file file' text text' hfile hfile' htext htext' hsame
  obtain ⟨version, hversion, rfl⟩ := hread file hfile
  obtain ⟨version', hversion', rfl⟩ := hread file' hfile'
  cases (readText_policyFile hversion).symm.trans htext
  cases (readText_policyFile hversion').symm.trans htext'
  rcases hversion with rfl | rfl <;> rcases hversion' with rfl | rfl
  · rfl
  · exact absurd hsame sha256Hex_ne
  · exact absurd hsame.symm sha256Hex_ne
  · rfl

/-- One request before and one after the file is replaced and reloaded. -/
theorem outcomes_traceable_deployed : ∃ ls pool p q v w,
    Run (Step deployed) (Pool.start deployed ⟨policyFile baseline, served baseline, 0⟩) ls pool ∧
    p ∈ pool.processes ∧ q ∈ pool.processes ∧
    @Concluded asciiTables hashing decoder plainParser libraries plain p request available v
      (provenanceOf (@policyOf hashing baseline)) ∧
    @Concluded asciiTables hashing decoder plainParser libraries plain q request available w
      (provenanceOf (@policyOf hashing revised)) ∧
    @CollisionFree asciiTables hashing decoder plainParser libraries plain (policyFile baseline) pool ∧
    @Traceable asciiTables hashing decoder plainParser libraries plain (policyFile baseline) pool := by
  have hbaseline := @load_policyFile hashing baseline (.inl rfl)
  have hrevised := @load_policyFile hashing revised (.inr rfl)
  obtain ⟨_, p, v, hfirst, hp, htag⟩ := @request_concluded baseline (.inl rfl)
    ⟨policyFile baseline, served baseline, 0⟩ rfl []
  have hreplaced : Step deployed ⟨⟨policyFile baseline, served baseline, 0⟩, [] ++ [p]⟩ .surroundings
      ⟨⟨policyFile revised, served baseline, 0⟩, [] ++ [p]⟩ := .surroundings ⟨rfl, rfl⟩
  obtain ⟨_, r, hreload, -, hlog⟩ := @run_reload asciiTables hashing decoder plainParser libraries plain
    ⟨policyFile revised, served baseline, 0⟩ _ hrevised ([] ++ [p])
  obtain ⟨_, q, w, hsecond, hq, htag'⟩ := @request_concluded revised (.inr rfl)
    ⟨policyFile revised, served revised, 1⟩ rfl ([] ++ [p] ++ [r])
  have hrun := (hfirst.snoc hreplaced).trans (hreload.trans hsecond)
  refine ⟨_, _, p, q, v, w, hrun, by simp, by simp, hp, hq, ?_, ?_⟩
  · refine collisionFree_of_known fun x hx t file hread => ?_
    have hcases : x = p ∨ x = r ∨ x = q := by simpa using hx
    rcases hcases with rfl | rfl | rfl
    · exact absurd rfl (@ordinary_of_request asciiTables hashing decoder plainParser libraries plain
        _ _ htag _ _ _ hread).1
    · rw [hlog] at hread
      rcases List.mem_pair.mp hread with hsame | hsame
      · cases hsame
        rfl
      · cases hsame
    · exact absurd rfl (@ordinary_of_request asciiTables hashing decoder plainParser libraries plain
        _ _ htag' _ _ _ hread).1
  · have hstarted : @Started hashing libraries plain ⟨policyFile baseline, served baseline, 0⟩ :=
      ⟨@policyOf hashing baseline, hbaseline, rfl⟩
    exact @outcomes_traceable asciiTables hashing decoder plainParser libraries plain _ hstarted _ _ hrun

end Deployed

end PolicyModelRouter.DecidingPolicies
