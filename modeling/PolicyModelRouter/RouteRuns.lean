import PolicyModelRouter.RouteEndpoint
import PolicyModelRouter.VerificationTraces

/-!
# The runs of the route endpoint

Every run of one request is a part in front of the handler, the handler, and the
handler of its exception. Each part says which calls it makes; the only part that
reaches a store is the verification of an authorization.
-/

namespace PolicyModelRouter.RouteRuns
open AuthorizationContract AuthorizationVerifier AwaitingPrograms GovernedVocabularies OrderedChecks
open PythonText RouteEndpoint RouterCalls RoutingCatalog RuntimeControl TrustedKeys UtcTimestamps
open Uuids VerificationTraces ViolationEvidence WireContracts

def touchesStore : Call → Bool
  | .redisGet _ => true
  | .redisSet _ _ => true
  | .memoryConsume _ _ _ => true
  | _ => false

def storeEvents (es : List (Event Reply)) : List (Event Reply) :=
  es.filter fun e => touchesStore e.1

def chunk : Event Reply → Bytes
  | ⟨.receive, message⟩ =>
    match message with
    | AsgiMessage.request chunk _ => chunk
    | _ => []
  | _ => []

def received (es : List (Event Reply)) : Bytes := es.flatMap chunk

@[simp] theorem storeEvents_append (es es' : List (Event Reply)) :
    storeEvents (es ++ es') = storeEvents es ++ storeEvents es' :=
  List.filter_append ..

@[simp] theorem received_append (es es' : List (Event Reply)) :
    received (es ++ es') = received es ++ received es' :=
  List.flatMap_append ..

theorem storeEvents_eq_nil {es : List (Event Reply)} (h : ∀ e ∈ es, touchesStore e.1 = false) :
    storeEvents es = [] :=
  List.filter_eq_nil_iff.mpr fun e he => by simp [h e he]

theorem storeEvents_eq_self {es : List (Event Reply)} (h : ∀ e ∈ es, touchesStore e.1 = true) :
    storeEvents es = es :=
  List.filter_eq_self.mpr h

theorem received_eq_nil {es : List (Event Reply)} (h : ∀ e ∈ es, e.1 ≠ .receive) :
    received es = [] := by
  refine List.flatMap_eq_nil_iff.mpr fun e he => ?_
  obtain ⟨c, r⟩ := e
  have hc := h ⟨c, r⟩ he
  cases c <;> first | rfl | exact absurd rfl hc

/-- The calls of the middleware. -/
inductive Outer : Call → Prop where
  | uuid4 : Outer .uuid4
  | allow (key : String) : Outer (.allow .perIp key)
  | receive : Outer .receive

inductive Front : Call → Prop where
  | outer {c : Call} (outer : Outer c) : Front c
  | activeUseCase : Front .activeUseCase

theorem Front.storeless {c : Call} (h : Front c) : touchesStore c = false := by
  cases h with
  | outer outer => cases outer <;> rfl
  | activeUseCase => rfl

/-- The identifiers a request can be bound to. -/
inductive Bound (scope : RouteScope) : String → Prop where
  | caller {raw : String} (sent : scope.header "x-correlation-id" = some raw) (some_ : raw ≠ "")
      (bounded : raw.length ≤ maxCorrelationIdLength) : Bound scope raw
  | fresh (id : UUID) : Bound scope id.str

section Middleware

variable {app : Application} {scope : RouteScope} {es : List (Event Reply)}

theorem issues_bindCorrelationId {c : Call} (h : Issues (bindCorrelationId scope).run es c) :
    c = .uuid4 := by
  unfold bindCorrelationId at h
  split at h
  · exact absurd h (not_issues_pure _ _)
  · rcases issues_bind.mp h with h | ⟨_, _, _, -, -, h⟩
    · exact (issues_ask.mp h).2
    · exact absurd h (not_issues_pure _ _)

theorem not_raises_bindCorrelationId {e : PyException} :
    ¬ Raises (bindCorrelationId scope) es e := by
  intro h
  unfold bindCorrelationId at h
  split at h
  · exact not_raises_pure _ _ h
  · rcases raises_bind.mp h with h | ⟨_, _, _, -, -, h⟩
    · exact not_raises_ask h
    · exact not_raises_pure _ _ h

private theorem bound_of_returns {correlationId : String}
    (h : Returns (bindCorrelationId scope) es correlationId) : Bound scope correlationId := by
  unfold bindCorrelationId at h
  split at h
  · rename_i raw hraw
    obtain ⟨-, rfl⟩ := (returns_pure _ _).mp h
    obtain ⟨hsent, hfits⟩ := Option.filter_eq_some_iff.mp hraw
    simp only [decide_eq_true_eq] at hfits
    exact .caller hsent hfits.1 hfits.2
  · obtain ⟨_, _, id, -, -, h⟩ := returns_bind.mp h
    obtain ⟨-, rfl⟩ := (returns_pure _ _).mp h
    exact .fresh id

theorem issues_admitBody {cap patience : ℕ} {body : Bytes} {c : Call}
    (h : Issues (admitBody cap patience body).run es c) : c = .receive := by
  induction patience generalizing body es with
  | zero => exact absurd h (not_issues_throw _ _)
  | succ patience ih =>
    rcases issues_bind.mp h with h | ⟨_, _, message, -, -, h⟩
    · exact (issues_ask.mp h).2
    · cases message with
      | disconnect => exact absurd h (not_issues_pure _ _)
      | other => exact absurd h (not_issues_throw _ _)
      | request chunk moreBody =>
        simp only at h
        split at h
        · exact absurd h (not_issues_pure _ _)
        · split at h
          · exact ih h
          · exact absurd h (not_issues_pure _ _)

/-- A complete body is what arrived. -/
theorem complete_of_admitBody {cap patience : ℕ} {body full : Bytes}
    (h : Returns (admitBody cap patience body) es (.complete full)) : full = body ++ received es := by
  induction patience generalizing body es with
  | zero => exact absurd h (not_returns_throw _ _)
  | succ patience ih =>
    obtain ⟨_, rest, message, rfl, hask, hrest⟩ := returns_bind.mp h
    obtain rfl := returns_ask.mp hask
    cases message with
    | disconnect =>
      obtain ⟨-, hfull⟩ := (returns_pure _ _).mp hrest
      cases hfull
    | other => exact absurd hrest (not_returns_throw _ _)
    | request bytes moreBody =>
      have hchunk : received ([⟨.receive, AsgiMessage.request bytes moreBody⟩] ++ rest) =
          bytes ++ received rest := rfl
      simp only at hrest
      split at hrest
      · obtain ⟨-, hfull⟩ := (returns_pure _ _).mp hrest
        cases hfull
      · split at hrest
        · rw [hchunk, ih hrest, List.append_assoc]
        · obtain ⟨rfl, hfull⟩ := (returns_pure _ _).mp hrest
          cases hfull
          rw [hchunk]
          simp [received]

theorem front_of_admitBody {cap patience : ℕ} {body : Bytes} {r : Except PyException Admission}
    (h : Completes (admitBody cap patience body).run es r) : ∀ e ∈ es, Outer e.1 :=
  h.each_call Outer fun _ _ hissued => issues_admitBody hissued ▸ .receive

def Plain [Cryptography] (response : Response) : Prop :=
  ∃ statusCode code message, response = .error statusCode code message

private theorem plain_of_declaredBodySizeError [Cryptography] {headers : List (Bytes × Bytes)} {cap : ℕ}
    {response : Response} (h : declaredBodySizeError headers cap = some response) :
    Plain response := by
  unfold declaredBodySizeError at h
  split at h
  · exact ⟨_, _, _, (Option.some.inj h).symm⟩
  · cases h
  · dsimp only at h
    split_ifs at h
    all_goals exact ⟨_, _, _, (Option.some.inj h).symm⟩

/-- A run of the middleware ends there, or goes on downstream with the body that arrived. -/
theorem completes_bodySizeAndIpRateLimit [Cryptography]
    {downstream : Option Bytes → Coroutine Response} {r : Except PyException Response}
    (h : Completes (bodySizeAndIpRateLimit app scope downstream).run es r) :
    ((∀ e ∈ es, Outer e.1) ∧ ∀ response, r = .ok response → Plain response) ∨
      ∃ before after body, es = before ++ after ∧ (∀ e ∈ before, Outer e.1) ∧
        (body = none ∨ body = some (received before)) ∧
        Completes (downstream body).run after r := by
  unfold bodySizeAndIpRateLimit at h
  rcases completes_run_bind.mp h with ⟨e, -, hraises⟩ | ⟨_, rest, allowed, rfl, hask, hrest⟩
  · exact absurd hraises not_raises_ask
  obtain rfl := returns_ask.mp hask
  have hlimit : ∀ e ∈ [(⟨.allow .perIp ("ip:" ++ clientHost scope), allowed⟩ : Event Reply)],
      Outer e.1 := by
    intro e he
    rw [List.mem_singleton.mp he]
    exact .allow _
  cases allowed with
  | false =>
    obtain ⟨rfl, rfl⟩ := (completes_run_pure _ _).mp hrest
    refine .inl ⟨by simpa using hlimit, ?_⟩
    rintro response ⟨⟩
    exact ⟨_, _, _, rfl⟩
  | true =>
    simp only at hrest
    split at hrest
    · rename_i response hdeclared
      obtain ⟨rfl, rfl⟩ := (completes_run_pure _ _).mp hrest
      refine .inl ⟨by simpa using hlimit, ?_⟩
      rintro response ⟨⟩
      exact plain_of_declaredBodySizeError hdeclared
    · rcases completes_run_bind.mp hrest with ⟨e, rfl, hraises⟩ |
        ⟨reads, after, admission, rfl, hadmitted, hafter⟩
      · refine .inl ⟨?_, by rintro response ⟨⟩⟩
        intro e he
        rcases List.mem_append.mp he with he | he
        · exact hlimit e he
        · exact front_of_admitBody hraises e he
      · have hfront : ∀ e ∈ [⟨.allow .perIp ("ip:" ++ clientHost scope), true⟩] ++ reads,
            Outer e.1 := by
          intro e he
          rcases List.mem_append.mp he with he | he
          · exact hlimit e he
          · exact front_of_admitBody hadmitted e he
        cases admission with
        | tooLarge =>
          obtain ⟨rfl, rfl⟩ := (completes_run_pure _ _).mp hafter
          refine .inl ⟨by simpa using hfront, ?_⟩
          rintro response ⟨⟩
          exact ⟨_, _, _, rfl⟩
        | disconnected =>
          exact .inr ⟨_, after, none, (List.append_assoc ..).symm, hfront, .inl rfl, hafter⟩
        | complete body =>
          refine .inr ⟨_, after, some body, (List.append_assoc ..).symm, hfront, .inr ?_, hafter⟩
          rw [complete_of_admitBody hadmitted]
          rfl

private theorem issues_bodySizeAndIpRateLimit [Cryptography]
    {downstream : Option Bytes → Coroutine Response} {c : Call}
    (h : Issues (bodySizeAndIpRateLimit app scope downstream).run es c) :
    (Outer c ∧ ∀ e ∈ es, Outer e.1) ∨
      ∃ before after body, es = before ++ after ∧ (∀ e ∈ before, Outer e.1) ∧
        (body = none ∨ body = some (received before)) ∧
        Issues (downstream body).run after c := by
  unfold bodySizeAndIpRateLimit at h
  rcases issues_bind.mp h with h | ⟨_, rest, allowed, rfl, hask, hrest⟩
  · obtain ⟨rfl, rfl⟩ := issues_ask.mp h
    exact .inl ⟨.allow _, by simp⟩
  obtain rfl := returns_ask.mp hask
  have hjoin : ∀ {reads : List (Event Reply)}, (∀ e ∈ reads, Outer e.1) →
      ∀ e ∈ [⟨.allow .perIp ("ip:" ++ clientHost scope), allowed⟩] ++ reads, Outer e.1 := by
    intro reads hreads e he
    rcases List.mem_append.mp he with he | he
    · rw [List.mem_singleton.mp he]
      exact .allow _
    · exact hreads e he
  cases allowed with
  | false => exact absurd hrest (not_issues_pure _ _)
  | true =>
    simp only at hrest
    split at hrest
    · exact absurd hrest (not_issues_pure _ _)
    · rcases issues_bind.mp hrest with hreads | ⟨reads, after, admission, rfl, hadmitted, hafter⟩
      · have hreceives := hreads.each_call Outer fun _ _ h => issues_admitBody h ▸ .receive
        rw [issues_admitBody hreads]
        exact .inl ⟨.receive, hjoin hreceives⟩
      · have hfront := hjoin (front_of_admitBody hadmitted)
        cases admission with
        | tooLarge => exact absurd hafter (not_issues_pure _ _)
        | disconnected =>
          exact .inr ⟨_, after, none, (List.append_assoc ..).symm, hfront, .inl rfl, hafter⟩
        | complete body =>
          refine .inr ⟨_, after, some body, (List.append_assoc ..).symm, hfront, .inr ?_, hafter⟩
          rw [complete_of_admitBody hadmitted]
          rfl

end Middleware

section Service

variable [UnicodeTables] [Cryptography] [JsonDecoder] [BodyParser]
variable {app : Application} {scope : RouteScope} {es : List (Event Reply)}

def Escaped (response : Response) : Prop := ∃ e, response = ending (.error e)

def Unhandled (response : Response) : Prop :=
  Plain response ∨ response = .unparsableBody ∨ Escaped response

/-- The request reached the handler along these events, with what it was given there. -/
structure Reaches (scope : RouteScope) (es : List (Event Reply)) (useCase : RouteModelUseCase)
    (envelope : RouteRequestEnvelope) (correlationId : String) : Prop where
  front : ∀ e ∈ es, Front e.1
  resolved : ∀ other, ⟨.activeUseCase, other⟩ ∈ es ↔ other = useCase
  parsed : BodyParser.parse scope.headers (received es) = .admitted envelope
  bound : Bound scope correlationId

/-- What a finished request went through. -/
inductive Ended (app : Application) (scope : RouteScope) : List (Event Reply) → Response → Prop where
  | inFront {es : List (Event Reply)} {response : Response} (front : ∀ e ∈ es, Front e.1)
      (unhandled : Unhandled response) : Ended app scope es response
  | decided {before handled : List (Event Reply)} {useCase : RouteModelUseCase}
      {envelope : RouteRequestEnvelope} {correlationId : String} {decision : ModelRouteDecision}
      (reaches : Reaches scope before useCase envelope correlationId)
      (returned : Returns (route app scope useCase envelope correlationId) handled decision) :
      Ended app scope (before ++ handled) (.decision decision)
  | raised {before handled after : List (Event Reply)} {useCase : RouteModelUseCase}
      {envelope : RouteRequestEnvelope} {correlationId : String} {e : PyException × RequestState}
      {r : Except PyException Response}
      (reaches : Reaches scope before useCase envelope correlationId)
      (raised : Raises (route app scope useCase envelope correlationId) handled e)
      (answered : Completes (handleException app e).run after r) :
      Ended app scope (before ++ (handled ++ after)) (ending r)

/-- Where a request is when it makes a call. -/
inductive Makes (app : Application) (scope : RouteScope) : List (Event Reply) → Call → Prop where
  | inFront {es : List (Event Reply)} {c : Call} (front : Front c) : Makes app scope es c
  | inHandler {before handled : List (Event Reply)} {useCase : RouteModelUseCase}
      {envelope : RouteRequestEnvelope} {correlationId : String} {c : Call}
      (reaches : Reaches scope before useCase envelope correlationId)
      (issued : Issues (route app scope useCase envelope correlationId).run handled c) :
      Makes app scope (before ++ handled) c
  | answering {es : List (Event Reply)} {c : Call} (own : c = .utcNow ∨ c = .uuid4) :
      Makes app scope es c

theorem completes_framework {correlationId : String} {body : Option Bytes}
    {r : Except PyException Response}
    (h : Completes (framework app scope correlationId body).run es r) :
    ((∀ e ∈ es, Front e.1) ∧ ((∃ response, r = .ok response ∧ Unhandled response) ∨
        ∃ bytes useCase, body = some bytes ∧
          BodyParser.parse scope.headers bytes = .timestampOverflow ∧
          es = [⟨.activeUseCase, useCase⟩] ∧ r = .error .overflow)) ∨
      ∃ bytes envelope useCase rest, body = some bytes ∧
        BodyParser.parse scope.headers bytes = .admitted envelope ∧
        es = ⟨.activeUseCase, useCase⟩ :: rest ∧
        Completes (respond app (route app scope useCase envelope correlationId)).run rest r := by
  unfold framework at h
  cases body with
  | none =>
    obtain ⟨rfl, rfl⟩ := (completes_run_pure _ _).mp h
    exact .inl ⟨by simp, .inl ⟨_, rfl, .inr (.inl rfl)⟩⟩
  | some bytes =>
    simp only at h
    split at h
    · obtain ⟨rfl, rfl⟩ := (completes_run_pure _ _).mp h
      exact .inl ⟨by simp, .inl ⟨_, rfl, .inl ⟨_, _, _, rfl⟩⟩⟩
    · obtain ⟨rfl, rfl⟩ := (completes_run_pure _ _).mp h
      exact .inl ⟨by simp, .inl ⟨_, rfl, .inr (.inl rfl)⟩⟩
    · rcases completes_run_bind.mp h with ⟨_, -, hraises⟩ | ⟨_, _, useCase, rfl, hask, hrest⟩
      · exact absurd hraises not_raises_ask
      · obtain rfl := returns_ask.mp hask
        obtain ⟨rfl, rfl⟩ := (completes_run_pure _ _).mp hrest
        exact .inl ⟨by simpa using Front.activeUseCase, .inl ⟨_, rfl, .inl ⟨_, _, _, rfl⟩⟩⟩
    · rename_i hparsed
      rcases completes_run_bind.mp h with ⟨_, -, hraises⟩ | ⟨_, _, useCase, rfl, hask, hrest⟩
      · exact absurd hraises not_raises_ask
      · obtain rfl := returns_ask.mp hask
        obtain ⟨rfl, rfl⟩ := (completes_run_throw _ _).mp hrest
        exact .inl ⟨by simpa using Front.activeUseCase, .inr ⟨bytes, useCase, rfl, hparsed, rfl, rfl⟩⟩
    · rename_i envelope hparsed
      rcases completes_run_bind.mp h with ⟨_, -, hraises⟩ | ⟨_, rest, useCase, rfl, hask, hrest⟩
      · exact absurd hraises not_raises_ask
      · obtain rfl := returns_ask.mp hask
        exact .inr ⟨bytes, envelope, useCase, rest, rfl, hparsed, rfl, hrest⟩

private theorem issues_framework {correlationId : String} {body : Option Bytes} {c : Call}
    (h : Issues (framework app scope correlationId body).run es c) :
    c = .activeUseCase ∨
      ∃ bytes envelope useCase rest, body = some bytes ∧
        BodyParser.parse scope.headers bytes = .admitted envelope ∧
        es = ⟨.activeUseCase, useCase⟩ :: rest ∧
        Issues (respond app (route app scope useCase envelope correlationId)).run rest c := by
  unfold framework at h
  cases body with
  | none => exact absurd h (not_issues_pure _ _)
  | some bytes =>
    simp only at h
    split at h
    · exact absurd h (not_issues_pure _ _)
    · exact absurd h (not_issues_pure _ _)
    · rcases issues_bind.mp h with h | ⟨_, _, _, -, -, hrest⟩
      · exact .inl (issues_ask.mp h).2
      · exact absurd hrest (not_issues_pure _ _)
    · rcases issues_bind.mp h with h | ⟨_, _, _, -, -, hrest⟩
      · exact .inl (issues_ask.mp h).2
      · exact absurd hrest (not_issues_throw _ _)
    · rename_i envelope hparsed
      rcases issues_bind.mp h with h | ⟨_, rest, useCase, rfl, hask, hrest⟩
      · exact .inl (issues_ask.mp h).2
      · obtain rfl := returns_ask.mp hask
        exact .inr ⟨bytes, envelope, useCase, rest, rfl, hparsed, rfl, hrest⟩

omit [JsonDecoder] [BodyParser] in
theorem issues_handleException {e : PyException × RequestState} {c : Call}
    (h : Issues (handleException app e).run es c) : c = .utcNow ∨ c = .uuid4 := by
  unfold handleException at h
  split at h
  · rcases issues_bind.mp h with h | ⟨_, _, _, -, -, h⟩
    · exact absurd h (not_issues_compute _ _)
    · exact absurd h (not_issues_pure _ _)
  · exact absurd h (not_issues_pure _ _)
  · exact absurd h (not_issues_pure _ _)
  · exact absurd h (not_issues_pure _ _)
  · simp only [handleRuntimeAuthorizationError, buildRuntimeViolation, issues_bind, issues_ask,
      not_issues_compute, not_issues_pure, and_false, exists_false, or_false, false_or] at h
    rcases h with ⟨-, rfl⟩ | ⟨_, _, _, -, -, _, _, _, -, -, -, rfl⟩
    · exact .inl rfl
    · exact .inr rfl
  · exact absurd h (not_issues_throw _ _)

/-- The responses to an exception: its own, where building that does not fail in turn. -/
def Answers (response : Response) : PyException → Prop
  | .noViableModelGroup decision =>
    Escaped response ∨ ∃ rejection, response = .rejection (noViableMessage decision) rejection
  | .incompleteRoutingPolicy _ =>
    response = .error 500 "misconfigured_routing_policy" "the routing policy is misconfigured"
  | .authentication _ => response = .error 401 "unauthorized" "missing or invalid API key"
  | .rateLimitExceeded _ => response = tooManyRequests
  | .runtimeAuthorization error =>
    Escaped response ∨ ∃ envelope, response = .violation error.code envelope
  | _ => Escaped response

omit [JsonDecoder] [BodyParser] in
theorem answers_of_completes {failure : PyException × RequestState} {r : Except PyException Response}
    (h : Completes (handleException app failure).run es r) : Answers (ending r) failure.1 := by
  unfold handleException at h
  split at h
  · rcases completes_run_bind.mp h with ⟨e, rfl, -⟩ | ⟨_, _, rejection, -, -, hpure⟩
    · exact .inl ⟨e, rfl⟩
    · obtain ⟨-, rfl⟩ := (completes_run_pure _ _).mp hpure
      exact .inr ⟨rejection, rfl⟩
  · obtain ⟨-, rfl⟩ := (completes_run_pure _ _).mp h
    rfl
  · obtain ⟨-, rfl⟩ := (completes_run_pure _ _).mp h
    rfl
  · obtain ⟨-, rfl⟩ := (completes_run_pure _ _).mp h
    rfl
  · unfold handleRuntimeAuthorizationError at h
    rcases completes_run_bind.mp h with ⟨e, rfl, -⟩ | ⟨_, _, envelope, -, -, hpure⟩
    · exact .inl ⟨e, rfl⟩
    · obtain ⟨-, rfl⟩ := (completes_run_pure _ _).mp hpure
      exact .inr ⟨envelope, rfl⟩
  · rename_i e state h₁ h₂ h₃ h₄ h₅
    obtain ⟨-, rfl⟩ := (completes_run_throw _ _).mp h
    cases e with
    | noViableModelGroup decision => exact (h₁ _ rfl).elim
    | incompleteRoutingPolicy message => exact (h₂ _ rfl).elim
    | authentication message => exact (h₃ _ rfl).elim
    | rateLimitExceeded message => exact (h₄ _ rfl).elim
    | runtimeAuthorization error => exact (h₅ _ rfl).elim
    | _ => exact ⟨_, rfl⟩

omit [UnicodeTables] [JsonDecoder] [BodyParser] in
theorem Escaped.eq_or {response : Response} (h : Escaped response) :
    response = .internalServerError ∨ response = .aborted := by
  obtain ⟨e, rfl⟩ := h
  cases e <;> simp [ending]

omit [UnicodeTables] [JsonDecoder] [BodyParser] in
theorem Unhandled.ne_decision {response : Response} (h : Unhandled response)
    (decision : ModelRouteDecision) : response ≠ .decision decision := by
  rcases h with ⟨_, _, _, rfl⟩ | rfl | h
  · simp
  · simp
  · rcases h.eq_or with rfl | rfl <;> simp

omit [UnicodeTables] [JsonDecoder] [BodyParser] in
theorem Unhandled.ne_violation {response : Response} (h : Unhandled response) (code : DenialCode)
    (envelope : ViolationContract.RuntimeViolationEnvelope) : response ≠ .violation code envelope := by
  rcases h with ⟨_, _, _, rfl⟩ | rfl | h
  · simp
  · simp
  · rcases h.eq_or with rfl | rfl <;> simp

omit [JsonDecoder] [BodyParser] in
theorem Answers.ne_decision {response : Response} {e : PyException} (h : Answers response e)
    (decision : ModelRouteDecision) : response ≠ .decision decision := by
  unfold Answers at h
  split at h
  · rcases h with h | ⟨_, rfl⟩
    · exact Unhandled.ne_decision (.inr (.inr h)) decision
    · simp
  · simp [h]
  · simp [h]
  · simp [h, tooManyRequests]
  · rcases h with h | ⟨_, rfl⟩
    · exact Unhandled.ne_decision (.inr (.inr h)) decision
    · simp
  · exact Unhandled.ne_decision (.inr (.inr h)) decision

omit [UnicodeTables] [Cryptography] [JsonDecoder] in
theorem reaches_of_parts {correlationId : String} {bound reads : List (Event Reply)}
    {body : Option Bytes} {bytes : Bytes} {envelope : RouteRequestEnvelope}
    (useCase : RouteModelUseCase)
    (hbound : Returns (bindCorrelationId scope) bound correlationId)
    (hreads : ∀ e ∈ reads, Outer e.1) (hbody : body = none ∨ body = some (received reads))
    (hbytes : body = some bytes) (hparsed : BodyParser.parse scope.headers bytes = .admitted envelope) :
    Reaches scope (bound ++ (reads ++ [⟨.activeUseCase, useCase⟩])) useCase envelope
      correlationId := by
  have hcalls : ∀ e ∈ bound, e.1 = .uuid4 :=
    Completes.each_call hbound (· = .uuid4) fun _ _ h => issues_bindCorrelationId h
  have houter : ∀ e ∈ bound ++ reads, Outer e.1 := by
    intro e he
    rcases List.mem_append.mp he with he | he
    · rw [hcalls e he]
      exact .uuid4
    · exact hreads e he
  rw [← List.append_assoc]
  refine ⟨?_, ?_, ?_, bound_of_returns hbound⟩
  · intro e he
    rcases List.mem_append.mp he with he | he
    · exact .outer (houter e he)
    · rw [List.mem_singleton.mp he]
      exact .activeUseCase
  · intro other
    constructor
    · intro h
      rcases List.mem_append.mp h with h | h
      · exact absurd (houter _ h) nofun
      · cases List.mem_singleton.mp h
        rfl
    · rintro rfl
      simp
  · have hquiet : received bound = [] :=
      received_eq_nil fun e he => by rw [hcalls e he]; simp
    rcases hbody with rfl | rfl
    · cases hbytes
    · obtain rfl := Option.some.inj hbytes
      have hlast : received [⟨.activeUseCase, useCase⟩] = [] := rfl
      rw [received_append, received_append, hquiet, hlast, List.nil_append, List.append_nil]
      exact hparsed

theorem ended_of_completes {response : Response} (h : Completes (postRoute app scope) es response) :
    Ended app scope es response := by
  obtain ⟨es₁, es₂, r, rfl, hserve, hdone⟩ := completes_bind_iff.mp h
  obtain ⟨rfl, rfl⟩ := (completes_done_iff _ _ _).mp hdone
  rw [List.append_nil]
  rcases completes_run_bind.mp hserve with ⟨_, -, hraises⟩ |
    ⟨bound, rest, correlationId, rfl, hbound, hrest⟩
  · exact absurd hraises not_raises_bindCorrelationId
  have hjoin : ∀ {reads : List (Event Reply)}, (∀ e ∈ reads, Front e.1) →
      ∀ e ∈ bound ++ reads, Front e.1 := by
    intro reads hreads e he
    rcases List.mem_append.mp he with he | he
    · rw [Completes.each_call hbound (· = .uuid4) (fun _ _ h => issues_bindCorrelationId h) e he]
      exact .outer .uuid4
    · exact hreads e he
  rcases completes_bodySizeAndIpRateLimit hrest with ⟨hfront, hplain⟩ |
    ⟨reads, after, body, rfl, hreads, hbody, hframework⟩
  · refine .inFront (hjoin fun e he => .outer (hfront e he)) ?_
    cases r with
    | error e => exact .inr (.inr ⟨e, rfl⟩)
    | ok response => exact .inl (hplain response rfl)
  · rcases completes_framework hframework with ⟨hfront, hended⟩ |
      ⟨bytes, envelope, useCase, handled, hbytes, hparsed, rfl, hrespond⟩
    · have hunhandled : Unhandled (ending r) := by
        rcases hended with ⟨response, rfl, hresponse⟩ | ⟨_, _, -, -, -, rfl⟩
        · exact hresponse
        · exact .inr (.inr ⟨_, rfl⟩)
      refine .inFront (hjoin ?_) hunhandled
      intro e he
      rcases List.mem_append.mp he with he | he
      · exact .outer (hreads e he)
      · exact hfront e he
    · have hreaches := reaches_of_parts useCase hbound hreads hbody hbytes hparsed
      have hsplit : ∀ rest : List (Event Reply),
          bound ++ (reads ++ ⟨.activeUseCase, useCase⟩ :: rest) =
            bound ++ (reads ++ [⟨.activeUseCase, useCase⟩]) ++ rest := by simp
      rw [hsplit]
      rcases completes_run_recover.mp hrespond with ⟨response, rfl, hreturns⟩ |
        ⟨handled, after, e, rfl, hraises, hanswer⟩
      · obtain ⟨_, _, decision, rfl, hroute, hpure⟩ := returns_bind.mp hreturns
        obtain ⟨rfl, rfl⟩ := (returns_pure _ _).mp hpure
        rw [List.append_nil]
        exact .decided hreaches hroute
      · rcases raises_bind.mp hraises with hraises | ⟨_, _, _, -, -, hpure⟩
        · exact .raised hreaches hraises hanswer
        · exact absurd hpure (not_raises_pure _ _)

/-- A decision leaves the service only as what the handler returned. -/
theorem returned_of_decision {decision : ModelRouteDecision}
    (h : Completes (postRoute app scope) es (.decision decision)) :
    ∃ before handled useCase envelope correlationId, es = before ++ handled ∧
      Reaches scope before useCase envelope correlationId ∧
      Returns (route app scope useCase envelope correlationId) handled decision := by
  generalize hresponse : Response.decision decision = response at h
  cases ended_of_completes h with
  | inFront front unhandled => exact absurd hresponse.symm (unhandled.ne_decision decision)
  | raised reaches raised answered =>
    exact absurd hresponse.symm ((answers_of_completes answered).ne_decision decision)
  | decided reaches returned =>
    cases hresponse
    exact ⟨_, _, _, _, _, rfl, reaches, returned⟩

/-- A body that arrives in one message brings the request to the handler. -/
theorem completes_of_respond {correlationId : String} {bytes : Bytes}
    {envelope : RouteRequestEnvelope} {useCase : RouteModelUseCase} {r : Except PyException Response}
    (bound : Returns (bindCorrelationId scope) [] correlationId)
    (declared : declaredBodySizeError scope.headers app.maxRequestBodyBytes = none)
    (patient : scope.patience ≠ 0) (fits : bytes.length ≤ app.maxRequestBodyBytes)
    (parsed : BodyParser.parse scope.headers bytes = .admitted envelope)
    (h : Completes (respond app (route app scope useCase envelope correlationId)).run es r) :
    Completes (postRoute app scope) (⟨.allow .perIp ("ip:" ++ clientHost scope), true⟩ ::
      ⟨.receive, .request bytes false⟩ :: ⟨.activeUseCase, useCase⟩ :: es) (ending r) := by
  have hframework : Completes (framework app scope correlationId (some bytes)).run
      (⟨.activeUseCase, useCase⟩ :: es) r := by
    simp only [framework, parsed]
    exact .await h
  have hadmitted : Returns (admitBody app.maxRequestBodyBytes scope.patience [])
      [⟨.receive, AsgiMessage.request bytes false⟩] (.complete bytes) := by
    obtain ⟨patience, hpatience⟩ := Nat.exists_eq_succ_of_ne_zero patient
    rw [hpatience]
    refine returns_bind.mpr ⟨_, [], _, rfl, returns_ask.mpr rfl, ?_⟩
    simp only [List.length_nil, Nat.sub_zero, if_neg (Nat.not_lt.mpr fits), Bool.false_eq_true,
      if_false, List.nil_append]
    exact (returns_pure _ _).mpr ⟨rfl, rfl⟩
  have hserve : Completes (serve app scope).run
      (⟨.allow .perIp ("ip:" ++ clientHost scope), true⟩ :: ⟨.receive, .request bytes false⟩ ::
        ⟨.activeUseCase, useCase⟩ :: es) r := by
    refine completes_run_bind.mpr (.inr ⟨[], _, _, rfl, bound, ?_⟩)
    refine .await ?_
    simp only [declared]
    exact completes_run_bind.mpr (.inr ⟨_, _, _, rfl, hadmitted, hframework⟩)
  exact completes_bind_iff.mpr ⟨_, [], r, (List.append_nil _).symm, hserve, .done _⟩

/-- Where a call is made: in the middleware, at the end of the body, in the handler, or in
the handler of its exception. -/
theorem issues_postRoute {c : Call} (h : Issues (postRoute app scope) es c) :
    (Outer c ∧ ∀ e ∈ es, Outer e.1) ∨ c = .activeUseCase ∨ (c = .utcNow ∨ c = .uuid4) ∨
      ∃ before handled useCase envelope correlationId, es = before ++ handled ∧
        Reaches scope before useCase envelope correlationId ∧
        Issues (route app scope useCase envelope correlationId).run handled c := by
  rcases issues_bind_iff.mp h with hserve | ⟨_, _, _, -, -, hdone⟩
  swap
  · exact absurd hdone (not_issues_done _ _ _)
  rcases issues_bind.mp hserve with hbind | ⟨bound, rest, correlationId, rfl, hbound, hrest⟩
  · exact .inr (.inr (.inl (.inr (issues_bindCorrelationId hbind))))
  rcases issues_bodySizeAndIpRateLimit hrest with ⟨houter, hearlier⟩ |
    ⟨reads, after, body, rfl, hreads, hbody, hframework⟩
  · refine .inl ⟨houter, fun e he => ?_⟩
    rcases List.mem_append.mp he with he | he
    · rw [Completes.each_call hbound (· = .uuid4) (fun _ _ h => issues_bindCorrelationId h) e he]
      exact .uuid4
    · exact hearlier e he
  rcases issues_framework hframework with rfl |
    ⟨bytes, envelope, useCase, handled, hbytes, hparsed, rfl, hrespond⟩
  · exact .inr (.inl rfl)
  have hreaches := reaches_of_parts useCase hbound hreads hbody hbytes hparsed
  rcases issues_recover.mp hrespond with hhandler | ⟨_, _, e, -, -, hanswering⟩
  · rcases issues_bind.mp hhandler with hhandler | ⟨_, _, _, -, -, hpure⟩
    · refine .inr (.inr (.inr ⟨_, handled, useCase, envelope, correlationId, ?_, hreaches, hhandler⟩))
      simp
    · exact absurd hpure (not_issues_pure _ _)
  · exact .inr (.inr (.inl (issues_handleException hanswering)))

theorem makes_of_issues {c : Call} (h : Issues (postRoute app scope) es c) :
    Makes app scope es c := by
  rcases issues_postRoute h with ⟨houter, -⟩ | rfl | hown |
    ⟨before, handled, useCase, envelope, correlationId, rfl, hreaches, hissued⟩
  · exact .inFront (.outer houter)
  · exact .inFront .activeUseCase
  · exact .answering hown
  · exact .inHandler hreaches hissued

end Service

end PolicyModelRouter.RouteRuns
