import PolicyModelRouter.HandlerRuns
import PolicyModelRouter.VerificationSpecification

/-!
# No unauthorized decision leaves the service

A decision that leaves the service passed the limit per agent, authentication, routing
under the active policy, and, where one is required, the verification and the scope of a
signed authorization.
-/

namespace PolicyModelRouter.AuthorizedDecisions
open AuthorizationContract AuthorizationVerifier AwaitingPrograms GovernedVocabularies HandlerRuns
open OrderedChecks PythonText RouteEndpoint RouteRuns RouterCalls TrustedKeys
open RuntimeControl UtcTimestamps VerificationTraces WireContracts
open RoutingCatalog hiding RejectedCandidate
open VerificationSpecification (BindsRequest mismatches_eq_nil_iff)

theorem authenticate_eq_ok [UnicodeTables] {xApiKey : Option String} {agentName : String}
    {apiKeys : AList fun _ : String => String} (h : authenticate xApiKey agentName apiKeys = .ok ()) :
    ∃ key, apiKeys.lookup agentName = some key ∧ xApiKey = some key := by
  unfold authenticate at h
  simp only at h
  split at h
  · rename_i configured presented hconfigured
    split_ifs at h
    have hsame := raiseIf_eq_ok.mp h
    simp only [ne_eq, not_not] at hsame
    exact ⟨configured, hconfigured, congrArg some hsame⟩
  · cases h

private theorem bindsRequest_of_verifyOffline [Cryptography] {verifier : RuntimeAuthorizationVerifier}
    {envelope : SignedRuntimeAuthorization} {request : RouteRequest} {now : ClockReading}
    (h : verifier.verifyOffline envelope request now = .ok ()) :
    ∃ micros, costMicros request.maxCostUsd = .ok micros ∧
      BindsRequest envelope.claims request micros := by
  unfold RuntimeAuthorizationVerifier.verifyOffline at h
  obtain ⟨_, -, h⟩ := bind_eq_ok.mp h
  obtain ⟨_, -, h⟩ := bind_eq_ok.mp h
  obtain ⟨_, -, h⟩ := bind_eq_ok.mp h
  obtain ⟨_, -, h⟩ := bind_eq_ok.mp h
  obtain ⟨_, hbinding, -⟩ := bind_eq_ok.mp h
  obtain ⟨micros, hmicros, hnone⟩ := bind_eq_ok.mp hbinding
  have hfailed := raiseIf_eq_ok.mp hnone
  simp only [ne_eq, not_not] at hfailed
  exact ⟨micros, hmicros, mismatches_eq_nil_iff.mp hfailed⟩

/-- The signed scope holds a model of the selected group, and one of them is signed for the
data classification. -/
structure WithinScope (claims : RuntimeAuthorizationClaims) (selected : ModelGroupId) : Prop where
  signedGroup : ∃ model ∈ claims.scope.models, model.routingGroup.val = selected.value
  signedDataClass : ∃ model ∈ claims.scope.models, model.routingGroup.val = selected.value ∧
    claims.scope.dataClassification ∈ model.allowedDataClasses

private theorem withinScope_of_requireSelectedModel {verified : VerifiedRuntimeAuthorization}
    {selected : ModelGroupId}
    (h : RuntimeAuthorizationVerifier.requireSelectedModel verified selected = .ok ()) :
    WithinScope verified.envelope.claims selected := by
  obtain ⟨_, -, h⟩ := bind_eq_ok.mp h
  have hexists := raiseIf_eq_ok.mp h
  rw [not_not] at hexists
  obtain ⟨model, hmatching, hallowed⟩ := hexists
  obtain ⟨hmem, hgroup⟩ := List.mem_filter.mp hmatching
  have hgroup := of_decide_eq_true hgroup
  exact ⟨⟨model, hmem, hgroup⟩, ⟨model, hmem, hgroup, hallowed⟩⟩

section Decisions

variable [UnicodeTables] [Cryptography] [JsonDecoder]

/-- The authorization of the body was verified for exactly this request, and signs the
selected group for the data classification of the request. -/
structure Signed (app : Application) (es : List (Event Reply)) (body : RouteRequestEnvelope)
    (selected : ModelGroupId) (verifier : RuntimeAuthorizationVerifier)
    (envelope : SignedRuntimeAuthorization) : Prop where
  configured : app.runtimeAuthorizationVerifier = some verifier
  present : body.authorization = some envelope
  accepted : ∃ (now : Datetime) (calls : List (Event Reply)) (verified : VerifiedRuntimeAuthorization),
    calls <:+: es ∧ ⟨.utcNow, now⟩ ∈ es ∧
    Returns (verifier.verify envelope (toDomainRequest body.request) (.utc now)) calls verified ∧
    verified.envelope = envelope
  withinScope : WithinScope envelope.claims selected
  classified : envelope.claims.scope.dataClassification = body.request.dataClassification

variable [BodyParser]

/-- Everything behind one published decision. -/
structure Justified (app : Application) (scope : RouteScope) (es : List (Event Reply))
    (body : RouteRequestEnvelope) (useCase : RouteModelUseCase) (selected : ModelGroupId) :
    Prop where
  parsed : BodyParser.parse scope.headers (received es) = .admitted body
  limited : ⟨agentLimit scope body, true⟩ ∈ es
  authenticated : ∃ key, app.apiKeys.lookup body.request.agentName.val = some key ∧
    scope.header "x-api-key" = some key
  resolved : ∀ other, ⟨.activeUseCase, other⟩ ∈ es ↔ other = useCase
  selects : ∃ rule profile answer,
    Selects useCase (toDomainRequest body.request) es selected rule profile answer
  signed : app.runtimeAuthorizationRequired = true →
    ∃ verifier envelope, Signed app es body selected verifier envelope
  unsigned : app.runtimeAuthorizationRequired = false → body.authorization = none

variable {app : Application} {scope : RouteScope} {body : RouteRequestEnvelope}

omit [UnicodeTables] [BodyParser] in
theorem signed_of_authorized {es es' : List (Event Reply)} {verified : Verification}
    {selected : ModelGroupId} (required : app.runtimeAuthorizationRequired = true)
    (h : Authorized app body.authorization (toDomainRequest body.request) es verified)
    (within : requireScope verified selected = .ok ()) (part : es <:+: es') :
    ∃ verifier envelope, Signed app es' body selected verifier envelope := by
  cases h with
  | notRequired disabled absent =>
    rw [required] at disabled
    cases disabled
  | @verified verifier envelope now calls verified hrequired returned =>
    obtain ⟨hoffline, -, hverified⟩ := returns_verify.mp returned
    have hsame : verified.envelope = envelope := by rw [hverified]
    obtain ⟨micros, -, hbinds⟩ := bindsRequest_of_verifyOffline hoffline
    refine ⟨verifier, envelope, hrequired.configured, hrequired.present,
      ⟨now, calls, verified, ?_, part.subset List.mem_cons_self, returned, hsame⟩, ?_,
      hbinds.dataClassification⟩
    · exact (List.suffix_cons _ _).isInfix.trans part
    · rw [← hsame]
      exact withinScope_of_requireSelectedModel within

/-- What the handler returns rests on all of this, when the policy it resolved has integrity. -/
theorem justified_of_returned {before handled : List (Event Reply)} {useCase : RouteModelUseCase}
    {correlationId : String} {decision : ModelRouteDecision}
    (reaches : Reaches scope before useCase body correlationId)
    (returned : Returns (RouteEndpoint.route app scope useCase body correlationId) handled decision)
    (integrity : useCase.policy.ReferentialIntegrity) :
    Justified app scope (before ++ handled) body useCase decision.selectedModelGroup := by
  have hinside : ∀ e ∈ handled, Inside e.1 :=
    Completes.each_call returned Inside fun _ _ h => inside_of_issues h
  obtain ⟨admitted, routed, verified, selected, rfl, hadmitted, hrouted, hwithin, hpublished⟩ :=
    returns_route returned
  obtain ⟨rest, rfl, hkey, hauthorized⟩ := returns_admitRequest hadmitted
  obtain ⟨rule, profile, answer, hselects⟩ := selects_of_route integrity hrouted
  rw [(repeats_of_fromDomainDecision hpublished).selectedModelGroup]
  refine ⟨?_, ?_, authenticate_eq_ok hkey, ?_, ⟨rule, profile, answer,
    hselects.mono fun e he => by simp [he]⟩, ?_, ?_⟩
  · rw [received_append, received_inside hinside, List.append_nil]
    exact reaches.parsed
  · simp
  · intro other
    rw [List.mem_append, reaches.resolved other, or_iff_left]
    exact fun h => (hinside _ h).not_front .activeUseCase
  · intro hrequired
    apply signed_of_authorized hrequired hauthorized hwithin
    exact ⟨before ++ [⟨agentLimit scope body, true⟩], routed, by simp⟩
  · intro hdisabled
    cases hauthorized with
    | notRequired disabled absent => exact absent
    | verified hrequired returned =>
      rw [hrequired.required] at hdisabled
      cases hdisabled

/-- A decision leaves the service only when everything it has to rest on is there. -/
theorem decision_justified {es : List (Event Reply)} {decision : ModelRouteDecision}
    (integrity : ∀ useCase, ⟨.activeUseCase, useCase⟩ ∈ es → useCase.policy.ReferentialIntegrity)
    (h : Completes (postRoute app scope) es (.decision decision)) :
    ∃ body useCase, Justified app scope es body useCase decision.selectedModelGroup := by
  obtain ⟨before, handled, useCase, body, correlationId, rfl, hreaches, hreturned⟩ :=
    returned_of_decision h
  have hresolved : ⟨.activeUseCase, useCase⟩ ∈ before := (hreaches.resolved useCase).mpr rfl
  refine ⟨body, useCase, justified_of_returned hreaches hreturned ?_⟩
  exact integrity useCase (List.mem_append_left _ hresolved)

end Decisions

namespace Deployed

open CanonicalJson Uuids
open RoutingSpecification (ports)
open RoutingSpecification.Deployed (noon useCase workload)
open VerificationSpecification.Deployed

def request : ModelRouteRequest :=
  { requestedAt := noon
    workflowId := ⟨"wf-1", by decide⟩
    taskId := ⟨"task-1", by decide⟩
    agentName := ⟨"analyst", by decide⟩
    workload := workload
    riskLevel := .low
    dataClassification := .internal
    contextTokensEstimated := claims.request.contextTokensEstimated
    maxOutputTokensEstimated := ⟨500, by decide⟩
    structuredOutputRequired := false
    maxLatencyMs := ⟨1000, by decide⟩
    maxCostUsd := ⟨⟨false, 1, -2⟩, by decide⟩
    includeRejectedCandidates := true }

def requestJson : Json :=
  .obj [("schema_version", .str "1.0"), ("requested_at", .str (isoformat noon)),
    ("workflow_id", .str "wf-1"), ("task_id", .str "task-1"), ("agent_name", .str "analyst"),
    ("workload", .str "rag.answer"), ("risk_level", .str "low"),
    ("data_classification", .str "internal"), ("context_tokens_estimated", .int 1000),
    ("max_output_tokens_estimated", .int 500), ("structured_output_required", .bool false),
    ("max_latency_ms", .int 1000), ("max_cost_usd", .str "0.01")]

def bodyJson : Json :=
  .obj [("request", requestJson),
    ("authorization", .obj [("protected", envelope.protected_.toJson),
      ("claims", envelope.claims.toJson), ("signature", .str envelope.signature)])]

def bodyBytes : Bytes := bodyJson.render.map fun c => c.toNat.toUInt8

def application : Application :=
  { apiKeys := AList.singleton "analyst" "analyst-key"
    maxRequestBodyBytes := bodyBytes.length
    runtimeAuthorizationRequired := true
    runtimeAuthorizationVerifier := some (verifier inMemory (some controlStore) 60 widest_skew)
    serviceVersion := ⟨"1.0.0", by decide⟩
    environment := ⟨"test", by decide⟩ }

@[reducible] def parser : BodyParser :=
  ⟨fun _ body => if body = bodyBytes then .admitted (.authorized ⟨request, envelope⟩)
    else .unparsable⟩

def route : RouteScope :=
  { headers := [(ascii "content-type", ascii "application/json"),
      (ascii "x-api-key", ascii "analyst-key"), (ascii "x-correlation-id", ascii "corr-1")]
    clientHost := some "10.0.0.1"
    patience := 1 }

def answer : (call : Call) → Reply call
  | .receive => .request bodyBytes false
  | .utcNow => afterNoon 1
  | .redisGet _ => .str snapshotText
  | call => ports useCase (fun _ => some true) "id-1" noon call

def handler : Async Call Reply (Except PyException (@Response genuine)) :=
  (@respond asciiTables genuine application (@RouteEndpoint.route asciiTables genuine decoder
    application route useCase (.authorized ⟨request, envelope⟩) "corr-1")).run

def handled : Except PyException (@Response genuine) × List (Event Reply) × Unit :=
  handler.run (fun call s => (answer call, s)) ()

def isDecision [Cryptography] : Except PyException Response → Bool
  | .ok (.decision _) => true
  | _ => false

theorem exists_decision [Cryptography] {result : Except PyException Response}
    (h : isDecision result = true) : ∃ decision, result = .ok (.decision decision) := by
  unfold isDecision at h
  split at h
  · exact ⟨_, rfl⟩
  · cases h

/-- The handler publishes a decision, and every call got the fixed answer. -/
theorem handler_decides : ∃ es decision,
    Completes handler es (.ok (@Response.decision genuine decision)) ∧ ∀ e ∈ es, e.2 = answer e.1 := by
  have hdecides : @isDecision genuine handled.1 = true := by decide +kernel
  have hcompletes : Completes handler handled.2.1 handled.1 := completes_of_run rfl
  obtain ⟨decision, hresult⟩ := @exists_decision genuine _ hdecides
  rw [hresult] at hcompletes
  exact ⟨_, decision, hcompletes, fun e he => fixed_of_mem_run answer handler () he⟩

def front : List (Event Reply) :=
  [⟨.allow .perIp "ip:10.0.0.1", true⟩, ⟨.receive, .request bodyBytes false⟩, ⟨.activeUseCase, useCase⟩]

theorem postRoute_completes {es : List (Event Reply)} {r : Except PyException (@Response genuine)}
    (h : Completes handler es r) :
    Completes (@postRoute asciiTables genuine decoder parser application route) (front ++ es)
      (@ending genuine r) := by
  refine @completes_of_respond asciiTables genuine decoder parser _ _ _ "corr-1" bodyBytes _ _ _ ?_
    ?_ (by decide) (le_refl _) (if_pos rfl) h
  · exact (returns_pure _ _).mpr ⟨rfl, rfl⟩
  · rfl

end Deployed

open VerificationSpecification.Deployed (genuine decoder) in
theorem decision_justified_deployed : ∃ es body useCase selected,
    @Justified asciiTables genuine decoder Deployed.parser Deployed.application Deployed.route es body
      useCase selected := by
  obtain ⟨es, decision, hhandler, hfixed⟩ := Deployed.handler_decides
  have hintegrity : ∀ useCase, ⟨.activeUseCase, useCase⟩ ∈ Deployed.front ++ es →
      useCase.policy.ReferentialIntegrity := by
    intro useCase h
    obtain rfl : useCase = RoutingSpecification.Deployed.useCase := by
      rcases List.mem_append.mp h with h | h
      · simp only [Deployed.front, List.mem_cons, List.not_mem_nil, or_false] at h
        rcases h with h | h | h
        · cases h
        · cases h
        · cases h
          rfl
      · exact hfixed _ h
    exact RoutingSpecification.Deployed.integrity
  obtain ⟨body, useCase, h⟩ := @decision_justified asciiTables genuine decoder Deployed.parser _ _ _ _
    hintegrity (Deployed.postRoute_completes hhandler)
  exact ⟨_, body, useCase, _, h⟩

end PolicyModelRouter.AuthorizedDecisions
