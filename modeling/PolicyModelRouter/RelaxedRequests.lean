import PolicyModelRouter.CostEstimates
import PolicyModelRouter.ServedPolicies

/-!
# Relaxed requests

A request that asks for less, and a provider that restores groups, keep every constraint
that held. Whether a group is selected may still change, since more candidates reach the cost
estimate, which can overflow, and the latency ceiling, whose failure can be too long to write.
-/

namespace PolicyModelRouter.RelaxedRequests
open AuthorizationContract AwaitingPrograms CostEstimates DecimalArithmetic EliminatoryConstraints
open GovernedVocabularies ModelRouting OrderedChecks PythonText RouterCalls RoutingPolicyLoader
open RoutingRuns ServedPolicies UtcTimestamps WireContracts
open RoutingCatalog hiding RejectedCandidate
open RoutingSpecification hiding Priced

section Evaluation

variable {request : RouteRequest} {profile : ModelGroupProfile} {rule : WorkloadRule}

variable [UnicodeTables]

def beforeCost : List Constraint := constraints.take 5

def beforeLatency : List Constraint := constraints.take 6

structure Estimable (profile : ModelGroupProfile) (request : RouteRequest) : Prop where
  input : InRange request.contextTokensEstimated profile.inputCostUsdPerMillionTokens
  output : InRange request.maxOutputTokensEstimated profile.outputCostUsdPerMillionTokens

structure Counts (request : RouteRequest) : Prop where
  input : 0 ≤ request.contextTokensEstimated
  output : 0 ≤ request.maxOutputTokensEstimated

/-- A candidate that comes to its estimate or to its latency ceiling gets past it. -/
structure Assessable (profile : ModelGroupProfile) (request : RouteRequest) (rule : WorkloadRule) :
    Prop where
  estimable : (∀ constraint ∈ beforeCost, constraint request profile rule = .ok none) →
    Estimable profile request
  latency : (∀ constraint ∈ beforeLatency, constraint request profile rule = .ok none) →
    request.maxLatencyMs < profile.typicalLatencyMs → Short profile.typicalLatencyMs

omit [UnicodeTables] in
theorem estimable_iff (priced : Priced profile) (counts : Counts request) :
    (∃ cost, profile.estimatedCost request.contextTokensEstimated
      request.maxOutputTokensEstimated = .ok cost) ↔ Estimable profile request := by
  constructor
  · rintro ⟨cost, hcost⟩
    have hestimate := isEstimate_of_estimatedCost priced counts.input counts.output hcost
    exact ⟨hestimate.input, hestimate.output⟩
  · intro h
    exact exists_estimatedCost priced counts.input counts.output h.input h.output

end Evaluation

/-- The second request asks for no more than the first, in the same workload. -/
structure Relaxes (request request' : ModelRouteRequest) : Prop where
  workload : request'.workload = request.workload
  riskLevel : request'.riskLevel = request.riskLevel
  dataClassification : request'.dataClassification = request.dataClassification
  agentName : request'.agentName = request.agentName
  contextTokens : request'.contextTokensEstimated.val ≤ request.contextTokensEstimated.val
  maxOutputTokens : request'.maxOutputTokensEstimated.val ≤ request.maxOutputTokensEstimated.val
  structuredOutput : request'.structuredOutputRequired = true → request.structuredOutputRequired = true
  maxLatency : request.maxLatencyMs.val ≤ request'.maxLatencyMs.val
  maxCost : request.maxCostUsd.val.le request'.maxCostUsd.val = true

/-- Every group available under the first answer is available under the second. -/
def Restores (answer answer' : Availability) : Prop :=
  ∀ group, answer group = some true → answer' group = some true

section Relaxation

variable [UnicodeTables] {request request' : ModelRouteRequest} {profile : ModelGroupProfile}
variable {rule : WorkloadRule} {answer answer' : Availability} {group : ModelGroupId}

omit [UnicodeTables] in
theorem counts_toDomainRequest (request : ModelRouteRequest) : Counts (toDomainRequest request) :=
  ⟨request.contextTokensEstimated.property.1, request.maxOutputTokensEstimated.property.1⟩

omit [UnicodeTables] in
theorem checkMaxCost_eq_none (priced : Priced profile) :
    checkMaxCost (toDomainRequest request) profile rule = .ok none ↔
      Estimable profile (toDomainRequest request) ∧
        cost profile request.contextTokensEstimated request.maxOutputTokensEstimated ≤
          request.maxCostUsd.val.mag := by
  have hcounts := counts_toDomainRequest request
  have hceiling : request.maxCostUsd.val.NonNegative := .inl request.maxCostUsd.property.1
  unfold checkMaxCost
  constructor
  · intro h
    obtain ⟨estimate, hcost, hrequire⟩ := bind_eq_ok.mp h
    have hestimate := mapError_eq_ok.mp hcost
    have his := isEstimate_of_estimatedCost priced hcounts.input hcounts.output hestimate
    have hle := (Decimal.le_iff his.nonNegative hceiling).mp (require_eq_none.mp hrequire)
    rw [his.mag] at hle
    exact ⟨⟨his.input, his.output⟩, hle⟩
  · rintro ⟨hestimable, hle⟩
    obtain ⟨estimate, hestimate⟩ := (estimable_iff priced hcounts).mpr hestimable
    have his := isEstimate_of_estimatedCost priced hcounts.input hcounts.output hestimate
    refine bind_eq_ok.mpr ⟨estimate, mapError_eq_ok.mpr hestimate, require_eq_none.mpr ?_⟩
    apply (Decimal.le_iff his.nonNegative hceiling).mpr
    rw [his.mag]
    exact hle

omit [UnicodeTables] in
private theorem estimable_relaxed (relaxes : Relaxes request request')
    (h : Estimable profile (toDomainRequest request)) : Estimable profile (toDomainRequest request') :=
  ⟨inRange_mono relaxes.contextTokens h.input, inRange_mono relaxes.maxOutputTokens h.output⟩

omit [UnicodeTables] in
private theorem checkMaxCost_relaxed (priced : Priced profile) (relaxes : Relaxes request request')
    (h : checkMaxCost (toDomainRequest request) profile rule = .ok none) :
    checkMaxCost (toDomainRequest request') profile rule = .ok none := by
  rw [checkMaxCost_eq_none priced] at h ⊢
  obtain ⟨hestimable, hle⟩ := h
  refine ⟨estimable_relaxed relaxes hestimable, ?_⟩
  have hceiling := (Decimal.le_iff (.inl request.maxCostUsd.property.1)
    (.inl request'.maxCostUsd.property.1)).mp relaxes.maxCost
  calc cost profile request'.contextTokensEstimated request'.maxOutputTokensEstimated
      ≤ cost profile request.contextTokensEstimated request.maxOutputTokensEstimated :=
        cost_mono (counts_toDomainRequest request').input (counts_toDomainRequest request').output
          relaxes.contextTokens relaxes.maxOutputTokens
    _ ≤ request.maxCostUsd.val.mag := hle
    _ ≤ request'.maxCostUsd.val.mag := hceiling

/-- Every constraint that held still holds. -/
theorem passes_relaxed (priced : Priced profile) (relaxes : Relaxes request request')
    (restores : Restores answer answer')
    (passes : ∀ constraint ∈ constraints,
      constraint (toDomainRequest request) (effectiveProfile answer group profile) rule = .ok none) :
    ∀ constraint ∈ constraints,
      constraint (toDomainRequest request') (effectiveProfile answer' group profile) rule = .ok none := by
  simp only [constraints, List.forall_mem_cons, List.not_mem_nil, false_imp_iff, implies_true,
    and_true] at passes ⊢
  obtain ⟨hclassification, hrisk, hstructured, htools, hwindow, hcost, hlatency, havailable, hagent⟩ :=
    passes
  refine ⟨?_, ?_, ?_, htools, ?_, ?_, ?_, ?_, ?_⟩
  · have h : request'.dataClassification ∈ profile.authorizedDataClassifications := by
      rw [relaxes.dataClassification]
      exact of_decide_eq_true (require_eq_none.mp hclassification)
    exact require_eq_none.mpr (decide_eq_true h)
  · have h : request'.riskLevel ∈ profile.authorizedRiskLevels := by
      rw [relaxes.riskLevel]
      exact of_decide_eq_true (require_eq_none.mp hrisk)
    exact require_eq_none.mpr (decide_eq_true h)
  · have h : (!request.structuredOutputRequired || profile.supportsStructuredOutput) = true :=
      require_eq_none.mp hstructured
    apply require_eq_none.mpr
    change (!request'.structuredOutputRequired || profile.supportsStructuredOutput) = true
    cases hrequired : request'.structuredOutputRequired with
    | false => rfl
    | true => simpa [relaxes.structuredOutput hrequired] using h
  · have h : request.contextTokensEstimated.val + request.maxOutputTokensEstimated.val ≤
        profile.maxContextTokens := of_decide_eq_true (requireWritten_eq_none.mp hwindow)
    refine requireWritten_eq_none.mpr (decide_eq_true ?_)
    exact (add_le_add relaxes.contextTokens relaxes.maxOutputTokens).trans h
  · exact checkMaxCost_relaxed ⟨priced.input, priced.output⟩ relaxes hcost
  · have h : profile.typicalLatencyMs ≤ request.maxLatencyMs.val :=
      of_decide_eq_true (requireWritten_eq_none.mp hlatency)
    exact requireWritten_eq_none.mpr (decide_eq_true (h.trans relaxes.maxLatency))
  · have h : (answer group).getD false = true := require_eq_none.mp havailable
    have hfirst : answer group = some true := by
      cases hgroup : answer group with
      | none => simp [hgroup] at h
      | some reported => simpa [hgroup] using h
    apply require_eq_none.mpr
    change (answer' group).getD false = true
    rw [restores group hfirst, Option.getD_some]
  · have h : profile.allowedAgents = ∅ ∨ request'.agentName.val ∈ profile.allowedAgents := by
      rw [relaxes.agentName]
      exact of_decide_eq_true (require_eq_none.mp hagent)
    exact require_eq_none.mpr (decide_eq_true h)

end Relaxation

def Selects [UnicodeTables] (useCase : RouteModelUseCase) (request : ModelRouteRequest)
    (includeRejected : Bool) (answer : Availability) (id : String) (now : Datetime)
    (group : ModelGroupId) : Prop :=
  ∃ decision, outcome (ports useCase answer id now)
    (route useCase (toDomainRequest request) includeRejected) = .ok decision ∧
      decision.selectedModelGroup = group

/-- The mapped group passes every constraint, and with the explanation included every
declared group can be evaluated. -/
structure Chosen [UnicodeTables] (policy : RoutingPolicy) (request : RouteRequest)
    (includeRejected : Bool) (answer : Availability) (rule : WorkloadRule)
    (profile : ModelGroupProfile) : Prop where
  mapped : policy.workloads.lookup request.workload = some rule
  declared : policy.modelGroups.lookup rule.modelGroup = some profile
  passes : ∀ constraint ∈ constraints,
    constraint request (effectiveProfile answer rule.modelGroup profile) rule = .ok none
  evaluated : includeRejected = true → Evaluable policy request rule answer

def AllAssessable [UnicodeTables] (policy : RoutingPolicy) (request : RouteRequest) : Prop :=
  ∀ rule, policy.workloads.lookup request.workload = some rule →
    ∀ group profile, policy.modelGroups.lookup group = some profile → Assessable profile request rule

section Selection

variable [UnicodeTables] {useCase : RouteModelUseCase} {request : ModelRouteRequest}
variable {includeRejected : Bool} {answer : Availability} {id : String} {now : Datetime}
variable {group : ModelGroupId}

/-- The run with these answers ends without a first failure of the mapped group. -/
theorem evaluates_of_selects (h : Selects useCase request includeRejected answer id now group) :
    ∃ rule listed reasons, Evaluates useCase (toDomainRequest request) includeRejected answer rule
      listed (.ok reasons) ∧ reasons.lookup rule.modelGroup = none ∧ rule.modelGroup = group := by
  obtain ⟨decision, houtcome, hgroup⟩ := h
  obtain ⟨es, hrouted, hfixed⟩ := routed_outcome answer id now
  rw [houtcome] at hrouted
  cases hrouted with
  | @selected answer' rule listed reasons id' now' evaluates passed =>
    obtain rfl : answer' = answer := hfixed ⟨question listed, answer'⟩ List.mem_cons_self
    exact ⟨rule, listed, reasons, evaluates, passed, hgroup⟩

private theorem selects_of_evaluates {rule : WorkloadRule}
    {listed : List (Σ _ : ModelGroupId, ModelGroupProfile)} {reasons : Reasons}
    (evaluates : Evaluates useCase (toDomainRequest request) includeRejected answer rule listed
      (.ok reasons))
    (passed : reasons.lookup rule.modelGroup = none) :
    Selects useCase request includeRejected answer id now rule.modelGroup := by
  obtain ⟨hmapped, hconsidered, hevaluated⟩ := evaluates
  unfold Selects route
  simp only [hmapped, hconsidered, outcome_bind, outcome_compute, outcome_ask, Except.bind, ports,
    hevaluated, Except.mapError, passed, outcome_pure]
  exact ⟨_, rfl, rfl⟩

private theorem chosen_of_selects (integrity : useCase.policy.ReferentialIntegrity)
    (h : Selects useCase request includeRejected answer id now group) :
    ∃ rule profile, Chosen useCase.policy (toDomainRequest request) includeRejected answer rule
      profile ∧ rule.modelGroup = group := by
  obtain ⟨rule, listed, reasons, hevaluates, hpassed, hgroup⟩ := evaluates_of_selects h
  obtain ⟨profile, hdeclared⟩ := Option.isSome_iff_exists.mp
    (AList.lookup_isSome.mpr (integrity _ rule hevaluates.mapped))
  refine ⟨rule, profile, ⟨hevaluates.mapped, hdeclared, ?_, ?_⟩, hgroup⟩
  · exact passes_of_rejectionReasons hevaluates.evaluated hevaluates.nodupKeys
      (hevaluates.mapped_listed hdeclared) hpassed
  · intro hexplained candidate candidateProfile hcandidate
    rcases hevaluates.listed with ⟨-, rfl⟩ | ⟨hfast, -⟩
    · exact evaluated_of_rejectionReasons hevaluates.evaluated ⟨candidate, candidateProfile⟩
        (AList.mem_lookup_iff.mp hcandidate)
    · rw [hexplained] at hfast
      cases hfast

private theorem selects_of_chosen {rule : WorkloadRule} {profile : ModelGroupProfile}
    (h : Chosen useCase.policy (toDomainRequest request) includeRejected answer rule profile) :
    Selects useCase request includeRejected answer id now rule.modelGroup := by
  obtain ⟨hmapped, hdeclared, hpasses, hevaluated⟩ := h
  have hnone : evaluate (toDomainRequest request) (effectiveProfile answer rule.modelGroup profile) rule
      constraints = .ok none := evaluate_eq_none_iff.mpr hpasses
  obtain ⟨listed, hconsidered, hfound, hnodup, htotal⟩ : ∃ listed,
      candidates useCase.policy rule.modelGroup includeRejected = .ok listed ∧
      listed.dlookup rule.modelGroup = some profile ∧ listed.NodupKeys ∧
      ∀ entry ∈ listed, ∃ result, evaluate (toDomainRequest request)
        (effectiveProfile answer entry.1 entry.2) rule constraints = .ok result := by
    cases includeRejected with
    | true =>
      refine ⟨useCase.policy.modelGroups.entries, rfl, hdeclared, useCase.policy.modelGroups.nodupKeys, ?_⟩
      rintro ⟨candidate, candidateProfile⟩ hentry
      exact hevaluated rfl candidate candidateProfile (AList.mem_lookup_iff.mpr hentry)
    | false =>
      refine ⟨[⟨rule.modelGroup, profile⟩], by simp [candidates, hdeclared], ?_, ?_, ?_⟩
      · exact List.dlookup_cons_eq _ _ _
      · exact List.nodupKeys_singleton _
      · intro entry hentry
        obtain rfl := List.mem_singleton.mp hentry
        exact ⟨none, hnone⟩
  obtain ⟨reasons, hreasons⟩ := rejectionReasons_total htotal ∅
  apply selects_of_evaluates ⟨hmapped, hconsidered, hreasons⟩
  rw [lookup_rejectionReasons hreasons hnodup, hfound, AList.lookup_empty, Option.or_none,
    Option.bind_some, hnone]
  rfl

omit [UnicodeTables] in
private theorem priced_of_servable {policy : RoutingPolicy} (servable : Servable policy)
    {profile : ModelGroupProfile} (declared : policy.modelGroups.lookup group = some profile) :
    Priced profile := by
  obtain ⟨hinput, houtput⟩ := servable.prices group profile declared
  exact ⟨nonNegative_of_le_zero hinput, nonNegative_of_le_zero houtput⟩

/-- What a request of the wire contract can make a constraint write. -/
theorem writable_iff_latency {profile : ModelGroupProfile} {rule : WorkloadRule}
    (window : 0 < profile.maxContextTokens) :
    Writable (toDomainRequest request) profile rule ↔
      ((∀ constraint ∈ beforeLatency, constraint (toDomainRequest request) profile rule = .ok none) →
        request.maxLatencyMs.val < profile.typicalLatencyMs → Short profile.typicalLatencyMs) := by
  constructor
  · intro h hreached hlate
    exact (h.latency hreached hlate).1
  · intro h
    have hmany : Short 20000000 := by
      unfold Short
      decide +kernel
    obtain ⟨hinput, _⟩ : 0 ≤ (toDomainRequest request).contextTokensEstimated ∧
        (toDomainRequest request).contextTokensEstimated ≤ 10000000 :=
      request.contextTokensEstimated.property
    obtain ⟨houtput, _⟩ : 0 ≤ (toDomainRequest request).maxOutputTokensEstimated ∧
        (toDomainRequest request).maxOutputTokensEstimated ≤ 10000000 :=
      request.maxOutputTokensEstimated.property
    have hceiling : 0 < (toDomainRequest request).maxLatencyMs := request.maxLatencyMs.property
    refine ⟨fun _ hwindow => ?_, fun hreached hlate => ?_⟩
    · exact ⟨hmany.of_le (add_nonneg hinput houtput) (by omega), hmany.of_le hinput (by omega),
        hmany.of_le houtput (by omega), hmany.of_le window.le (by omega)⟩
    · have hshort := h hreached hlate
      exact ⟨hshort, hshort.of_le hceiling.le hlate.le⟩

/-- The availability of a group does not decide whether it is evaluated. -/
theorem evaluated_iff_assessable {policy : RoutingPolicy} (servable : Servable policy)
    {profile : ModelGroupProfile} {rule : WorkloadRule}
    (declared : policy.modelGroups.lookup group = some profile) :
    (∃ result, evaluate (toDomainRequest request) (effectiveProfile answer group profile) rule
      constraints = .ok result) ↔ Assessable profile (toDomainRequest request) rule := by
  have hpriced := priced_of_servable servable declared
  have hcost : ∀ result, (effectiveProfile answer group profile).estimatedCost
      (toDomainRequest request).contextTokensEstimated
      (toDomainRequest request).maxOutputTokensEstimated = result ↔ profile.estimatedCost
      (toDomainRequest request).contextTokensEstimated
      (toDomainRequest request).maxOutputTokensEstimated = result := fun _ => Iff.rfl
  rw [exists_evaluate_iff, writable_effectiveProfile,
    writable_iff_latency (servable.limits group profile declared).1]
  simp only [hcost, estimable_iff hpriced (counts_toDomainRequest request),
    take_effectiveProfile (by decide : 5 ≤ 6)]
  exact ⟨fun h => ⟨h.1, h.2⟩, fun h => ⟨h.estimable, h.latency⟩⟩

private theorem allAssessable_iff {policy : RoutingPolicy} (servable : Servable policy)
    {rule : WorkloadRule}
    (mapped : policy.workloads.lookup (toDomainRequest request).workload = some rule) :
    AllAssessable policy (toDomainRequest request) ↔
      Evaluable policy (toDomainRequest request) rule answer := by
  constructor
  · intro h group profile hdeclared
    exact (evaluated_iff_assessable servable hdeclared).mpr (h rule mapped group profile hdeclared)
  · intro h rule' hrule group profile hdeclared
    obtain rfl := Option.some.inj (mapped.symm.trans hrule)
    exact (evaluated_iff_assessable servable hdeclared).mp (h group profile hdeclared)

end Selection

section Law

variable [UnicodeTables] {useCase : RouteModelUseCase} {request request' : ModelRouteRequest}
variable {answer answer' : Availability} {includeRejected : Bool}

/-- A relaxed request is decided as before, as far as every candidate can be evaluated. -/
theorem chosen_relaxed (servable : Servable useCase.policy) (relaxes : Relaxes request request')
    (restores : Restores answer answer') {rule : WorkloadRule} {profile : ModelGroupProfile}
    (h : Chosen useCase.policy (toDomainRequest request) includeRejected answer rule profile)
    (evaluated : includeRejected = true → AllAssessable useCase.policy (toDomainRequest request')) :
    Chosen useCase.policy (toDomainRequest request') includeRejected answer' rule profile := by
  have hmapped : useCase.policy.workloads.lookup (toDomainRequest request').workload = some rule := by
    change useCase.policy.workloads.lookup request'.workload = some rule
    rw [relaxes.workload]
    exact h.mapped
  refine ⟨hmapped, h.declared, ?_, fun hexplained => ?_⟩
  · exact passes_relaxed (priced_of_servable servable h.declared) relaxes restores h.passes
  · exact (allAssessable_iff servable hmapped).mp (evaluated hexplained)

/-- What was selected is selected again exactly when the explanation does not stop at a
group. -/
theorem relaxed_selection_iff [PolicyLibraries] [Cryptography] {file : PolicyFile}
    (loaded : loadRoutingPolicy file = .ok useCase.policy) (relaxes : Relaxes request request')
    (restores : Restores answer answer') {id id' : String} {now now' : Datetime}
    {group : ModelGroupId} (selected : Selects useCase request includeRejected answer id now group) :
    Selects useCase request' includeRejected answer' id' now' group ↔
      includeRejected = false ∨ AllAssessable useCase.policy (toDomainRequest request') := by
  have hservable := servable_of_loadRoutingPolicy loaded
  constructor
  · intro h
    obtain ⟨rule, profile, hchosen, -⟩ := chosen_of_selects hservable.integrity h
    cases includeRejected with
    | false => exact .inl rfl
    | true => exact .inr ((allAssessable_iff hservable hchosen.mapped).mpr (hchosen.evaluated rfl))
  · intro h
    obtain ⟨rule, profile, hchosen, rfl⟩ := chosen_of_selects hservable.integrity selected
    refine selects_of_chosen (chosen_relaxed hservable relaxes restores hchosen fun hexplained => ?_)
    rcases h with hfast | hassessable
    · rw [hexplained] at hfast
      cases hfast
    · exact hassessable

end Law

namespace Deployed

open AuthorizedDecisions.Deployed (request)
open RoutingPolicyLoader.Deployed (concat isUnixText_concat policyId profileConfig rules rules_given)
open RoutingSpecification.Deployed (group noon workload)
open VerificationSpecification.Deployed (genuine)

def frontier : ModelGroupId := ⟨"frontier", by decide⟩

private theorem zero_le_of_nonNegative {d : Decimal} (h : d.NonNegative) :
    (Decimal.ofInt 0).le d = true := by
  rw [Decimal.le_iff (nonNegative_ofInt le_rfl) h, mag_ofInt le_rfl, Int.cast_zero]
  exact d.mag_nonneg

/-- Any thousand tokens at this price overflow. -/
def highestPrice : Price := ⟨⟨false, 9, 999999⟩, zero_le_of_nonNegative (.inl rfl)⟩

def frontierConfig : ModelGroupProfileConfig :=
  { profileConfig with
    supportsStructuredOutput := false
    inputCostUsdPerMillionTokens := highestPrice
    staged := true }

def fileText : String :=
  concat ["schema_version: '1.0'\n", "policy_id: baseline\n", "policy_version: '1.2.0'\n",
    "model_groups:\n",
    "  fast-small:\n",
    "    authorized_data_classifications: [public, internal]\n",
    "    authorized_risk_levels: [low]\n",
    "    supports_structured_output: true\n",
    "    supports_tool_calling: true\n",
    "    max_context_tokens: 8192\n",
    "    typical_latency_ms: 500\n",
    "    input_cost_usd_per_million_tokens: '0.15'\n",
    "    output_cost_usd_per_million_tokens: '0.60'\n",
    "    available: true\n",
    "    allowed_agents: []\n",
    "  frontier:\n",
    "    authorized_data_classifications: [public, internal]\n",
    "    authorized_risk_levels: [low]\n",
    "    supports_structured_output: false\n",
    "    supports_tool_calling: true\n",
    "    max_context_tokens: 8192\n",
    "    typical_latency_ms: 500\n",
    "    input_cost_usd_per_million_tokens: '9E+999999'\n",
    "    output_cost_usd_per_million_tokens: '0.60'\n",
    "    available: true\n",
    "    allowed_agents: []\n",
    "    staged: true\n",
    "workloads:\n",
    "  rag.answer:\n",
    "    model_group: fast-small\n",
    "    requires_tool_calling: false\n"]

def config : RoutingPolicyConfig :=
  { policyId := policyId
    policyVersion := ⟨"1.2.0", by decide⟩
    modelGroups := ⟨[⟨group, profileConfig⟩, ⟨frontier, frontierConfig⟩],
      List.nodupKeys_cons.mpr ⟨by decide, List.nodupKeys_singleton _⟩⟩
    modelGroupsGiven := by simp
    workloads := rules
    workloadsGiven := rules_given }

/-- A parser that knows this file, and gives its mappings in the order they are constructed in. -/
@[reducible] def libraries : PolicyLibraries where
  Document := RoutingPolicyConfig
  Key := String
  decidableEqKey := inferInstance
  isWritten _ := true
  construct text :=
    if text = fileText then
      let keys := List.map fun k : String => KeyNode.key k
      let profileKeys := ["authorized_data_classifications", "authorized_risk_levels",
        "supports_structured_output", "supports_tool_calling", "max_context_tokens",
        "typical_latency_ms", "input_cost_usd_per_million_tokens",
        "output_cost_usd_per_million_tokens", "available", "allowed_agents"]
      .mapping (keys ["schema_version", "policy_id", "policy_version", "model_groups", "workloads"])
        (.mapping (keys ["fast-small", "frontier"])
          (.mapping (keys ["rag.answer"])
            (.mapping (keys profileKeys)
              (.mapping (keys (profileKeys ++ ["staged"]))
                (.mapping (keys ["model_group", "requires_tool_calling"])
                  (.finished config))))))
    else .yamlError
  validateFields := .ok

def useCase : RouteModelUseCase :=
  ⟨toDomain config (@policyDigest genuine fileText), "1.0.0", "test"⟩

theorem loaded : @loadRoutingPolicy libraries genuine (encoded fileText) = .ok useCase.policy := by
  have hunix : isUnixText fileText = true := by
    rw [fileText, isUnixText_concat]
    decide +kernel
  have hparsed : yamlLoad libraries.isWritten (libraries.construct fileText) = .ok config :=
    (congrArg (yamlLoad libraries.isWritten) (if_pos rfl)).trans rfl
  exact @loadRoutingPolicy_encoded libraries genuine _ _ _ hunix hparsed rfl

def demanding : ModelRouteRequest := { request with structuredOutputRequired := true }

def available : Availability := fun _ => some true

private theorem relaxes_demanding : Relaxes demanding request := by
  refine ⟨rfl, rfl, rfl, rfl, le_rfl, le_rfl, ?_, le_rfl, by decide⟩
  intro h
  cases h

def selection (request : ModelRouteRequest) : Option ModelGroupId :=
  (outcome (ports useCase available "id-1" noon)
    (@ModelRouting.route asciiTables useCase (toDomainRequest request) true)).toOption.map
      RouteDecision.selectedModelGroup

private theorem selects_of_selection {request : ModelRouteRequest}
    (h : selection request = some group) :
    @Selects asciiTables useCase request true available "id-1" noon group := by
  obtain ⟨decision, hdecision, hgroup⟩ := Option.map_eq_some_iff.mp h
  exact ⟨decision, toOption_eq_some.mp hdecision, hgroup⟩

/-- Without the demand for structured output, the staged group is no longer eliminated before
its estimate, which overflows. -/
theorem selection_lost : @loadRoutingPolicy libraries genuine (encoded fileText) = .ok useCase.policy ∧
    Relaxes demanding request ∧ Restores available available ∧
    @Selects asciiTables useCase demanding true available "id-1" noon group ∧
    ¬ @Selects asciiTables useCase request true available "id-1" noon group := by
  have hfirst : selection demanding = some group := by decide +kernel
  have hsecond : selection request = none := by decide +kernel
  refine ⟨loaded, relaxes_demanding, fun _ h => h, selects_of_selection hfirst, ?_⟩
  rintro ⟨decision, hdecision, -⟩
  rw [selection, hdecision] at hsecond
  cases hsecond

def modest : ModelRouteRequest := { demanding with contextTokensEstimated := ⟨100, by decide⟩ }

private theorem relaxes_modest : Relaxes demanding modest := by
  refine ⟨rfl, rfl, rfl, rfl, ?_, le_rfl, id, le_rfl, by decide⟩
  exact (by decide : (100 : ℤ) ≤ 1000)

theorem relaxed_selection_modest :
    @Selects asciiTables useCase modest true available "id-2" noon group ↔
      true = false ∨ @AllAssessable asciiTables useCase.policy (toDomainRequest modest) :=
  @relaxed_selection_iff asciiTables useCase demanding modest available available true libraries
    genuine (encoded fileText) loaded relaxes_modest (fun _ h => h) "id-1" "id-2" noon noon group
    (selects_of_selection (by decide +kernel))

end Deployed

end PolicyModelRouter.RelaxedRequests
