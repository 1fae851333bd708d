import PolicyModelRouter.AuthorizedDecisions
import PolicyModelRouter.RoutingPolicyLoader
import PolicyModelRouter.RoutingRuns

/-!
# A loaded policy can be served

What validation guarantees about a policy, and why it is enough for the use case and for
the responses: the mapped group is always found, and no text of an outcome is empty.
-/

namespace PolicyModelRouter.ServedPolicies
open AuthorizationContract AwaitingPrograms DecimalArithmetic DigitStrings EliminatoryConstraints
open GovernedVocabularies ModelRouting OrderedChecks PythonText RouterCalls RoutingPolicyLoader
open RoutingRuns RoutingSpecification UtcTimestamps WireContracts
open RoutingCatalog hiding RejectedCandidate

structure Servable (policy : RoutingPolicy) : Prop where
  integrity : policy.ReferentialIntegrity
  reachable : ∀ group profile, policy.modelGroups.lookup group = some profile →
    (∃ workload rule, policy.workloads.lookup workload = some rule ∧ rule.modelGroup = group) ∨
      profile.staged = true
  authorized : ∀ group profile, policy.modelGroups.lookup group = some profile →
    profile.authorizedDataClassifications.Nonempty ∧ profile.authorizedRiskLevels.Nonempty
  limits : ∀ group profile, policy.modelGroups.lookup group = some profile →
    0 < profile.maxContextTokens ∧ 0 < profile.typicalLatencyMs
  prices : ∀ group profile, policy.modelGroups.lookup group = some profile →
    (Decimal.ofInt 0).le profile.inputCostUsdPerMillionTokens = true ∧
      (Decimal.ofInt 0).le profile.outputCostUsdPerMillionTokens = true
  identified : policy.policyId ≠ "" ∧ policy.policyVersion ≠ "" ∧ policy.policyDigest ≠ ""

section Validation

variable {config : RoutingPolicyConfig} {policyDigest : String}

private theorem lookup_mapValues {α β γ : Type} [DecidableEq α] (f : β → γ) (m : AList fun _ : α => β)
    (a : α) : (mapValues f m).lookup a = (m.lookup a).map f :=
  List.dlookup_map₂ a

private theorem mem_referenced {group : ModelGroupId} : group ∈ config.referenced ↔
    ∃ workload rule, config.workloads.lookup workload = some rule ∧ rule.modelGroup = group := by
  simp only [RoutingPolicyConfig.referenced, List.mem_map]
  constructor
  · rintro ⟨⟨workload, rule⟩, hentry, rfl⟩
    exact ⟨workload, rule, AList.mem_lookup_iff.mpr hentry, rfl⟩
  · rintro ⟨workload, rule, hlookup, rfl⟩
    exact ⟨⟨workload, rule⟩, AList.mem_lookup_iff.mp hlookup, rfl⟩

theorem requireReferentialIntegrity_eq_ok : requireReferentialIntegrity config = .ok () ↔
    config.undefined = [] ∧ config.unreferenced = [] := by
  unfold requireReferentialIntegrity
  constructor
  · intro h
    obtain ⟨_, hundefined, hunreferenced⟩ := bind_eq_ok.mp h
    exact ⟨not_not.mp (raiseIf_eq_ok.mp hundefined), not_not.mp (raiseIf_eq_ok.mp hunreferenced)⟩
  · rintro ⟨hundefined, hunreferenced⟩
    exact bind_eq_ok.mpr ⟨(), raiseIf_eq_ok.mpr (not_not.mpr hundefined),
      raiseIf_eq_ok.mpr (not_not.mpr hunreferenced)⟩

/-- The built policy has the groups and the workloads of the document, and its identity. -/
structure Converts (config : RoutingPolicyConfig) (policy : RoutingPolicy) : Prop where
  modelGroups : ∀ group, policy.modelGroups.lookup group =
    (config.modelGroups.lookup group).map toModelGroupProfile
  workloads : ∀ workload, policy.workloads.lookup workload =
    (config.workloads.lookup workload).map toWorkloadRule
  policyId : policy.policyId = config.policyId
  policyVersion : policy.policyVersion = config.policyVersion

theorem converts_toDomain : Converts config (toDomain config policyDigest) :=
  ⟨fun _ => lookup_mapValues _ _ _, fun _ => lookup_mapValues _ _ _, rfl, rfl⟩

theorem lookup_modelGroups {group : ModelGroupId} {profile : ModelGroupProfile} :
    (toDomain config policyDigest).modelGroups.lookup group = some profile ↔
      ∃ declared, config.modelGroups.lookup group = some declared ∧
        toModelGroupProfile declared = profile := by
  rw [converts_toDomain.modelGroups, Option.map_eq_some_iff]

private theorem lookup_workloads {workload : WorkloadId} {rule : WorkloadRule} :
    (toDomain config policyDigest).workloads.lookup workload = some rule ↔
      ∃ declared, config.workloads.lookup workload = some declared ∧
        toWorkloadRule declared = rule := by
  rw [converts_toDomain.workloads, Option.map_eq_some_iff]

private theorem integrity_of_undefined (h : config.undefined = []) :
    (toDomain config policyDigest).ReferentialIntegrity := by
  intro workload rule hrule
  obtain ⟨declared, hdeclared, rfl⟩ := lookup_workloads.mp hrule
  have hmem : declared.modelGroup ∈ config.referenced :=
    mem_referenced.mpr ⟨workload, declared, hdeclared, rfl⟩
  have hdefined := List.filter_eq_nil_iff.mp h _ hmem
  simp only [decide_not, Bool.not_eq_true', decide_eq_false_iff_not, not_not] at hdefined
  apply AList.lookup_isSome.mp
  change ((toDomain config policyDigest).modelGroups.lookup declared.modelGroup).isSome
  rw [converts_toDomain.modelGroups, Option.isSome_map]
  exact AList.lookup_isSome.mpr hdefined

private theorem reachable_of_unreferenced (h : config.unreferenced = []) {group : ModelGroupId}
    {declared : ModelGroupProfileConfig}
    (hdeclared : config.modelGroups.lookup group = some declared) :
    group ∈ config.referenced ∨ declared.staged = true := by
  by_contra hunreachable
  rw [not_or, Bool.not_eq_true] at hunreachable
  have hentry : (⟨group, declared⟩ : Σ _ : ModelGroupId, ModelGroupProfileConfig) ∈
      config.modelGroups.entries := AList.mem_lookup_iff.mp hdeclared
  have hkept : group ∈ config.unreferenced :=
    List.mem_map.mpr ⟨_, List.mem_filter.mpr ⟨hentry, decide_eq_true hunreachable⟩, rfl⟩
  rw [h] at hkept
  cases hkept

private theorem servable_toDomain (valid : requireReferentialIntegrity config = .ok ())
    (digest : policyDigest ≠ "") : Servable (toDomain config policyDigest) := by
  obtain ⟨hundefined, hunreferenced⟩ := requireReferentialIntegrity_eq_ok.mp valid
  constructor
  · exact integrity_of_undefined hundefined
  · intro group profile h
    obtain ⟨declared, hdeclared, rfl⟩ := lookup_modelGroups.mp h
    refine (reachable_of_unreferenced hunreferenced hdeclared).imp_left fun hreferenced => ?_
    obtain ⟨workload, rule, hrule, rfl⟩ := mem_referenced.mp hreferenced
    exact ⟨workload, _, lookup_workloads.mpr ⟨rule, hrule, rfl⟩, rfl⟩
  · intro group profile h
    obtain ⟨declared, -, rfl⟩ := lookup_modelGroups.mp h
    exact ⟨(List.toFinset_nonempty_iff _).mpr declared.authorizedDataClassifications.property,
      (List.toFinset_nonempty_iff _).mpr declared.authorizedRiskLevels.property⟩
  · intro group profile h
    obtain ⟨declared, -, rfl⟩ := lookup_modelGroups.mp h
    exact ⟨declared.maxContextTokens.property, declared.typicalLatencyMs.property⟩
  · intro group profile h
    obtain ⟨declared, -, rfl⟩ := lookup_modelGroups.mp h
    exact ⟨declared.inputCostUsdPerMillionTokens.property,
      declared.outputCostUsdPerMillionTokens.property⟩
  · have nonEmpty : ∀ text : NonEmptyText, text.val ≠ "" := by
      rintro ⟨_, h⟩ rfl
      exact absurd h (by decide)
    exact ⟨nonEmpty config.policyId, nonEmpty config.policyVersion, digest⟩

private theorem integrity_of_modelValidate [PolicyLibraries] {document : PolicyLibraries.Document}
    (accepted : modelValidate document = .ok config) : requireReferentialIntegrity config = .ok () := by
  obtain ⟨_, -, hchecked⟩ := bind_eq_ok.mp accepted
  obtain ⟨_, hintegrity, heq⟩ := bind_eq_ok.mp hchecked
  cases heq
  exact mapError_eq_ok.mp hintegrity

private theorem policyDigest_ne_empty [Cryptography] (rawText : String) :
    RoutingPolicyLoader.policyDigest rawText ≠ "" := fun h =>
  absurd (String.append_eq_empty_iff.mp h).1 (by decide)

/-- Whatever the loader returns can be served. -/
theorem servable_of_loadRoutingPolicy [PolicyLibraries] [Cryptography] {file : PolicyFile}
    {policy : RoutingPolicy} (loaded : loadRoutingPolicy file = .ok policy) : Servable policy := by
  unfold loadRoutingPolicy at loaded
  obtain ⟨rawText, -, loaded⟩ := bind_eq_ok.mp loaded
  obtain ⟨rawData, -, loaded⟩ := bind_eq_ok.mp loaded
  obtain ⟨config, hconfig, heq⟩ := bind_eq_ok.mp loaded
  cases heq
  exact servable_toDomain (integrity_of_modelValidate (mapError_eq_ok.mp hconfig))
    (policyDigest_ne_empty rawText)

end Validation

theorem append_ne_empty_left {s t : String} (h : s ≠ "") : s ++ t ≠ "" := fun h' =>
  h (String.append_eq_empty_iff.mp h').1

theorem append_ne_empty_right {s t : String} (h : t ≠ "") : s ++ t ≠ "" := fun h' =>
  h (String.append_eq_empty_iff.mp h').2

private theorem intercalate_ne_empty {separator : String} {texts : List String} (given : texts ≠ [])
    (stated : ∀ text ∈ texts, text ≠ "") : String.intercalate separator texts ≠ "" := by
  cases texts with
  | nil => exact absurd rfl given
  | cons text rest =>
    cases rest with
    | nil => simpa using stated text
    | cons next rest =>
      rw [String.intercalate_cons_cons]
      exact append_ne_empty_left (append_ne_empty_left (stated text List.mem_cons_self))

private theorem value_ne_empty_of_identifier {s : String} (h : isPolicyIdentifier s = true) :
    s ≠ "" := by
  rintro rfl
  exact absurd (length_of_isPolicyIdentifier h).1 (by decide)

theorem val_ne_empty {low high : ℕ} (positive : 1 ≤ low)
    (text : { s : String // low ≤ s.length ∧ s.length ≤ high }) : text.val ≠ "" := by
  obtain ⟨s, hlow, -⟩ := text
  rintro rfl
  exact absurd (positive.trans hlow) (by decide)

private theorem value_ne_empty (classification : DataClassification) : classification.value ≠ "" := by
  cases classification <;> decide

private theorem riskLevel_value_ne_empty (riskLevel : RiskLevel) : riskLevel.value ≠ "" := by
  cases riskLevel <;> decide

structure Stated (failure : ConstraintFailure) : Prop where
  message : failure.message ≠ ""
  observedValue : failure.observedValue ≠ ""
  requiredValue : failure.requiredValue ≠ ""

section Failures

variable [UnicodeTables] {request : RouteRequest} {profile : ModelGroupProfile} {rule : WorkloadRule}

omit [UnicodeTables] in
/-- The authorized classifications in ascending order, and the same for risk levels. -/
theorem authorized_ne_empty {α : Type} [DecidableEq α] {all : List α} {value : α → String}
    (complete : ∀ a, a ∈ all) (stated : ∀ a, value a ≠ "") {authorized : Finset α}
    (given : authorized.Nonempty) :
    String.intercalate ", " ((all.filter (· ∈ authorized)).map value) ≠ "" := by
  obtain ⟨a, ha⟩ := given
  have hmem : value a ∈ (all.filter (· ∈ authorized)).map value :=
    List.mem_map_of_mem (List.mem_filter.mpr ⟨complete a, decide_eq_true ha⟩)
  apply intercalate_ne_empty (List.ne_nil_of_mem hmem)
  intro text htext
  obtain ⟨b, -, rfl⟩ := List.mem_map.mp htext
  exact stated b

private theorem stated_of_constraint (agent : request.agentName ≠ "")
    (classifications : profile.authorizedDataClassifications.Nonempty)
    (riskLevels : profile.authorizedRiskLevels.Nonempty) {constraint : Constraint}
    (listed : constraint ∈ constraints) {failure : ConstraintFailure}
    (h : constraint request profile rule = .ok (some failure)) : Stated failure := by
  simp only [constraints, List.mem_cons, List.not_mem_nil, or_false] at listed
  rcases listed with rfl | rfl | rfl | rfl | rfl | rfl | rfl | rfl | rfl
  · rw [← eq_of_require h]
    exact ⟨append_ne_empty_left (by decide), value_ne_empty _,
      authorized_ne_empty (by rintro ⟨⟩ <;> decide) value_ne_empty classifications⟩
  · rw [← eq_of_require h]
    exact ⟨append_ne_empty_left (by decide), riskLevel_value_ne_empty _,
      authorized_ne_empty (by rintro ⟨⟩ <;> decide) riskLevel_value_ne_empty riskLevels⟩
  · rw [← eq_of_require h]
    exact ⟨by decide, by decide, by decide⟩
  · rw [← eq_of_require h]
    exact ⟨by decide, by decide, by decide⟩
  · have hrecord := eq_of_written (eq_of_written (eq_of_written (eq_of_written (eq_of_requireWritten h))))
    cases hrecord
    exact ⟨append_ne_empty_right (by decide), decimalText_ne_empty _, append_ne_empty_left (by decide)⟩
  · unfold checkMaxCost at h
    obtain ⟨cost, -, hrequire⟩ := bind_eq_ok.mp h
    rw [← eq_of_require hrequire]
    exact ⟨append_ne_empty_right (by decide), append_ne_empty_right (by decide),
      append_ne_empty_right (by decide)⟩
  · have hrecord := eq_of_written (eq_of_written (eq_of_requireWritten h))
    cases hrecord
    exact ⟨append_ne_empty_right (by decide), append_ne_empty_right (by decide),
      append_ne_empty_right (by decide)⟩
  · rw [← eq_of_require h]
    exact ⟨by decide, by decide, by decide⟩
  · rw [← eq_of_require h]
    have hrequired : "an agent in this group's allowlist" ≠ "" := by decide
    exact ⟨append_ne_empty_right (by decide), agent, hrequired⟩

end Failures

theorem exists_nonEmpty {s : String} (h : s ≠ "") : ∃ text, nonEmpty s = .ok text := by
  have hlength : 1 ≤ s.length := by
    rw [Nat.one_le_iff_ne_zero]
    exact fun hzero => h (String.length_eq_zero_iff.mp hzero)
  exact ⟨⟨s, hlength⟩, dif_pos hlength⟩

structure StatedCandidate (candidate : RoutingCatalog.RejectedCandidate) : Prop where
  reason : candidate.reason ≠ ""
  observedValue : candidate.observedValue ≠ ""
  requiredValue : candidate.requiredValue ≠ ""

private theorem exists_fromDomainCandidates {candidates : List RoutingCatalog.RejectedCandidate}
    (stated : ∀ candidate ∈ candidates, StatedCandidate candidate) :
    ∃ wire, fromDomainCandidates candidates = .ok wire := by
  induction candidates with
  | nil => exact ⟨[], rfl⟩
  | cons candidate rest ih =>
    obtain ⟨hhead, hrest⟩ := List.forall_mem_cons.mp stated
    obtain ⟨reason, hreason⟩ := exists_nonEmpty hhead.reason
    obtain ⟨observed, hobserved⟩ := exists_nonEmpty hhead.observedValue
    obtain ⟨required, hrequired⟩ := exists_nonEmpty hhead.requiredValue
    obtain ⟨wire, hwire⟩ := ih hrest
    rw [fromDomainCandidates, fromDomainCandidate, hreason, hobserved, hrequired, hwire]
    exact ⟨_, rfl⟩

structure StatedDecision (decision : RouteDecision) : Prop where
  schemaVersion : decision.schemaVersion = "1.0"
  routingDecisionId : decision.routingDecisionId ≠ ""
  workflowId : decision.workflowId ≠ ""
  taskId : decision.taskId ≠ ""
  reason : decision.reason ≠ ""
  rejectedCandidates : ∀ candidate ∈ decision.rejectedCandidates, StatedCandidate candidate
  policyId : decision.policyId ≠ ""
  policyVersion : decision.policyVersion ≠ ""
  policyDigest : decision.policyDigest ≠ ""
  serviceVersion : decision.serviceVersion ≠ ""
  environment : decision.environment ≠ ""

private theorem exists_fromDomainDecision {decision : RouteDecision} (h : StatedDecision decision) :
    ∃ wire, fromDomainDecision decision = .ok wire := by
  obtain ⟨_, h₁⟩ := exists_nonEmpty h.routingDecisionId
  obtain ⟨_, h₂⟩ := exists_nonEmpty h.workflowId
  obtain ⟨_, h₃⟩ := exists_nonEmpty h.taskId
  obtain ⟨_, h₄⟩ := exists_nonEmpty h.reason
  obtain ⟨_, h₅⟩ := exists_fromDomainCandidates h.rejectedCandidates
  obtain ⟨_, h₆⟩ := exists_nonEmpty h.policyId
  obtain ⟨_, h₇⟩ := exists_nonEmpty h.policyVersion
  obtain ⟨_, h₈⟩ := exists_nonEmpty h.policyDigest
  obtain ⟨_, h₉⟩ := exists_nonEmpty h.serviceVersion
  obtain ⟨_, h₁₀⟩ := exists_nonEmpty h.environment
  rw [fromDomainDecision, schemaVersion, if_pos h.schemaVersion, h₁, h₂, h₃, h₄, h₅, h₆, h₇, h₈, h₉,
    h₁₀]
  exact ⟨_, rfl⟩

structure StatedRejection (decision : RejectedDecision) : Prop where
  schemaVersion : decision.schemaVersion = "1.0"
  routingDecisionId : decision.routingDecisionId ≠ ""
  workflowId : decision.workflowId ≠ ""
  taskId : decision.taskId ≠ ""
  reason : decision.reason ≠ ""
  observedValue : decision.observedValue ≠ ""
  requiredValue : decision.requiredValue ≠ ""
  policyId : decision.policyId ≠ ""
  policyVersion : decision.policyVersion ≠ ""
  policyDigest : decision.policyDigest ≠ ""
  serviceVersion : decision.serviceVersion ≠ ""
  environment : decision.environment ≠ ""

private theorem exists_fromDomainRejection {decision : RejectedDecision}
    (h : StatedRejection decision) :
    ∃ wire, fromDomainRejection decision = .ok wire := by
  obtain ⟨_, h₁⟩ := exists_nonEmpty h.routingDecisionId
  obtain ⟨_, h₂⟩ := exists_nonEmpty h.workflowId
  obtain ⟨_, h₃⟩ := exists_nonEmpty h.taskId
  obtain ⟨_, h₄⟩ := exists_nonEmpty h.reason
  obtain ⟨_, h₅⟩ := exists_nonEmpty h.observedValue
  obtain ⟨_, h₆⟩ := exists_nonEmpty h.requiredValue
  obtain ⟨_, h₇⟩ := exists_nonEmpty h.policyId
  obtain ⟨_, h₈⟩ := exists_nonEmpty h.policyVersion
  obtain ⟨_, h₉⟩ := exists_nonEmpty h.policyDigest
  obtain ⟨_, h₁₀⟩ := exists_nonEmpty h.serviceVersion
  obtain ⟨_, h₁₁⟩ := exists_nonEmpty h.environment
  rw [fromDomainRejection, schemaVersion, if_pos h.schemaVersion, h₁, h₂, h₃, h₄, h₅, h₆, h₇, h₈, h₉,
    h₁₀, h₁₁]
  exact ⟨_, rfl⟩

/-- The policy can be served, and the deployment and the identifier source leave no text
empty. -/
structure Identified (useCase : RouteModelUseCase) (es : List (Event Reply)) : Prop where
  serviceVersion : useCase.serviceVersion ≠ ""
  environment : useCase.environment ≠ ""
  ids : ∀ id, (⟨.newId, id⟩ : Event Reply) ∈ es → id ≠ ""

/-- The mapped group was found, and what was decided can be published. -/
structure Publishable (result : Except PyException RouteDecision) : Prop where
  found : result ≠ .error .keyError
  decision : ∀ decision, result = .ok decision → ∃ wire, fromDomainDecision decision = .ok wire
  rejection : ∀ decision, result = .error (.noViableModelGroup decision) →
    ∃ wire, fromDomainRejection decision = .ok wire

section Outcomes

variable [UnicodeTables] {useCase : RouteModelUseCase} {request : ModelRouteRequest}
variable {includeRejected : Bool} {answer : Availability} {rule : WorkloadRule}
variable {listed : List (Σ _ : ModelGroupId, ModelGroupProfile)} {reasons : Reasons}
variable {selected : ModelGroupId} {es : List (Event Reply)}

theorem stated_of_evaluates (servable : Servable useCase.policy)
    (h : Evaluates useCase (toDomainRequest request) includeRejected answer rule listed (.ok reasons))
    {group : ModelGroupId} {failure : ConstraintFailure}
    (failed : reasons.lookup group = some failure) : Stated failure := by
  rw [lookup_rejectionReasons h.evaluated h.nodupKeys, AList.lookup_empty, Option.or_none,
    Option.bind_eq_some_iff] at failed
  obtain ⟨profile, hprofile, hfailure⟩ := failed
  have hevaluated : evaluate (toDomainRequest request) (effectiveProfile answer group profile) rule
      constraints = .ok (some failure) := toOption_eq_some.mp (Option.join_eq_some_iff.mp hfailure)
  obtain ⟨before, constraint, after, hsplit, -, hconstraint⟩ := evaluate_eq_some_iff.mp hevaluated
  have hlisted : constraint ∈ constraints := by
    rw [hsplit]
    simp
  obtain ⟨hclassifications, hriskLevels⟩ := servable.authorized group profile (h.declared hprofile)
  exact @stated_of_constraint _ (toDomainRequest request) (effectiveProfile answer group profile) rule
    (val_ne_empty le_rfl request.agentName) hclassifications hriskLevels _ hlisted _ hconstraint

private theorem statedCandidate_of_reason {group : ModelGroupId} {reason : Option ConstraintFailure}
    (stated : ∀ failure, reason = some failure → Stated failure) :
    StatedCandidate (toRejectedCandidate (toDomainRequest request) selected group reason) := by
  cases reason with
  | some failure =>
    obtain ⟨hmessage, hobserved, hrequired⟩ := stated failure rfl
    exact ⟨hmessage, hobserved, hrequired⟩
  | none =>
    exact ⟨append_ne_empty_right (by decide), value_ne_empty_of_identifier request.workload.identifier,
      value_ne_empty_of_identifier selected.identifier⟩

theorem publishable_of_routed (servable : Servable useCase.policy) (identified : Identified useCase es)
    {result : Except PyException RouteDecision}
    (h : Routed useCase (toDomainRequest request) includeRejected es result) : Publishable result := by
  obtain ⟨hid, hversion, hdigest⟩ := servable.identified
  obtain ⟨hservice, henvironment, hids⟩ := identified
  have hworkflow := val_ne_empty le_rfl request.workflowId
  have htask := val_ne_empty le_rfl request.taskId
  cases h with
  | unmapped missing => exact ⟨by simp, by simp, by simp⟩
  | @undeclared rule mapped missing fast =>
    have hdeclared := AList.lookup_isSome.mpr (servable.integrity _ rule mapped)
    rw [missing] at hdeclared
    cases hdeclared
  | @raised _ _ _ exception evaluates => cases exception <;> exact ⟨by simp, by simp, by simp⟩
  | @rejected answer rule listed reasons failure id now evaluates failed =>
    refine ⟨by simp, by simp, ?_⟩
    rintro decision ⟨⟩
    have hstated := stated_of_evaluates servable evaluates failed
    exact exists_fromDomainRejection ⟨rfl, hids id (by simp), hworkflow, htask, hstated.message,
      hstated.observedValue, hstated.requiredValue, hid, hversion, hdigest, hservice, henvironment⟩
  | @selected answer rule listed reasons id now evaluates passed =>
    refine ⟨by simp, ?_, by simp⟩
    rintro decision ⟨⟩
    have hcandidates : ∀ candidate ∈ (if includeRejected then
        rejectedCandidates useCase.policy (toDomainRequest request) rule.modelGroup (reasons.lookup ·)
      else []), StatedCandidate candidate := by
      cases includeRejected with
      | false => simp
      | true =>
        intro candidate hcandidate
        obtain ⟨group, -, rfl⟩ := List.mem_map.mp hcandidate
        exact statedCandidate_of_reason fun failure hfailure =>
          stated_of_evaluates servable evaluates hfailure
    exact exists_fromDomainDecision ⟨rfl, hids id (by simp), hworkflow, htask,
      append_ne_empty_right (by decide), hcandidates, hid, hversion, hdigest, hservice, henvironment⟩

end Outcomes

/-- Whatever validation accepts is built as it stands and can be served, in either explanation
mode. -/
theorem accepted_policy_served [PolicyLibraries] [Cryptography] [UnicodeTables]
    {document : PolicyLibraries.Document} {config : RoutingPolicyConfig}
    (accepted : modelValidate document = .ok config) (rawText : String) :
    Converts config (toDomain config (policyDigest rawText)) ∧
      Servable (toDomain config (policyDigest rawText)) ∧
      ∀ (useCase : RouteModelUseCase) (request : ModelRouteRequest) (includeRejected : Bool)
        (es : List (Event Reply)) (result : Except PyException RouteDecision),
        useCase.policy = toDomain config (policyDigest rawText) → Identified useCase es →
        Completes (route useCase (toDomainRequest request) includeRejected).run es result →
        Publishable result := by
  have hservable := servable_toDomain (integrity_of_modelValidate accepted)
    (policyDigest_ne_empty rawText)
  refine ⟨converts_toDomain, hservable, ?_⟩
  intro useCase request includeRejected es result loaded identified completes
  exact publishable_of_routed (loaded ▸ hservable) identified (routed_of_completes completes)

namespace Deployed

open AuthorizedDecisions.Deployed (request)
open RoutingPolicyLoader.Deployed (baseline config libraries policyOf policyText)
open RoutingSpecification.Deployed (group noon)
open VerificationSpecification.Deployed (genuine)

def useCase : RouteModelUseCase := ⟨@policyOf genuine baseline, "1.0.0", "test"⟩

def answers : (call : Call) → Reply call := ports useCase (fun _ => some true) "id-1" noon

def routed : Except PyException RouteDecision × List (Event Reply) × Unit :=
  (@route asciiTables useCase (toDomainRequest request) true).run.run (fun c s => (answers c, s)) ()

theorem identified : Identified useCase routed.2.1 := by
  refine ⟨by decide, by decide, ?_⟩
  intro id hid
  obtain rfl : id = "id-1" := fixed_of_mem_run answers _ () hid
  exact (by decide : ("id-1" : String) ≠ "")

/-- The file of the baseline is loaded, and a request is decided for its group. -/
theorem accepted_policy_served_deployed :
    Converts (config baseline) useCase.policy ∧ Servable useCase.policy ∧
      (config baseline).modelGroups.lookup group ≠ none ∧
      ∃ decision wire, routed.1 = .ok decision ∧ decision.selectedModelGroup = group ∧
        fromDomainDecision decision = .ok wire := by
  have haccepted : @modelValidate libraries (config baseline) = .ok (config baseline) := rfl
  obtain ⟨hconverts, hservable, hpublishable⟩ := @accepted_policy_served libraries genuine asciiTables
    _ _ haccepted (policyText baseline)
  have hpublishable := hpublishable useCase request true routed.2.1 routed.1 rfl identified
    (completes_run _ _ _)
  have hselected : routed.1.toOption.map RouteDecision.selectedModelGroup = some group := by
    decide +kernel
  obtain ⟨decision, hdecision, hgroup⟩ := Option.map_eq_some_iff.mp hselected
  have hrouted : routed.1 = .ok decision := toOption_eq_some.mp hdecision
  obtain ⟨wire, hwire⟩ := hpublishable.decision decision hrouted
  exact ⟨hconverts, hservable, by decide, decision, wire, hrouted, hgroup, hwire⟩

end Deployed

end PolicyModelRouter.ServedPolicies
