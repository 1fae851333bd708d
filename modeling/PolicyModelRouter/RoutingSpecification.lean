import PolicyModelRouter.ModelRouting

/-!
# Routing equals its specification

The specification names no loop and no map: a group fails when some constraint
rejects it, its first failure is the one with only satisfied constraints before it
in the list, and the outcome is read off the mapped group alone.
-/

namespace PolicyModelRouter.RoutingSpecification
open AwaitingPrograms DecimalArithmetic EliminatoryConstraints GovernedVocabularies PythonText
open ModelRouting OrderedChecks RouterCalls RoutingCatalog UtcTimestamps

section Specification

variable {request : RouteRequest} {profile : ModelGroupProfile} {rule : WorkloadRule}

theorem evaluate_eq_some_iff {cs : List Constraint} {failure : ConstraintFailure} :
    evaluate request profile rule cs = .ok (some failure) ↔
      ∃ before constraint after, cs = before ++ constraint :: after ∧
        (∀ earlier ∈ before, earlier request profile rule = .ok none) ∧
        constraint request profile rule = .ok (some failure) := by
  induction cs with
  | nil => simp [evaluate]
  | cons c cs ih =>
    rw [evaluate]
    constructor
    · intro h
      cases hc : c request profile rule with
      | error exception => simp [hc, bind, Except.bind] at h
      | ok result =>
        cases result with
        | some f =>
          simp only [hc, bind, Except.bind, Except.ok.injEq, Option.some.injEq] at h
          exact ⟨[], c, cs, rfl, by simp, by rw [hc, h]⟩
        | none =>
          simp only [hc, bind, Except.bind] at h
          obtain ⟨before, d, after, rfl, hbefore, hd⟩ := ih.mp h
          refine ⟨c :: before, d, after, rfl, ?_, hd⟩
          intro e he
          rcases List.mem_cons.mp he with rfl | he
          · exact hc
          · exact hbefore e he
    · rintro ⟨before, d, after, hsplit, hbefore, hd⟩
      cases before with
      | nil =>
        obtain ⟨rfl, rfl⟩ := List.cons.inj hsplit
        simp [hd, bind, Except.bind]
      | cons b before =>
        obtain ⟨rfl, rfl⟩ := List.cons.inj hsplit
        simp only [hbefore c List.mem_cons_self, bind, Except.bind]
        exact ih.mpr ⟨before, d, after, rfl, fun e he => hbefore e (List.mem_cons_of_mem _ he), hd⟩

theorem evaluate_eq_none_iff {cs : List Constraint} :
    evaluate request profile rule cs = .ok none ↔
      ∀ constraint ∈ cs, constraint request profile rule = .ok none := by
  induction cs with
  | nil => simp [evaluate]
  | cons c cs ih =>
    rw [evaluate, List.forall_mem_cons, ← ih]
    cases hc : c request profile rule with
    | error exception => simp [bind, Except.bind]
    | ok result => cases result <;> simp [bind, Except.bind]

/-- Evaluation goes on behind a constraint exactly when that one holds. -/
theorem exists_evaluate_cons {c : Constraint} {cs : List Constraint} :
    (∃ result, evaluate request profile rule (c :: cs) = .ok result) ↔
      (∃ result, c request profile rule = .ok result) ∧
        (c request profile rule = .ok none → ∃ result, evaluate request profile rule cs = .ok result) := by
  rw [evaluate]
  cases hc : c request profile rule with
  | error exception => simp [bind, Except.bind]
  | ok result => cases result <;> simp [bind, Except.bind]

/-- What evaluation raises is raised by a constraint behind constraints that hold. -/
theorem exists_of_evaluate_error {cs : List Constraint} {exception : ConstraintException}
    (h : evaluate request profile rule cs = .error exception) :
    ∃ constraint ∈ cs, constraint request profile rule = .error exception := by
  induction cs with
  | nil => cases h
  | cons c cs ih =>
    rw [evaluate] at h
    cases hc : c request profile rule with
    | error other =>
      simp only [hc, bind, Except.bind, Except.error.injEq] at h
      exact ⟨c, List.mem_cons_self, by rw [hc, h]⟩
    | ok result =>
      cases result with
      | some failure => simp [hc, bind, Except.bind] at h
      | none =>
        simp only [hc, bind, Except.bind] at h
        obtain ⟨constraint, hmem, herror⟩ := ih h
        exact ⟨constraint, List.mem_cons_of_mem _ hmem, herror⟩

variable [UnicodeTables]

def Fails (request : RouteRequest) (profile : ModelGroupProfile) (rule : WorkloadRule) : Prop :=
  ∃ constraint ∈ constraints, ∃ failure, constraint request profile rule = .ok (some failure)

/-- The failure of the first constraint, in their order, that rejects the candidate. -/
def FirstFailing (request : RouteRequest) (profile : ModelGroupProfile) (rule : WorkloadRule)
    (failure : ConstraintFailure) : Prop :=
  ∃ before constraint after, constraints = before ++ constraint :: after ∧
    (∀ earlier ∈ before, earlier request profile rule = .ok none) ∧
    constraint request profile rule = .ok (some failure)

/-- The integers that a failed constraint would have to write are short, where evaluation comes
to it: the token counts behind the first four constraints, the latencies behind the first six. -/
@[mk_iff] structure Writable (request : RouteRequest) (profile : ModelGroupProfile)
    (rule : WorkloadRule) : Prop where
  contextWindow : (∀ constraint ∈ constraints.take 4, constraint request profile rule = .ok none) →
    profile.maxContextTokens < request.contextTokensEstimated + request.maxOutputTokensEstimated →
    Short (request.contextTokensEstimated + request.maxOutputTokensEstimated) ∧
      Short request.contextTokensEstimated ∧ Short request.maxOutputTokensEstimated ∧
      Short profile.maxContextTokens
  latency : (∀ constraint ∈ constraints.take 6, constraint request profile rule = .ok none) →
    request.maxLatencyMs < profile.typicalLatencyMs →
    Short profile.typicalLatencyMs ∧ Short request.maxLatencyMs

omit [UnicodeTables] in
private theorem exists_checkContextWindow_iff :
    (∃ result, checkContextWindow request profile rule = .ok result) ↔
      (profile.maxContextTokens < request.contextTokensEstimated + request.maxOutputTokensEstimated →
        Short (request.contextTokensEstimated + request.maxOutputTokensEstimated) ∧
          Short request.contextTokensEstimated ∧ Short request.maxOutputTokensEstimated ∧
          Short profile.maxContextTokens) := by
  rw [checkContextWindow, exists_requireWritten_iff, decide_eq_false_iff_not, not_le]
  simp only [exists_bind_written_iff]
  exact imp_congr_right fun _ => by simp [pure, Except.pure]

omit [UnicodeTables] in
private theorem exists_checkMaxLatency_iff :
    (∃ result, checkMaxLatency request profile rule = .ok result) ↔
      (request.maxLatencyMs < profile.typicalLatencyMs →
        Short profile.typicalLatencyMs ∧ Short request.maxLatencyMs) := by
  rw [checkMaxLatency, exists_requireWritten_iff, decide_eq_false_iff_not, not_le]
  simp only [exists_bind_written_iff]
  exact imp_congr_right fun _ => by simp [pure, Except.pure]

omit [UnicodeTables] in
private theorem exists_checkMaxCost_iff :
    (∃ result, checkMaxCost request profile rule = .ok result) ↔
      ∃ cost, profile.estimatedCost request.contextTokensEstimated
        request.maxOutputTokensEstimated = .ok cost := by
  unfold checkMaxCost
  constructor
  · rintro ⟨result, h⟩
    obtain ⟨cost, hcost, -⟩ := bind_eq_ok.mp h
    exact ⟨cost, mapError_eq_ok.mp hcost⟩
  · rintro ⟨cost, hcost⟩
    exact ⟨_, bind_eq_ok.mpr ⟨cost, mapError_eq_ok.mpr hcost, rfl⟩⟩

/-- A candidate is evaluated unless it comes to an estimate without a value or to an integer that
cannot be written. -/
theorem exists_evaluate_iff :
    (∃ result, evaluate request profile rule constraints = .ok result) ↔
      ((∀ constraint ∈ constraints.take 5, constraint request profile rule = .ok none) →
        ∃ cost, profile.estimatedCost request.contextTokensEstimated
          request.maxOutputTokensEstimated = .ok cost) ∧ Writable request profile rule := by
  have hclassification : ∃ result, checkDataClassification request profile rule = .ok result := ⟨_, rfl⟩
  have hrisk : ∃ result, checkRiskLevel request profile rule = .ok result := ⟨_, rfl⟩
  have hstructured : ∃ result, checkStructuredOutput request profile rule = .ok result := ⟨_, rfl⟩
  have htools : ∃ result, checkToolCalling request profile rule = .ok result := ⟨_, rfl⟩
  have havailable : ∃ result, checkAvailability request profile rule = .ok result := ⟨_, rfl⟩
  have hagent : ∃ result, checkAgentAllowlist request profile rule = .ok result := ⟨_, rfl⟩
  have hnil : ∃ result, evaluate request profile rule [] = .ok result := ⟨none, rfl⟩
  rw [writable_iff, constraints]
  simp only [exists_evaluate_cons, hclassification, hrisk, hstructured, htools, havailable, hagent,
    hnil, exists_checkContextWindow_iff, exists_checkMaxCost_iff, exists_checkMaxLatency_iff,
    List.take_succ_cons, List.take_zero, List.forall_mem_cons, List.not_mem_nil, false_imp_iff,
    implies_true, and_true, true_and, and_imp]
  simp only [imp_and]
  exact and_left_comm

omit [UnicodeTables] in
theorem eq_of_written {failure : ConstraintFailure} {n : ℤ}
    {record : String → Except ConstraintException ConstraintFailure}
    (h : (written n >>= record) = .ok failure) : record (decimalText n) = .ok failure := by
  obtain ⟨text, hwritten, hrecord⟩ := bind_eq_ok.mp h
  obtain ⟨-, rfl⟩ := written_eq_ok.mp hwritten
  exact hrecord

/-- Where the estimate has a value, nothing but an integer to be written stops the evaluation. -/
theorem onlyErrors_evaluate {cost : Decimal}
    (priced : profile.estimatedCost request.contextTokensEstimated
      request.maxOutputTokensEstimated = .ok cost) :
    OnlyErrors (· = .valueError) (evaluate request profile rule constraints) := by
  intro exception h
  obtain ⟨constraint, hmem, herror⟩ := exists_of_evaluate_error h
  simp only [constraints, List.mem_cons, List.not_mem_nil, or_false] at hmem
  have hwritten : ∀ n, OnlyErrors (· = ConstraintException.valueError) (written n) := fun _ =>
    onlyErrors_written
  rcases hmem with rfl | rfl | rfl | rfl | rfl | rfl | rfl | rfl | rfl
  case inr.inr.inr.inr.inl =>
    refine onlyErrors_requireWritten (.bind (hwritten _) fun _ => ?_) exception herror
    exact .bind (hwritten _) fun _ => .bind (hwritten _) fun _ => .bind (hwritten _) fun _ => .ok _
  case inr.inr.inr.inr.inr.inl =>
    obtain ⟨result, hresult⟩ := (@exists_checkMaxCost_iff request profile rule).mpr ⟨cost, priced⟩
    cases hresult.symm.trans herror
  case inr.inr.inr.inr.inr.inr.inl =>
    refine onlyErrors_requireWritten (.bind (hwritten _) fun _ => ?_) exception herror
    exact .bind (hwritten _) fun _ => .ok _
  all_goals cases herror

/-- No constraint claims that a group merely lost to the mapping. -/
theorem code_ne_workloadMappedElsewhere {failure : ConstraintFailure}
    (h : FirstFailing request profile rule failure) : failure.code ≠ .workloadMappedElsewhere := by
  obtain ⟨before, constraint, after, hsplit, -, hfailure⟩ := h
  have hmem : constraint ∈ constraints := by
    rw [hsplit]
    simp
  simp only [constraints, List.mem_cons, List.not_mem_nil, or_false] at hmem
  rcases hmem with rfl | rfl | rfl | rfl | rfl | rfl | rfl | rfl | rfl
  case inr.inr.inr.inr.inl =>
    have hrecord := eq_of_written (eq_of_written (eq_of_written (eq_of_written
      (eq_of_requireWritten hfailure))))
    cases hrecord
    simp
  case inr.inr.inr.inr.inr.inl =>
    obtain ⟨cost, -, hrequire⟩ := bind_eq_ok.mp hfailure
    rw [← eq_of_require hrequire]
    simp
  case inr.inr.inr.inr.inr.inr.inl =>
    have hrecord := eq_of_written (eq_of_written (eq_of_requireWritten hfailure))
    cases hrecord
    simp
  all_goals
    rw [← eq_of_require hfailure]
    simp

theorem firstFailing_iff {failure : ConstraintFailure} :
    FirstFailing request profile rule failure ↔
      evaluate request profile rule constraints = .ok (some failure) :=
  evaluate_eq_some_iff.symm

/-- A group that is evaluated fails exactly when evaluation finds a failure. -/
theorem fails_iff {result : Option ConstraintFailure}
    (h : evaluate request profile rule constraints = .ok result) :
    Fails request profile rule ↔ result.isSome := by
  cases result with
  | some failure =>
    obtain ⟨before, constraint, after, hsplit, -, hfailure⟩ := evaluate_eq_some_iff.mp h
    have hmem : constraint ∈ constraints := by
      rw [hsplit]
      simp
    simpa using ⟨constraint, hmem, failure, hfailure⟩
  | none =>
    rw [evaluate_eq_none_iff] at h
    simp only [Option.isSome_none, Bool.false_eq_true, iff_false]
    rintro ⟨constraint, hmem, failure, hfailure⟩
    rw [h constraint hmem] at hfailure
    cases hfailure

def Priced (policy : RoutingPolicy) (request : RouteRequest) : Prop :=
  ∀ group profile, policy.modelGroups.lookup group = some profile → ∃ cost,
    profile.estimatedCost request.contextTokensEstimated request.maxOutputTokensEstimated = .ok cost

/-- No failure of a declared group holds an integer that cannot be written. -/
def Writes (policy : RoutingPolicy) (request : RouteRequest) : Prop :=
  ∀ rule, policy.workloads.lookup request.workload = some rule → ∀ group profile,
    policy.modelGroups.lookup group = some profile → Writable request profile rule

/-- Every declared group can be evaluated under a rule. -/
def Evaluable (policy : RoutingPolicy) (request : RouteRequest) (rule : WorkloadRule)
    (answer : Availability) : Prop :=
  ∀ group profile, policy.modelGroups.lookup group = some profile →
    ∃ result, evaluate request (effectiveProfile answer group profile) rule constraints = .ok result

/-- Up to the latency ceiling no constraint looks at the availability. -/
theorem take_effectiveProfile {answer : Availability} {group : ModelGroupId} {n : ℕ} (le : n ≤ 6) :
    (∀ constraint ∈ constraints.take n,
        constraint request (effectiveProfile answer group profile) rule = .ok none) ↔
      ∀ constraint ∈ constraints.take n, constraint request profile rule = .ok none := by
  refine forall₂_congr fun constraint h => ?_
  have hmem := List.take_subset_take_left constraints le h
  simp only [constraints, List.take_succ_cons, List.take_zero, List.mem_cons, List.not_mem_nil,
    or_false] at hmem
  rcases hmem with rfl | rfl | rfl | rfl | rfl | rfl <;> exact Iff.rfl

theorem writable_effectiveProfile {answer : Availability} {group : ModelGroupId} :
    Writable request (effectiveProfile answer group profile) rule ↔ Writable request profile rule := by
  rw [writable_iff, writable_iff, take_effectiveProfile (by decide), take_effectiveProfile (by decide)]
  exact Iff.rfl

theorem evaluated_iff {policy : RoutingPolicy} {answer : Availability} {group : ModelGroupId}
    (priced : Priced policy request) (declared : policy.modelGroups.lookup group = some profile) :
    (∃ result, evaluate request (effectiveProfile answer group profile) rule constraints = .ok result) ↔
      Writable request profile rule := by
  rw [exists_evaluate_iff, writable_effectiveProfile]
  exact and_iff_right fun _ => priced group profile declared

theorem evaluable_iff {policy : RoutingPolicy} {answer : Availability} (priced : Priced policy request) :
    Evaluable policy request rule answer ↔ ∀ group profile,
      policy.modelGroups.lookup group = some profile → Writable request profile rule := by
  exact forall₃_congr fun group profile declared => evaluated_iff priced declared

def reasonOf (policy : RoutingPolicy) (request : RouteRequest) (rule : WorkloadRule)
    (answer : Availability) (group : ModelGroupId) : Option ConstraintFailure :=
  (policy.modelGroups.lookup group).bind fun profile =>
    (evaluate request (effectiveProfile answer group profile) rule constraints).toOption.join

/-- The loop ends with the first failure of every listed group, and keeps what it held for
the groups that are not listed. -/
theorem lookup_rejectionReasons {answer : Availability}
    {entries : List (Σ _ : ModelGroupId, ModelGroupProfile)} {start reasons : Reasons}
    (h : rejectionReasons request rule answer entries start = .ok reasons)
    (nodup : entries.NodupKeys) (group : ModelGroupId) :
    reasons.lookup group = ((entries.dlookup group).bind fun profile =>
      (evaluate request (effectiveProfile answer group profile) rule constraints).toOption.join).or
        (start.lookup group) := by
  induction entries generalizing start with
  | nil =>
    simp only [rejectionReasons, Except.ok.injEq] at h
    simp [h]
  | cons entry rest ih =>
    obtain ⟨g, profile⟩ := entry
    obtain ⟨hfresh, hrest⟩ := List.nodupKeys_cons.mp nodup
    rw [rejectionReasons] at h
    cases hev : evaluate request (effectiveProfile answer g profile) rule constraints with
    | error exception => simp [hev, bind, Except.bind] at h
    | ok result =>
      simp only [hev, bind, Except.bind] at h
      by_cases hg : group = g
      · subst hg
        have hnone : rest.dlookup group = none := List.dlookup_eq_none.mpr hfresh
        cases result with
        | some failure =>
          rw [ih h hrest, hnone]
          simp [hev, Except.toOption]
        | none =>
          rw [ih h hrest, hnone]
          simp [hev, Except.toOption]
      · rw [List.dlookup_cons_ne _ _ hg]
        cases result with
        | some failure =>
          rw [ih h hrest, AList.lookup_insert_ne hg]
        | none => exact ih h hrest

theorem rejectionReasons_total {answer : Availability}
    {entries : List (Σ _ : ModelGroupId, ModelGroupProfile)}
    (total : ∀ entry ∈ entries, ∃ result, evaluate request
      (effectiveProfile answer entry.1 entry.2) rule constraints = .ok result)
    (start : Reasons) : ∃ reasons, rejectionReasons request rule answer entries start = .ok reasons := by
  induction entries generalizing start with
  | nil => exact ⟨start, rfl⟩
  | cons entry rest ih =>
    obtain ⟨result, hev⟩ := total entry List.mem_cons_self
    have hrest := ih fun e he => total e (List.mem_cons_of_mem _ he)
    rw [rejectionReasons, hev]
    cases result with
    | some failure => exact hrest _
    | none => exact hrest _

/-- The loop raises what the evaluation of a candidate raises. -/
theorem exists_of_rejectionReasons_error {answer : Availability} {exception : ConstraintException}
    {entries : List (Σ _ : ModelGroupId, ModelGroupProfile)} {start : Reasons}
    (h : rejectionReasons request rule answer entries start = .error exception) :
    ∃ entry ∈ entries, evaluate request (effectiveProfile answer entry.1 entry.2) rule constraints =
      .error exception := by
  induction entries generalizing start with
  | nil => cases h
  | cons entry rest ih =>
    rw [rejectionReasons] at h
    cases hev : evaluate request (effectiveProfile answer entry.1 entry.2) rule constraints with
    | error other =>
      simp only [hev, bind, Except.bind, Except.error.injEq] at h
      exact ⟨entry, List.mem_cons_self, by rw [hev, h]⟩
    | ok result =>
      simp only [hev, bind, Except.bind] at h
      obtain ⟨found, hmem, herror⟩ : ∃ entry ∈ rest, evaluate request
          (effectiveProfile answer entry.1 entry.2) rule constraints = .error exception := by
        cases result with
        | some failure => exact ih h
        | none => exact ih h
      exact ⟨found, List.mem_cons_of_mem _ hmem, herror⟩

/-- A map of first failures exists only when every candidate could be evaluated. -/
theorem evaluated_of_rejectionReasons {answer : Availability}
    {entries : List (Σ _ : ModelGroupId, ModelGroupProfile)} {start reasons : Reasons}
    (h : rejectionReasons request rule answer entries start = .ok reasons) :
    ∀ entry ∈ entries, ∃ result, evaluate request (effectiveProfile answer entry.1 entry.2) rule
      constraints = .ok result := by
  induction entries generalizing start with
  | nil => simp
  | cons entry rest ih =>
    rw [rejectionReasons] at h
    obtain ⟨result, hresult, hrest⟩ := bind_eq_ok.mp h
    refine List.forall_mem_cons.mpr ⟨⟨result, hresult⟩, ?_⟩
    cases result with
    | some failure => exact ih hrest
    | none => exact ih hrest

/-- Ports that answer with one availability map, one identifier and one instant. The calls
`route` never makes are answered arbitrarily. -/
def ports (useCase : RouteModelUseCase) (answer : Availability) (id : String) (now : Datetime) :
    (call : Call) → Reply call
  | .resolve _ => answer
  | .newId => id
  | .uuid4 => ⟨0⟩
  | .utcNow => now
  | .activeUseCase => useCase
  | .receive => .disconnect
  | .allow _ _ => true
  | .redisGet _ => .none
  | .redisSet _ _ => .set
  | .memoryConsume _ _ _ => .fresh
  | .readPolicyFile => .unreadable
  | .swapUseCase _ => ()

def explained (useCase : RouteModelUseCase) (request : RouteRequest) (answer : Availability)
    (id : String) (now : Datetime) : Except PyException RouteDecision :=
  outcome (ports useCase answer id now) (route useCase request true)

/-- The map read back after the loop holds the first failure of every group. -/
theorem rejectionReasons_catalog {policy : RoutingPolicy} {answer : Availability}
    (evaluable : Evaluable policy request rule answer) :
    ∃ reasons, rejectionReasons request rule answer policy.modelGroups.entries ∅ = .ok reasons ∧
      ∀ group, reasons.lookup group = reasonOf policy request rule answer group := by
  obtain ⟨reasons, h⟩ := rejectionReasons_total
    (fun entry hentry => evaluable entry.1 entry.2 (AList.mem_lookup_iff.mpr hentry)) ∅
  refine ⟨reasons, h, ?_⟩
  intro group
  rw [lookup_rejectionReasons h policy.modelGroups.nodupKeys group, AList.lookup_empty, Option.or_none]
  rfl

theorem evaluate_of_not_writable {policy : RoutingPolicy} {answer : Availability}
    {group : ModelGroupId} (priced : Priced policy request)
    (declared : policy.modelGroups.lookup group = some profile)
    (unwritable : ¬ Writable request profile rule) :
    evaluate request (effectiveProfile answer group profile) rule constraints = .error .valueError := by
  obtain ⟨cost, hcost⟩ := priced group profile declared
  cases h : evaluate request (effectiveProfile answer group profile) rule constraints with
  | ok result =>
    exact absurd ((evaluated_iff priced declared).mp ⟨result, h⟩) unwritable
  | error exception =>
    have honly : OnlyErrors (· = ConstraintException.valueError)
        (evaluate request (effectiveProfile answer group profile) rule constraints) :=
      onlyErrors_evaluate (show (effectiveProfile answer group profile).estimatedCost _ _ = .ok cost from hcost)
    rw [honly exception h]

/-- A catalog that cannot be evaluated under its prices has an integer that cannot be written. -/
theorem rejectionReasons_of_not_evaluable {policy : RoutingPolicy} {answer : Availability}
    (priced : Priced policy request) (unevaluable : ¬ Evaluable policy request rule answer) :
    rejectionReasons request rule answer policy.modelGroups.entries ∅ = .error .valueError := by
  cases h : rejectionReasons request rule answer policy.modelGroups.entries ∅ with
  | ok reasons =>
    refine absurd (fun group profile declared => ?_) unevaluable
    exact evaluated_of_rejectionReasons h ⟨group, profile⟩ (AList.mem_lookup_iff.mp declared)
  | error exception =>
    obtain ⟨⟨group, profile⟩, hmem, hevaluate⟩ := exists_of_rejectionReasons_error h
    have hdeclared : policy.modelGroups.lookup group = some profile := AList.mem_lookup_iff.mpr hmem
    have hunwritable : ¬ Writable request profile rule := fun hwritable => by
      obtain ⟨result, hresult⟩ := (evaluated_iff priced hdeclared).mpr hwritable
      cases hevaluate.symm.trans hresult
    cases hevaluate.symm.trans (evaluate_of_not_writable priced hdeclared hunwritable)
    rfl

theorem explained_eq {useCase : RouteModelUseCase} (answer : Availability)
    (evaluable : ∀ rule, useCase.policy.workloads.lookup request.workload = some rule →
      Evaluable useCase.policy request rule answer) (id : String) (now : Datetime) :
    explained useCase request answer id now =
      match useCase.policy.workloads.lookup request.workload with
      | none => .error (.incompleteRoutingPolicy
          ("routing policy has no mapping for workload " ++ reprText request.workload.value))
      | some rule =>
        match reasonOf useCase.policy request rule answer rule.modelGroup with
        | some failure => .error (.noViableModelGroup
            (rejectedDecision useCase request rule.modelGroup failure id now))
        | none => .ok (routeDecision useCase request rule.modelGroup
            (rejectedCandidates useCase.policy request rule.modelGroup
              (reasonOf useCase.policy request rule answer)) id now) := by
  unfold explained route
  cases hrule : useCase.policy.workloads.lookup request.workload with
  | none => simp [hrule]
  | some rule =>
    obtain ⟨reasons, hreasons, hlookup⟩ : ∃ reasons, rejectionReasons request rule answer
        useCase.policy.modelGroups.entries ∅ = .ok reasons ∧ ∀ group, reasons.lookup group =
          reasonOf useCase.policy request rule answer group := rejectionReasons_catalog (evaluable rule hrule)
    simp only [hrule, candidates, if_true, outcome_bind, outcome_compute, outcome_ask, Except.bind,
      ports, hreasons, Except.mapError, hlookup]
    cases hreason : reasonOf useCase.policy request rule answer rule.modelGroup <;>
      simp [Except.bind, ports]

/-- A candidate that cannot be evaluated ends the call. -/
theorem explained_of_error {useCase : RouteModelUseCase} {answer : Availability} {id : String}
    {now : Datetime} {exception : ConstraintException}
    (mapped : useCase.policy.workloads.lookup request.workload = some rule)
    (raised : rejectionReasons request rule answer useCase.policy.modelGroups.entries ∅ =
      .error exception) :
    explained useCase request answer id now = .error (toPyException exception) := by
  unfold explained route
  simp only [mapped, candidates, if_true, outcome_bind, outcome_compute, outcome_ask, Except.bind,
    ports, raised, Except.mapError]

/-- The explanation lists every declared group but the selected one, once, in strictly
ascending order, each with its first failure or with the reason that it only lost to the
mapping. -/
structure Explains (policy : RoutingPolicy) (request : RouteRequest) (rule : WorkloadRule)
    (answer : Availability) (rejected : List RejectedCandidate) : Prop where
  ascending : (rejected.map (·.modelGroup.value)).Pairwise (· < ·)
  complete : ∀ group, (∃ candidate ∈ rejected, candidate.modelGroup = group) ↔
    group ∈ policy.modelGroups ∧ group ≠ rule.modelGroup
  failed : ∀ candidate ∈ rejected, ∀ profile,
    policy.modelGroups.lookup candidate.modelGroup = some profile →
    Fails request (effectiveProfile answer candidate.modelGroup profile) rule →
    FirstFailing request (effectiveProfile answer candidate.modelGroup profile) rule
      ⟨candidate.reasonCode, candidate.reason, candidate.observedValue, candidate.requiredValue⟩
  mappedElsewhere : ∀ candidate ∈ rejected, ∀ profile,
    policy.modelGroups.lookup candidate.modelGroup = some profile →
    (candidate.reasonCode = .workloadMappedElsewhere ↔
      ¬ Fails request (effectiveProfile answer candidate.modelGroup profile) rule)

/-- What the outcome of a routing call has to be for a declared workload, given the rule of
the workload and the profile of the group it maps to. -/
structure RoutesMapped (policy : RoutingPolicy) (request : RouteRequest) (rule : WorkloadRule)
    (answer : Availability) (mapped : ModelGroupProfile)
    (result : Except PyException RouteDecision) : Prop where
  rejects : (∃ decision, result = .error (.noViableModelGroup decision)) ↔
    Fails request (effectiveProfile answer rule.modelGroup mapped) rule
  rejection : ∀ decision, result = .error (.noViableModelGroup decision) →
    decision.rejectedModelGroup = rule.modelGroup ∧
    FirstFailing request (effectiveProfile answer rule.modelGroup mapped) rule
      ⟨decision.reasonCode, decision.reason, decision.observedValue, decision.requiredValue⟩
  selects : ¬ Fails request (effectiveProfile answer rule.modelGroup mapped) rule →
    ∃ decision, result = .ok decision ∧ decision.selectedModelGroup = rule.modelGroup ∧
      Explains policy request rule answer decision.rejectedCandidates

section Reasons

variable {policy : RoutingPolicy} {answer : Availability} {group : ModelGroupId}

theorem reasonOf_spec (evaluable : Evaluable policy request rule answer)
    (declared : policy.modelGroups.lookup group = some profile) :
    evaluate request (effectiveProfile answer group profile) rule constraints =
      .ok (reasonOf policy request rule answer group) := by
  obtain ⟨result, h⟩ := evaluable group profile declared
  rw [reasonOf, declared, Option.bind_some, h]
  rfl

private theorem explains_rejectedCandidates (evaluable : Evaluable policy request rule answer) :
    Explains policy request rule answer
      (rejectedCandidates policy request rule.modelGroup (reasonOf policy request rule answer)) := by
  have ofGroup : ∀ candidate ∈ rejectedCandidates policy request rule.modelGroup
      (reasonOf policy request rule answer), candidate = toRejectedCandidate request rule.modelGroup
        candidate.modelGroup (reasonOf policy request rule answer candidate.modelGroup) := by
    intro candidate h
    obtain ⟨group, -, rfl⟩ := List.mem_map.mp h
    cases hr : reasonOf policy request rule answer group <;> simp [toRejectedCandidate, hr]
  have group_toRejectedCandidate : ∀ group, (toRejectedCandidate request rule.modelGroup group
      (reasonOf policy request rule answer group)).modelGroup = group := by
    intro group
    cases reasonOf policy request rule answer group <;> rfl
  constructor
  · rw [rejectedCandidates, List.map_map, List.pairwise_map]
    simp only [Function.comp_apply, group_toRejectedCandidate]
    exact (pairwise_sortedGroups policy).filter _
  · intro group
    simp only [rejectedCandidates, List.mem_map, List.mem_filter, mem_sortedGroups]
    constructor
    · rintro ⟨_, ⟨g, ⟨hmem, hne⟩, rfl⟩, rfl⟩
      rw [group_toRejectedCandidate]
      exact ⟨hmem, by simpa using hne⟩
    · rintro ⟨hmem, hne⟩
      exact ⟨_, ⟨group, ⟨hmem, by simpa using hne⟩, rfl⟩, group_toRejectedCandidate group⟩
  · intro candidate hmem profile declared hfails
    have hev : evaluate request (effectiveProfile answer _ profile) rule constraints =
      .ok (reasonOf policy request rule answer _) := reasonOf_spec evaluable declared
    rw [fails_iff hev] at hfails
    obtain ⟨failure, hreason⟩ := Option.isSome_iff_exists.mp hfails
    rw [hreason] at hev
    rw [ofGroup candidate hmem, hreason, toRejectedCandidate]
    exact firstFailing_iff.mpr hev
  · intro candidate hmem profile declared
    have hev : evaluate request (effectiveProfile answer _ profile) rule constraints =
      .ok (reasonOf policy request rule answer _) := reasonOf_spec evaluable declared
    rw [fails_iff hev]
    have hcandidate := congrArg RejectedCandidate.reasonCode (ofGroup candidate hmem)
    cases hreason : reasonOf policy request rule answer candidate.modelGroup with
    | some failure =>
      rw [hreason] at hev hcandidate
      have hcode := code_ne_workloadMappedElsewhere (firstFailing_iff.mpr hev)
      simp only [toRejectedCandidate] at hcandidate
      simp [hcandidate, hcode]
    | none =>
      rw [hreason] at hcandidate
      simp [hcandidate, toRejectedCandidate]

end Reasons

section Calls

variable {useCase : RouteModelUseCase} {answer : Availability}

private theorem explained_undeclared (evaluable : ∀ rule,
      useCase.policy.workloads.lookup request.workload = some rule →
        Evaluable useCase.policy request rule answer) (id : String) (now : Datetime) :
    (∃ message, explained useCase request answer id now = .error (.incompleteRoutingPolicy message)) ↔
      useCase.policy.workloads.lookup request.workload = none := by
  rw [explained_eq answer evaluable]
  cases useCase.policy.workloads.lookup request.workload with
  | none => simp
  | some rule =>
    cases hreason : reasonOf useCase.policy request rule answer rule.modelGroup <;> simp [hreason]

private theorem routesMapped_explained (evaluable : Evaluable useCase.policy request rule answer)
    (id : String) (now : Datetime) {mapped : ModelGroupProfile}
    (hrule : useCase.policy.workloads.lookup request.workload = some rule)
    (hmapped : useCase.policy.modelGroups.lookup rule.modelGroup = some mapped) :
    RoutesMapped useCase.policy request rule answer mapped (explained useCase request answer id now) := by
  have hev : evaluate request (effectiveProfile answer rule.modelGroup mapped) rule constraints =
    .ok (reasonOf useCase.policy request rule answer rule.modelGroup) := reasonOf_spec evaluable hmapped
  have hfails := fails_iff hev
  rw [explained_eq answer (fun other h => Option.some.inj (hrule.symm.trans h) ▸ evaluable), hrule]
  cases hreason : reasonOf useCase.policy request rule answer rule.modelGroup with
  | some failure =>
    rw [hreason] at hev hfails
    refine ⟨by simpa [hreason] using hfails, ?_, ?_⟩
    · intro decision h
      simp only [hreason, Except.error.injEq, PyException.noViableModelGroup.injEq] at h
      subst h
      exact ⟨rfl, firstFailing_iff.mpr hev⟩
    · intro hpasses
      exact absurd (hfails.mpr rfl) hpasses
  | none =>
    rw [hreason] at hfails
    refine ⟨by simpa [hreason] using hfails, ?_, ?_⟩
    · intro decision h
      simp [hreason] at h
    · intro _
      exact ⟨routeDecision useCase request rule.modelGroup (rejectedCandidates useCase.policy request
        rule.modelGroup (reasonOf useCase.policy request rule answer)) id now,
        by simp only [hreason], rfl, explains_rejectedCandidates evaluable⟩

/-- The same mappings in another order give the same outcome. -/
theorem explained_eq_of_perm (evaluable : ∀ rule,
      useCase.policy.workloads.lookup request.workload = some rule →
        Evaluable useCase.policy request rule answer) (id : String) (now : Datetime)
    {modelGroups : ModelGroups} {workloads : Workloads}
    (hgroups : modelGroups.entries.Perm useCase.policy.modelGroups.entries)
    (hworkloads : workloads.entries.Perm useCase.policy.workloads.entries) :
    explained { useCase with policy := { useCase.policy with
      modelGroups := modelGroups, workloads := workloads } } request answer id now =
      explained useCase request answer id now := by
  have hlookup : ∀ group, modelGroups.lookup group = useCase.policy.modelGroups.lookup group :=
    fun group => AList.perm_lookup hgroups
  have hmapping : ∀ workload, workloads.lookup workload = useCase.policy.workloads.lookup workload :=
    fun workload => AList.perm_lookup hworkloads
  have hsorted : sortedGroups { useCase.policy with modelGroups := modelGroups, workloads := workloads } =
      sortedGroups useCase.policy := sortedGroups_eq_of_perm hgroups
  have evaluable' : ∀ rule, workloads.lookup request.workload = some rule →
      Evaluable { useCase.policy with modelGroups := modelGroups, workloads := workloads } request rule
        answer := fun rule hrule group profile h =>
    evaluable rule (hmapping _ ▸ hrule) group profile (hlookup group ▸ h)
  rw [explained_eq answer evaluable', explained_eq answer evaluable]
  simp only [reasonOf, rejectedCandidates, rejectedDecision, routeDecision, hlookup, hsorted, hmapping]

/-- All the specification says about one use case, request and answer of the ports. -/
structure MeetsSpecification (useCase : RouteModelUseCase) (request : RouteRequest)
    (answer : Availability) (id : String) (now : Datetime) : Prop where
  undeclared : (∃ message,
    explained useCase request answer id now = .error (.incompleteRoutingPolicy message)) ↔
      useCase.policy.workloads.lookup request.workload = none
  declared : ∀ rule, useCase.policy.workloads.lookup request.workload = some rule →
    ∃ mapped, useCase.policy.modelGroups.lookup rule.modelGroup = some mapped ∧
      RoutesMapped useCase.policy request rule answer mapped (explained useCase request answer id now)
  orderIndependent : ∀ (modelGroups : ModelGroups) (workloads : Workloads),
    modelGroups.entries.Perm useCase.policy.modelGroups.entries →
    workloads.entries.Perm useCase.policy.workloads.entries →
    explained { useCase with policy := { useCase.policy with
      modelGroups := modelGroups, workloads := workloads } } request answer id now =
      explained useCase request answer id now

/-- The specification has no place for an exception of a constraint. -/
theorem not_routesMapped_of_raised {mapped : ModelGroupProfile} {exception : ConstraintException} :
    ¬ RoutesMapped useCase.policy request rule answer mapped (.error (toPyException exception)) := by
  intro h
  have hpasses : ¬ Fails request (effectiveProfile answer rule.modelGroup mapped) rule := fun hfails => by
    obtain ⟨decision, hdecision⟩ := h.rejects.mpr hfails
    cases exception <;> cases hdecision
  obtain ⟨_, hdecision, -⟩ := h.selects hpasses
  cases hdecision

private theorem writes_of_meetsSpecification {id : String} {now : Datetime}
    (h : MeetsSpecification useCase request answer id now) : Writes useCase.policy request := by
  intro rule hrule group profile declared
  cases hreasons : rejectionReasons request rule answer useCase.policy.modelGroups.entries ∅ with
  | ok reasons =>
    obtain ⟨result, hresult⟩ := evaluated_of_rejectionReasons hreasons ⟨group, profile⟩
      (AList.mem_lookup_iff.mp declared)
    exact writable_effectiveProfile.mp (exists_evaluate_iff.mp ⟨result, hresult⟩).2
  | error exception =>
    obtain ⟨mapped, -, hroutes⟩ := h.declared rule hrule
    rw [explained_of_error hrule hreasons] at hroutes
    exact absurd hroutes not_routesMapped_of_raised

/-- Routing equals its specification exactly when every failure can be written. -/
theorem meetsSpecification_iff (useCase : RouteModelUseCase) (request : RouteRequest)
    (answer : Availability) (id : String) (now : Datetime)
    (integrity : useCase.policy.ReferentialIntegrity) (priced : Priced useCase.policy request) :
    MeetsSpecification useCase request answer id now ↔ Writes useCase.policy request := by
  refine ⟨writes_of_meetsSpecification, fun writes => ?_⟩
  have hevaluable : ∀ rule, useCase.policy.workloads.lookup request.workload = some rule →
      Evaluable useCase.policy request rule answer := fun rule hrule =>
    (evaluable_iff priced).mpr (writes rule hrule)
  refine ⟨explained_undeclared hevaluable id now, ?_, ?_⟩
  · intro rule hrule
    obtain ⟨mapped, hmapped⟩ :=
      Option.isSome_iff_exists.mp (AList.lookup_isSome.mpr (integrity _ rule hrule))
    exact ⟨mapped, hmapped, routesMapped_explained (hevaluable rule hrule) id now hrule hmapped⟩
  · intro modelGroups workloads hgroups hworkloads
    exact explained_eq_of_perm hevaluable id now hgroups hworkloads

end Calls

end Specification

namespace Deployed

def group : ModelGroupId := ⟨"fast-small", by decide⟩

def workload : WorkloadId := ⟨"rag.answer", by decide, by decide⟩

def profile : ModelGroupProfile :=
  { authorizedDataClassifications := {.public, .internal}
    authorizedRiskLevels := {.low}
    supportsStructuredOutput := true
    supportsToolCalling := true
    maxContextTokens := 8192
    typicalLatencyMs := 500
    inputCostUsdPerMillionTokens := ⟨false, 15, -2⟩
    outputCostUsdPerMillionTokens := ⟨false, 60, -2⟩
    available := true
    allowedAgents := ∅
    staged := false }

def policy : RoutingPolicy :=
  { schemaVersion := "1.0"
    policyId := "baseline"
    policyVersion := "1.0.0"
    policyDigest := "sha256:0"
    modelGroups := AList.singleton group profile
    workloads := AList.singleton workload ⟨group, false⟩ }

def useCase : RouteModelUseCase := ⟨policy, "1.0.0", "test"⟩

def noon : Datetime := ⟨63902865600000000, by decide⟩

def request : RouteRequest :=
  { schemaVersion := "1.0"
    requestedAt := noon
    workflowId := "wf-1"
    taskId := "task-1"
    agentName := "analyst"
    workload := workload
    riskLevel := .low
    dataClassification := .internal
    contextTokensEstimated := 1000
    maxOutputTokensEstimated := 500
    structuredOutputRequired := false
    maxLatencyMs := 1000
    maxCostUsd := ⟨false, 1, -2⟩ }

theorem lookup_group {g : ModelGroupId} {p : ModelGroupProfile}
    (h : policy.modelGroups.lookup g = some p) : g = group ∧ p = profile := by
  have hmem := AList.mem_lookup_iff.mp h
  simp only [policy, AList.singleton_entries, List.mem_singleton, Sigma.mk.injEq, heq_eq_eq] at hmem
  exact hmem

private theorem integrity_singleton (p : ModelGroupProfile) :
    RoutingPolicy.ReferentialIntegrity { policy with modelGroups := AList.singleton group p } := by
  intro w rule h
  have hmem := AList.mem_lookup_iff.mp h
  simp only [policy, AList.singleton_entries, List.mem_singleton, Sigma.mk.injEq, heq_eq_eq] at hmem
  rw [hmem.2]
  exact AList.mem_keys.mp (List.mem_singleton.mpr rfl)

theorem integrity : policy.ReferentialIntegrity := integrity_singleton profile

theorem priced : Priced policy request := by
  intro g p h
  obtain ⟨-, rfl⟩ := lookup_group h
  exact ⟨⟨false, 45, -5⟩, by decide⟩

theorem writes : @Writes asciiTables policy request := by
  intro rule hrule g p h
  obtain ⟨-, rfl⟩ := lookup_group h
  exact @Writable.mk asciiTables _ _ _ (fun _ hwindow => absurd hwindow (by decide))
    (fun _ hlatency => absurd hlatency (by decide))

/-- A latency of 4302 digits. A policy file gives it as a hexadecimal integer. -/
def slowLatency : ℤ := 16 ^ 3572

private theorem not_short_slowLatency : ¬ Short slowLatency := by
  rw [Short, not_lt, slowLatency, abs_of_nonneg (by positivity)]
  exact mod_cast (by decide +kernel : 10 ^ maxStrDigits ≤ 16 ^ 3572)

private theorem lt_slowLatency : 3600000 < slowLatency := by decide +kernel

/-- A group with that latency that reaches the latency ceiling. -/
theorem not_writable_of_slow {p : ModelGroupProfile} {rule : WorkloadRule}
    (latency : p.typicalLatencyMs = slowLatency)
    (reached : ∀ constraint ∈ (@constraints asciiTables).take 6, constraint request p rule = .ok none) :
    ¬ @Writable asciiTables request p rule := by
  intro h
  have hslow := lt_slowLatency
  have hlate : request.maxLatencyMs < p.typicalLatencyMs := by
    rw [latency]
    change 1000 < slowLatency
    omega
  have hshort := (@Writable.latency asciiTables _ _ _ h reached hlate).1
  rw [latency] at hshort
  exact not_short_slowLatency hshort

def slow : RoutingPolicy :=
  { policy with
    modelGroups := AList.singleton group { profile with typicalLatencyMs := slowLatency } }

end Deployed

theorem meetsSpecification_deployed :
    @MeetsSpecification asciiTables Deployed.useCase Deployed.request (fun _ => some true) "id-1"
      Deployed.noon :=
  (@meetsSpecification_iff asciiTables Deployed.useCase Deployed.request (fun _ => some true)
    "id-1" Deployed.noon Deployed.integrity Deployed.priced).mpr Deployed.writes

/-- The only group is too slow by far, and the call raises instead of rejecting it. -/
theorem not_meetsSpecification_slow :
    Deployed.slow.ReferentialIntegrity ∧ Priced Deployed.slow Deployed.request ∧
      ¬ @MeetsSpecification asciiTables ⟨Deployed.slow, "1.0.0", "test"⟩ Deployed.request
        (fun _ => some true) "id-1" Deployed.noon := by
  refine ⟨Deployed.integrity_singleton _, ?_, fun h => ?_⟩
  · intro g p hp
    have hmem := AList.mem_lookup_iff.mp hp
    simp only [Deployed.slow, AList.singleton_entries, List.mem_singleton, Sigma.mk.injEq,
      heq_eq_eq] at hmem
    rw [hmem.2]
    exact ⟨⟨false, 45, -5⟩, by decide⟩
  · have hwrites : @Writes asciiTables Deployed.slow Deployed.request :=
      @writes_of_meetsSpecification _ asciiTables _ _ _ _ h
    refine Deployed.not_writable_of_slow (by rfl) (by decide +kernel) (hwrites ⟨Deployed.group, false⟩
      (by rfl) Deployed.group { Deployed.profile with typicalLatencyMs := Deployed.slowLatency } (by rfl))

end PolicyModelRouter.RoutingSpecification
