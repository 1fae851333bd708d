import PolicyModelRouter.OrderedChecks
import PolicyModelRouter.RoutingSpecification

/-!
# The runs of routing

Every run of the use case is one of five: the workload is not mapped, the mapped group is
not declared, a constraint raises, the mapped group is rejected, or it is selected.
-/

namespace PolicyModelRouter.RoutingRuns
open AwaitingPrograms DecimalArithmetic EliminatoryConstraints GovernedVocabularies ModelRouting
open OrderedChecks PythonText RouterCalls RoutingCatalog RoutingSpecification UtcTimestamps

variable [UnicodeTables] {useCase : RouteModelUseCase} {request : RouteRequest}
variable {includeRejected : Bool} {es : List (Event Reply)}

def question (listed : List (Σ _ : ModelGroupId, ModelGroupProfile)) : Call :=
  .resolve (listed.map fun c => (c.1, c.2.available))

/-- The candidates of a run and the first failures among them, under one answer. -/
structure Evaluates (useCase : RouteModelUseCase) (request : RouteRequest) (includeRejected : Bool)
    (answer : Availability) (rule : WorkloadRule)
    (listed : List (Σ _ : ModelGroupId, ModelGroupProfile)) (result : Except ConstraintException Reasons) : Prop where
  mapped : useCase.policy.workloads.lookup request.workload = some rule
  considered : candidates useCase.policy rule.modelGroup includeRejected = .ok listed
  evaluated : rejectionReasons request rule answer listed ∅ = result

inductive Routed (useCase : RouteModelUseCase) (request : RouteRequest) (includeRejected : Bool) :
    List (Event Reply) → Except PyException RouteDecision → Prop where
  | unmapped (missing : useCase.policy.workloads.lookup request.workload = none) :
      Routed useCase request includeRejected [] (.error (.incompleteRoutingPolicy
        ("routing policy has no mapping for workload " ++ reprText request.workload.value)))
  | undeclared {rule : WorkloadRule}
      (mapped : useCase.policy.workloads.lookup request.workload = some rule)
      (missing : useCase.policy.modelGroups.lookup rule.modelGroup = none)
      (fast : includeRejected = false) : Routed useCase request includeRejected [] (.error .keyError)
  | raised {answer : Availability} {rule : WorkloadRule}
      {listed : List (Σ _ : ModelGroupId, ModelGroupProfile)} {exception : ConstraintException}
      (evaluates : Evaluates useCase request includeRejected answer rule listed (.error exception)) :
      Routed useCase request includeRejected [⟨question listed, answer⟩]
        (.error (toPyException exception))
  | rejected {answer : Availability} {rule : WorkloadRule}
      {listed : List (Σ _ : ModelGroupId, ModelGroupProfile)} {reasons : Reasons}
      {failure : ConstraintFailure} {id : String} {now : Datetime}
      (evaluates : Evaluates useCase request includeRejected answer rule listed (.ok reasons))
      (failed : reasons.lookup rule.modelGroup = some failure) :
      Routed useCase request includeRejected [⟨question listed, answer⟩, ⟨.newId, id⟩, ⟨.utcNow, now⟩]
        (.error (.noViableModelGroup
          (rejectedDecision useCase request rule.modelGroup failure id now)))
  | selected {answer : Availability} {rule : WorkloadRule}
      {listed : List (Σ _ : ModelGroupId, ModelGroupProfile)} {reasons : Reasons}
      {id : String} {now : Datetime}
      (evaluates : Evaluates useCase request includeRejected answer rule listed (.ok reasons))
      (passed : reasons.lookup rule.modelGroup = none) :
      Routed useCase request includeRejected [⟨question listed, answer⟩, ⟨.newId, id⟩, ⟨.utcNow, now⟩]
        (.ok (routeDecision useCase request rule.modelGroup
          (if includeRejected then
            rejectedCandidates useCase.policy request rule.modelGroup (reasons.lookup ·)
          else []) id now))

omit [UnicodeTables] in
theorem completes_ask_ask {c d : Call} {α : Type} {k : Reply c → Reply d → Coroutine α}
    {r : Except PyException α}
    (h : Completes (do let x ← ask c; let y ← ask d; k x y : Coroutine α).run es r) :
    ∃ x y rest, es = ⟨c, x⟩ :: ⟨d, y⟩ :: rest ∧ Completes (k x y).run rest r := by
  rcases completes_run_bind.mp h with ⟨_, -, h₁⟩ | ⟨_, _, x, rfl, hx, h₁⟩
  · exact absurd h₁ not_raises_ask
  obtain rfl := returns_ask.mp hx
  rcases completes_run_bind.mp h₁ with ⟨_, -, h₂⟩ | ⟨_, _, y, rfl, hy, h₂⟩
  · exact absurd h₂ not_raises_ask
  obtain rfl := returns_ask.mp hy
  exact ⟨x, y, _, rfl, h₂⟩

theorem routed_of_completes {r : Except PyException RouteDecision}
    (h : Completes (route useCase request includeRejected).run es r) :
    Routed useCase request includeRejected es r := by
  unfold route at h
  simp only at h
  split at h
  · rename_i hmissing
    obtain ⟨rfl, rfl⟩ := (completes_run_throw _ _).mp h
    exact .unmapped hmissing
  rename_i rule hrule
  rcases completes_run_bind.mp h with ⟨e, rfl, hraises⟩ | ⟨_, _, listed, rfl, hlisted, h₁⟩
  · obtain ⟨rfl, hcandidates⟩ := (raises_compute _ _).mp hraises
    unfold candidates at hcandidates
    split at hcandidates
    · cases hcandidates
    · split at hcandidates
      · cases hcandidates
      · cases hcandidates
        exact .undeclared hrule ‹_› (by simpa using ‹¬ includeRejected = true›)
  obtain ⟨rfl, hconsidered⟩ := (returns_compute _ _).mp hlisted
  rcases completes_run_bind.mp h₁ with ⟨_, -, hraises⟩ | ⟨_, _, answer, rfl, hask, h₂⟩
  · exact absurd hraises not_raises_ask
  obtain rfl := returns_ask.mp hask
  rcases completes_run_bind.mp h₂ with ⟨e, rfl, hraises⟩ | ⟨_, _, reasons, rfl, hreasons, h₃⟩
  · obtain ⟨rfl, herror⟩ := (raises_compute _ _).mp hraises
    obtain ⟨exception, hexception, rfl⟩ := mapError_eq_error.mp herror
    exact .raised ⟨hrule, hconsidered, hexception⟩
  obtain ⟨rfl, hok⟩ := (returns_compute _ _).mp hreasons
  have hevaluates := Evaluates.mk hrule hconsidered (mapError_eq_ok.mp hok)
  split at h₃
  · rename_i failure hfailed
    obtain ⟨id, now, rest, rfl, hend⟩ := completes_ask_ask h₃
    obtain ⟨rfl, rfl⟩ := (completes_run_throw _ _).mp hend
    exact .rejected hevaluates hfailed
  · rename_i hpassed
    obtain ⟨id, now, rest, rfl, hend⟩ := completes_ask_ask h₃
    obtain ⟨rfl, rfl⟩ := (completes_run_pure _ _).mp hend
    exact .selected hevaluates hpassed

/-- Under fixed answers the outcome is that of one of these runs. -/
theorem routed_outcome (answer : Availability) (id : String) (now : Datetime) : ∃ es,
    Routed useCase request includeRejected es
      (outcome (ports useCase answer id now) (route useCase request includeRejected)) ∧
    ∀ e ∈ es, e.2 = ports useCase answer id now e.1 := by
  have hcompletes := completes_run (fun call (s : Unit) => (ports useCase answer id now call, s))
    (route useCase request includeRejected).run ()
  have hfixed : ∀ e ∈ ((route useCase request includeRejected).run.run
      (fun call (s : Unit) => (ports useCase answer id now call, s)) ()).2.1,
      e.2 = ports useCase answer id now e.1 := fun e he => fixed_of_mem_run _ _ () he
  refine ⟨_, ?_, hfixed⟩
  rw [outcome, hcompletes.value_eq _ hfixed]
  exact routed_of_completes hcompletes

/-- The listed candidates are the whole catalog, or the mapped group. -/
theorem Evaluates.listed {answer : Availability} {rule : WorkloadRule}
    {listed : List (Σ _ : ModelGroupId, ModelGroupProfile)} {result : Except ConstraintException Reasons}
    (h : Evaluates useCase request includeRejected answer rule listed result) :
    (includeRejected = true ∧ listed = useCase.policy.modelGroups.entries) ∨
      includeRejected = false ∧ ∃ profile,
        useCase.policy.modelGroups.lookup rule.modelGroup = some profile ∧
          listed = [⟨rule.modelGroup, profile⟩] := by
  have hconsidered := h.considered
  unfold candidates at hconsidered
  cases includeRejected with
  | true =>
    cases hconsidered
    exact .inl ⟨rfl, rfl⟩
  | false =>
    cases hprofile : useCase.policy.modelGroups.lookup rule.modelGroup with
    | none => simp [hprofile] at hconsidered
    | some profile =>
      simp only [hprofile, Bool.false_eq_true, if_false, Except.ok.injEq] at hconsidered
      exact .inr ⟨rfl, profile, rfl, hconsidered.symm⟩

theorem Evaluates.nodupKeys {answer : Availability} {rule : WorkloadRule}
    {listed : List (Σ _ : ModelGroupId, ModelGroupProfile)} {result : Except ConstraintException Reasons}
    (h : Evaluates useCase request includeRejected answer rule listed result) : listed.NodupKeys := by
  rcases h.listed with ⟨-, rfl⟩ | ⟨-, profile, -, rfl⟩
  · exact useCase.policy.modelGroups.nodupKeys
  · exact List.nodupKeys_singleton _

theorem Evaluates.declared {answer : Availability} {rule : WorkloadRule}
    {listed : List (Σ _ : ModelGroupId, ModelGroupProfile)} {result : Except ConstraintException Reasons}
    (h : Evaluates useCase request includeRejected answer rule listed result) {group : ModelGroupId}
    {profile : ModelGroupProfile} (found : listed.dlookup group = some profile) :
    useCase.policy.modelGroups.lookup group = some profile := by
  rcases h.listed with ⟨-, rfl⟩ | ⟨-, mapped, hmapped, rfl⟩
  · exact found
  · have hentry := List.of_mem_dlookup found
    simp only [List.mem_singleton, Sigma.mk.injEq, heq_eq_eq] at hentry
    rw [hentry.1, hentry.2, hmapped]

/-- The mapped group is among the candidates of every policy that declares it. -/
theorem Evaluates.mapped_listed {answer : Availability} {rule : WorkloadRule}
    {listed : List (Σ _ : ModelGroupId, ModelGroupProfile)} {result : Except ConstraintException Reasons}
    (h : Evaluates useCase request includeRejected answer rule listed result)
    {profile : ModelGroupProfile}
    (declared : useCase.policy.modelGroups.lookup rule.modelGroup = some profile) :
    listed.dlookup rule.modelGroup = some profile := by
  rcases h.listed with ⟨-, rfl⟩ | ⟨-, mapped, hmapped, rfl⟩
  · exact declared
  · rw [declared] at hmapped
    cases hmapped
    exact List.dlookup_cons_eq _ _ _

/-- A candidate without a first failure passes every constraint. -/
theorem passes_of_rejectionReasons {rule : WorkloadRule} {answer : Availability}
    {entries : List (Σ _ : ModelGroupId, ModelGroupProfile)} {reasons : Reasons}
    {group : ModelGroupId} {profile : ModelGroupProfile}
    (h : rejectionReasons request rule answer entries ∅ = .ok reasons) (nodup : entries.NodupKeys)
    (listed : entries.dlookup group = some profile) (unrejected : reasons.lookup group = none) :
    ∀ constraint ∈ constraints,
      constraint request (effectiveProfile answer group profile) rule = .ok none := by
  obtain ⟨result, hresult⟩ : ∃ result,
      evaluate request (effectiveProfile answer group profile) rule constraints = .ok result :=
    evaluated_of_rejectionReasons h _ (List.of_mem_dlookup listed)
  rw [lookup_rejectionReasons h nodup, listed, AList.lookup_empty, Option.or_none] at unrejected
  simp only [Option.bind_some, hresult, Except.toOption, Option.join_some] at unrejected
  rw [unrejected] at hresult
  exact evaluate_eq_none_iff.mp hresult

end PolicyModelRouter.RoutingRuns
