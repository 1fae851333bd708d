import PolicyModelRouter.EliminatoryConstraints
import PolicyModelRouter.RouterCalls
import Mathlib.Data.List.Sort

/-!
# The routing use case

A request is decided by the group its workload maps to. The use case evaluates the
candidates in the order the policy declares them, keeps the first failure of every
group that has one, and reads that map twice: once for the mapped group, once for
the explanation of all others.
-/

namespace PolicyModelRouter.ModelRouting
open AwaitingPrograms DecimalArithmetic EliminatoryConstraints GovernedVocabularies PythonText
open RouterCalls RoutingCatalog UtcTimestamps

def sortedGroups (policy : RoutingPolicy) : List ModelGroupId :=
  policy.modelGroups.keys.insertionSort fun a b => a.value ≤ b.value

theorem pairwise_sortedGroups (policy : RoutingPolicy) :
    (sortedGroups policy).Pairwise fun a b => a.value < b.value := by
  have : Std.Total fun a b : ModelGroupId => a.value ≤ b.value := ⟨fun a b => le_total _ _⟩
  have : IsTrans ModelGroupId fun a b => a.value ≤ b.value := ⟨fun a b c => le_trans⟩
  have hsorted := List.pairwise_insertionSort (fun a b : ModelGroupId => a.value ≤ b.value)
    policy.modelGroups.keys
  have hnodup : (sortedGroups policy).Nodup :=
    (List.perm_insertionSort _ _).nodup_iff.mpr policy.modelGroups.keys_nodup
  apply (hsorted.and hnodup).imp
  rintro a b ⟨hle, hne⟩
  exact lt_of_le_of_ne hle fun h => hne (ModelGroupId.value_inj h)

theorem mem_sortedGroups {policy : RoutingPolicy} {group : ModelGroupId} :
    group ∈ sortedGroups policy ↔ group ∈ policy.modelGroups :=
  (List.perm_insertionSort _ _).mem_iff

/-- The order of the declarations does not matter. -/
theorem sortedGroups_eq_of_perm {policy policy' : RoutingPolicy}
    (h : policy.modelGroups.entries.Perm policy'.modelGroups.entries) :
    sortedGroups policy = sortedGroups policy' := by
  have hkeys : policy.modelGroups.keys.Perm policy'.modelGroups.keys := h.map Sigma.fst
  have hsorted : (sortedGroups policy).Perm (sortedGroups policy') :=
    (List.perm_insertionSort _ _).trans (hkeys.trans (List.perm_insertionSort _ _).symm)
  refine hsorted.eq_of_pairwise ?_ (pairwise_sortedGroups policy) (pairwise_sortedGroups policy')
  intro a b _ _ hab hba
  exact absurd (hab.trans hba) (lt_irrefl _)

variable [UnicodeTables]

abbrev Reasons := AList fun _ : ModelGroupId => ConstraintFailure

/-- The profile with the availability the provider reports; an omitted group is unavailable. -/
def effectiveProfile (answer : Availability) (group : ModelGroupId) (profile : ModelGroupProfile) :
    ModelGroupProfile :=
  { profile with available := (answer group).getD false }

/-- The outer loop: the first failure of every candidate that has one. -/
def rejectionReasons (request : RouteRequest) (rule : WorkloadRule) (answer : Availability) :
    List (Σ _ : ModelGroupId, ModelGroupProfile) → Reasons → Except ConstraintException Reasons
  | [], reasons => .ok reasons
  | ⟨group, profile⟩ :: rest, reasons => do
    match ← evaluate request (effectiveProfile answer group profile) rule constraints with
    | some failure =>
      rejectionReasons request rule answer rest (AList.insert group failure reasons)
    | none => rejectionReasons request rule answer rest reasons

/-- The explanation of one group that was not selected, from its first failure if any. -/
def toRejectedCandidate (request : RouteRequest) (selected group : ModelGroupId) :
    Option ConstraintFailure → RejectedCandidate
  | some failure =>
    { modelGroup := group
      reason := failure.message
      reasonCode := failure.code
      observedValue := failure.observedValue
      requiredValue := failure.requiredValue }
  | none =>
    { modelGroup := group
      reason := "workload " ++ reprText request.workload.value ++ " is mapped to " ++
        reprText selected.value ++ ", not this group"
      reasonCode := .workloadMappedElsewhere
      observedValue := request.workload.value
      requiredValue := selected.value }

def rejectedCandidates (policy : RoutingPolicy) (request : RouteRequest) (selected : ModelGroupId)
    (reason : ModelGroupId → Option ConstraintFailure) : List RejectedCandidate :=
  ((sortedGroups policy).filter (· ≠ selected)).map fun group =>
    toRejectedCandidate request selected group (reason group)

/-- The whole catalog, or only the mapped group. -/
def candidates (policy : RoutingPolicy) (selected : ModelGroupId)
    (includeRejectedCandidates : Bool) :
    Except PyException (List (Σ _ : ModelGroupId, ModelGroupProfile)) :=
  if includeRejectedCandidates then .ok policy.modelGroups.entries
  else
    match policy.modelGroups.lookup selected with
    | some profile => .ok [⟨selected, profile⟩]
    | none => .error .keyError

def rejectedDecision (useCase : RouteModelUseCase) (request : RouteRequest)
    (selected : ModelGroupId) (failure : ConstraintFailure) (id : String) (now : Datetime) :
    RejectedDecision :=
  { schemaVersion := request.schemaVersion
    routingDecisionId := id
    decidedAt := now
    workflowId := request.workflowId
    taskId := request.taskId
    workload := request.workload
    rejectedModelGroup := selected
    reason := failure.message
    reasonCode := failure.code
    observedValue := failure.observedValue
    requiredValue := failure.requiredValue
    policyId := useCase.policy.policyId
    policyVersion := useCase.policy.policyVersion
    policyDigest := useCase.policy.policyDigest
    serviceVersion := useCase.serviceVersion
    environment := useCase.environment }

def routeDecision (useCase : RouteModelUseCase) (request : RouteRequest) (selected : ModelGroupId)
    (rejected : List RejectedCandidate) (id : String) (now : Datetime) : RouteDecision :=
  { schemaVersion := request.schemaVersion
    routingDecisionId := id
    decidedAt := now
    workflowId := request.workflowId
    taskId := request.taskId
    selectedModelGroup := selected
    reason := "workload " ++ reprText request.workload.value ++ " maps to model group " ++
      reprText selected.value ++ " and satisfies all constraints"
    rejectedCandidates := rejected
    policyId := useCase.policy.policyId
    policyVersion := useCase.policy.policyVersion
    policyDigest := useCase.policy.policyDigest
    serviceVersion := useCase.serviceVersion
    environment := useCase.environment }

/-- No constraint handles what it raises. -/
@[simp] def toPyException : ConstraintException → PyException
  | .signal signal => .decimalSignal signal
  | .valueError => .valueError

def route (useCase : RouteModelUseCase) (request : RouteRequest)
    (includeRejectedCandidates : Bool) : Coroutine RouteDecision := do
  let policy := useCase.policy
  match policy.workloads.lookup request.workload with
  | none => throw (.incompleteRoutingPolicy
      ("routing policy has no mapping for workload " ++ reprText request.workload.value))
  | some rule =>
    let selected := rule.modelGroup
    let candidates ← compute (candidates policy selected includeRejectedCandidates)
    let answer ← ask (.resolve (candidates.map fun c => (c.1, c.2.available)))
    let reasons ← compute
      ((rejectionReasons request rule answer candidates ∅).mapError toPyException)
    match reasons.lookup selected with
    | some failure =>
      let id ← ask .newId
      let now ← ask .utcNow
      throw (.noViableModelGroup (rejectedDecision useCase request selected failure id now))
    | none =>
      let rejected :=
        if includeRejectedCandidates then
          rejectedCandidates policy request selected (reasons.lookup ·)
        else []
      let id ← ask .newId
      let now ← ask .utcNow
      pure (routeDecision useCase request selected rejected id now)

end PolicyModelRouter.ModelRouting
