import PolicyModelRouter.RoutingSpecification

/-!
# Two runs of routing

What does not depend on the explanation, and what does not depend on the allowlists: two
calls of the use case are compared, under the same answers.
-/

namespace PolicyModelRouter.RoutingVariations
open AwaitingPrograms DecimalArithmetic EliminatoryConstraints GovernedVocabularies ModelRouting
open PythonText RouterCalls RoutingCatalog RoutingSpecification UtcTimestamps

section Explanation

variable [UnicodeTables] {useCase : RouteModelUseCase} {request : RouteRequest} {rule : WorkloadRule}
variable {profile : ModelGroupProfile} (env : (call : Call) → Reply call)

def wholeCatalog (policy : RoutingPolicy) : List (ModelGroupId × Bool) :=
  policy.modelGroups.entries.map fun c => (c.1, c.2.available)

/-- Any answers of the ports, where the provider may answer by what it is asked. -/
theorem outcome_route_true :
    outcome env (route useCase request true) =
      explained useCase request (env (.resolve (wholeCatalog useCase.policy))) (env .newId)
        (env .utcNow) := by
  unfold explained route
  cases hrule : useCase.policy.workloads.lookup request.workload with
  | none => simp [hrule]
  | some rule =>
    simp only [hrule, candidates, if_true, outcome_bind, outcome_compute, outcome_ask, ports,
      Except.bind, wholeCatalog]
    generalize Except.mapError _ _ = reasons
    cases reasons with
    | error e => rfl
    | ok reasons => cases hreason : reasons.lookup rule.modelGroup <;>
      simp [hreason, Except.bind, ports]

omit env in
private theorem rejectionReasons_singleton {answer : Availability} {group : ModelGroupId}
    {result : Except ConstraintException (Option ConstraintFailure)}
    (evaluated : evaluate request (effectiveProfile answer group profile) rule constraints = result) :
    rejectionReasons request rule answer [⟨group, profile⟩] ∅ =
      result.map fun first => first.elim ∅ fun failure => AList.insert group failure ∅ := by
  rw [rejectionReasons, evaluated]
  cases result with
  | error exception => rfl
  | ok result => cases result <;> rfl

/-- The fast path evaluates the mapped group alone. -/
theorem outcome_route_false {result : Option ConstraintFailure}
    (mapped : useCase.policy.workloads.lookup request.workload = some rule)
    (declared : useCase.policy.modelGroups.lookup rule.modelGroup = some profile)
    (evaluated : evaluate request (effectiveProfile
      (env (.resolve [(rule.modelGroup, profile.available)])) rule.modelGroup profile) rule
        constraints = .ok result) :
    outcome env (route useCase request false) = result.elim
      (.ok (routeDecision useCase request rule.modelGroup [] (env .newId) (env .utcNow)))
      fun failure => .error (.noViableModelGroup
        (rejectedDecision useCase request rule.modelGroup failure (env .newId) (env .utcNow))) := by
  unfold route
  simp only [mapped, candidates, declared, Bool.false_eq_true, if_false, outcome_bind,
    outcome_compute, outcome_ask]
  change Except.bind (Except.mapError _ (rejectionReasons request rule
    (env (.resolve [(rule.modelGroup, profile.available)])) [⟨rule.modelGroup, profile⟩] ∅)) _ = _
  rw [rejectionReasons_singleton evaluated]
  cases result with
  | some failure =>
    simp only [Except.map, Option.elim_some, Except.mapError, Except.bind, AList.lookup_insert, outcome_bind,
      outcome_ask, outcome_throw]
  | none => simp [Except.bind, Except.map, Except.mapError]

/-- A mapped group that cannot be evaluated ends the fast path. -/
theorem outcome_route_false_of_error {exception : ConstraintException}
    (mapped : useCase.policy.workloads.lookup request.workload = some rule)
    (declared : useCase.policy.modelGroups.lookup rule.modelGroup = some profile)
    (evaluated : evaluate request (effectiveProfile
      (env (.resolve [(rule.modelGroup, profile.available)])) rule.modelGroup profile) rule
        constraints = .error exception) :
    outcome env (route useCase request false) = .error (toPyException exception) := by
  unfold route
  simp only [mapped, candidates, declared, Bool.false_eq_true, if_false, outcome_bind,
    outcome_compute, outcome_ask]
  change Except.bind (Except.mapError _ (rejectionReasons request rule
    (env (.resolve [(rule.modelGroup, profile.available)])) [⟨rule.modelGroup, profile⟩] ∅)) _ = _
  rw [rejectionReasons_singleton evaluated]
  rfl

/-- Where the failures of the mapped group can be written, those of every declared group can. -/
def WritesAlike (policy : RoutingPolicy) (request : RouteRequest) : Prop :=
  ∀ rule, policy.workloads.lookup request.workload = some rule →
    ∀ mapped, policy.modelGroups.lookup rule.modelGroup = some mapped → Writable request mapped rule →
      ∀ group profile, policy.modelGroups.lookup group = some profile → Writable request profile rule

section Agreement

def declined (decision : RouteDecision) : RouteDecision := { decision with rejectedCandidates := [] }

variable (mapped : useCase.policy.workloads.lookup request.workload = some rule)
variable (declared : useCase.policy.modelGroups.lookup rule.modelGroup = some profile)
variable (same : (env (.resolve [(rule.modelGroup, profile.available)]) : Availability) rule.modelGroup =
  (env (.resolve (wholeCatalog useCase.policy)) : Availability) rule.modelGroup)

include mapped declared same

/-- When every declared group can be evaluated, the explanation is all that the fast path leaves
out. -/
theorem declined_of_evaluable (evaluable : Evaluable useCase.policy request rule
      (env (.resolve (wholeCatalog useCase.policy)))) :
    outcome env (route useCase request false) =
      (outcome env (route useCase request true)).map declined := by
  have hsame : effectiveProfile (env (.resolve [(rule.modelGroup, profile.available)]))
        rule.modelGroup profile =
      effectiveProfile (env (.resolve (wholeCatalog useCase.policy))) rule.modelGroup profile := by
    simp only [effectiveProfile, same]
  have hevaluated : evaluate request (effectiveProfile
      (env (.resolve [(rule.modelGroup, profile.available)])) rule.modelGroup profile) rule
        constraints = .ok (reasonOf useCase.policy request rule
          (env (.resolve (wholeCatalog useCase.policy))) rule.modelGroup) := by
    rw [hsame]
    exact reasonOf_spec evaluable declared
  rw [outcome_route_true, explained_eq (env (.resolve (wholeCatalog useCase.policy)))
    (fun other h => Option.some.inj (mapped.symm.trans h) ▸ evaluable) (env .newId) (env .utcNow),
    outcome_route_false env mapped declared hevaluated, mapped]
  cases hreason : reasonOf useCase.policy request rule
      (env (.resolve (wholeCatalog useCase.policy))) rule.modelGroup <;>
    simp [hreason, Except.map, routeDecision, declined]

end Agreement

/-- Declining the explanation leaves the decision as it is exactly when no other group raises in
the explanation. -/
theorem explanation_declined_iff (integrity : useCase.policy.ReferentialIntegrity)
    (priced : Priced useCase.policy request)
    (consistent : ∀ rule profile, useCase.policy.workloads.lookup request.workload = some rule →
      useCase.policy.modelGroups.lookup rule.modelGroup = some profile →
      (env (.resolve [(rule.modelGroup, profile.available)]) : Availability) rule.modelGroup =
        (env (.resolve (wholeCatalog useCase.policy)) : Availability) rule.modelGroup) :
    outcome env (route useCase request false) =
        (outcome env (route useCase request true)).map declined ↔
      WritesAlike useCase.policy request := by
  cases hrule : useCase.policy.workloads.lookup request.workload with
  | none =>
    refine iff_of_true ?_ fun rule h => nomatch hrule.symm.trans h
    unfold route
    simp [hrule, Except.map]
  | some rule =>
    obtain ⟨profile, hprofile⟩ :=
      Option.isSome_iff_exists.mp (AList.lookup_isSome.mpr (integrity _ rule hrule))
    have hevaluable : Evaluable useCase.policy request rule (env (.resolve (wholeCatalog useCase.policy))) ↔
        _ := evaluable_iff priced
    have hraised : ¬ Evaluable useCase.policy request rule (env (.resolve (wholeCatalog useCase.policy))) →
        outcome env (route useCase request true) = .error .valueError := fun h => by
      rw [outcome_route_true]
      exact explained_of_error hrule (rejectionReasons_of_not_evaluable priced h)
    constructor
    · intro hequal other hother mapped hmapped hwritable
      obtain rfl := Option.some.inj (hrule.symm.trans hother)
      obtain rfl := Option.some.inj (hprofile.symm.trans hmapped)
      refine hevaluable.mp (by_contra fun hnot => ?_)
      obtain ⟨result, hresult⟩ := (evaluated_iff priced hprofile).mpr hwritable
      rw [hraised hnot, outcome_route_false env hrule hprofile hresult] at hequal
      cases result <;> cases hequal
    · intro halike
      by_cases hwritable : Writable request profile rule
      · exact declined_of_evaluable env hrule hprofile (consistent rule profile hrule hprofile)
          (hevaluable.mpr (halike rule hrule profile hprofile hwritable))
      · rw [hraised fun h => hwritable (hevaluable.mp h _ _ hprofile), outcome_route_false_of_error env
          hrule hprofile (evaluate_of_not_writable priced hprofile hwritable)]
        rfl

end Explanation

def Admits (profile : ModelGroupProfile) (agentName : String) : Prop :=
  profile.allowedAgents = ∅ ∨ agentName ∈ profile.allowedAgents

/-- Two entries of a catalog that differ in their allowlists only, which treat one agent
alike. -/
structure SameBut (agentName : String) (entry entry' : Σ _ : ModelGroupId, ModelGroupProfile) :
    Prop where
  group : entry.1 = entry'.1
  profile : { entry.2 with allowedAgents := entry'.2.allowedAgents } = entry'.2
  admits : Admits entry.2 agentName ↔ Admits entry'.2 agentName

/-- Two policies that differ in the allowlists of their groups only, which treat one agent
alike. -/
structure SameButAllowlists (agentName : String) (policy policy' : RoutingPolicy) : Prop where
  schemaVersion : policy.schemaVersion = policy'.schemaVersion
  policyId : policy.policyId = policy'.policyId
  policyVersion : policy.policyVersion = policy'.policyVersion
  policyDigest : policy.policyDigest = policy'.policyDigest
  workloads : policy.workloads = policy'.workloads
  modelGroups : List.Forall₂ (SameBut agentName) policy.modelGroups.entries
    policy'.modelGroups.entries

section Allowlists

variable [UnicodeTables] {request : RouteRequest} {rule : WorkloadRule} {agentName : String}

omit [UnicodeTables] in
private theorem evaluate_congr {profile profile' : ModelGroupProfile} {cs : List Constraint}
    (h : ∀ constraint ∈ cs, constraint request profile rule = constraint request profile' rule) :
    evaluate request profile rule cs = evaluate request profile' rule cs := by
  induction cs with
  | nil => rfl
  | cons c cs ih =>
    rw [evaluate, evaluate, h c List.mem_cons_self, ih fun d hd => h d (List.mem_cons_of_mem _ hd)]

/-- No constraint sees more of an allowlist than whether it admits the agent. -/
theorem evaluate_eq_of_sameBut {answer : Availability}
    {entry entry' : Σ _ : ModelGroupId, ModelGroupProfile}
    (h : SameBut request.agentName entry entry') :
    evaluate request (effectiveProfile answer entry.1 entry.2) rule constraints =
      evaluate request (effectiveProfile answer entry'.1 entry'.2) rule constraints := by
  obtain ⟨group, profile⟩ := entry
  obtain ⟨group', profile'⟩ := entry'
  obtain rfl : group = group' := h.group
  have hallowed : checkAgentAllowlist request (effectiveProfile answer group profile) rule =
      checkAgentAllowlist request (effectiveProfile answer group profile') rule :=
    congrArg (require · _) (decide_eq_decide.mpr h.admits)
  have hprofile := h.profile
  simp only at hprofile
  rw [← hprofile] at hallowed ⊢
  refine evaluate_congr fun constraint hmem => ?_
  simp only [constraints, List.mem_cons, List.not_mem_nil, or_false] at hmem
  rcases hmem with rfl | rfl | rfl | rfl | rfl | rfl | rfl | rfl | rfl
  case inr.inr.inr.inr.inr.inr.inr.inr => exact hallowed
  all_goals rfl

private theorem rejectionReasons_eq_of_sameBut {answer : Availability}
    {entries entries' : List (Σ _ : ModelGroupId, ModelGroupProfile)} {start : Reasons}
    (h : List.Forall₂ (SameBut request.agentName) entries entries') :
    rejectionReasons request rule answer entries start =
      rejectionReasons request rule answer entries' start := by
  induction h generalizing start with
  | nil => rfl
  | @cons entry entry' rest rest' head tail ih =>
    have hevaluate : evaluate request (effectiveProfile answer entry.1 entry.2) rule constraints =
        evaluate request (effectiveProfile answer entry'.1 entry'.2) rule constraints :=
      evaluate_eq_of_sameBut head
    obtain ⟨group, profile⟩ := entry
    obtain ⟨group', profile'⟩ := entry'
    obtain rfl : group = group' := head.group
    simp only [rejectionReasons, hevaluate, ih]

omit [UnicodeTables] in
private theorem dlookup_of_sameBut {entries entries' : List (Σ _ : ModelGroupId, ModelGroupProfile)}
    (h : List.Forall₂ (SameBut agentName) entries entries') (group : ModelGroupId) :
    Option.Rel (fun profile profile' => SameBut agentName ⟨group, profile⟩ ⟨group, profile'⟩)
      (entries.dlookup group) (entries'.dlookup group) := by
  induction h with
  | nil => exact .none
  | @cons entry entry' rest rest' head tail ih =>
    obtain ⟨g, profile⟩ := entry
    obtain ⟨g', profile'⟩ := entry'
    obtain rfl : g = g' := head.group
    by_cases hg : group = g
    · subst hg
      rw [List.dlookup_cons_eq, List.dlookup_cons_eq]
      exact .some head
    · rw [List.dlookup_cons_ne _ _ hg, List.dlookup_cons_ne _ _ hg]
      exact ih

omit [UnicodeTables] in
/-- The candidates, and what the provider is asked about them. -/
theorem candidates_of_sameButAllowlists {policy policy' : RoutingPolicy}
    (h : SameButAllowlists agentName policy policy') (selected : ModelGroupId)
    (includeRejectedCandidates : Bool) :
    (∃ listed listed', candidates policy selected includeRejectedCandidates = .ok listed ∧
      candidates policy' selected includeRejectedCandidates = .ok listed' ∧
      List.Forall₂ (SameBut agentName) listed listed') ∨
    candidates policy selected includeRejectedCandidates = .error .keyError ∧
      candidates policy' selected includeRejectedCandidates = .error .keyError := by
  cases includeRejectedCandidates with
  | true => exact .inl ⟨_, _, rfl, rfl, h.modelGroups⟩
  | false =>
    have hlookup := dlookup_of_sameBut h.modelGroups selected
    simp only [candidates, Bool.false_eq_true, if_false, AList.lookup]
    revert hlookup
    generalize policy.modelGroups.entries.dlookup selected = found
    generalize policy'.modelGroups.entries.dlookup selected = found'
    rintro (same | _)
    · exact .inl ⟨_, _, rfl, rfl, .cons same .nil⟩
    · exact .inr ⟨rfl, rfl⟩

omit [UnicodeTables] in
private theorem asked_eq_of_sameBut {listed listed' : List (Σ _ : ModelGroupId, ModelGroupProfile)}
    (h : List.Forall₂ (SameBut agentName) listed listed') :
    listed.map (fun c => (c.1, c.2.available)) = listed'.map fun c => (c.1, c.2.available) := by
  induction h with
  | nil => rfl
  | cons head tail ih =>
    rw [List.map_cons, List.map_cons, ih, head.group, ← head.profile]

omit [UnicodeTables] in
private theorem sortedGroups_eq_of_sameBut {policy policy' : RoutingPolicy}
    (h : SameButAllowlists agentName policy policy') : sortedGroups policy = sortedGroups policy' := by
  have hkeys : policy.modelGroups.keys = policy'.modelGroups.keys :=
    (List.forall₂_eq_eq_eq ▸ List.forall₂_map_left_iff.mpr
      (List.forall₂_map_right_iff.mpr (h.modelGroups.imp fun _ _ same => same.group)) :
        policy.modelGroups.entries.map Sigma.fst = policy'.modelGroups.entries.map Sigma.fst)
  rw [sortedGroups, sortedGroups, hkeys]

omit [UnicodeTables] in
private theorem resolve_bind_congr {α : Type} {declared declared' : List (ModelGroupId × Bool)}
    {f f' : Availability → Coroutine α} (same : declared = declared')
    (continued : ∀ answer, f answer = f' answer) :
    ((ask (.resolve declared) : Coroutine Availability) >>= f) = ask (.resolve declared') >>= f' := by
  obtain rfl : f = f' := funext continued
  rw [same]

/-- Routing never sees the agents an allowlist names: it makes the same calls and, under the
same answers, ends in the same way. -/
theorem route_eq_of_sameButAllowlists {policy policy' : RoutingPolicy}
    {serviceVersion environment : String}
    (h : SameButAllowlists request.agentName policy policy') (includeRejectedCandidates : Bool) :
    route ⟨policy, serviceVersion, environment⟩ request includeRejectedCandidates =
      route ⟨policy', serviceVersion, environment⟩ request includeRejectedCandidates := by
  unfold route
  simp only [← h.workloads]
  cases policy.workloads.lookup request.workload with
  | none => rfl
  | some rule =>
    simp only
    rcases candidates_of_sameButAllowlists h rule.modelGroup includeRejectedCandidates with
      ⟨listed, listed', hlisted, hlisted', hsame⟩ | ⟨hmissing, hmissing'⟩
    · rw [hlisted, hlisted', compute_ok_bind, compute_ok_bind]
      refine resolve_bind_congr (asked_eq_of_sameBut hsame) fun answer => ?_
      rw [rejectionReasons_eq_of_sameBut hsame]
      simp only [rejectedCandidates, rejectedDecision, routeDecision, sortedGroups_eq_of_sameBut h,
        h.policyId, h.policyVersion, h.policyDigest]
    · rw [hmissing, hmissing', compute_error_bind, compute_error_bind]

end Allowlists

namespace Deployed

open RoutingSpecification.Deployed

theorem explanation_declined_deployed :
    @outcome Call Reply PyException RouteDecision
        (ports useCase (fun _ => some true) "id-1" noon) (@route asciiTables useCase request false) =
      (outcome (ports useCase (fun _ => some true) "id-1" noon)
        (@route asciiTables useCase request true)).map declined :=
  (@explanation_declined_iff asciiTables useCase request
    (ports useCase (fun _ => some true) "id-1" noon) integrity priced fun _ _ _ _ => rfl).mpr
    fun rule hrule _ _ _ => writes rule hrule

def archive : ModelGroupId := ⟨"archive", by decide⟩

def stagedProfile : ModelGroupProfile := { profile with typicalLatencyMs := slowLatency, staged := true }

def catalog : RoutingPolicy :=
  { policy with modelGroups := AList.insert archive stagedProfile policy.modelGroups }

private theorem lookup_catalog {g : ModelGroupId} {p : ModelGroupProfile}
    (h : catalog.modelGroups.lookup g = some p) : p = stagedProfile ∨ p = profile := by
  by_cases hg : g = archive
  · subst hg
    rw [catalog, AList.lookup_insert] at h
    exact .inl (Option.some.inj h).symm
  · rw [catalog, AList.lookup_insert_ne hg] at h
    exact .inr (lookup_group h).2

private theorem integrity_catalog : catalog.ReferentialIntegrity := fun w rule h =>
  AList.mem_insert _ |>.mpr (.inr (integrity w rule h))

theorem priced_catalog : Priced catalog request := by
  intro g p h
  rcases lookup_catalog h with rfl | rfl <;> exact ⟨⟨false, 45, -5⟩, by decide⟩

/-- With the explanation, the staged group ends a call that selects a group without it. -/
theorem explanation_raises :
    catalog.ReferentialIntegrity ∧ Priced catalog request ∧
      outcome (ports useCase (fun _ => some true) "id-1" noon)
          (@route asciiTables ⟨catalog, "1.0.0", "test"⟩ request false) ≠
        (outcome (ports useCase (fun _ => some true) "id-1" noon)
          (@route asciiTables ⟨catalog, "1.0.0", "test"⟩ request true)).map declined := by
  refine ⟨integrity_catalog, priced_catalog, ?_⟩
  have hraised : outcome (ports useCase (fun _ => some true) "id-1" noon)
      (@route asciiTables ⟨catalog, "1.0.0", "test"⟩ request true) = .error .valueError := by
    rw [@outcome_route_true asciiTables]
    refine @explained_of_error _ ⟨group, false⟩ asciiTables _ _ _ _ _ (by rfl)
      (@rejectionReasons_of_not_evaluable _ _ asciiTables _ _ priced_catalog fun h => ?_)
    exact not_writable_of_slow (by rfl) (by decide +kernel)
      ((@evaluable_iff _ _ asciiTables _ _ priced_catalog).mp h archive stagedProfile
        (AList.lookup_insert _))
  rw [hraised, @outcome_route_false asciiTables ⟨catalog, "1.0.0", "test"⟩ request ⟨group, false⟩ profile
    (ports useCase (fun _ => some true) "id-1" noon) none (by rfl) (by rfl) (by decide +kernel)]
  exact fun h => nomatch h

def restricted : RoutingPolicy :=
  { policy with modelGroups :=
      AList.singleton group { profile with allowedAgents := {"analyst", "auditor"} } }

private theorem sameButAllowlists : SameButAllowlists request.agentName policy restricted :=
  ⟨rfl, rfl, rfl, rfl, rfl, .cons ⟨rfl, rfl, by simp [Admits, profile, request]⟩ .nil⟩

theorem route_eq_of_sameButAllowlists_deployed :
    @route asciiTables ⟨policy, "1.0.0", "test"⟩ request true =
      @route asciiTables ⟨restricted, "1.0.0", "test"⟩ request true :=
  @route_eq_of_sameButAllowlists asciiTables request policy restricted "1.0.0" "test"
    sameButAllowlists true

end Deployed

end PolicyModelRouter.RoutingVariations
