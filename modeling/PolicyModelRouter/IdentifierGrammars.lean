import PolicyModelRouter.DenialEvidence
import PolicyModelRouter.RoutingPolicyLoader

/-!
# The grammars of the identifiers

Groups and workloads are named in four places: the policy, the requests, the signed
authorization and the evidence of a denial, each with a grammar of its own. Whatever
names a workload in a policy can be signed and recorded. A group can be recorded up to
100 characters, and signed from two characters on up to 100, while a policy may declare
one to 128.
-/

namespace PolicyModelRouter.IdentifierGrammars
open AuthorizationContract DenialEvidence GovernedVocabularies PythonText RoutingPolicyLoader
open StrippedTexts ViolationContract

def Takes (p : String → Bool) (s : String) : Prop := ∃ t, validated p s = .ok t ∧ t.val = s

/-- What a policy may declare, Governance can sign and evidence can record. -/
structure Nameable (s : String) : Prop where
  signedGroup : (∃ group : ModelGroupId, group.value = s) → Takes isRoutingGroup s
  recordedGroup : (∃ group : ModelGroupId, group.value = s) → Takes isEvidenceModelGroup s
  signedWorkload : (∃ workload : WorkloadId, workload.value = s) → Takes isIdentifier s
  recordedWorkload : (∃ workload : WorkloadId, workload.value = s) → Takes isEvidenceIdentifier s

/-- Every group and every workload of a policy is named by some authorization. -/
structure Authorizable (config : RoutingPolicyConfig) : Prop where
  groups : ∀ group ∈ config.modelGroups, ∃ envelope : SignedRuntimeAuthorization,
    ∃ model ∈ envelope.claims.scope.models, model.routingGroup.val = group.value
  workloads : ∀ workload ∈ config.workloads, ∃ envelope : SignedRuntimeAuthorization,
    envelope.claims.request.workload.val = workload.value

theorem takes_iff {p : String → Bool} {s : String} (unpadded : strip s = s) :
    Takes p s ↔ p s = true := by
  constructor
  · rintro ⟨t, -, rfl⟩
    exact t.property
  · intro h
    exact ⟨⟨s, h⟩, validated_eq_ok.mpr unpadded.symm, rfl⟩

section Identifiers

variable {s : String}

theorem isRoutingGroup_iff (h : isPolicyIdentifier s = true) :
    isRoutingGroup s = true ↔ 2 ≤ s.length ∧ s.length ≤ 100 :=
  hasShape_iff_of_isPolicyIdentifier h (fun _ => id) fun _ => id

private theorem isAlphanumeric_of_isIdentifierEdge {c : Char} (h : isIdentifierEdge c = true) :
    isAlphanumeric c = true := by
  simp only [isIdentifierEdge, isAlphanumeric, Bool.or_eq_true] at h ⊢
  tauto

private theorem isIdentifier_of_isPolicyIdentifier (h : isPolicyIdentifier s = true) :
    isIdentifier s = true := by
  obtain ⟨hpos, hshort⟩ := length_of_isPolicyIdentifier h
  apply (hasShape_iff_of_isPolicyIdentifier h (fun _ => isAlphanumeric_of_isIdentifierEdge) ?_).mpr
  · exact ⟨hpos, hshort.trans (by decide)⟩
  · intro c hc
    simp only [isIdentifierChar, Bool.or_eq_true] at hc
    rcases hc with ((hedge | hdot) | hline) | hdash
    · simp [isAlphanumeric_of_isIdentifierEdge hedge]
    all_goals simp_all

private theorem isEvidenceIdentifier_of_isPolicyIdentifier (h : isPolicyIdentifier s = true) :
    isEvidenceIdentifier s = true := by
  obtain ⟨hpos, hshort⟩ := length_of_isPolicyIdentifier h
  have hstrip := strip_of_isPolicyIdentifier h
  have hrecorded := isEvidenceIdentifier_strip (strip_ne_empty hstrip hpos)
    (hshort.trans (by decide))
  rwa [hstrip] at hrecorded

end Identifiers

private theorem nameable_of_length {s : String}
    (h : isPolicyIdentifier s = true → 2 ≤ s.length ∧ s.length ≤ 100) : Nameable s where
  signedGroup := by
    rintro ⟨group, rfl⟩
    have hgroup := group.identifier
    exact (takes_iff (strip_of_isPolicyIdentifier hgroup)).mpr
      ((isRoutingGroup_iff hgroup).mpr (h hgroup))
  recordedGroup := by
    rintro ⟨group, rfl⟩
    have hgroup := group.identifier
    have hrecorded := (isEvidenceModelGroup_strip hgroup).mpr (h hgroup).2
    have hstrip := strip_of_isPolicyIdentifier hgroup
    rw [hstrip] at hrecorded
    exact (takes_iff hstrip).mpr hrecorded
  signedWorkload := by
    rintro ⟨workload, rfl⟩
    have hworkload := workload.identifier
    exact (takes_iff (strip_of_isPolicyIdentifier hworkload)).mpr
      (isIdentifier_of_isPolicyIdentifier hworkload)
  recordedWorkload := by
    rintro ⟨workload, rfl⟩
    have hworkload := workload.identifier
    exact (takes_iff (strip_of_isPolicyIdentifier hworkload)).mpr
      (isEvidenceIdentifier_of_isPolicyIdentifier hworkload)

theorem length_of_nameable {s : String} (nameable : Nameable s) (h : isPolicyIdentifier s = true) :
    2 ≤ s.length ∧ s.length ≤ 100 :=
  (isRoutingGroup_iff h).mp
    ((takes_iff (strip_of_isPolicyIdentifier h)).mp (nameable.signedGroup ⟨⟨s, h⟩, rfl⟩))

private theorem dataClass_signed : VerificationSpecification.Deployed.scope.dataClassification ∈
    VerificationSpecification.Deployed.model.allowedDataClasses := by decide

def authorizationFor (group : RoutingGroup) : SignedRuntimeAuthorization :=
  let envelope := VerificationSpecification.Deployed.envelope
  let model := { VerificationSpecification.Deployed.model with routingGroup := group }
  { envelope with
    claims :=
      { envelope.claims with
        scope :=
          { envelope.claims.scope with
            models := [model]
            someModel := List.cons_ne_nil _ _
            modelsAscending := List.pairwise_singleton _ _
            dataClassAllowed := ⟨model, List.mem_cons_self, dataClass_signed⟩ } } }

def authorizationOf (workload : Identifier) : SignedRuntimeAuthorization :=
  let envelope := VerificationSpecification.Deployed.envelope
  { envelope with
    claims := { envelope.claims with request := { envelope.claims.request with workload := workload } } }

private theorem authorizable_iff {config : RoutingPolicyConfig} :
    Authorizable config ↔
      ∀ group ∈ config.modelGroups, 2 ≤ group.value.length ∧ group.value.length ≤ 100 := by
  constructor
  · intro h group hgroup
    obtain ⟨envelope, model, -, hmodel⟩ := h.groups group hgroup
    rw [← hmodel]
    exact length_of_hasShape model.routingGroup.property
  · intro h
    constructor
    · intro group hgroup
      have hsigned := (isRoutingGroup_iff group.identifier).mpr (h group hgroup)
      exact ⟨authorizationFor ⟨group.value, hsigned⟩, _, List.mem_cons_self, rfl⟩
    · intro workload _
      exact ⟨authorizationOf ⟨workload.value,
        isIdentifier_of_isPolicyIdentifier workload.identifier⟩, rfl⟩

/-- A name can be signed and recorded unless it is a group of one character or of more than 100,
and a policy can be authorized unless it declares one. -/
theorem nameable_iff (s : String) (config : RoutingPolicyConfig) :
    (Nameable s ↔ (isPolicyIdentifier s = true → 2 ≤ s.length ∧ s.length ≤ 100)) ∧
      (Authorizable config ↔
        ∀ group ∈ config.modelGroups, 2 ≤ group.value.length ∧ group.value.length ≤ 100) :=
  ⟨⟨length_of_nameable, nameable_of_length⟩, authorizable_iff⟩

namespace Deployed

def longGroup : ModelGroupId := ⟨String.ofList (List.replicate 101 'a'), by decide +kernel⟩

end Deployed

/-- The shortest groups cannot be signed, and the longest ones cannot be recorded either. -/
theorem not_nameable_edges : ¬ Nameable "a" ∧ ¬ Nameable Deployed.longGroup.value ∧
    ¬ Takes isEvidenceModelGroup Deployed.longGroup.value := by
  have hlong : ¬ Deployed.longGroup.value.length ≤ 100 := by decide +kernel
  refine ⟨fun h => ?_, fun h => ?_, fun h => ?_⟩
  · have hlength := length_of_nameable h (by decide)
    exact absurd hlength.1 (by decide)
  · exact hlong (length_of_nameable h Deployed.longGroup.identifier).2
  · obtain ⟨t, -, ht⟩ := h
    exact hlong (ht ▸ (length_of_hasShape t.property).2)

end PolicyModelRouter.IdentifierGrammars
