import Mathlib.Data.List.Basic
import Mathlib.Data.String.Basic

/-! # Closed vocabularies and policy-defined identifiers -/

namespace PolicyModelRouter.GovernedVocabularies

/-- Sensitivity tier of a piece of data. -/
inductive DataClassification where
  | «public»
  | internal
  | confidential
  | restricted
  deriving DecidableEq

def DataClassification.value : DataClassification → String
  | .public => "public"
  | .internal => "internal"
  | .confidential => "confidential"
  | .restricted => "restricted"

def DataClassification.ascending : List DataClassification :=
  [.confidential, .internal, .public, .restricted]

inductive RiskLevel where
  | low
  | medium
  | high
  | critical
  deriving DecidableEq

def RiskLevel.value : RiskLevel → String
  | .low => "low"
  | .medium => "medium"
  | .high => "high"
  | .critical => "critical"

def RiskLevel.ascending : List RiskLevel := [.critical, .high, .low, .medium]

theorem DataClassification.value_inj {a b : DataClassification} (h : a.value = b.value) : a = b := by
  cases a <;> cases b <;> first | rfl | exact absurd h (by decide)

theorem RiskLevel.value_inj {a b : RiskLevel} (h : a.value = b.value) : a = b := by
  cases a <;> cases b <;> first | rfl | exact absurd h (by decide)

example : (DataClassification.ascending.map DataClassification.value).Pairwise (· < ·) ∧
    (RiskLevel.ascending.map RiskLevel.value).Pairwise (· < ·) := by decide

/-- Why a candidate was rejected, one reason for each constraint and one for a group that
only lost to the mapping. -/
inductive ReasonCode where
  | dataClassificationNotAuthorized
  | riskLevelNotAuthorized
  | structuredOutputUnsupported
  | toolCallingUnsupported
  | contextWindowExceeded
  | costCeilingExceeded
  | latencyCeilingExceeded
  | modelGroupUnavailable
  | agentNotAllowed
  | workloadMappedElsewhere
  deriving DecidableEq

def ReasonCode.value : ReasonCode → String
  | .dataClassificationNotAuthorized => "data_classification_not_authorized"
  | .riskLevelNotAuthorized => "risk_level_not_authorized"
  | .structuredOutputUnsupported => "structured_output_unsupported"
  | .toolCallingUnsupported => "tool_calling_unsupported"
  | .contextWindowExceeded => "context_window_exceeded"
  | .costCeilingExceeded => "cost_ceiling_exceeded"
  | .latencyCeilingExceeded => "latency_ceiling_exceeded"
  | .modelGroupUnavailable => "model_group_unavailable"
  | .agentNotAllowed => "agent_not_allowed"
  | .workloadMappedElsewhere => "workload_mapped_elsewhere"

/-- A character an identifier may start and end with. -/
def isIdentifierEdge (c : Char) : Bool :=
  ('a' ≤ c && c ≤ 'z') || ('0' ≤ c && c ≤ '9')

def isIdentifierChar (c : Char) : Bool :=
  isIdentifierEdge c || c == '.' || c == '_' || c == '-'

/-- The pattern of policy identifiers, matched against the whole text. -/
def isPolicyIdentifier (s : String) : Bool :=
  1 ≤ s.length && s.length ≤ 128 && s.toList.all isIdentifierChar &&
    s.toList.head?.all isIdentifierEdge && s.toList.getLast?.all isIdentifierEdge

/-- Workload names that predate namespaces. -/
def legacyWorkloadIdentifiers : List String :=
  ["document_extraction", "cashflow_analysis", "findings_correlation", "opinion_drafting",
    "json_repair"]

structure WorkloadId where
  value : String
  identifier : isPolicyIdentifier value = true
  namespaced : '.' ∈ value.toList ∨ value ∈ legacyWorkloadIdentifiers
  deriving DecidableEq

structure ModelGroupId where
  value : String
  identifier : isPolicyIdentifier value = true
  deriving DecidableEq

theorem ModelGroupId.value_inj {a b : ModelGroupId} (h : a.value = b.value) : a = b := by
  cases a
  cases b
  cases h
  rfl

theorem WorkloadId.value_inj {a b : WorkloadId} (h : a.value = b.value) : a = b := by
  cases a
  cases b
  cases h
  rfl

theorem length_of_isPolicyIdentifier {s : String} (h : isPolicyIdentifier s = true) :
    1 ≤ s.length ∧ s.length ≤ 128 := by
  simp only [isPolicyIdentifier, Bool.and_eq_true, decide_eq_true_eq] at h
  exact ⟨h.1.1.1.1, h.1.1.1.2⟩

theorem isIdentifierChar_of_mem {s : String} (h : isPolicyIdentifier s = true) {c : Char}
    (hc : c ∈ s.toList) : isIdentifierChar c = true := by
  simp only [isPolicyIdentifier, Bool.and_eq_true] at h
  exact List.all_eq_true.mp h.1.1.2 c hc

theorem head_of_isPolicyIdentifier {s : String} (h : isPolicyIdentifier s = true) :
    s.toList.head?.all isIdentifierEdge = true := by
  simp only [isPolicyIdentifier, Bool.and_eq_true] at h
  exact h.1.2

end PolicyModelRouter.GovernedVocabularies
