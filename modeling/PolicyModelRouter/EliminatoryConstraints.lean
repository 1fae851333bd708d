import PolicyModelRouter.OrderedChecks
import PolicyModelRouter.PythonText
import PolicyModelRouter.RoutingCatalog

/-!
# Eliminatory constraints

Each constraint looks at one candidate group and returns nothing or the record of
its failure. `constraints` lists them in the order they are evaluated in.
-/

namespace PolicyModelRouter.EliminatoryConstraints
open DecimalArithmetic GovernedVocabularies OrderedChecks RoutingCatalog PythonText

variable [UnicodeTables]

/-- A machine-readable record of one failed constraint. -/
structure ConstraintFailure where
  code : ReasonCode
  message : String
  observedValue : String
  requiredValue : String
  deriving DecidableEq

/-- What a constraint raises: the cost estimate is decimal arithmetic, and a record may hold an
integer of too many digits. -/
inductive ConstraintException where
  | signal (signal : Signal)
  | valueError
  deriving DecidableEq

abbrev Constraint := RouteRequest → ModelGroupProfile → WorkloadRule →
  Except ConstraintException (Option ConstraintFailure)

def require (satisfied : Bool) (failure : ConstraintFailure) :
    Except ConstraintException (Option ConstraintFailure) :=
  .ok (if satisfied then none else some failure)

/-- A constraint whose record can be impossible to write. It is only built where it is needed. -/
def requireWritten (satisfied : Bool) (failure : Except ConstraintException ConstraintFailure) :
    Except ConstraintException (Option ConstraintFailure) :=
  if satisfied then .ok none else failure.map some

def written (n : ℤ) : Except ConstraintException String :=
  match str n with
  | some text => .ok text
  | none => .error .valueError

def checkDataClassification : Constraint := fun request profile _ =>
  require (request.dataClassification ∈ profile.authorizedDataClassifications)
    { code := .dataClassificationNotAuthorized
      message := "not authorized for data classification " ++ reprText request.dataClassification.value
      observedValue := request.dataClassification.value
      requiredValue := String.intercalate ", " ((DataClassification.ascending.filter
        (· ∈ profile.authorizedDataClassifications)).map DataClassification.value) }

def checkRiskLevel : Constraint := fun request profile _ =>
  require (request.riskLevel ∈ profile.authorizedRiskLevels)
    { code := .riskLevelNotAuthorized
      message := "not authorized for risk level " ++ reprText request.riskLevel.value
      observedValue := request.riskLevel.value
      requiredValue := String.intercalate ", " ((RiskLevel.ascending.filter
        (· ∈ profile.authorizedRiskLevels)).map RiskLevel.value) }

def checkStructuredOutput : Constraint := fun request profile _ =>
  require (!request.structuredOutputRequired || profile.supportsStructuredOutput)
    { code := .structuredOutputUnsupported
      message := "structured output required but not supported by this group"
      observedValue := "not supported"
      requiredValue := "supported" }

def checkToolCalling : Constraint := fun _ profile rule =>
  require (!rule.requiresToolCalling || profile.supportsToolCalling)
    { code := .toolCallingUnsupported
      message := "workload requires tool calling but this group does not support it"
      observedValue := "not supported"
      requiredValue := "supported" }

/-- A context window bounds input and output together. -/
def checkContextWindow : Constraint := fun request profile _ =>
  let totalTokens := request.contextTokensEstimated + request.maxOutputTokensEstimated
  requireWritten (totalTokens ≤ profile.maxContextTokens) do
    let total ← written totalTokens
    let input ← written request.contextTokensEstimated
    let output ← written request.maxOutputTokensEstimated
    let limit ← written profile.maxContextTokens
    return {
      code := .contextWindowExceeded
      message := "estimated input+output " ++ total ++ " tokens (input " ++ input ++ " + output " ++
        output ++ ") exceeds group limit of " ++ limit ++ " tokens"
      observedValue := total
      requiredValue := "<= " ++ limit }

def checkMaxCost : Constraint := fun request profile _ => do
  let estimatedCost ← (profile.estimatedCost request.contextTokensEstimated
    request.maxOutputTokensEstimated).mapError .signal
  require (estimatedCost.le request.maxCostUsd)
    { code := .costCeilingExceeded
      message := "estimated cost " ++ estimatedCost.toText ++ " usd exceeds request ceiling of " ++
        request.maxCostUsd.toText ++ " usd"
      observedValue := estimatedCost.toText ++ " usd"
      requiredValue := "<= " ++ request.maxCostUsd.toText ++ " usd" }

def checkMaxLatency : Constraint := fun request profile _ =>
  requireWritten (profile.typicalLatencyMs ≤ request.maxLatencyMs) do
    let latency ← written profile.typicalLatencyMs
    let ceiling ← written request.maxLatencyMs
    return {
      code := .latencyCeilingExceeded
      message := "typical latency " ++ latency ++ "ms exceeds request ceiling of " ++ ceiling ++ "ms"
      observedValue := latency ++ "ms"
      requiredValue := "<= " ++ ceiling ++ "ms" }

def checkAvailability : Constraint := fun _ profile _ =>
  require profile.available
    { code := .modelGroupUnavailable
      message := "model group is marked unavailable in the routing policy"
      observedValue := "unavailable"
      requiredValue := "available" }

/-- An empty allowlist restricts nobody. The record never lists the allowed agents. -/
def checkAgentAllowlist : Constraint := fun request profile _ =>
  require (profile.allowedAgents = ∅ ∨ request.agentName ∈ profile.allowedAgents)
    { code := .agentNotAllowed
      message := "agent " ++ reprText request.agentName ++ " is not in this group's allowlist"
      observedValue := request.agentName
      requiredValue := "an agent in this group's allowlist" }

def constraints : List Constraint :=
  [checkDataClassification, checkRiskLevel, checkStructuredOutput, checkToolCalling,
    checkContextWindow, checkMaxCost, checkMaxLatency, checkAvailability, checkAgentAllowlist]

/-- The inner loop over the constraints: the first failure, or nothing. -/
def evaluate (request : RouteRequest) (profile : ModelGroupProfile) (rule : WorkloadRule) :
    List Constraint → Except ConstraintException (Option ConstraintFailure)
  | [] => .ok none
  | constraint :: rest => do
    match ← constraint request profile rule with
    | some failure => .ok (some failure)
    | none => evaluate request profile rule rest

section Results

variable {satisfied : Bool} {failure : ConstraintFailure} {n : ℤ} {text : String}
variable {record : Except ConstraintException ConstraintFailure}

omit [UnicodeTables]

theorem require_eq_none : require satisfied failure = .ok none ↔ satisfied = true := by
  cases satisfied <;> simp [require]

theorem eq_of_require {stated : ConstraintFailure}
    (h : require satisfied stated = .ok (some failure)) : stated = failure := by
  cases satisfied <;> simp_all [require]

theorem requireWritten_eq_none : requireWritten satisfied record = .ok none ↔ satisfied = true := by
  cases satisfied <;> cases record <;> simp [requireWritten, Except.map]

theorem eq_of_requireWritten (h : requireWritten satisfied record = .ok (some failure)) :
    record = .ok failure := by
  cases satisfied <;> cases record <;> simp_all [requireWritten, Except.map]

theorem exists_requireWritten_iff : (∃ result, requireWritten satisfied record = .ok result) ↔
    (satisfied = false → ∃ failure, record = .ok failure) := by
  cases satisfied <;> cases record <;> simp [requireWritten, Except.map]

theorem onlyErrors_requireWritten {kind : ConstraintException → Prop} (h : OnlyErrors kind record) :
    OnlyErrors kind (requireWritten satisfied record) := by
  cases satisfied with
  | true => exact .ok _
  | false => exact fun e he => h e (by cases record <;> simp_all [requireWritten, Except.map])

theorem written_eq_ok : written n = .ok text ↔ Short n ∧ decimalText n = text := by
  rw [written, ← str_eq_some_iff]
  cases str n <;> simp

theorem onlyErrors_written : OnlyErrors (· = .valueError) (written n) := by
  rw [written]
  cases str n with
  | none => exact .error rfl
  | some text => exact .ok text

theorem exists_bind_written_iff {β : Type} {f : String → Except ConstraintException β} :
    (∃ b, (written n >>= f) = .ok b) ↔ Short n ∧ ∃ b, f (decimalText n) = .ok b := by
  constructor
  · rintro ⟨b, h⟩
    obtain ⟨text, hwritten, hb⟩ := bind_eq_ok.mp h
    obtain ⟨hshort, rfl⟩ := written_eq_ok.mp hwritten
    exact ⟨hshort, b, hb⟩
  · rintro ⟨hshort, b, hb⟩
    exact ⟨b, bind_eq_ok.mpr ⟨_, written_eq_ok.mpr ⟨hshort, rfl⟩, hb⟩⟩

end Results

end PolicyModelRouter.EliminatoryConstraints
