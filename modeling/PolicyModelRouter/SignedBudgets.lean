import PolicyModelRouter.CostEstimates
import PolicyModelRouter.DecimalIntegrality
import PolicyModelRouter.VerificationSpecification
import PolicyModelRouter.WireContracts

/-!
# Signed budgets

The conversion of a cost ceiling to integer micros multiplies in the arithmetic context of
the interpreter, so that it tests the integrality of a rounded product. It is the test of
the exact product exactly when that product has a value and rounding it makes no integer
of a fraction.
-/

namespace PolicyModelRouter.SignedBudgets
open AuthorizationContract AuthorizationVerifier CostEstimates DecimalArithmetic OrderedChecks
open RouterCalls RoutingCatalog RuntimeAuthorizationVerifier VerificationSpecification WireContracts

def exactMicros (value : Decimal) : ℚ := value.mag * 10 ^ 6

def precisionError : PyException :=
  denial .requestCostPrecisionUnsupported "Route cost cannot be represented as integer USD micros"

theorem computes_micros {value : Decimal} (nonNegative : value.NonNegative) :
    Decimal.Computes defaultContext (exactMicros value)
      (Decimal.mul defaultContext value (.ofInt 1000000)) := by
  have h := Decimal.computes_mul defaultContext_wellFormed nonNegative
    (nonNegative_ofInt (n := 1000000) (by norm_num))
  have hmillion : (Decimal.ofInt 1000000).mag = 10 ^ 6 := by
    rw [mag_ofInt (by norm_num)]
    norm_num
  rwa [hmillion] at h

/-- The conversion overflows, returns the integer the product was rounded to, or reports
that it was not rounded to one. -/
theorem costMicros_cases {value : Decimal} (nonNegative : value.NonNegative) :
    (defaultContext.limit ≤ exactMicros value ∧
      ∃ signal, costMicros value = .error (.decimalSignal signal)) ∨
    exactMicros value < defaultContext.limit ∧
      ((∃ n : ℤ, defaultContext.round (exactMicros value) = n ∧ costMicros value = .ok n) ∨
        (∀ n : ℤ, defaultContext.round (exactMicros value) ≠ n) ∧
          costMicros value = .error precisionError) := by
  have hmul := computes_micros nonNegative
  cases hproduct : Decimal.mul defaultContext value (.ofInt 1000000) with
  | error signal =>
    refine .inl ⟨not_lt.mp fun hlt => ?_, signal, ?_⟩
    · obtain ⟨micros, hmicros⟩ := hmul.total hlt
      cases hproduct.symm.trans hmicros
    · rw [costMicros, hproduct]
      rfl
  | ok micros =>
    obtain ⟨hlimit, hmag, hsign, -⟩ := hmul.returns micros hproduct
    refine .inr ⟨hlimit, ?_⟩
    rw [costMicros_of_mul hproduct, ← hmag]
    by_cases hintegral : ∃ n : ℤ, micros.mag = n
    · have heqv := (Decimal.eqv_toIntegralValue_iff hsign).mpr hintegral
      obtain ⟨n, hn⟩ := hintegral
      refine .inl ⟨n, hn, ?_⟩
      rw [heqv, Decimal.toInt_toIntegralValue hsign hn]
      rfl
    · have heqv := Bool.eq_false_iff.mpr ((Decimal.eqv_toIntegralValue_iff hsign).not.mpr hintegral)
      refine .inr ⟨fun n hn => hintegral ⟨n, hn⟩, ?_⟩
      rw [heqv]
      rfl

/-- The conversion returns exactly the integer number of micros and refuses every other
amount, and a request that is bound carries the signed number of micros. -/
structure BindsExactCost (value : Decimal) : Prop where
  micros : ∀ n : ℤ, costMicros value = .ok n ↔ exactMicros value = n
  otherwise : (∀ n : ℤ, exactMicros value ≠ n) → costMicros value = .error precisionError
  binding : ∀ (claims : RuntimeAuthorizationClaims) (request : RouteRequest),
    request.maxCostUsd = value → verifyRequestBinding claims request = .ok () →
      exactMicros value = claims.request.maxCostUsdMicros.val

/-- The product is finite in the context, and either no digit of it is dropped or every integer
is further away than half a unit in the last place. -/
structure KeepsIntegrality (x : ℚ) : Prop where
  finite : x < defaultContext.limit
  kept : (∃ m : ℤ, x = m * defaultContext.lastPlace x) ∨
    ∀ n : ℤ, defaultContext.lastPlace x / 2 < |x - n|

/-- A bound request was converted to the signed number of micros. -/
theorem costMicros_of_verifyRequestBinding {claims : RuntimeAuthorizationClaims}
    {request : RouteRequest} (h : verifyRequestBinding claims request = .ok ()) :
    costMicros request.maxCostUsd = .ok claims.request.maxCostUsdMicros.val := by
  obtain ⟨micros, hmicros, hbound⟩ := bind_eq_ok.mp h
  have hbinds := mismatches_eq_nil_iff.mp (not_not.mp (raiseIf_eq_ok.mp hbound))
  rw [hmicros, hbinds.cost]

private theorem keepsIntegrality_of_binds {value : Decimal} (nonNegative : value.NonNegative)
    (binds : BindsExactCost value) : KeepsIntegrality (exactMicros value) := by
  rcases costMicros_cases nonNegative with ⟨-, signal, hsignal⟩ | ⟨hlimit, hcases⟩
  · exfalso
    by_cases hintegral : ∃ n : ℤ, exactMicros value = n
    · obtain ⟨n, hn⟩ := hintegral
      cases hsignal.symm.trans ((binds.micros n).mpr hn)
    · cases hsignal.symm.trans (binds.otherwise fun n hn => hintegral ⟨n, hn⟩)
  · refine ⟨hlimit, round_integral_iff.mp fun n hn => (binds.micros n).mp ?_⟩
    rcases hcases with ⟨m, hm, hcost⟩ | ⟨hnone, -⟩
    · rw [hcost, Int.cast_injective (hm.symm.trans hn)]
    · exact absurd hn (hnone n)

private theorem binds_of_keepsIntegrality {value : Decimal} (nonNegative : value.NonNegative)
    (keeps : KeepsIntegrality (exactMicros value)) : BindsExactCost value := by
  have hrounded : ∀ n : ℤ, defaultContext.round (exactMicros value) = n ↔ exactMicros value = n := by
    refine fun n => ⟨round_integral_iff.mpr keeps.kept n, fun hn => ?_⟩
    rcases keeps.kept with hexact | hfar
    · rw [round_eq_self_iff.mpr hexact, hn]
    · have hzero := hfar n
      rw [hn, sub_self, abs_zero] at hzero
      exact absurd hzero (not_lt.mpr (half_pos lastPlace_pos).le)
  have hmicros : ∀ n : ℤ, costMicros value = .ok n ↔ exactMicros value = n := by
    intro n
    rw [← hrounded]
    rcases costMicros_cases nonNegative with ⟨hover, -⟩ | ⟨-, ⟨m, hm, hcost⟩ | ⟨hnone, hcost⟩⟩
    · exact absurd keeps.finite (not_lt.mpr hover)
    · rw [hm, hcost, Except.ok.injEq, Int.cast_inj]
    · exact iff_of_false (fun h => nomatch hcost.symm.trans h) (hnone n)
  refine ⟨hmicros, fun hnone => ?_, ?_⟩
  · rcases costMicros_cases nonNegative with ⟨hover, -⟩ | ⟨-, ⟨m, hm, -⟩ | ⟨-, hcost⟩⟩
    · exact absurd keeps.finite (not_lt.mpr hover)
    · exact absurd ((hrounded m).mp hm) (hnone m)
    · exact hcost
  · rintro claims request rfl hbinding
    exact (hmicros _).mp (costMicros_of_verifyRequestBinding hbinding)

/-- A ceiling is bound exactly if and only if its product with a million keeps its integrality. -/
theorem binds_exact_cost_iff (maxCostUsd : PositiveDecimal) :
    BindsExactCost maxCostUsd.val ↔ KeepsIntegrality (exactMicros maxCostUsd.val) :=
  ⟨keepsIntegrality_of_binds (.inl maxCostUsd.property.1),
    binds_of_keepsIntegrality (.inl maxCostUsd.property.1)⟩

/-- A ceiling just above one micro, in 29 digits. -/
def aboveOneMicro : PositiveDecimal := ⟨⟨false, 10 ^ 28 + 1, -34⟩, by decide⟩

/-- It is converted to one micro. -/
theorem not_binds_above_one_micro : ¬ BindsExactCost aboveOneMicro.val := by
  intro h
  have hone : costMicros aboveOneMicro.val = .ok 1 := by decide +kernel
  have hexact := (h.micros 1).mp hone
  norm_num [exactMicros, Decimal.mag, aboveOneMicro] at hexact

end PolicyModelRouter.SignedBudgets
