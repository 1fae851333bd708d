import PolicyModelRouter.DecimalIntegrality
import PolicyModelRouter.RelaxedRequests

/-!
# Exact cost ceilings

The ceiling is checked exactly for every call of a group when every exact cost of the group has
at most 28 digits, and only then. For a single call it is also enough that the ceiling is further
from the exact cost than five roundings can bring the estimate.
-/

namespace PolicyModelRouter.ExactCeilings
open AuthorizationContract CostEstimates DecimalArithmetic EliminatoryConstraints FloatFormats
open RelaxedRequests WireContracts
open RoutingCatalog hiding RejectedCandidate

def product (tokens : ℤ) (price : Decimal) : ℚ := tokens * price.mag

/-- The cost of a call without rounding. -/
def exactCost (profile : ModelGroupProfile) (inputTokens outputTokens : ℤ) : ℚ :=
  (product inputTokens profile.inputCostUsdPerMillionTokens +
    product outputTokens profile.outputCostUsdPerMillionTokens) / 10 ^ 6

/-- At most 28 digits, and none below the least exponent. -/
def Kept (x : ℚ) : Prop := defaultContext.format.Kept x

/-- A unit in the 28th digit of one. -/
def unit : ℚ := 10 ^ (-27 : ℤ)

def tiny : ℚ := 10 ^ defaultContext.etiny

/-- The estimate has a value, and the constraint holds exactly for the calls that cost at
most the ceiling. -/
structure ExactCeiling (request : ModelRouteRequest) (profile : ModelGroupProfile)
    (rule : WorkloadRule) : Prop where
  total : ∃ estimate, profile.estimatedCost request.contextTokensEstimated
    request.maxOutputTokensEstimated = .ok estimate
  exact_ : checkMaxCost (toDomainRequest request) profile rule = .ok none ↔
    exactCost profile request.contextTokensEstimated request.maxOutputTokensEstimated ≤
      request.maxCostUsd.val.mag

def asking (request : ModelRouteRequest) (inputTokens outputTokens : Between 0 10000000)
    (ceiling : PositiveDecimal) : ModelRouteRequest :=
  { request with
    contextTokensEstimated := inputTokens
    maxOutputTokensEstimated := outputTokens
    maxCostUsd := ceiling }

def ExactThroughout (request : ModelRouteRequest) (profile : ModelGroupProfile) (rule : WorkloadRule) :
    Prop :=
  ∀ inputTokens outputTokens ceiling,
    ExactCeiling (asking request inputTokens outputTokens ceiling) profile rule

/-- Both products are finite in the context, and the exact cost has at most 28 digits. -/
structure ShortCost (profile : ModelGroupProfile) (inputTokens outputTokens : ℤ) : Prop where
  input : InRange inputTokens profile.inputCostUsdPerMillionTokens
  output : InRange outputTokens profile.outputCostUsdPerMillionTokens
  kept : Kept (exactCost profile inputTokens outputTokens)

/-- Both products are finite, and either both shares and their sum have at most 28 digits or the
ceiling is clear of the exact cost. -/
structure ClearCeiling (profile : ModelGroupProfile) (inputTokens outputTokens : ℤ)
    (ceiling : ℚ) : Prop where
  input : InRange inputTokens profile.inputCostUsdPerMillionTokens
  output : InRange outputTokens profile.outputCostUsdPerMillionTokens
  apart : (Kept (product inputTokens profile.inputCostUsdPerMillionTokens / 10 ^ 6) ∧
      Kept (product outputTokens profile.outputCostUsdPerMillionTokens / 10 ^ 6) ∧
      Kept (exactCost profile inputTokens outputTokens)) ∨
    2 * unit * exactCost profile inputTokens outputTokens + 3 * tiny <
      |ceiling - exactCost profile inputTokens outputTokens|

section Rounding

variable {profile : ModelGroupProfile} {inputTokens outputTokens tokens : ℤ} {price : Decimal} {x : ℚ}

theorem product_nonneg (price : Decimal) (h : 0 ≤ tokens) : 0 ≤ product tokens price := mul_nonneg_mag h

private theorem tiny_pos : 0 < tiny := tenPow_pos _

theorem abs_added_le (h : 0 ≤ x) : |defaultContext.round x - x| ≤ (x * unit + tiny) / 2 := by
  have hbound := Format.abs_round_sub_le_add (f := defaultContext.format) (x := x)
  rw [abs_of_nonneg h, base_format, ← round_eq h] at hbound
  exact hbound

private theorem abs_share_sub_le (price : Decimal) (h : 0 ≤ tokens) :
    |share tokens price - product tokens price / 10 ^ 6| ≤
      11 / 10 * (unit * (product tokens price / 10 ^ 6)) + tiny := by
  have hproduct := product_nonneg price h
  have hrounded : 0 ≤ defaultContext.round (product tokens price) := round_nonneg hproduct
  have hfirst := abs_le.mp (abs_added_le hproduct)
  have hsecond := abs_le.mp (abs_added_le (div_nonneg hrounded (by norm_num : (0 : ℚ) ≤ 10 ^ 6)))
  have htiny := tiny_pos
  have hunit : unit = 1 / 10 ^ 27 := by norm_num [unit]
  have hshare : share tokens price =
    defaultContext.round (defaultContext.round (product tokens price) / 10 ^ 6) := rfl
  rw [hunit] at hfirst hsecond ⊢
  rw [hshare, abs_le]
  constructor <;> linarith

/-- Five roundings move the estimate by less than two units in the 28th digit. -/
theorem abs_cost_sub_le (hi : 0 ≤ inputTokens) (ho : 0 ≤ outputTokens) :
    |cost profile inputTokens outputTokens - exactCost profile inputTokens outputTokens| ≤
      2 * unit * exactCost profile inputTokens outputTokens + 3 * tiny := by
  have hinput := abs_le.mp (abs_share_sub_le profile.inputCostUsdPerMillionTokens hi)
  have houtput := abs_le.mp (abs_share_sub_le profile.outputCostUsdPerMillionTokens ho)
  have hshares : 0 ≤ share inputTokens profile.inputCostUsdPerMillionTokens +
      share outputTokens profile.outputCostUsdPerMillionTokens :=
    add_nonneg (share_nonneg hi) (share_nonneg ho)
  have hsum := abs_le.mp (abs_added_le hshares)
  have hfirst := product_nonneg profile.inputCostUsdPerMillionTokens hi
  have hsecond := product_nonneg profile.outputCostUsdPerMillionTokens ho
  have htiny := tiny_pos
  have hunit : unit = 1 / 10 ^ 27 := by norm_num [unit]
  rw [hunit] at hinput houtput hsum ⊢
  rw [cost, exactCost, abs_le]
  constructor <;> linarith

/-- A quotient by a million in few digits comes from a product in few digits. -/
theorem share_eq_of_kept (h : 0 ≤ tokens) (kept : Kept (product tokens price / 10 ^ 6)) :
    share tokens price = product tokens price / 10 ^ 6 := by
  have hproduct := product_nonneg price h
  have hquotient : defaultContext.round (product tokens price / 10 ^ 6) =
      defaultContext.format.round (product tokens price / 10 ^ 6) :=
    round_eq (div_nonneg hproduct (by norm_num))
  have hmillions : Kept (product tokens price) := by
    obtain ⟨place, hleast, ⟨m, hm⟩, hbelow⟩ := kept
    rw [base_format] at hm hbelow
    have hsplit : ∀ e : ℤ, (10 : ℚ) ^ (e + 6) = 10 ^ e * 10 ^ 6 := fun e =>
      zpow_add₀ (by norm_num) e 6
    refine ⟨place + 6, by omega, ⟨m, ?_⟩, ?_⟩
    · rw [base_format, hsplit, ← mul_assoc, ← hm, div_mul_cancel₀ _ (by norm_num)]
    · rw [base_format, add_right_comm, hsplit, ← div_lt_iff₀ (by norm_num)]
      rwa [abs_div, abs_of_pos (by norm_num : (0 : ℚ) < 10 ^ 6)] at hbelow
  rw [share, ← product, round_eq hproduct, hmillions.round_eq, hquotient, kept.round_eq]

private theorem cost_eq_of_kept (hi : 0 ≤ inputTokens) (ho : 0 ≤ outputTokens)
    (input : Kept (product inputTokens profile.inputCostUsdPerMillionTokens / 10 ^ 6))
    (output : Kept (product outputTokens profile.outputCostUsdPerMillionTokens / 10 ^ 6))
    (kept : Kept (exactCost profile inputTokens outputTokens)) :
    cost profile inputTokens outputTokens = exactCost profile inputTokens outputTokens := by
  have hfirst := product_nonneg profile.inputCostUsdPerMillionTokens hi
  have hsecond := product_nonneg profile.outputCostUsdPerMillionTokens ho
  have hround := kept.round_eq
  rw [exactCost] at hround ⊢
  rw [cost, share_eq_of_kept hi input, share_eq_of_kept ho output, ← add_div,
    round_eq (div_nonneg (add_nonneg hfirst hsecond) (by norm_num)), hround]

private theorem kept_cost (hi : 0 ≤ inputTokens) (ho : 0 ≤ outputTokens) :
    Kept (cost profile inputTokens outputTokens) := by
  rw [cost, round_eq (add_nonneg (share_nonneg hi) (share_nonneg ho))]
  exact Format.kept_round defaultContext_wellFormed.precise

end Rounding

section Ceilings

variable {profile : ModelGroupProfile} {inputTokens outputTokens : ℤ}

private theorem exactCost_nonneg (profile : ModelGroupProfile) (hi : 0 ≤ inputTokens)
    (ho : 0 ≤ outputTokens) :
    0 ≤ exactCost profile inputTokens outputTokens :=
  div_nonneg (add_nonneg (product_nonneg _ hi) (product_nonneg _ ho)) (by norm_num)

theorem exists_mag_eq_exactCost (profile : ModelGroupProfile) (hi : 0 ≤ inputTokens)
    (ho : 0 ≤ outputTokens) :
    ∃ d : Decimal, d.mag = exactCost profile inputTokens outputTokens := by
  generalize he : min profile.inputCostUsdPerMillionTokens.exponent
    profile.outputCostUsdPerMillionTokens.exponent = e
  obtain ⟨m, hm⟩ := Decimal.mag_eq_mul (d := profile.inputCostUsdPerMillionTokens) (q := e) (by omega)
  obtain ⟨n, hn⟩ := Decimal.mag_eq_mul (d := profile.outputCostUsdPerMillionTokens) (q := e) (by omega)
  have hcost : exactCost profile inputTokens outputTokens =
      ((inputTokens * m + outputTokens * n : ℤ) : ℚ) * 10 ^ (e - 6) := by
    rw [exactCost, product, product, hm, hn, zpow_sub₀ (by norm_num)]
    push_cast
    norm_num
    ring
  have hnonneg := exactCost_nonneg profile hi ho
  rw [hcost] at hnonneg ⊢
  have hunits : 0 ≤ inputTokens * m + outputTokens * n := by
    exact_mod_cast nonneg_of_mul_nonneg_left hnonneg (tenPow_pos (e - 6))
  refine ⟨⟨false, (inputTokens * m + outputTokens * n).natAbs, e - 6⟩, ?_⟩
  rw [Decimal.mag, Nat.cast_natAbs, abs_of_nonneg hunits]

/-- Between two decimals there is a ceiling. -/
theorem exists_ceiling {x y : Decimal} (h : x.mag < y.mag) :
    ∃ ceiling : PositiveDecimal, x.mag ≤ ceiling.val.mag ∧ ceiling.val.mag < y.mag := by
  by_cases hzero : x.coefficient = 0
  · rw [Decimal.mag_eq_zero hzero] at h ⊢
    have hy : y.coefficient ≠ 0 := fun hy => h.ne' (Decimal.mag_eq_zero hy)
    refine ⟨⟨⟨false, y.coefficient, y.exponent - 1⟩, rfl, hy⟩, Decimal.mag_nonneg _, ?_⟩
    rw [Decimal.mag, zpow_sub₀ (by norm_num), zpow_one, ← mul_div_assoc]
    exact div_lt_self h (by norm_num)
  · exact ⟨⟨⟨false, x.coefficient, x.exponent⟩, rfl, hzero⟩, le_rfl, h⟩

theorem mag_eq_of_ceilings {x y : Decimal}
    (h : ∀ ceiling : PositiveDecimal, x.mag ≤ ceiling.val.mag ↔ y.mag ≤ ceiling.val.mag) :
    x.mag = y.mag := by
  rcases lt_trichotomy x.mag y.mag with hlt | heq | hgt
  · obtain ⟨ceiling, hx, hy⟩ := exists_ceiling hlt
    exact absurd ((h ceiling).mp hx) (not_le.mpr hy)
  · exact heq
  · obtain ⟨ceiling, hy, hx⟩ := exists_ceiling hgt
    exact absurd ((h ceiling).mpr hy) (not_le.mpr hx)

theorem le_iff_of_clear {x y ceiling bound : ℚ} (moved : |y - x| ≤ bound)
    (clear : bound < |ceiling - x|) : y ≤ ceiling ↔ x ≤ ceiling := by
  rw [abs_le] at moved
  rcases lt_abs.mp clear with h | h
  · exact iff_of_true (by linarith) (by linarith)
  · exact iff_of_false (by linarith) (by linarith)

end Ceilings

/-- A price is a whole number of units of a place. -/
def WholeUnits (place : ℤ) (price : Decimal) : Prop := ∃ m : ℤ, price.mag = m * 10 ^ place

/-- Prices of whole units of a place have short costs while these have at most 28 digits there. -/
theorem shortCost_of_wholeUnits {profile : ModelGroupProfile} {inputTokens outputTokens place : ℤ}
    (hi : 0 ≤ inputTokens) (ho : 0 ≤ outputTokens)
    (low : defaultContext.etiny + 6 ≤ place) (high : place < defaultContext.etop)
    (input : WholeUnits place profile.inputCostUsdPerMillionTokens)
    (output : WholeUnits place profile.outputCostUsdPerMillionTokens)
    (below : product inputTokens profile.inputCostUsdPerMillionTokens +
      product outputTokens profile.outputCostUsdPerMillionTokens <
        10 ^ (place + defaultContext.precision)) :
    ShortCost profile inputTokens outputTokens := by
  have hfirst := product_nonneg profile.inputCostUsdPerMillionTokens hi
  have hsecond := product_nonneg profile.outputCostUsdPerMillionTokens ho
  have hrange : ∀ {x : ℚ}, x < 10 ^ (place + defaultContext.precision) → x < defaultContext.limit :=
    fun h => Decimal.lt_limit_of_le_tenPow defaultContext_wellFormed h.le (by omega)
  have hsplit : ∀ e : ℤ, (10 : ℚ) ^ (e - 6) = 10 ^ e / 10 ^ 6 := fun e => zpow_sub₀ (by norm_num) e 6
  have hinput : product inputTokens profile.inputCostUsdPerMillionTokens <
      10 ^ (place + defaultContext.precision) := by linarith
  have houtput : product outputTokens profile.outputCostUsdPerMillionTokens <
      10 ^ (place + defaultContext.precision) := by linarith
  have hleast : defaultContext.etiny ≤ place - 6 := by omega
  refine ⟨hrange hinput, hrange houtput, place - 6, hleast, ?_, ?_⟩
  · obtain ⟨m, hm⟩ := input
    obtain ⟨n, hn⟩ := output
    refine ⟨inputTokens * m + outputTokens * n, ?_⟩
    rw [base_format, exactCost, product, product, hm, hn, hsplit]
    push_cast
    ring
  · rw [base_format, sub_add_eq_add_sub, hsplit, abs_of_nonneg (exactCost_nonneg _ hi ho)]
    exact div_lt_div_of_pos_right below (by norm_num)

section Groups

variable {request : ModelRouteRequest} {profile : ModelGroupProfile} {rule : WorkloadRule}

theorem exactCeiling_iff_cost (priced : Priced profile) :
    ExactCeiling request profile rule ↔
      Estimable profile (toDomainRequest request) ∧
        (cost profile request.contextTokensEstimated request.maxOutputTokensEstimated ≤
            request.maxCostUsd.val.mag ↔
          exactCost profile request.contextTokensEstimated request.maxOutputTokensEstimated ≤
            request.maxCostUsd.val.mag) := by
  have hestimable := estimable_iff priced (counts_toDomainRequest request)
  have hcheck : checkMaxCost (toDomainRequest request) profile rule = .ok none ↔ _ :=
    checkMaxCost_eq_none priced
  constructor
  · rintro ⟨htotal, hexact⟩
    have h := hestimable.mp htotal
    rw [hcheck, and_iff_right h] at hexact
    exact ⟨h, hexact⟩
  · rintro ⟨h, hexact⟩
    refine ⟨hestimable.mpr h, ?_⟩
    rw [hcheck, and_iff_right h]
    exact hexact

/-- What is exact under every ceiling costs at most 28 digits. -/
theorem shortCost_of_exact (priced : Priced profile) {inputTokens outputTokens : Between 0 10000000}
    (h : ∀ ceiling, ExactCeiling (asking request inputTokens outputTokens ceiling) profile rule) :
    ShortCost profile inputTokens outputTokens := by
  have hi := inputTokens.property.1
  have ho := outputTokens.property.1
  have hcompare := fun ceiling => ((exactCeiling_iff_cost priced).mp (h ceiling)).2
  obtain ⟨hinput, houtput⟩ := ((exactCeiling_iff_cost priced).mp (h request.maxCostUsd)).1
  obtain ⟨estimate, hestimate⟩ := exists_estimatedCost priced hi ho hinput houtput
  have hmag := (isEstimate_of_estimatedCost priced hi ho hestimate).mag
  obtain ⟨exact_, hexact⟩ := exists_mag_eq_exactCost profile hi ho
  refine ⟨hinput, houtput, ?_⟩
  rw [← hexact, ← mag_eq_of_ceilings fun ceiling => ?_, hmag]
  · exact kept_cost hi ho
  · rw [hmag, hexact]
    exact hcompare ceiling

theorem kept_input {inputTokens : ℤ} (h : ShortCost profile inputTokens 0) :
    Kept (product inputTokens profile.inputCostUsdPerMillionTokens / 10 ^ 6) := by
  have hkept := h.kept
  rwa [exactCost, product, product, Int.cast_zero, zero_mul, add_zero, ← product] at hkept

private theorem kept_output {outputTokens : ℤ} (h : ShortCost profile 0 outputTokens) :
    Kept (product outputTokens profile.outputCostUsdPerMillionTokens / 10 ^ 6) := by
  have hkept := h.kept
  rwa [exactCost, product, Int.cast_zero, zero_mul, zero_add] at hkept

private theorem exactCeiling_of_clear (priced : Priced profile)
    {inputTokens outputTokens : Between 0 10000000}
    {ceiling : PositiveDecimal} (clear : ClearCeiling profile inputTokens outputTokens ceiling.val.mag) :
    ExactCeiling (asking request inputTokens outputTokens ceiling) profile rule := by
  have hi := inputTokens.property.1
  have ho := outputTokens.property.1
  apply (exactCeiling_iff_cost priced).mpr
  refine ⟨⟨clear.input, clear.output⟩, ?_⟩
  rcases clear.apart with ⟨hinput, houtput, hkept⟩ | hfar
  · change cost profile inputTokens outputTokens ≤ _ ↔ _
    rw [cost_eq_of_kept hi ho hinput houtput hkept]
    exact Iff.rfl
  · exact le_iff_of_clear (abs_cost_sub_le hi ho) hfar

/-- Every call of a group is checked exactly if and only if no cost of the group has more than 28
digits; a single call is checked exactly when its ceiling is clear of its cost. -/
theorem exact_ceiling_iff (priced : Priced profile) :
    (ExactThroughout request profile rule ↔
      ∀ inputTokens outputTokens : Between 0 10000000, ShortCost profile inputTokens outputTokens) ∧
    ∀ (inputTokens outputTokens : Between 0 10000000) (ceiling : PositiveDecimal),
      ClearCeiling profile inputTokens outputTokens ceiling.val.mag →
      ExactCeiling (asking request inputTokens outputTokens ceiling) profile rule := by
  refine ⟨⟨fun h i o => shortCost_of_exact priced (h i o), fun h i o ceiling => ?_⟩,
    fun i o ceiling => exactCeiling_of_clear priced⟩
  have hshort := h i o
  apply exactCeiling_of_clear priced
  refine ⟨hshort.input, hshort.output, .inl ⟨?_, ?_, hshort.kept⟩⟩
  · exact kept_input (h i ⟨0, by decide⟩)
  · exact kept_output (h ⟨0, by decide⟩ o)

end Groups

namespace Deployed
open RoutingSpecification.Deployed (profile)

def longPrice : ModelGroupProfile :=
  { profile with
    inputCostUsdPerMillionTokens := ⟨false, 10 ^ 28 + 1, -28⟩
    outputCostUsdPerMillionTokens := ⟨false, 0, 0⟩ }

def millionTokens : ModelRouteRequest :=
  { AuthorizedDecisions.Deployed.request with
    contextTokensEstimated := ⟨1000000, by decide⟩
    maxCostUsd := ⟨⟨false, 1, 0⟩, by decide⟩ }

def twoUsd : PositiveDecimal := ⟨⟨false, 2, 0⟩, by decide⟩

end Deployed

open Deployed in
open RoutingSpecification.Deployed (group profile) in
theorem exact_ceiling_hundredths :
    ExactThroughout AuthorizedDecisions.Deployed.request profile ⟨group, false⟩ ∧
      ExactCeiling (asking millionTokens ⟨1000000, by decide⟩ ⟨0, by decide⟩ twoUsd) longPrice
        ⟨group, false⟩ := by
  constructor
  · apply (exact_ceiling_iff ⟨.inl rfl, .inl rfl⟩).1.mpr
    intro inputTokens outputTokens
    have hinput : profile.inputCostUsdPerMillionTokens.mag = (15 : ℤ) * 10 ^ (-2 : ℤ) := by
      norm_num [profile, Decimal.mag]
    have houtput : profile.outputCostUsdPerMillionTokens.mag = (60 : ℤ) * 10 ^ (-2 : ℤ) := by
      norm_num [profile, Decimal.mag]
    have hlow : defaultContext.etiny + 6 ≤ -2 := by decide
    apply shortCost_of_wholeUnits inputTokens.property.1 outputTokens.property.1 hlow (by decide)
      ⟨15, hinput⟩ ⟨60, houtput⟩
    have hi : ((inputTokens : ℤ) : ℚ) ≤ 10000000 := by exact_mod_cast inputTokens.property.2
    have ho : ((outputTokens : ℤ) : ℚ) ≤ 10000000 := by exact_mod_cast outputTokens.property.2
    rw [product, product, hinput, houtput]
    norm_num [RoutingCatalog.defaultContext]
    linarith
  · apply (@exact_ceiling_iff _ longPrice _ ⟨.inl rfl, .inl rfl⟩).2
    have htiny : tiny ≤ 10 ^ (-1 : ℤ) := tenPow_le (by decide)
    have hcost : exactCost longPrice 1000000 0 = 1 + 1 / 10 ^ 28 := by
      norm_num [exactCost, product, Decimal.mag, longPrice]
    have hlimit : ∀ {x : ℚ}, x ≤ 10 ^ (7 : ℤ) → x < defaultContext.limit := fun h =>
      Decimal.lt_limit_of_le_tenPow defaultContext_wellFormed h (by decide)
    refine ⟨hlimit ?_, hlimit ?_, .inr ?_⟩
    · norm_num [Decimal.mag, longPrice]
    · norm_num [Decimal.mag, longPrice]
    · change 2 * unit * exactCost longPrice 1000000 0 + 3 * tiny <
        |twoUsd.val.mag - exactCost longPrice 1000000 0|
      have hceiling : twoUsd.val.mag = 2 := by norm_num [Decimal.mag, twoUsd]
      rw [hcost, hceiling, abs_of_pos (by norm_num)]
      norm_num [unit] at htiny ⊢
      linarith

/-- A call that costs more than its ceiling passes. -/
theorem not_exact_ceiling_longPrice :
    ¬ ExactCeiling Deployed.millionTokens Deployed.longPrice
      ⟨RoutingSpecification.Deployed.group, false⟩ := by
  intro h
  have hpasses : checkMaxCost (toDomainRequest Deployed.millionTokens) Deployed.longPrice
      ⟨RoutingSpecification.Deployed.group, false⟩ = .ok none := by decide +kernel
  have hcost := h.exact_.mp hpasses
  norm_num [exactCost, product, Decimal.mag, Deployed.millionTokens, Deployed.longPrice] at hcost

end PolicyModelRouter.ExactCeilings
