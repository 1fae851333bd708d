import PolicyModelRouter.DecimalRounding
import PolicyModelRouter.RoutingCatalog

/-!
# Estimated costs

The estimate of a call as a number: five roundings of exact operations. It signals only when
one of its two products overflows, and it is monotone in both token counts.
-/

namespace PolicyModelRouter.CostEstimates
open DecimalArithmetic RoutingCatalog

theorem defaultContext_wellFormed : defaultContext.WellFormed := ⟨by decide, by decide⟩

def InRange (tokens : ℤ) (price : Decimal) : Prop := tokens * price.mag < defaultContext.limit

def share (tokens : ℤ) (price : Decimal) : ℚ :=
  defaultContext.round (defaultContext.round (tokens * price.mag) / 10 ^ 6)

def cost (profile : ModelGroupProfile) (inputTokens outputTokens : ℤ) : ℚ :=
  defaultContext.round (share inputTokens profile.inputCostUsdPerMillionTokens +
    share outputTokens profile.outputCostUsdPerMillionTokens)

/-- Prices of at least zero. -/
structure Priced (profile : ModelGroupProfile) : Prop where
  input : profile.inputCostUsdPerMillionTokens.NonNegative
  output : profile.outputCostUsdPerMillionTokens.NonNegative

theorem nonNegative_ofInt {n : ℤ} (h : 0 ≤ n) : (Decimal.ofInt n).NonNegative :=
  .inl (by simp [Decimal.ofInt, h])

theorem mag_ofInt {n : ℤ} (h : 0 ≤ n) : (Decimal.ofInt n).mag = n := by
  rw [Decimal.mag, Decimal.ofInt, Nat.cast_natAbs, abs_of_nonneg h, zpow_zero, mul_one]

theorem nonNegative_of_le_zero {d : Decimal} (h : (Decimal.ofInt 0).le d = true) : d.NonNegative := by
  by_contra hneg
  simp only [Decimal.NonNegative, not_or, Bool.not_eq_false] at hneg
  have hcoefficient : (0 : ℤ) < d.coefficient := by exact_mod_cast Nat.pos_of_ne_zero hneg.2
  have hpower : (0 : ℤ) < 10 ^ (d.exponent - min 0 d.exponent).toNat := by positivity
  have hzero : (Decimal.ofInt 0).scaled (min 0 d.exponent) = 0 := by simp [Decimal.scaled, Decimal.ofInt]
  have hbelow : d.scaled (min 0 d.exponent) < 0 := by
    rw [Decimal.scaled, hneg.1, if_pos rfl, neg_one_mul, neg_mul]
    exact neg_neg_of_pos (mul_pos hcoefficient hpower)
  have hle := of_decide_eq_true h
  change (Decimal.ofInt 0).scaled (min 0 d.exponent) ≤ d.scaled (min 0 d.exponent) at hle
  omega

section Estimates

variable {tokens : ℤ} {price : Decimal}

theorem mul_nonneg_mag (h : 0 ≤ tokens) : 0 ≤ tokens * price.mag :=
  mul_nonneg (by exact_mod_cast h) price.mag_nonneg

private theorem share_mono {tokens' : ℤ} (h : 0 ≤ tokens') (fewer : tokens' ≤ tokens) :
    share tokens' price ≤ share tokens price := by
  have hprecise := defaultContext_wellFormed.precise
  have hproduct : tokens' * price.mag ≤ tokens * price.mag :=
    mul_le_mul_of_nonneg_right (by exact_mod_cast fewer) price.mag_nonneg
  have hrounded := round_mono hprecise (mul_nonneg_mag h) hproduct
  apply round_mono hprecise (div_nonneg (round_nonneg (mul_nonneg_mag h)) (by norm_num))
  exact div_le_div_of_nonneg_right hrounded (by norm_num)

theorem share_nonneg (h : 0 ≤ tokens) : 0 ≤ share tokens price :=
  round_nonneg (div_nonneg (round_nonneg (mul_nonneg_mag h)) (by norm_num))

theorem inRange_mono {tokens' : ℤ} (fewer : tokens' ≤ tokens) (h : InRange tokens price) :
    InRange tokens' price :=
  (mul_le_mul_of_nonneg_right (by exact_mod_cast fewer) price.mag_nonneg).trans_lt h

end Estimates

section Profiles

variable {profile : ModelGroupProfile} {inputTokens outputTokens : ℤ}

def shareOf (tokens : ℤ) (price : Decimal) : Except Signal Decimal := do
  let product ← Decimal.mul defaultContext (.ofInt tokens) price
  Decimal.div defaultContext product (Decimal.ofInt 1000000)

private theorem estimatedCost_eq : profile.estimatedCost inputTokens outputTokens = (do
    let input ← shareOf inputTokens profile.inputCostUsdPerMillionTokens
    let output ← shareOf outputTokens profile.outputCostUsdPerMillionTokens
    Decimal.add defaultContext input output) := by
  unfold ModelGroupProfile.estimatedCost shareOf
  simp only [bind_assoc]

/-- The top of the finite range, as a power of ten. -/
def top : ℤ := defaultContext.precision + defaultContext.etop

structure IsShare (tokens : ℤ) (price result : Decimal) : Prop where
  inRange : InRange tokens price
  mag : result.mag = share tokens price
  nonNegative : result.NonNegative
  bound : result.mag ≤ 10 ^ (top - 6)

private theorem share_le {tokens : ℤ} {price : Decimal} (h : 0 ≤ tokens)
    (inRange : InRange tokens price) :
    defaultContext.round (tokens * price.mag) / 10 ^ 6 ≤ 10 ^ (top - 6) := by
  have hproduct : tokens * price.mag ≤ 10 ^ top := inRange.le.trans (Decimal.limit_le_tenPow le_rfl)
  have hrounded := Decimal.round_le_of_le defaultContext_wellFormed (mul_nonneg_mag h) (by decide)
    hproduct
  rw [zpow_sub₀ (by norm_num)]
  exact div_le_div_of_nonneg_right hrounded (by norm_num)

theorem isShare_of_shareOf {tokens : ℤ} {price result : Decimal} (h : 0 ≤ tokens)
    (priced : price.NonNegative) (returned : shareOf tokens price = .ok result) :
    IsShare tokens price result := by
  have hmul := Decimal.computes_mul defaultContext_wellFormed (nonNegative_ofInt h) priced
  rw [mag_ofInt h] at hmul
  unfold shareOf at returned
  cases hproduct : Decimal.mul defaultContext (.ofInt tokens) price with
  | error signal => simp [hproduct, bind, Except.bind] at returned
  | ok product =>
    simp only [hproduct, bind, Except.bind] at returned
    obtain ⟨hrange, hmag, hsign, hdigits⟩ := hmul.returns product hproduct
    have hdiv := Decimal.computes_div defaultContext_wellFormed hsign hdigits (k := 6)
    obtain ⟨-, hquotient, hnonneg, -⟩ := hdiv.returns result returned
    rw [hmag] at hquotient
    refine ⟨hrange, hquotient, hnonneg, ?_⟩
    rw [hquotient]
    exact Decimal.round_le_of_le defaultContext_wellFormed
      (div_nonneg (round_nonneg (mul_nonneg_mag h)) (by norm_num)) (by decide) (share_le h hrange)

private theorem exists_shareOf {tokens : ℤ} {price : Decimal} (h : 0 ≤ tokens)
    (priced : price.NonNegative)
    (inRange : InRange tokens price) : ∃ result, shareOf tokens price = .ok result := by
  have hmul := Decimal.computes_mul defaultContext_wellFormed (nonNegative_ofInt h) priced
  rw [mag_ofInt h] at hmul
  obtain ⟨product, hproduct⟩ := hmul.total inRange
  obtain ⟨-, hmag, hsign, hdigits⟩ := hmul.returns product hproduct
  have hdiv := Decimal.computes_div defaultContext_wellFormed hsign hdigits (k := 6)
  rw [hmag] at hdiv
  obtain ⟨result, hresult⟩ := hdiv.total
    (Decimal.lt_limit_of_le_tenPow defaultContext_wellFormed (share_le h inRange) (by decide))
  exact ⟨result, by rw [shareOf, hproduct]; exact hresult⟩

/-- An estimate with a value is the cost of the call, and both its products have a value. -/
structure IsEstimate (profile : ModelGroupProfile) (inputTokens outputTokens : ℤ)
    (result : Decimal) : Prop where
  input : InRange inputTokens profile.inputCostUsdPerMillionTokens
  output : InRange outputTokens profile.outputCostUsdPerMillionTokens
  mag : result.mag = cost profile inputTokens outputTokens
  nonNegative : result.NonNegative

theorem isEstimate_of_estimatedCost (priced : Priced profile) (hi : 0 ≤ inputTokens)
    (ho : 0 ≤ outputTokens) {result : Decimal}
    (h : profile.estimatedCost inputTokens outputTokens = .ok result) :
    IsEstimate profile inputTokens outputTokens result := by
  rw [estimatedCost_eq] at h
  cases hinput : shareOf inputTokens profile.inputCostUsdPerMillionTokens with
  | error signal => simp [hinput, bind, Except.bind] at h
  | ok input =>
    cases houtput : shareOf outputTokens profile.outputCostUsdPerMillionTokens with
    | error signal => simp [hinput, houtput, bind, Except.bind] at h
    | ok output =>
      simp only [hinput, houtput, bind, Except.bind] at h
      have hin := isShare_of_shareOf hi priced.input hinput
      have hout := isShare_of_shareOf ho priced.output houtput
      have hadd := Decimal.computes_add defaultContext_wellFormed hin.nonNegative hout.nonNegative
      obtain ⟨-, hmag, hsign, -⟩ := hadd.returns result h
      refine ⟨hin.inRange, hout.inRange, ?_, hsign⟩
      rw [hmag, hin.mag, hout.mag, cost]

theorem exists_estimatedCost (priced : Priced profile) (hi : 0 ≤ inputTokens) (ho : 0 ≤ outputTokens)
    (input : InRange inputTokens profile.inputCostUsdPerMillionTokens)
    (output : InRange outputTokens profile.outputCostUsdPerMillionTokens) :
    ∃ result, profile.estimatedCost inputTokens outputTokens = .ok result := by
  obtain ⟨first, hfirst⟩ := exists_shareOf hi priced.input input
  obtain ⟨second, hsecond⟩ := exists_shareOf ho priced.output output
  have hin := isShare_of_shareOf hi priced.input hfirst
  have hout := isShare_of_shareOf ho priced.output hsecond
  have hsum : first.mag + second.mag ≤ 10 ^ (top - 5) := by
    have hsplit : (10 : ℚ) ^ (top - 5) = 10 * 10 ^ (top - 6) := by
      rw [(by omega : top - 5 = top - 6 + 1), zpow_add_one₀ (by norm_num), mul_comm]
    have := tenPow_pos (top - 6)
    rw [hsplit]
    linarith [hin.bound, hout.bound]
  have hadd := Decimal.computes_add defaultContext_wellFormed hin.nonNegative hout.nonNegative
  obtain ⟨result, hresult⟩ := hadd.total
    (Decimal.lt_limit_of_le_tenPow defaultContext_wellFormed hsum (by decide))
  exact ⟨result, by rw [estimatedCost_eq, hfirst, hsecond]; exact hresult⟩

/-- Fewer tokens cost no more. -/
theorem cost_mono {inputTokens' outputTokens' : ℤ} (hi : 0 ≤ inputTokens') (ho : 0 ≤ outputTokens')
    (fewerInput : inputTokens' ≤ inputTokens) (fewerOutput : outputTokens' ≤ outputTokens) :
    cost profile inputTokens' outputTokens' ≤ cost profile inputTokens outputTokens := by
  refine round_mono defaultContext_wellFormed.precise ?_ ?_
  · exact add_nonneg (share_nonneg hi) (share_nonneg ho)
  · exact add_le_add (share_mono hi fewerInput) (share_mono ho fewerOutput)

end Profiles

end PolicyModelRouter.CostEstimates
