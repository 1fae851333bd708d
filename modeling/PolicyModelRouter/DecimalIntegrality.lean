import PolicyModelRouter.DecimalRounding

/-!
# Integral decimals and rounding

Which decimals are integral, and which numbers a context rounds to an integer: from the
place of the units on all of them, and below it those no further from the integer than
half a unit in the last place.
-/

namespace DecimalArithmetic
open EvenRounding

/-- A unit of the last place a context keeps of a magnitude. -/
def Context.lastPlace (ctx : Context) (x : ℚ) : ℚ := 10 ^ ctx.quantum x

section LastPlace

variable {ctx : Context} {x : ℚ}

theorem lastPlace_pos : 0 < ctx.lastPlace x := tenPow_pos _

/-- Without places behind the point the result is integral. -/
theorem exists_round_eq_intCast (h : 0 ≤ ctx.quantum x) : ∃ n : ℤ, ctx.round x = n := by
  obtain ⟨n, hn⟩ := tenPow_multiple (roundEven (x / 10 ^ ctx.quantum x)) h
  exact ⟨n, by rw [Context.round, hn, zpow_zero, mul_one]⟩

/-- With places behind the point an integer has an even last digit, so it also attracts
the numbers halfway to its neighbours. -/
theorem round_eq_intCast_iff (h : ctx.quantum x < 0) {n : ℤ} :
    ctx.round x = n ↔ |x - n| ≤ ctx.lastPlace x / 2 := by
  obtain ⟨k, hk⟩ : ∃ k : ℕ, ctx.quantum x = -((k + 1 : ℕ) : ℤ) :=
    ⟨(-ctx.quantum x).toNat - 1, by omega⟩
  have hpos := @lastPlace_pos ctx x
  have hplaces : (n : ℚ) = ((n * 10 ^ (k + 1) : ℤ) : ℚ) * ctx.lastPlace x := by
    rw [Context.lastPlace, hk, zpow_neg, zpow_natCast]
    push_cast
    field_simp
  have heven : n * 10 ^ (k + 1) % 2 = 0 := by
    rw [Int.mul_emod, Decimal.even_tenPow (Nat.succ_pos k), mul_zero]
    rfl
  have hcancel : ctx.round x = n ↔ roundEven (x / ctx.lastPlace x) = n * 10 ^ (k + 1) := by
    rw [hplaces]
    exact (mul_left_inj' hpos.ne').trans Int.cast_inj
  have hscale : |x / ctx.lastPlace x - ((n * 10 ^ (k + 1) : ℤ) : ℚ)| * ctx.lastPlace x = |x - n| := by
    have hdistance : (x / ctx.lastPlace x - ((n * 10 ^ (k + 1) : ℤ) : ℚ)) * ctx.lastPlace x = x - n := by
      rw [sub_mul, div_mul_cancel₀ _ hpos.ne', ← hplaces]
    rw [← hdistance, abs_mul, abs_of_pos hpos]
  rw [hcancel, roundEven_eq_iff heven, ← hscale, ← le_div_iff₀ hpos, div_right_comm,
    div_self hpos.ne']

/-- No integer is the result for another number, exactly when nothing is dropped or every
integer is further away than half a unit in the last place. -/
theorem round_integral_iff : (∀ n : ℤ, ctx.round x = n → x = n) ↔
    (∃ m : ℤ, x = m * ctx.lastPlace x) ∨ ∀ n : ℤ, ctx.lastPlace x / 2 < |x - n| := by
  have hpos := @lastPlace_pos ctx x
  constructor
  · intro h
    rcases lt_or_ge (ctx.quantum x) 0 with hplaces | hunits
    · by_cases hintegral : ∃ n : ℤ, ctx.round x = n
      · obtain ⟨n, hn⟩ := hintegral
        exact .inl (round_eq_self_iff.mp (hn.trans (h n hn).symm))
      · refine .inr fun n => not_le.mp fun hle => hintegral ⟨n, ?_⟩
        exact (round_eq_intCast_iff hplaces).mpr hle
    · obtain ⟨n, hn⟩ := exists_round_eq_intCast hunits
      exact .inl (round_eq_self_iff.mp (hn.trans (h n hn).symm))
  · rintro (hexact | hfar) n hn
    · exact (round_eq_self_iff.mpr hexact).symm.trans hn
    · exfalso
      rcases lt_or_ge (ctx.quantum x) 0 with hplaces | hunits
      · exact absurd ((round_eq_intCast_iff hplaces).mp hn) (not_le.mpr (hfar n))
      · -- the nearest integer is within half a unit
        have hone : (1 : ℚ) ≤ ctx.lastPlace x := by
          calc (1 : ℚ) = 10 ^ (0 : ℤ) := (zpow_zero _).symm
            _ ≤ ctx.lastPlace x := tenPow_le hunits
        have hnear : |x - round x| ≤ 1 / 2 := abs_sub_round x
        have := hfar (round x)
        linarith

end LastPlace

namespace Decimal

variable {d : Decimal}

theorem mag_toIntegralValue : d.toIntegralValue.mag = roundEven d.mag := by
  unfold toIntegralValue
  split_ifs with h
  · obtain ⟨n, hn⟩ := mag_eq_mul (d := d) h
    rw [zpow_zero, mul_one] at hn
    rw [hn, roundEven_intCast]
  · have hdiv := mag_div_tenPow (d := d) (q := 0) (by omega)
    rw [zpow_zero, div_one, zero_sub] at hdiv
    rw [hdiv, roundEven_div, mag, zpow_zero, mul_one, Int.cast_natCast]

theorem nonNegative_toIntegralValue (h : d.NonNegative) : d.toIntegralValue.NonNegative := by
  unfold toIntegralValue
  split_ifs
  · exact h
  · rcases h with h | h
    · exact .inl h
    · exact .inr (by simp [roundHalfEven, h])

theorem exponent_toIntegralValue : 0 ≤ d.toIntegralValue.exponent := by
  unfold toIntegralValue
  split_ifs with h
  · exact h
  · exact le_rfl

/-- A decimal is compared equal to its nearest integral decimal when it is an integer. -/
theorem eqv_toIntegralValue_iff (h : d.NonNegative) :
    d.eqv d.toIntegralValue = true ↔ ∃ n : ℤ, d.mag = n := by
  have hintegral := nonNegative_toIntegralValue h
  rw [eqv, Bool.and_eq_true, le_iff h hintegral, le_iff hintegral h, ← le_antisymm_iff,
    mag_toIntegralValue]
  constructor
  · intro heq
    exact ⟨_, heq⟩
  · rintro ⟨n, hn⟩
    rw [hn, roundEven_intCast]

theorem toInt_toIntegralValue (h : d.NonNegative) {n : ℤ} (integral : d.mag = n) :
    d.toIntegralValue.toInt = n := by
  have hscaled := scaled_eq (nonNegative_toIntegralValue h) (exponent_toIntegralValue (d := d))
  rw [zpow_zero, div_one, mag_toIntegralValue, integral, roundEven_intCast] at hscaled
  exact_mod_cast hscaled

end Decimal

end DecimalArithmetic
