import PolicyModelRouter.DecimalArithmetic
import PolicyModelRouter.FloatFormats
import Mathlib.Data.Nat.Log

/-!
# Decimal arithmetic over the rational numbers

What the operations of a context compute, as numbers: the exact result of the operation on
the magnitudes, rounded half to even to a quantum that the precision and the least exponent
determine. Rounding is monotone, and an operation signals an overflow exactly when its exact
result reaches a fixed limit.
-/

namespace DecimalArithmetic
open DigitStrings EvenRounding FloatFormats

theorem roundEven_div (n k : ℕ) :
    roundEven ((n : ℚ) / (10 ^ k : ℕ)) = Decimal.roundHalfEven n k := by
  have hd : 0 < 10 ^ k := by positivity
  unfold Decimal.roundHalfEven
  generalize 10 ^ k = d at hd ⊢
  have hdq : (0 : ℚ) < d := by exact_mod_cast hd
  have hfloor : ⌊(n : ℚ) / d⌋ = (n / d : ℕ) := by
    rw [Rat.floor_natCast_div_natCast, Int.natCast_ediv]
  have hfract : Int.fract ((n : ℚ) / d) = (n % d : ℕ) / d := by
    have hsplit : (n : ℚ) = d * (n / d : ℕ) + (n % d : ℕ) := by
      exact_mod_cast (Nat.div_add_mod n d).symm
    rw [Int.fract, hfloor, Int.cast_natCast, eq_div_iff hdq.ne', sub_mul, div_mul_cancel₀ _ hdq.ne']
    linarith
  have hlow : Int.fract ((n : ℚ) / d) < 1 / 2 ↔ 2 * (n % d) < d := by
    rw [hfract, div_lt_div_iff₀ hdq two_pos, one_mul, mul_comm]
    exact_mod_cast Iff.rfl
  have hhigh : 1 / 2 < Int.fract ((n : ℚ) / d) ↔ d < 2 * (n % d) := by
    rw [hfract, div_lt_div_iff₀ two_pos hdq, one_mul, mul_comm]
    exact_mod_cast Iff.rfl
  simp only [roundEven, hlow, hhigh, hfloor]
  split_ifs <;> omega

/-- The exponent of the last place a context keeps of a magnitude. -/
def Context.quantum (ctx : Context) (x : ℚ) : ℤ :=
  max (Int.log 10 x + 1 - ctx.precision) ctx.etiny

def Context.round (ctx : Context) (x : ℚ) : ℚ :=
  roundEven (x / 10 ^ ctx.quantum x) * 10 ^ ctx.quantum x

/-- The numbers a context keeps, without its upper limit. -/
def Context.format (ctx : Context) : Format := ⟨10, ctx.precision, ctx.etiny, by norm_num⟩

section Rounding

variable {ctx : Context} {x y : ℚ}

theorem tenPow_pos (e : ℤ) : (0 : ℚ) < 10 ^ e := zpow_pos (by norm_num) e

theorem tenPow_le {a b : ℤ} (h : a ≤ b) : (10 : ℚ) ^ a ≤ 10 ^ b :=
  zpow_le_zpow_right₀ (by norm_num) h

@[simp] theorem base_format : ((ctx.format.base : ℕ) : ℚ) = 10 := Nat.cast_ofNat

/-- Magnitudes are rounded as in the format. -/
theorem quantum_eq (h : 0 ≤ x) : ctx.quantum x = ctx.format.quantum x := by
  rw [Format.quantum, abs_of_nonneg h]
  rfl

theorem round_eq (h : 0 ≤ x) : ctx.round x = ctx.format.round x := by
  rw [Context.round, Format.round, quantum_eq h, base_format]

@[simp] theorem round_zero : ctx.round 0 = 0 := by
  rw [round_eq le_rfl, Format.round_zero]

theorem round_nonneg (h : 0 ≤ x) : 0 ≤ ctx.round x := by
  rw [round_eq h]
  exact Format.round_nonneg h

theorem round_mono (precise : 1 ≤ ctx.precision) (hx : 0 ≤ x) (h : x ≤ y) :
    ctx.round x ≤ ctx.round y := by
  rw [round_eq hx, round_eq (hx.trans h)]
  exact Format.round_mono precise hx h

theorem tenPow_multiple (n : ℤ) {a b : ℤ} (h : b ≤ a) :
    ∃ m : ℤ, (n : ℚ) * 10 ^ a = m * 10 ^ b := by
  obtain ⟨k, rfl⟩ := Int.le.dest h
  refine ⟨n * 10 ^ k, ?_⟩
  rw [zpow_add₀ (by norm_num), zpow_natCast]
  push_cast
  ring

/-- Only the multiples of the last place are not rounded. -/
theorem round_eq_self_iff : ctx.round x = x ↔ ∃ m : ℤ, x = m * 10 ^ ctx.quantum x := by
  constructor
  · intro h
    exact ⟨_, h.symm⟩
  · rintro ⟨m, hm⟩
    have hdiv : x / 10 ^ ctx.quantum x = m := by
      rw [div_eq_iff (tenPow_pos _).ne']
      exact hm
    rw [Context.round, hdiv, roundEven_intCast, ← hm]

theorem round_tenPow (precise : 1 ≤ ctx.precision) {k : ℤ} (h : ctx.etiny ≤ k) :
    ctx.round (10 ^ k) = 10 ^ k := by
  have hround := Format.round_zpow (f := ctx.format) precise h
  rwa [base_format, ← round_eq (tenPow_pos k).le] at hround

end Rounding

def Decimal.mag (d : Decimal) : ℚ := d.coefficient * 10 ^ d.exponent

/-- A context that keeps at least one digit and has room between its limits. -/
structure Context.WellFormed (ctx : Context) : Prop where
  precise : 1 ≤ ctx.precision
  room : ctx.etiny ≤ ctx.etop

/-- From this magnitude on a result overflows: half a unit in the last place above the
largest finite one. -/
def Context.limit (ctx : Context) : ℚ := (10 ^ ctx.precision - 1 / 2) * 10 ^ ctx.etop

namespace Decimal

theorem mag_nonneg (d : Decimal) : 0 ≤ d.mag :=
  mul_nonneg (Nat.cast_nonneg _) (tenPow_pos _).le

theorem mag_pos {d : Decimal} (h : d.coefficient ≠ 0) : 0 < d.mag :=
  mul_pos (by exact_mod_cast Nat.pos_of_ne_zero h) (tenPow_pos _)

theorem mag_eq_zero {d : Decimal} (h : d.coefficient = 0) : d.mag = 0 := by
  simp [mag, h]

theorem numDigits_pos (n : ℕ) : 1 ≤ numDigits n :=
  List.length_pos_iff.mpr (natText_ne_nil n)

theorem numDigits_le_iff {n k : ℕ} (h : 1 ≤ k) : numDigits n ≤ k ↔ n < 10 ^ k :=
  Nat.length_toDigits_le_iff (by norm_num) h

theorem lt_pow_numDigits (n : ℕ) : n < 10 ^ numDigits n :=
  (numDigits_le_iff (numDigits_pos n)).mp le_rfl

theorem pow_le_of_numDigits {n : ℕ} (h : n ≠ 0) : 10 ^ (numDigits n - 1) ≤ n := by
  rcases (numDigits_pos n).eq_or_lt with hone | hmore
  · rw [← hone, Nat.sub_self, pow_zero]
    exact Nat.pos_of_ne_zero h
  · by_contra hlt
    have := (numDigits_le_iff (by omega)).mpr (not_le.mp hlt)
    omega

theorem tenPow_le_mag {d : Decimal} (h : d.coefficient ≠ 0) :
    (10 : ℚ) ^ (numDigits d.coefficient + d.exponent - 1) ≤ d.mag := by
  have hpow : (10 : ℚ) ^ (numDigits d.coefficient - 1) ≤ d.coefficient := by
    exact_mod_cast pow_le_of_numDigits h
  have hsplit : (numDigits d.coefficient + d.exponent - 1 : ℤ) =
      (numDigits d.coefficient - 1 : ℕ) + d.exponent := by
    have := numDigits_pos d.coefficient
    omega
  rw [hsplit, zpow_add₀ (by norm_num), zpow_natCast]
  exact mul_le_mul_of_nonneg_right hpow (tenPow_pos _).le

theorem mag_lt_tenPow (d : Decimal) : d.mag < 10 ^ (numDigits d.coefficient + d.exponent) := by
  have hpow : (d.coefficient : ℚ) < 10 ^ numDigits d.coefficient := by
    exact_mod_cast lt_pow_numDigits d.coefficient
  rw [zpow_add₀ (by norm_num), zpow_natCast]
  exact mul_lt_mul_of_pos_right hpow (tenPow_pos _)

theorem log_mag {d : Decimal} (h : d.coefficient ≠ 0) :
    Int.log 10 d.mag = numDigits d.coefficient + d.exponent - 1 := by
  have hpos := mag_pos h
  have hlow : (numDigits d.coefficient + d.exponent - 1 : ℤ) ≤ Int.log 10 d.mag := by
    rw [← Int.zpow_le_iff_le_log (by norm_num) hpos]
    exact_mod_cast tenPow_le_mag h
  have hhigh : Int.log 10 d.mag < numDigits d.coefficient + d.exponent := by
    rw [← Int.lt_zpow_iff_log_lt (by norm_num) hpos]
    exact_mod_cast mag_lt_tenPow d
  omega

theorem quantum_mag (ctx : Context) {d : Decimal} (h : d.coefficient ≠ 0) :
    ctx.quantum d.mag = max (numDigits d.coefficient + d.exponent - ctx.precision) ctx.etiny := by
  rw [Context.quantum, log_mag h]
  congr 1
  omega

/-- A result and the exact decimal it was rounded from. -/
structure Fixed (ctx : Context) (exact result : Decimal) : Prop where
  negative : result.negative = exact.negative
  mag : result.mag = ctx.round exact.mag
  digits : numDigits result.coefficient ≤ ctx.precision

section Fix

variable {ctx : Context} {d : Decimal}

theorem even_tenPow {p : ℕ} (h : 1 ≤ p) : ((10 : ℤ) ^ p) % 2 = 0 := by
  obtain ⟨k, rfl⟩ := Nat.exists_eq_add_of_le' h
  rw [pow_succ]
  omega

/-- Below the limit when the last place is in range and no carry leaves the precision. -/
theorem mag_lt_limit (wf : ctx.WellFormed) (inRange : ctx.quantum d.mag ≤ ctx.etop)
    (noCarry : roundEven (d.mag / 10 ^ ctx.quantum d.mag) < 10 ^ ctx.precision) :
    d.mag < ctx.limit := by
  have hbelow : d.mag / 10 ^ ctx.quantum d.mag < 10 ^ ctx.precision - 1 / 2 := by
    have h := (le_roundEven_iff (even_tenPow wf.precise)).not.mp (not_le.mpr noCarry)
    push_cast at h
    exact not_le.mp h
  rw [div_lt_iff₀ (tenPow_pos _)] at hbelow
  have hfactor : (0 : ℚ) ≤ 10 ^ ctx.precision - 1 / 2 := by
    have : (1 : ℚ) ≤ 10 ^ ctx.precision := one_le_pow₀ (by norm_num)
    linarith
  exact hbelow.trans_le (mul_le_mul_of_nonneg_left (tenPow_le inRange) hfactor)

/-- A magnitude that is no more than a power of ten below the top is below the limit. -/
theorem lt_limit_of_le_tenPow (wf : ctx.WellFormed) {x : ℚ} {k : ℤ} (h : x ≤ 10 ^ k)
    (hk : k < ctx.precision + ctx.etop) : x < ctx.limit := by
  have hone : (1 : ℚ) ≤ 10 ^ (ctx.precision - 1 : ℕ) := one_le_pow₀ (by norm_num)
  have hsplit : (10 : ℚ) ^ ctx.precision = 10 * 10 ^ (ctx.precision - 1 : ℕ) := by
    rw [← pow_succ', Nat.sub_add_cancel wf.precise]
  calc x ≤ 10 ^ k := h
    _ ≤ 10 ^ ((ctx.precision - 1 : ℕ) + ctx.etop : ℤ) := tenPow_le (by have := wf.precise; omega)
    _ = 10 ^ (ctx.precision - 1 : ℕ) * 10 ^ ctx.etop := by rw [zpow_add₀ (by norm_num), zpow_natCast]
    _ < ctx.limit := by
      refine mul_lt_mul_of_pos_right ?_ (tenPow_pos _)
      rw [hsplit]
      linarith

theorem limit_le_tenPow {k : ℤ} (h : ctx.precision + ctx.etop ≤ k) : ctx.limit ≤ 10 ^ k := by
  calc ctx.limit ≤ 10 ^ ctx.precision * 10 ^ ctx.etop :=
      mul_le_mul_of_nonneg_right (by linarith) (tenPow_pos _).le
    _ = 10 ^ (ctx.precision + ctx.etop : ℤ) := by rw [zpow_add₀ (by norm_num), zpow_natCast]
    _ ≤ 10 ^ k := tenPow_le h

theorem fix_zero (wf : ctx.WellFormed) (h : d.coefficient = 0) :
    ∃ r, fix ctx d = .ok r ∧ Fixed ctx d r := by
  refine ⟨_, if_pos h, rfl, ?_, ?_⟩
  · rw [mag_eq_zero h, round_zero]
    exact mag_eq_zero h
  · change numDigits d.coefficient ≤ _
    rw [h]
    exact wf.precise

/-- The digits a result keeps, counted in its last place. -/
theorem mag_div_tenPow {q : ℤ} (h : d.exponent ≤ q) :
    d.mag / 10 ^ q = (d.coefficient : ℚ) / (10 ^ (q - d.exponent).toNat : ℕ) := by
  have hsplit : (10 : ℚ) ^ q = 10 ^ d.exponent * 10 ^ (q - d.exponent).toNat := by
    rw [← zpow_natCast, ← zpow_add₀ (by norm_num)]
    congr 1
    omega
  have hpos := (tenPow_pos d.exponent).ne'
  rw [mag, hsplit]
  push_cast
  field_simp

theorem mag_eq_mul {q : ℤ} (h : q ≤ d.exponent) : ∃ m : ℤ, d.mag = m * 10 ^ q := by
  obtain ⟨m, hm⟩ := tenPow_multiple d.coefficient h
  exact ⟨m, by exact_mod_cast hm⟩

theorem roundEven_le_pow (hd : d.coefficient ≠ 0) :
    roundEven (d.mag / 10 ^ ctx.quantum d.mag) ≤ 10 ^ ctx.precision := by
  have hle : d.mag / 10 ^ ctx.quantum d.mag ≤ ((10 ^ ctx.precision : ℤ) : ℚ) := by
    rw [div_le_iff₀ (tenPow_pos _)]
    push_cast
    rw [← zpow_natCast, ← zpow_add₀ (by norm_num)]
    refine (mag_lt_tenPow d).le.trans (tenPow_le ?_)
    rw [quantum_mag ctx hd]
    omega
  have h := roundEven_mono hle
  rwa [roundEven_intCast] at h

/-- A result whose last place is in range, where it is exact. -/
theorem fixed_exact (wf : ctx.WellFormed) (hd : d.coefficient ≠ 0)
    (inRange : ctx.quantum d.mag ≤ ctx.etop) (inPlace : ctx.quantum d.mag ≤ d.exponent) :
    d.mag < ctx.limit ∧ Fixed ctx d d := by
  obtain ⟨m, hm⟩ := mag_eq_mul inPlace
  have hdigits : numDigits d.coefficient ≤ ctx.precision := by
    rw [quantum_mag ctx hd] at inPlace
    omega
  refine ⟨mag_lt_limit wf inRange ?_, rfl, (round_eq_self_iff.mpr ⟨m, hm⟩).symm, hdigits⟩
  have hdiv : d.mag / 10 ^ ctx.quantum d.mag = m := by
    rw [div_eq_iff (tenPow_pos _).ne']
    exact hm
  rw [hdiv, roundEven_intCast]
  have hlt : (m : ℚ) * 10 ^ ctx.quantum d.mag < 10 ^ (ctx.precision : ℤ) * 10 ^ ctx.quantum d.mag := by
    rw [← hm, ← zpow_add₀ (by norm_num)]
    refine (mag_lt_tenPow d).trans_le (tenPow_le ?_)
    rw [quantum_mag ctx hd]
    omega
  have := lt_of_mul_lt_mul_right hlt (tenPow_pos _).le
  exact_mod_cast this

/-- A carry out of the last place in range reaches the limit. -/
theorem limit_le_mag (wf : ctx.WellFormed) (inRange : ctx.quantum d.mag ≤ ctx.etop)
    (last : ctx.etop < ctx.quantum d.mag + 1)
    (carry : 10 ^ ctx.precision ≤ roundEven (d.mag / 10 ^ ctx.quantum d.mag)) :
    ctx.limit ≤ d.mag := by
  have hle := (le_roundEven_iff (even_tenPow wf.precise)).mp carry
  have hplace : ctx.quantum d.mag = ctx.etop := by omega
  rw [le_div_iff₀ (tenPow_pos _), hplace] at hle
  push_cast at hle
  exact hle

/-- A carry moves the exponent up by one and leaves the magnitude. -/
theorem carried_mag (wf : ctx.WellFormed) (q : ℤ) :
    mag ⟨d.negative, 10 ^ ctx.precision / 10, q + 1⟩ = (10 ^ ctx.precision : ℕ) * 10 ^ q := by
  obtain ⟨k, hk⟩ := Nat.exists_eq_add_of_le' wf.precise
  rw [mag, hk, pow_succ, Nat.mul_div_cancel _ (by norm_num), zpow_add₀ (by norm_num)]
  push_cast
  ring

theorem carried_digits (wf : ctx.WellFormed) :
    numDigits (10 ^ ctx.precision / 10) ≤ ctx.precision := by
  rw [numDigits_le_iff wf.precise]
  exact Nat.div_lt_self (by positivity) (by norm_num)

/-- What bringing a non-zero result into the context does. -/
theorem fix_cases (wf : ctx.WellFormed) (hd : d.coefficient ≠ 0) :
    (d.mag < ctx.limit ∧ ∃ r, fix ctx d = .ok r ∧ Fixed ctx d r) ∨
      ctx.limit ≤ d.mag ∧ fix ctx d = .error .overflow := by
  have hquantum := quantum_mag ctx hd
  unfold fix
  rw [if_neg hd]
  by_cases htop : ctx.etop < numDigits d.coefficient + d.exponent - ctx.precision
  · refine .inr ⟨?_, if_pos htop⟩
    exact (limit_le_tenPow (by omega)).trans (tenPow_le_mag hd)
  simp only [if_neg htop, ← hquantum]
  have hroom := wf.room
  have hinRange : ctx.quantum d.mag ≤ ctx.etop := by omega
  by_cases hexact : d.exponent < ctx.quantum d.mag
  · rw [if_pos hexact]
    have hrounded := roundEven_div d.coefficient (ctx.quantum d.mag - d.exponent).toNat
    rw [← mag_div_tenPow hexact.le] at hrounded
    generalize roundHalfEven d.coefficient (ctx.quantum d.mag - d.exponent).toNat = rounded at hrounded ⊢
    have hround : ctx.round d.mag = rounded * 10 ^ ctx.quantum d.mag := by
      rw [Context.round, hrounded, Int.cast_natCast]
    have hle := @roundEven_le_pow ctx d hd
    by_cases hcarry : ctx.precision < numDigits rounded
    · rw [if_pos hcarry]
      have hpow : rounded = 10 ^ ctx.precision := by
        have hge := (numDigits_le_iff wf.precise).not.mp (not_le.mpr hcarry)
        rw [hrounded] at hle
        exact le_antisymm (by exact_mod_cast hle) (not_lt.mp hge)
      by_cases hnext : ctx.etop < ctx.quantum d.mag + 1
      · rw [if_pos hnext]
        exact .inr ⟨limit_le_mag wf hinRange hnext (by rw [hrounded, hpow]; simp), rfl⟩
      · rw [if_neg hnext]
        refine .inl ⟨?_, _, rfl, rfl, ?_, ?_⟩
        · apply lt_limit_of_le_tenPow wf (mag_lt_tenPow d).le
          omega
        · rw [hround, hpow]
          exact carried_mag wf _
        · rw [hpow]
          exact carried_digits wf
    · rw [if_neg hcarry]
      have hdigits := not_lt.mp hcarry
      have hlt := (numDigits_le_iff wf.precise).mp hdigits
      refine .inl ⟨mag_lt_limit wf hinRange ?_, _, rfl, rfl, hround.symm, hdigits⟩
      rw [hrounded]
      exact_mod_cast hlt
  · rw [if_neg hexact]
    obtain ⟨hlimit, hfixed⟩ := fixed_exact wf hd hinRange (not_lt.mp hexact)
    exact .inl ⟨hlimit, d, rfl, hfixed⟩

theorem round_le_of_le (wf : ctx.WellFormed) {x : ℚ} {k : ℤ} (hx : 0 ≤ x) (hk : ctx.etiny ≤ k)
    (h : x ≤ 10 ^ k) : ctx.round x ≤ 10 ^ k :=
  (round_mono wf.precise hx h).trans_eq (round_tenPow wf.precise hk)

theorem limit_pos (wf : ctx.WellFormed) : 0 < ctx.limit :=
  (tenPow_pos _).trans (lt_limit_of_le_tenPow wf le_rfl (sub_one_lt _))

/-- A result that has a value is rounded from an exact one below the limit. -/
theorem fix_eq_ok {r : Decimal} (wf : ctx.WellFormed) (h : fix ctx d = .ok r) :
    d.mag < ctx.limit ∧ Fixed ctx d r := by
  by_cases hd : d.coefficient = 0
  · obtain ⟨r', hr, hfixed⟩ := fix_zero wf hd
    obtain rfl := Except.ok.inj (h.symm.trans hr)
    exact ⟨(mag_eq_zero hd).symm ▸ limit_pos wf, hfixed⟩
  · rcases fix_cases wf hd with ⟨hlt, r', hr, hfixed⟩ | ⟨-, hr⟩
    · obtain rfl := Except.ok.inj (h.symm.trans hr)
      exact ⟨hlt, hfixed⟩
    · cases h.symm.trans hr

theorem exists_fix (wf : ctx.WellFormed) (h : d.mag < ctx.limit) : ∃ r, fix ctx d = .ok r := by
  by_cases hd : d.coefficient = 0
  · obtain ⟨r, hr, -⟩ := fix_zero wf hd
    exact ⟨r, hr⟩
  · rcases fix_cases wf hd with ⟨-, r, hr, -⟩ | ⟨hle, -⟩
    · exact ⟨r, hr⟩
    · exact absurd h (not_lt.mpr hle)

end Fix

/-- Not below zero; a zero may carry a sign. -/
def NonNegative (d : Decimal) : Prop := d.negative = false ∨ d.coefficient = 0

theorem scaled_eq {d : Decimal} (h : d.NonNegative) {e : ℤ} (he : e ≤ d.exponent) :
    (d.scaled e : ℚ) = d.mag / 10 ^ e := by
  rw [eq_div_iff (tenPow_pos e).ne', mag]
  have hpow : (10 : ℚ) ^ (d.exponent - e).toNat * 10 ^ e = 10 ^ d.exponent := by
    rw [← zpow_natCast, ← zpow_add₀ (by norm_num)]
    congr 1
    omega
  rcases h with h | h
  · rw [scaled, h, ← hpow]
    push_cast
    simp
    ring
  · simp [scaled, h]

/-- Comparisons are exact. -/
theorem le_iff {a b : Decimal} (ha : a.NonNegative) (hb : b.NonNegative) :
    a.le b = true ↔ a.mag ≤ b.mag := by
  have hcast : a.le b = true ↔
      ((a.scaled (min a.exponent b.exponent) : ℤ) : ℚ) ≤ b.scaled (min a.exponent b.exponent) := by
    simp only [le, decide_eq_true_eq, Int.cast_le]
  rw [hcast, scaled_eq ha (min_le_left _ _), scaled_eq hb (min_le_right _ _),
    div_le_div_iff_of_pos_right (tenPow_pos _)]

theorem nonNegative_of_fixed {ctx : Context} {d r : Decimal} (h : Fixed ctx d r)
    (hd : d.NonNegative) : r.NonNegative := by
  rcases hd with hd | hd
  · exact .inl (h.negative.trans hd)
  · refine .inr ?_
    by_contra hr
    have := mag_pos hr
    rw [h.mag, mag_eq_zero hd, round_zero] at this
    exact lt_irrefl _ this

section Operations

variable {ctx : Context} {a b r : Decimal}

/-- The operation computes an exact magnitude: it signals an overflow from the limit on, and
otherwise returns the rounded magnitude, without a sign. -/
structure Computes (ctx : Context) (x : ℚ) (result : Except Signal Decimal) : Prop where
  returns : ∀ r, result = .ok r → x < ctx.limit ∧ r.mag = ctx.round x ∧ r.NonNegative ∧
    numDigits r.coefficient ≤ ctx.precision
  total : x < ctx.limit → ∃ r, result = .ok r

theorem computes_fix (wf : ctx.WellFormed) {d : Decimal} (hd : d.NonNegative) :
    Computes ctx d.mag (fix ctx d) := by
  refine ⟨fun r h => ?_, exists_fix wf⟩
  obtain ⟨hlt, hfixed⟩ := fix_eq_ok wf h
  exact ⟨hlt, hfixed.mag, nonNegative_of_fixed hfixed hd, hfixed.digits⟩

theorem nonNegative_mul (ha : a.NonNegative) (hb : b.NonNegative) (e : ℤ) :
    NonNegative ⟨xor a.negative b.negative, a.coefficient * b.coefficient, e⟩ := by
  rcases ha with ha | ha
  · rcases hb with hb | hb
    · exact .inl (by simp [ha, hb])
    · exact .inr (by simp [hb])
  · exact .inr (by simp [ha])

theorem computes_mul (wf : ctx.WellFormed) (ha : a.NonNegative) (hb : b.NonNegative) :
    Computes ctx (a.mag * b.mag) (mul ctx a b) := by
  have hmag : mag ⟨xor a.negative b.negative, a.coefficient * b.coefficient,
      a.exponent + b.exponent⟩ = a.mag * b.mag := by
    rw [mag, mag, mag, zpow_add₀ (by norm_num)]
    push_cast
    ring
  rw [← hmag]
  exact computes_fix wf (nonNegative_mul ha hb _)

theorem computes_add (wf : ctx.WellFormed) (ha : a.NonNegative) (hb : b.NonNegative) :
    Computes ctx (a.mag + b.mag) (add ctx a b) := by
  simp only [add]
  generalize he : min a.exponent b.exponent = e
  have hsum : ((a.scaled e + b.scaled e : ℤ) : ℚ) = (a.mag + b.mag) / 10 ^ e := by
    push_cast
    rw [scaled_eq ha (by omega), scaled_eq hb (by omega), add_div]
  have hnonneg : 0 ≤ a.scaled e + b.scaled e := by
    have : (0 : ℚ) ≤ ((a.scaled e + b.scaled e : ℤ) : ℚ) := by
      rw [hsum]
      exact div_nonneg (add_nonneg a.mag_nonneg b.mag_nonneg) (tenPow_pos e).le
    exact_mod_cast this
  generalize a.scaled e + b.scaled e = sum at hsum hnonneg
  have hmag : mag ⟨if sum = 0 then a.negative && b.negative else sum < 0, sum.natAbs, e⟩ =
      a.mag + b.mag := by
    have habs : ((sum.natAbs : ℕ) : ℚ) = (sum : ℚ) := by
      rw [Nat.cast_natAbs, abs_of_nonneg hnonneg]
    rw [mag, habs, hsum, div_mul_cancel₀ _ (tenPow_pos e).ne']
  rw [← hmag]
  apply computes_fix wf
  by_cases hzero : sum = 0
  · exact .inr (by simp [hzero])
  · exact .inl (by simp [hzero, hnonneg])

theorem reduceTo_mag (ideal : ℤ) (fuel coefficient : ℕ) (e : ℤ) :
    ((reduceTo ideal fuel coefficient e).1 : ℚ) * 10 ^ (reduceTo ideal fuel coefficient e).2 =
      coefficient * 10 ^ e := by
  fun_induction reduceTo ideal fuel coefficient e with
  | case1 coefficient e => rfl
  | case2 fuel coefficient e h ih =>
    obtain ⟨k, rfl⟩ := Nat.dvd_of_mod_eq_zero h.2
    rw [ih, Nat.mul_div_cancel_left k (by norm_num), zpow_add₀ (by norm_num)]
    push_cast
    ring
  | case3 fuel coefficient e h => rfl

theorem ofInt_natCast (n : ℕ) : ofInt n = ⟨false, n, 0⟩ := by
  simp [ofInt]

theorem lt_numDigits_pow (k : ℕ) : k < numDigits (10 ^ k) := by
  rcases Nat.eq_zero_or_pos k with rfl | hk
  · exact numDigits_pos _
  · exact not_le.mp ((numDigits_le_iff hk).not.mpr (lt_irrefl _))

/-- A division by a power of ten is exact for an operand that fits the context. -/
theorem computes_div (wf : ctx.WellFormed) (ha : a.NonNegative) {k : ℕ}
    (digits : numDigits a.coefficient ≤ ctx.precision) :
    Computes ctx (a.mag / 10 ^ k) (div ctx a (ofInt (10 ^ k : ℕ))) := by
  rw [ofInt_natCast]
  by_cases hzero : a.coefficient = 0
  · have hdiv : div ctx a ⟨false, 10 ^ k, 0⟩ = fix ctx ⟨xor a.negative false, 0, a.exponent - 0⟩ := by
      simp only [div]
      rw [if_neg (by positivity), if_pos hzero]
    have hmag : mag ⟨xor a.negative false, 0, a.exponent - 0⟩ = a.mag / 10 ^ k := by
      rw [mag_eq_zero rfl, mag_eq_zero hzero, zero_div]
    rw [hdiv, ← hmag]
    exact computes_fix wf (.inr rfl)
  · have hnonneg : a.negative = false := ha.resolve_right hzero
    have hdivisor := lt_numDigits_pow k
    obtain ⟨shift, hshift⟩ : ∃ shift : ℕ,
        (numDigits (10 ^ k) - numDigits a.coefficient + ctx.precision + 1 : ℤ) = (k + shift : ℕ) :=
      ⟨numDigits (10 ^ k) + ctx.precision + 1 - numDigits a.coefficient - k, by omega⟩
    have hquotient : a.coefficient * 10 ^ (k + shift) = a.coefficient * 10 ^ shift * 10 ^ k := by
      rw [pow_add]
      ring
    simp only [div]
    rw [if_neg (by positivity), if_neg hzero, hshift, Int.toNat_natCast, Int.toNat_neg_natCast,
      pow_zero, mul_one, hquotient, if_pos (Nat.mul_mod_left _ _), Nat.mul_div_cancel _ (by positivity)]
    generalize hreduced : reduceTo _ _ _ _ = reduced
    have hmag : mag ⟨xor a.negative false, reduced.1, reduced.2⟩ = a.mag / 10 ^ k := by
      have hexponent : (a.exponent - 0 - (k + shift : ℕ) : ℤ) = a.exponent + -(k + shift : ℕ) := by ring
      rw [mag, ← hreduced, reduceTo_mag, mag, hexponent, zpow_add₀ (by norm_num), zpow_neg,
        zpow_natCast, pow_add]
      push_cast
      field_simp
    rw [← hmag]
    exact computes_fix wf (.inl (by simp [hnonneg]))

end Operations

end Decimal

end DecimalArithmetic
