import Mathlib.Data.Int.Log
import Mathlib.Tactic.FieldSimp
import Mathlib.Tactic.Ring
import PolicyModelRouter.EvenRounding

/-!
# Floating-point formats

Numbers of a fixed number of digits in any base, with a least exponent and no greatest one.
A number is rounded half to even to its last place; what rounding adds is at most half a unit
there, and rounding is monotone.
-/

namespace FloatFormats
open EvenRounding

/-- The base, the digits of a significand, and the exponent of the last place of the smallest
numbers. -/
structure Format where
  base : ℕ
  precision : ℕ
  least : ℤ
  one_lt : 1 < base

namespace Format

variable {f : Format} {x y : ℚ} {place : ℤ}

theorem base_pos : 0 < f.base := zero_lt_one.trans f.one_lt

theorem one_le_base : (1 : ℚ) ≤ f.base := by
  exact_mod_cast f.one_lt.le

theorem base_ne_zero : (f.base : ℚ) ≠ 0 := by
  exact_mod_cast f.base_pos.ne'

theorem power_pos (f : Format) (e : ℤ) : (0 : ℚ) < (f.base : ℚ) ^ e :=
  zpow_pos (by exact_mod_cast f.base_pos) e

theorem power_mono {a b : ℤ} (h : a ≤ b) : (f.base : ℚ) ^ a ≤ (f.base : ℚ) ^ b :=
  zpow_le_zpow_right₀ one_le_base h

theorem exists_multiple (n : ℤ) {a b : ℤ} (h : b ≤ a) :
    ∃ m : ℤ, (n : ℚ) * (f.base : ℚ) ^ a = m * (f.base : ℚ) ^ b := by
  obtain ⟨k, rfl⟩ := Int.le.dest h
  refine ⟨n * f.base ^ k, ?_⟩
  rw [zpow_add₀ base_ne_zero, zpow_natCast]
  push_cast
  ring

def quantum (f : Format) (x : ℚ) : ℤ := max (Int.log f.base |x| + 1 - f.precision) f.least

def round (f : Format) (x : ℚ) : ℚ :=
  roundEven (x / (f.base : ℚ) ^ f.quantum x) * (f.base : ℚ) ^ f.quantum x

@[simp] theorem round_zero : f.round 0 = 0 := by
  have h : roundEven 0 = 0 := roundEven_intCast 0
  simp [round, h]

theorem round_nonneg (h : 0 ≤ x) : 0 ≤ f.round x := by
  have hround : (0 : ℤ) ≤ roundEven (x / (f.base : ℚ) ^ f.quantum x) := by
    have := roundEven_mono (div_nonneg h (f.power_pos (f.quantum x)).le)
    rwa [show roundEven 0 = 0 from roundEven_intCast 0] at this
  exact mul_nonneg (by exact_mod_cast hround) (f.power_pos _).le

theorem round_nonpos (h : x ≤ 0) : f.round x ≤ 0 := by
  have hround := roundEven_mono (div_nonpos_of_nonpos_of_nonneg h (f.power_pos (f.quantum x)).le)
  rw [show roundEven 0 = 0 from roundEven_intCast 0] at hround
  exact mul_nonpos_of_nonpos_of_nonneg (by exact_mod_cast hround) (f.power_pos _).le

/-- Only the multiples of the last place are not rounded. -/
theorem round_eq_self_iff : f.round x = x ↔ ∃ m : ℤ, x = m * (f.base : ℚ) ^ f.quantum x := by
  constructor
  · intro h
    exact ⟨_, h.symm⟩
  · rintro ⟨m, hm⟩
    have hdiv : x / (f.base : ℚ) ^ f.quantum x = m := by
      rw [div_eq_iff (f.power_pos _).ne']
      exact hm
    rw [round, hdiv, roundEven_intCast, ← hm]

theorem quantum_zpow (k : ℤ) :
    f.quantum ((f.base : ℚ) ^ k) = max (k + 1 - f.precision) f.least := by
  rw [quantum, abs_of_pos (f.power_pos k), Int.log_zpow f.one_lt]

theorem round_zpow (precise : 1 ≤ f.precision) {k : ℤ} (h : f.least ≤ k) :
    f.round ((f.base : ℚ) ^ k) = (f.base : ℚ) ^ k := by
  have hquantum : f.quantum ((f.base : ℚ) ^ k) ≤ k := by
    rw [quantum_zpow]
    omega
  obtain ⟨m, hm⟩ := exists_multiple (f := f) 1 hquantum
  apply round_eq_self_iff.mpr
  exact ⟨m, by simpa using hm⟩

/-- At most half a unit of the last place. -/
theorem abs_round_sub_le : |f.round x - x| ≤ (f.base : ℚ) ^ f.quantum x / 2 := by
  have hpos := f.power_pos (f.quantum x)
  have hscale : f.round x - x =
      (roundEven (x / (f.base : ℚ) ^ f.quantum x) - x / (f.base : ℚ) ^ f.quantum x) *
        (f.base : ℚ) ^ f.quantum x := by
    rw [sub_mul, div_mul_cancel₀ _ hpos.ne', round]
  rw [hscale, abs_mul, abs_of_pos hpos]
  have := abs_roundEven_sub_le (x / (f.base : ℚ) ^ f.quantum x)
  calc _ ≤ 1 / 2 * (f.base : ℚ) ^ f.quantum x := mul_le_mul_of_nonneg_right this hpos.le
    _ = _ := by ring

/-- A part of the number that its precision leaves, and a part of the smallest numbers. -/
theorem abs_round_sub_le_add : |f.round x - x| ≤
    (|x| * (f.base : ℚ) ^ (1 - f.precision : ℤ) + (f.base : ℚ) ^ f.least) / 2 := by
  rcases eq_or_ne x 0 with rfl | hx
  · have := f.power_pos f.least
    simp only [round_zero, sub_zero, abs_zero, zero_mul, zero_add]
    linarith
  refine abs_round_sub_le.trans (div_le_div_of_nonneg_right ?_ (by norm_num))
  have hleast := f.power_pos f.least
  have hdigits : (f.base : ℚ) ^ (Int.log f.base |x| + 1 - f.precision) ≤
      |x| * (f.base : ℚ) ^ (1 - f.precision : ℤ) := by
    rw [add_sub_assoc, zpow_add₀ base_ne_zero]
    exact mul_le_mul_of_nonneg_right (Int.zpow_log_le_self f.one_lt (abs_pos.mpr hx)) (f.power_pos _).le
  have hrest := mul_nonneg (abs_nonneg x) (f.power_pos (1 - f.precision)).le
  unfold quantum
  rcases max_choice (Int.log f.base |x| + 1 - f.precision) f.least with h | h <;> rw [h] <;> linarith

/-- Whole units of a place, with no more digits there than the precision. -/
structure Fits (f : Format) (place : ℤ) (x : ℚ) : Prop where
  whole : ∃ m : ℤ, x = m * (f.base : ℚ) ^ place
  below : |x| < (f.base : ℚ) ^ (place + f.precision)

/-- A number of the format: it fits a place that is in range. -/
def Kept (f : Format) (x : ℚ) : Prop := ∃ place, f.least ≤ place ∧ f.Fits place x

theorem Kept.round_eq (h : f.Kept x) : f.round x = x := by
  obtain ⟨place, hleast, ⟨m, hm⟩, hbelow⟩ := h
  rcases eq_or_ne x 0 with rfl | hx
  · exact round_zero
  have hlog : Int.log f.base |x| < place + f.precision :=
    (Int.lt_zpow_iff_log_lt f.one_lt (abs_pos.mpr hx)).mp hbelow
  have hquantum : f.quantum x ≤ place := by
    unfold quantum
    omega
  obtain ⟨n, hn⟩ := exists_multiple (f := f) m hquantum
  exact round_eq_self_iff.mpr ⟨n, hm.trans hn⟩

theorem quantum_mono (hx : 0 < x) (h : x ≤ y) : f.quantum x ≤ f.quantum y := by
  have hlog : Int.log f.base |x| ≤ Int.log f.base |y| := by
    apply Int.log_mono_right (abs_pos.mpr hx.ne')
    rwa [abs_of_pos hx, abs_of_pos (hx.trans_le h)]
  unfold quantum
  omega

theorem round_le_zpow {k : ℤ} (hk : f.quantum x ≤ k) (h : x ≤ (f.base : ℚ) ^ k) :
    f.round x ≤ (f.base : ℚ) ^ k := by
  obtain ⟨m, hm⟩ := exists_multiple (f := f) 1 hk
  rw [Int.cast_one, one_mul] at hm
  have hdiv : x / (f.base : ℚ) ^ f.quantum x ≤ m := by
    rw [div_le_iff₀ (f.power_pos _), ← hm]
    exact h
  have hround := roundEven_mono hdiv
  rw [roundEven_intCast] at hround
  rw [round, hm]
  exact mul_le_mul_of_nonneg_right (by exact_mod_cast hround) (f.power_pos _).le

theorem zpow_le_round {k : ℤ} (hk : f.quantum x ≤ k) (h : (f.base : ℚ) ^ k ≤ x) :
    (f.base : ℚ) ^ k ≤ f.round x := by
  obtain ⟨m, hm⟩ := exists_multiple (f := f) 1 hk
  rw [Int.cast_one, one_mul] at hm
  have hdiv : (m : ℚ) ≤ x / (f.base : ℚ) ^ f.quantum x := by
    rw [le_div_iff₀ (f.power_pos _), ← hm]
    exact h
  have hround := roundEven_mono hdiv
  rw [roundEven_intCast] at hround
  rw [round, hm]
  exact mul_le_mul_of_nonneg_right (by exact_mod_cast hround) (f.power_pos _).le

theorem round_mono (precise : 1 ≤ f.precision) (hx : 0 ≤ x) (h : x ≤ y) :
    f.round x ≤ f.round y := by
  rcases hx.eq_or_lt with rfl | hpos
  · rw [round_zero]
    exact round_nonneg h
  rcases (quantum_mono (f := f) hpos h).eq_or_lt with heq | hlt
  · have hdiv : x / (f.base : ℚ) ^ f.quantum x ≤ y / (f.base : ℚ) ^ f.quantum y := by
      rw [heq]
      exact div_le_div_of_nonneg_right h (f.power_pos _).le
    have hround := roundEven_mono hdiv
    rw [round, round, heq] at *
    exact mul_le_mul_of_nonneg_right (by exact_mod_cast hround) (f.power_pos _).le
  · -- a larger quantum comes from a larger power of the base between the two
    have hy := hpos.trans_le h
    have hlog : f.quantum y = Int.log f.base |y| + 1 - f.precision := by
      unfold quantum at hlt ⊢
      omega
    have hlogs : Int.log f.base |x| + 1 ≤ Int.log f.base |y| := by
      unfold quantum at hlt hlog
      omega
    have hx' : x ≤ (f.base : ℚ) ^ Int.log f.base |y| := by
      have hnext := Int.lt_zpow_succ_log_self f.one_lt x
      rw [abs_of_pos hpos] at hlogs
      exact hnext.le.trans (power_mono hlogs)
    have hy' : (f.base : ℚ) ^ Int.log f.base |y| ≤ y := by
      rw [abs_of_pos hy]
      exact Int.zpow_log_le_self f.one_lt hy
    calc f.round x ≤ (f.base : ℚ) ^ Int.log f.base |y| := round_le_zpow (by omega) hx'
      _ ≤ f.round y := zpow_le_round (by omega) hy'

/-- A number is brought up to another one: it is not below, or by less than half a unit of its
last place, or by half a unit when the other one is an even number of units. -/
def Reaches (f : Format) (x y : ℚ) : Prop :=
  y ≤ x ∨ y - x < (f.base : ℚ) ^ f.quantum x / 2 ∨
    (y - x = (f.base : ℚ) ^ f.quantum x / 2 ∧ ∃ m : ℤ, y = (2 * m : ℤ) * (f.base : ℚ) ^ f.quantum x)

theorem le_round_iff (precise : 1 ≤ f.precision) (hx : 0 < x) (kept : f.Kept y) :
    y ≤ f.round x ↔ f.Reaches x y := by
  rcases le_or_gt y x with hle | hlt
  · refine iff_of_true ?_ (.inl hle)
    rcases le_or_gt y 0 with hneg | hpos
    · exact hneg.trans (round_nonneg hx.le)
    · rw [← kept.round_eq]
      exact round_mono precise hpos.le hle
  -- a greater number of the format is a whole number of units
  · obtain ⟨n, hn⟩ := round_eq_self_iff.mp kept.round_eq
    obtain ⟨m, hm⟩ := exists_multiple (f := f) n (quantum_mono hx hlt.le)
    have hunit := f.power_pos (f.quantum x)
    rw [← hn] at hm
    rw [round, Reaches, hm, mul_le_mul_iff_of_pos_right hunit, Int.cast_le, le_roundEven_iff_near]
    have hscale : x = x / (f.base : ℚ) ^ f.quantum x * (f.base : ℚ) ^ f.quantum x :=
      (div_mul_cancel₀ _ hunit.ne').symm
    generalize x / (f.base : ℚ) ^ f.quantum x = s at hscale ⊢
    generalize (f.base : ℚ) ^ f.quantum x = u at hm hscale hunit ⊢
    constructor
    · rintro (hnear | ⟨rfl, heven⟩)
      · have hless := mul_lt_mul_of_pos_right hnear hunit
        exact .inr (.inl (by linarith))
      · refine .inr (.inr ⟨by linarith, m / 2, ?_⟩)
        rw [Int.mul_ediv_cancel' (Int.dvd_of_emod_eq_zero heven)]
    · rintro (hle | hnear | ⟨hhalf, k, hk⟩)
      · exact absurd (hm.le.trans hle) (not_le.mpr hlt)
      · exact .inl (lt_of_mul_lt_mul_right (by linarith) hunit.le)
      · have heven : m = 2 * k := by exact_mod_cast mul_right_cancel₀ hunit.ne' hk
        exact .inr ⟨mul_right_cancel₀ hunit.ne' (by linarith), by omega⟩

/-- The result of rounding is a number of the format. -/
theorem kept_round (precise : 1 ≤ f.precision) : f.Kept (f.round x) := by
  have hleast : f.least ≤ f.quantum x := le_max_right _ _
  have hbound : |x / (f.base : ℚ) ^ f.quantum x| ≤ ((f.base ^ f.precision : ℤ) : ℚ) := by
    have hnext := (Int.lt_zpow_succ_log_self f.one_lt |x|).le
    rw [abs_div, abs_of_pos (f.power_pos _), div_le_iff₀ (f.power_pos _)]
    push_cast
    rw [← zpow_natCast, ← zpow_add₀ base_ne_zero]
    refine hnext.trans (power_mono ?_)
    unfold quantum
    omega
  rw [abs_le] at hbound
  have hlow := roundEven_mono hbound.1
  have hhigh := roundEven_mono hbound.2
  rw [← Int.cast_neg, roundEven_intCast] at hlow
  rw [roundEven_intCast] at hhigh
  have hround : f.round x = roundEven (x / (f.base : ℚ) ^ f.quantum x) * (f.base : ℚ) ^ f.quantum x := rfl
  generalize roundEven (x / (f.base : ℚ) ^ f.quantum x) = m at hlow hhigh hround
  rw [hround]
  have hpower : ∀ e : ℤ, (f.base : ℚ) ^ (e + f.precision) = (f.base ^ f.precision : ℤ) * (f.base : ℚ) ^ e :=
    fun e => by
      rw [zpow_add₀ base_ne_zero, zpow_natCast, mul_comm]
      push_cast
      rfl
  rcases (abs_le.mpr ⟨hlow, hhigh⟩).lt_or_eq with hlt | heq
  · refine ⟨f.quantum x, hleast, ⟨m, rfl⟩, ?_⟩
    rw [abs_mul, abs_of_pos (f.power_pos _), hpower]
    exact mul_lt_mul_of_pos_right (by exact_mod_cast hlt) (f.power_pos _)
  · -- a carry: the significand is a power of the base
    obtain ⟨n, hn⟩ := exists_multiple (f := f) m.sign
      (show f.quantum x + 1 ≤ f.quantum x + f.precision by omega)
    refine ⟨f.quantum x + 1, by omega, ⟨n, ?_⟩, ?_⟩
    · rw [← hn, hpower, ← mul_assoc, ← heq, ← Int.cast_mul, Int.sign_mul_abs]
    · have hcast : |(m : ℚ)| = (f.base ^ f.precision : ℤ) := by exact_mod_cast heq
      rw [abs_mul, abs_of_pos (f.power_pos _), hcast, ← hpower]
      exact zpow_lt_zpow_right₀ (by exact_mod_cast f.one_lt) (by omega)

end Format

end FloatFormats
