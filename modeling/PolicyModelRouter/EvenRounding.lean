import Mathlib.Algebra.Order.Floor.Ring
import Mathlib.Data.Rat.Floor
import Mathlib.Tactic.Linarith

/-!
# Rounding half to even

The nearest integer of a rational number, and the even one of two that are equally near.
-/

namespace EvenRounding

/-- The nearest integer, the even one of two. -/
def roundEven (x : ℚ) : ℤ :=
  if Int.fract x < 1 / 2 then ⌊x⌋
  else if 1 / 2 < Int.fract x then ⌊x⌋ + 1
  else if ⌊x⌋ % 2 = 0 then ⌊x⌋ else ⌊x⌋ + 1

theorem floor_le_roundEven (x : ℚ) : ⌊x⌋ ≤ roundEven x := by
  unfold roundEven
  split_ifs <;> omega

theorem roundEven_le_floor_add_one (x : ℚ) : roundEven x ≤ ⌊x⌋ + 1 := by
  unfold roundEven
  split_ifs <;> omega

@[simp] theorem roundEven_intCast (n : ℤ) : roundEven n = n := by
  simp [roundEven]

theorem roundEven_mono {x y : ℚ} (h : x ≤ y) : roundEven x ≤ roundEven y := by
  rcases (Int.floor_mono h).lt_or_eq with hlt | heq
  · calc roundEven x ≤ ⌊x⌋ + 1 := roundEven_le_floor_add_one x
      _ ≤ ⌊y⌋ := hlt
      _ ≤ roundEven y := floor_le_roundEven y
  · have hfract : Int.fract x ≤ Int.fract y := by
      rw [Int.fract, Int.fract, heq]
      linarith
    unfold roundEven
    rw [heq]
    split_ifs <;> first | omega | (exfalso; linarith)

/-- An integer is reached from less than half a unit below it on, an even one from half a unit. -/
theorem le_roundEven_iff_near {n : ℤ} {x : ℚ} :
    n ≤ roundEven x ↔ (n : ℚ) - 1 / 2 < x ∨ (x = n - 1 / 2 ∧ n % 2 = 0) := by
  have hsplit := Int.floor_add_fract x
  have hlow := Int.fract_nonneg x
  have hhigh := Int.fract_lt_one x
  rcases lt_trichotomy n (⌊x⌋ + 1) with hlt | heq | hgt
  · have hfloor : (n : ℚ) ≤ ⌊x⌋ := by exact_mod_cast Int.lt_add_one_iff.mp hlt
    exact iff_of_true ((Int.lt_add_one_iff.mp hlt).trans (floor_le_roundEven x)) (.inl (by linarith))
  · have hcast : (n : ℚ) = ⌊x⌋ + 1 := by exact_mod_cast heq
    unfold roundEven
    split_ifs
    · refine iff_of_false (by omega) ?_
      rintro (h | ⟨h, -⟩) <;> linarith
    · exact iff_of_true heq.le (.inl (by linarith))
    · refine iff_of_false (by omega) ?_
      rintro (h | ⟨-, h⟩)
      · linarith
      · omega
    · exact iff_of_true heq.le (.inr ⟨by linarith, by omega⟩)
  · have hfloor : (⌊x⌋ : ℚ) + 2 ≤ n := by exact_mod_cast (by omega : ⌊x⌋ + 2 ≤ n)
    have hround := roundEven_le_floor_add_one x
    refine iff_of_false (by omega) ?_
    rintro (h | ⟨h, -⟩) <;> linarith

theorem le_roundEven_iff {n : ℤ} (even : n % 2 = 0) {x : ℚ} :
    n ≤ roundEven x ↔ (n : ℚ) - 1 / 2 ≤ x := by
  rw [le_roundEven_iff_near, le_iff_lt_or_eq, and_iff_left even, eq_comm]

theorem roundEven_le_iff {n : ℤ} (even : n % 2 = 0) {x : ℚ} :
    roundEven x ≤ n ↔ x ≤ (n : ℚ) + 1 / 2 := by
  have hsplit := Int.floor_add_fract x
  have hlow := Int.fract_nonneg x
  have hhigh := Int.fract_lt_one x
  rcases lt_trichotomy n ⌊x⌋ with hlt | heq | hgt
  · have hfloor : (n : ℚ) + 1 ≤ ⌊x⌋ := by exact_mod_cast hlt
    have hround := floor_le_roundEven x
    exact iff_of_false (by omega) (by linarith)
  · have hcast : (n : ℚ) = ⌊x⌋ := by exact_mod_cast heq
    unfold roundEven
    split_ifs
    · exact iff_of_true heq.ge (by linarith)
    · exact iff_of_false (by omega) (by linarith)
    · exact iff_of_true heq.ge (by linarith)
    · omega
  · have hfloor : (⌊x⌋ : ℚ) + 1 ≤ n := by exact_mod_cast hgt
    have hround := roundEven_le_floor_add_one x
    exact iff_of_true (by omega) (by linarith)

theorem roundEven_eq_iff {n : ℤ} (even : n % 2 = 0) {x : ℚ} :
    roundEven x = n ↔ |x - n| ≤ 1 / 2 := by
  rw [le_antisymm_iff, roundEven_le_iff even, le_roundEven_iff even, abs_le]
  constructor
  · rintro ⟨hhigh, hlow⟩
    constructor <;> linarith
  · rintro ⟨hlow, hhigh⟩
    constructor <;> linarith

/-- An integer is at most half a unit away. -/
theorem abs_roundEven_sub_le (x : ℚ) : |(roundEven x : ℚ) - x| ≤ 1 / 2 := by
  have hsplit := Int.floor_add_fract x
  have hlow := Int.fract_nonneg x
  have hhigh := Int.fract_lt_one x
  rw [abs_le]
  unfold roundEven
  split_ifs <;> push_cast <;> constructor <;> linarith

/-- The only integer nearer than half a unit is the nearest one. -/
theorem roundEven_eq_of_abs_lt {x : ℚ} {n : ℤ} (near : |x - n| < 1 / 2) : roundEven x = n := by
  have hround := abs_roundEven_sub_le x
  rw [abs_le] at hround
  rw [abs_lt] at near
  have hlow : (n : ℚ) - 1 < roundEven x := by linarith
  have hhigh : (roundEven x : ℚ) < n + 1 := by linarith
  have hlow' : n - 1 < roundEven x := by exact_mod_cast hlow
  have hhigh' : roundEven x < n + 1 := by exact_mod_cast hhigh
  omega

end EvenRounding
