import PolicyModelRouter.FloatFormats

/-!
# Double-precision numbers

The finite numbers of 53 binary digits, with the operations rounded to the nearest of them.
Nothing is said of results beyond the greatest exponent.
-/

namespace Doubles
open FloatFormats

def binary64 : Format := ⟨2, 53, -1074, by decide⟩

structure Double where
  value : ℚ
  kept : binary64.Kept value

namespace Double

theorem value_injective : Function.Injective value := by
  rintro ⟨x, _⟩ ⟨_, _⟩ rfl
  rfl

instance linearOrder : LinearOrder Double := LinearOrder.lift' value value_injective

def nearest (x : ℚ) : Double := ⟨binary64.round x, Format.kept_round (by decide)⟩

instance instSub : Sub Double := ⟨fun x y => nearest (x.value - y.value)⟩

instance instMul : Mul Double := ⟨fun x y => nearest (x.value * y.value)⟩

theorem le_def {x y : Double} : x ≤ y ↔ x.value ≤ y.value := Iff.rfl

theorem sub_value (x y : Double) : (x - y).value = (nearest (x.value - y.value)).value := rfl

theorem mul_value (x y : Double) : (x * y).value = (nearest (x.value * y.value)).value := rfl

/-- What rounding adds: at most a 2^53rd part of the number, and next to nothing. -/
theorem abs_nearest_sub_le (x : ℚ) : |(nearest x).value - x| ≤ |x| / 2 ^ 53 + 1 / 2 ^ 53 := by
  have hbound := Format.abs_round_sub_le_add (f := binary64) (x := x)
  have hleast : ((binary64.base : ℕ) : ℚ) ^ binary64.least ≤ 1 / 2 ^ 52 := by
    have h := Format.power_mono (f := binary64) (show binary64.least ≤ -52 by decide)
    refine h.trans_eq ?_
    norm_num [binary64]
  have hunit : ((binary64.base : ℕ) : ℚ) ^ (1 - binary64.precision : ℤ) = 1 / 2 ^ 52 := by
    norm_num [binary64]
  rw [hunit] at hbound
  change |binary64.round x - x| ≤ _
  linarith

end Double

end Doubles
