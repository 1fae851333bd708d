import Mathlib.Data.List.Basic
import Mathlib.Tactic.Ring

/-!
# The order of numerals

A numeral is a list of digits of some base, most significant first, over any alphabet
whose digits are ordered as their values are. Numerals of one length are ordered as
texts; without leading zeros the longer one is the larger one. So numbers can be compared
without computing them.
-/

namespace NumeralOrder

variable {α : Type} [LT α] {base : ℕ}

/-- The digits of a base among the letters of an alphabet. -/
structure Digits (α : Type) [LT α] (base : ℕ) where
  isDigit : α → Bool
  value : α → ℕ
  zero : α
  isDigit_zero : isDigit zero = true
  value_zero : value zero = 0
  value_lt : ∀ a, isDigit a = true → value a < base
  value_lt_value : ∀ a b, isDigit a = true → isDigit b = true → (value a < value b ↔ a < b)
  value_inj : ∀ a b, isDigit a = true → isDigit b = true → value a = value b → a = b

variable (D : Digits α base)

def Digits.number (ds : List α) : ℕ := ds.foldl (fun n d => base * n + D.value d) 0

def Digits.IsNumeral (ds : List α) : Prop := ∀ d ∈ ds, D.isDigit d = true

/-- A numeral that does not start with a zero, unless the zero is all of it. -/
inductive Digits.Plain : List α → Prop where
  | single (d : α) : Plain [d]
  | leading {d : α} (ds : List α) (nonzero : d ≠ D.zero) : Plain (d :: ds)

variable {D} {d : α} {ds xs ys : List α}

theorem Digits.base_pos (D : Digits α base) : 0 < base :=
  Nat.zero_lt_of_lt (D.value_lt D.zero D.isDigit_zero)

theorem Digits.IsNumeral.head (h : D.IsNumeral (d :: ds)) : D.isDigit d = true :=
  h d List.mem_cons_self

theorem Digits.IsNumeral.tail (h : D.IsNumeral (d :: ds)) : D.IsNumeral ds :=
  fun e he => h e (List.mem_cons_of_mem _ he)

theorem foldl_number (start : ℕ) (ds : List α) :
    ds.foldl (fun n d => base * n + D.value d) start = base ^ ds.length * start + D.number ds := by
  induction ds generalizing start with
  | nil => simp [Digits.number]
  | cons d ds ih =>
    have hhead : D.number (d :: ds) = base ^ ds.length * D.value d + D.number ds := by
      rw [Digits.number, List.foldl_cons, ih, Nat.mul_zero, Nat.zero_add]
    rw [List.foldl_cons, ih, hhead, List.length_cons]
    ring

theorem number_cons (d : α) (ds : List α) :
    D.number (d :: ds) = base ^ ds.length * D.value d + D.number ds := by
  rw [Digits.number, List.foldl_cons, foldl_number, Nat.mul_zero, Nat.zero_add]

theorem number_zero_cons (ds : List α) : D.number (D.zero :: ds) = D.number ds := by
  rw [number_cons, D.value_zero, Nat.mul_zero, Nat.zero_add]

theorem number_lt (h : D.IsNumeral ds) : D.number ds < base ^ ds.length := by
  induction ds with
  | nil => simp [Digits.number]
  | cons d ds ih =>
    have hdigit : D.value d + 1 ≤ base := D.value_lt d h.head
    have hrest := ih h.tail
    rw [number_cons]
    calc base ^ ds.length * D.value d + D.number ds
        < base ^ ds.length * D.value d + base ^ ds.length := Nat.add_lt_add_left hrest _
      _ = base ^ ds.length * (D.value d + 1) := by ring
      _ ≤ base ^ ds.length * base := Nat.mul_le_mul_left _ hdigit
      _ = base ^ (d :: ds).length := (pow_succ base ds.length).symm

/-- A leading digit other than zero makes the number as large as its place. -/
theorem pow_le_number (h : D.isDigit d = true) (nonzero : d ≠ D.zero) :
    base ^ ds.length ≤ D.number (d :: ds) := by
  have hpos : 1 ≤ D.value d := by
    rw [Nat.one_le_iff_ne_zero, ← D.value_zero]
    exact fun hzero => nonzero (D.value_inj d D.zero h D.isDigit_zero hzero)
  rw [number_cons]
  calc base ^ ds.length = base ^ ds.length * 1 := (Nat.mul_one _).symm
    _ ≤ base ^ ds.length * D.value d := Nat.mul_le_mul_left _ hpos
    _ ≤ base ^ ds.length * D.value d + D.number ds := Nat.le_add_right _ _

/-- Numerals of one length are ordered as texts. -/
theorem number_lt_number_iff_lt (hx : D.IsNumeral xs) (hy : D.IsNumeral ys)
    (same : xs.length = ys.length) : D.number xs < D.number ys ↔ xs < ys := by
  induction xs generalizing ys with
  | nil =>
    obtain rfl := List.length_eq_zero_iff.mp same.symm
    simp
  | cons x xs ih =>
    cases ys with
    | nil => cases same
    | cons y ys =>
      have hlength : xs.length = ys.length := Nat.succ.inj same
      have hxs := number_lt hx.tail
      have hys := number_lt hy.tail
      rw [← hlength] at hys
      have hrest := ih hx.tail hy.tail hlength
      have hdigit := D.value_lt_value x y hx.head hy.head
      rw [number_cons, number_cons, ← hlength, List.cons_lt_cons_iff, ← hrest, ← hdigit]
      -- the place of the leading digits is worth more than everything behind them
      rcases lt_trichotomy (D.value x) (D.value y) with hlt | heq | hgt
      · have hplace : base ^ xs.length * (D.value x + 1) ≤ base ^ xs.length * D.value y :=
          Nat.mul_le_mul_left _ hlt
        rw [Nat.mul_add, Nat.mul_one] at hplace
        exact iff_of_true (by omega) (.inl hlt)
      · obtain rfl := D.value_inj x y hx.head hy.head heq
        simp
      · have hplace : base ^ xs.length * (D.value y + 1) ≤ base ^ xs.length * D.value x :=
          Nat.mul_le_mul_left _ hgt
        rw [Nat.mul_add, Nat.mul_one] at hplace
        refine iff_of_false (by omega) ?_
        rintro (hlt | ⟨rfl, -⟩)
        · omega
        · exact lt_irrefl _ hgt

/-- Without leading zeros the longer numeral is the larger one. -/
theorem number_lt_number_of_length_lt (hx : D.IsNumeral xs) (hy : D.IsNumeral ys) (plain : D.Plain ys)
    (some_ : xs ≠ []) (longer : xs.length < ys.length) : D.number xs < D.number ys := by
  have hpos := List.length_pos_iff.mpr some_
  cases plain with
  | single d =>
    rw [List.length_singleton] at longer
    omega
  | leading ds nonzero =>
    rw [List.length_cons] at longer
    calc D.number xs < base ^ xs.length := number_lt hx
      _ ≤ base ^ ds.length := Nat.pow_le_pow_right D.base_pos (Nat.lt_succ_iff.mp longer)
      _ ≤ D.number _ := pow_le_number hy.head nonzero

theorem Digits.Plain.ne_nil (h : D.Plain ds) : ds ≠ [] := by
  cases h <;> simp

/-- Numerals without leading zeros are ordered by length, then as texts. -/
theorem number_lt_number_iff (hx : D.IsNumeral xs) (hy : D.IsNumeral ys) (plainX : D.Plain xs)
    (plainY : D.Plain ys) : D.number xs < D.number ys ↔
      xs.length < ys.length ∨ (ys.length = xs.length ∧ xs < ys) := by
  rcases lt_trichotomy xs.length ys.length with hlt | heq | hgt
  · exact iff_of_true (number_lt_number_of_length_lt hx hy plainY plainX.ne_nil hlt) (.inl hlt)
  · rw [number_lt_number_iff_lt hx hy heq]
    simp [heq]
  · have hlarger := number_lt_number_of_length_lt hy hx plainX plainY.ne_nil hgt
    exact iff_of_false (by omega) (by omega)

section Stripping

variable [DecidableEq α]

def Digits.stripped (D : Digits α base) (ds : List α) : List α :=
  if ds.dropWhile (· = D.zero) = [] then [D.zero] else ds.dropWhile (· = D.zero)

theorem number_dropWhile (ds : List α) :
    D.number (ds.dropWhile (· = D.zero)) = D.number ds := by
  induction ds with
  | nil => rfl
  | cons d ds ih =>
    by_cases hzero : d = D.zero
    · subst hzero
      rw [List.dropWhile_cons_of_pos (by simp), ih, number_zero_cons]
    · rw [List.dropWhile_cons_of_neg (by simpa using hzero)]

@[simp] theorem number_stripped (ds : List α) : D.number (D.stripped ds) = D.number ds := by
  rw [← number_dropWhile ds]
  unfold Digits.stripped
  split_ifs with hnone
  · rw [hnone, number_zero_cons]
  · rfl

theorem Digits.IsNumeral.stripped (h : D.IsNumeral ds) : D.IsNumeral (D.stripped ds) := by
  intro d hd
  unfold Digits.stripped at hd
  split_ifs at hd
  · rw [List.mem_singleton.mp hd]
    exact D.isDigit_zero
  · exact h d (List.dropWhile_subset _ hd)

theorem plain_stripped (ds : List α) : D.Plain (D.stripped ds) := by
  unfold Digits.stripped
  split_ifs with hnone
  · exact .single _
  · cases hrest : ds.dropWhile (· = D.zero) with
    | nil => exact absurd hrest hnone
    | cons d rest =>
      have hhead : ¬ (decide (d = D.zero) = true) := by
        have := List.head?_dropWhile_not (p := (decide <| · = D.zero)) (l := ds)
        simpa [hrest] using this
      exact .leading rest (by simpa using hhead)

end Stripping

end NumeralOrder
