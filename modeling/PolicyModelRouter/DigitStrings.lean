import Mathlib.Data.List.Basic
import Mathlib.Data.Nat.Basic
import Mathlib.Tactic.Linarith

/-!
# Numbers written as digits

Decimal numerals without leading zeros, and numerals padded to a fixed width in
any base up to sixteen. Both renderings determine the number; a padded numeral
has a known length, and a plain one ends where the digits end.
-/

namespace DigitStrings

/-- `width` digits in base `base`, most significant first, padded with zeros. -/
def padded (base : ℕ) : ℕ → ℕ → List Char
  | 0, _ => []
  | width + 1, n => padded base width (n / base) ++ [Nat.digitChar (n % base)]

@[simp] theorem length_padded (base width n : ℕ) : (padded base width n).length = width := by
  induction width generalizing n with
  | zero => rfl
  | succ width ih => simp [padded, ih]

theorem digitChar_inj {a b : ℕ} (ha : a < 16) (hb : b < 16)
    (h : Nat.digitChar a = Nat.digitChar b) : a = b := by
  have table : ∀ a < 16, ∀ b < 16, Nat.digitChar a = Nat.digitChar b → a = b := by decide
  exact table a ha b hb h

/-- Padded numerals of numbers that fit the width are equal only for equal numbers. -/
theorem padded_inj {base : ℕ} (hpos : 0 < base) (hbase : base ≤ 16) {width a b : ℕ}
    (ha : a < base ^ width) (hb : b < base ^ width)
    (h : padded base width a = padded base width b) : a = b := by
  induction width generalizing a b with
  | zero =>
    rw [pow_zero] at ha hb
    omega
  | succ width ih =>
    obtain ⟨hinit, hlast⟩ := List.append_inj' h rfl
    have hdiv : a / base = b / base := by
      refine ih ?_ ?_ hinit
      · exact Nat.div_lt_of_lt_mul (by rwa [pow_succ, Nat.mul_comm] at ha)
      · exact Nat.div_lt_of_lt_mul (by rwa [pow_succ, Nat.mul_comm] at hb)
    have hmod : a % base = b % base :=
      digitChar_inj ((Nat.mod_lt _ hpos).trans_le hbase) ((Nat.mod_lt _ hpos).trans_le hbase)
        (List.singleton_injective hlast)
    calc a = base * (a / base) + a % base := (Nat.div_add_mod a base).symm
      _ = base * (b / base) + b % base := by rw [hdiv, hmod]
      _ = b := Nat.div_add_mod b base

/-- A padded numeral can be told from what follows it. -/
theorem padded_append_inj {base : ℕ} (hpos : 0 < base) (hbase : base ≤ 16) {width a b : ℕ}
    (ha : a < base ^ width) (hb : b < base ^ width) {s t : List Char}
    (h : padded base width a ++ s = padded base width b ++ t) : a = b ∧ s = t := by
  obtain ⟨hab, hst⟩ := List.append_inj h (by simp)
  exact ⟨padded_inj hpos hbase ha hb hab, hst⟩

/-- Every character of a padded numeral is a digit of its base. -/
theorem mem_padded {base width n : ℕ} (hpos : 0 < base) {c : Char} (h : c ∈ padded base width n) :
    ∃ d < base, c = Nat.digitChar d := by
  induction width generalizing n with
  | zero => simp [padded] at h
  | succ width ih =>
    rcases List.mem_append.mp h with h | h
    · exact ih h
    · exact ⟨n % base, Nat.mod_lt _ hpos, List.mem_singleton.mp h⟩

def natText (n : ℕ) : List Char := Nat.toDigits 10 n

theorem natText_inj {a b : ℕ} (h : natText a = natText b) : a = b := by
  rw [← Nat.ofDigitChars_ten_toDigits (n := a), ← Nat.ofDigitChars_ten_toDigits (n := b)]
  exact congrArg (Nat.ofDigitChars 10 · 0) h

theorem natText_ne_nil (n : ℕ) : natText n ≠ [] := Nat.toDigits_ne_nil

theorem isDigit_of_mem_natText {n : ℕ} {c : Char} (h : c ∈ natText n) : c.isDigit = true :=
  Nat.isDigit_of_mem_toDigits (by decide) (by decide) h

theorem natText_of_lt {n : ℕ} (small : n < 10) : natText n = [n.digitChar] :=
  Nat.toDigits_of_lt_base small

theorem natText_of_le {n : ℕ} (large : 10 ≤ n) :
    natText n = natText (n / 10) ++ [(n % 10).digitChar] :=
  Nat.toDigits_of_base_le (by decide) large

/-- The text of a positive number does not start with a zero. -/
theorem head_natText_of_pos {n : ℕ} (pos : 0 < n) : ∃ c s, natText n = c :: s ∧ c ≠ '0' := by
  induction n using Nat.strong_induction_on with
  | _ n ih =>
    rcases Nat.lt_or_ge n 10 with hsmall | hlarge
    · refine ⟨n.digitChar, [], natText_of_lt hsmall, ?_⟩
      exact (by decide : ∀ d < 10, 0 < d → Nat.digitChar d ≠ '0') n hsmall pos
    · obtain ⟨c, s, htext, hc⟩ := ih (n / 10) (by omega) (by omega)
      refine ⟨c, s ++ [(n % 10).digitChar], ?_, hc⟩
      rw [natText_of_le hlarge, htext, List.cons_append]

def EndsNumeral (s : List Char) : Prop := ∀ c ∈ s.head?, c.isDigit = false

@[simp] theorem endsNumeral_nil : EndsNumeral [] := by simp [EndsNumeral]

theorem endsNumeral_cons {c : Char} {s : List Char} (h : c.isDigit = false) :
    EndsNumeral (c :: s) := by simpa [EndsNumeral] using h

private theorem takeWhile_natText (n : ℕ) {s : List Char} (hs : EndsNumeral s) :
    (natText n ++ s).takeWhile Char.isDigit = natText n := by
  rw [List.takeWhile_append_of_pos (fun c => isDigit_of_mem_natText)]
  cases s with
  | nil => simp
  | cons c s =>
    have hc : c.isDigit = false := hs c rfl
    simp [hc]

/-- A numeral followed by anything but a digit can be told from what follows. -/
theorem natText_append_inj {a b : ℕ} {s t : List Char} (hs : EndsNumeral s) (ht : EndsNumeral t)
    (h : natText a ++ s = natText b ++ t) : a = b ∧ s = t := by
  have hab : natText a = natText b := by
    rw [← takeWhile_natText a hs, h, takeWhile_natText b ht]
  refine ⟨natText_inj hab, ?_⟩
  rw [hab] at h
  exact List.append_cancel_left h

def intText : ℤ → List Char
  | .ofNat n => natText n
  | .negSucc n => '-' :: natText (n + 1)

theorem head_natText (n : ℕ) : ∃ c s, natText n = c :: s ∧ c.isDigit = true := by
  cases h : natText n with
  | nil => exact absurd h (natText_ne_nil n)
  | cons c s => exact ⟨c, s, rfl, isDigit_of_mem_natText (by rw [h]; exact List.mem_cons_self)⟩

theorem head_intText (n : ℤ) :
    ∃ c s, intText n = c :: s ∧ (c.isDigit = true ∨ c = '-') := by
  cases n with
  | ofNat n =>
    obtain ⟨c, s, h, hc⟩ := head_natText n
    exact ⟨c, s, h, .inl hc⟩
  | negSucc n => exact ⟨'-', natText (n + 1), rfl, .inr rfl⟩

private theorem natText_ne_minus {n : ℕ} {s t : List Char} : natText n ++ s ≠ '-' :: t := by
  obtain ⟨c, u, h, hc⟩ := head_natText n
  rw [h]
  intro he
  obtain ⟨rfl, -⟩ := List.cons.inj he
  exact absurd hc (by decide)

theorem intText_append_inj {a b : ℤ} {s t : List Char} (hs : EndsNumeral s) (ht : EndsNumeral t)
    (h : intText a ++ s = intText b ++ t) : a = b ∧ s = t := by
  cases a with
  | ofNat a =>
    cases b with
    | ofNat b =>
      obtain ⟨rfl, rfl⟩ := natText_append_inj hs ht h
      exact ⟨rfl, rfl⟩
    | negSucc b => exact absurd h natText_ne_minus
  | negSucc a =>
    cases b with
    | ofNat b => exact absurd h.symm natText_ne_minus
    | negSucc b =>
      obtain ⟨hab, rfl⟩ := natText_append_inj hs ht (List.cons.inj h).2
      obtain rfl : a = b := by omega
      exact ⟨rfl, rfl⟩

end DigitStrings
