import PolicyModelRouter.DigitStrings
import Mathlib.Data.List.DropRight
import Mathlib.Data.String.Basic

/-!
# Python text

The `repr` of a string and the white space that validation strips. Which
characters outside ASCII are printable is decided by the interpreter's Unicode
tables, which stay a parameter.
-/

namespace PythonText
open DigitStrings

class UnicodeTables where
  isPrintable : Char → Bool

/-- Tables that agree with every interpreter on ASCII text. -/
@[reducible] def asciiTables : UnicodeTables := ⟨fun _ => false⟩

/-- `repr` prefers apostrophes and falls back to quotes when only quotes are free. -/
def reprQuote (s : List Char) : Char :=
  if '\x27' ∈ s ∧ '\x22' ∉ s then '\x22' else '\x27'

def reprChar [UnicodeTables] (quote c : Char) : List Char :=
  if c = quote ∨ c = '\x5c' then ['\x5c', c]
  else if c = '\t' then ['\x5c', 't']
  else if c = '\n' then ['\x5c', 'n']
  else if c = '\r' then ['\x5c', 'r']
  else if c.toNat < 0x20 ∨ c.toNat = 0x7f then '\x5c' :: 'x' :: padded 16 2 c.toNat
  else if c.toNat < 0x7f then [c]
  else if UnicodeTables.isPrintable c then [c]
  else if c.toNat ≤ 0xff then '\x5c' :: 'x' :: padded 16 2 c.toNat
  else if c.toNat ≤ 0xffff then '\x5c' :: 'u' :: padded 16 4 c.toNat
  else '\x5c' :: 'U' :: padded 16 8 c.toNat

/-- What `!r` writes for a string. -/
def reprText [UnicodeTables] (s : String) : String :=
  let quote := reprQuote s.toList
  String.ofList (quote :: (s.toList.flatMap (reprChar quote) ++ [quote]))

def decimalText (n : ℤ) : String := String.ofList (intText n)

/-- The most digits the interpreter converts between integers and text. -/
def maxStrDigits : ℕ := 4300

/-- What `str` and an f-string write for an integer, or nothing where they raise `ValueError`. -/
def str (n : ℤ) : Option String :=
  if (natText n.natAbs).length ≤ maxStrDigits then some (decimalText n) else none

def Short (n : ℤ) : Prop := |n| < 10 ^ maxStrDigits

theorem str_eq_some_iff {n : ℤ} {s : String} : str n = some s ↔ Short n ∧ decimalText n = s := by
  have hlength : (natText n.natAbs).length ≤ maxStrDigits ↔ Short n := by
    rw [natText, Nat.length_toDigits_le_iff (by decide) (by decide), Short, Int.abs_eq_natAbs]
    norm_cast
  rw [str, ← hlength]
  split <;> simp_all

theorem Short.str {n : ℤ} (h : Short n) : str n = some (decimalText n) :=
  str_eq_some_iff.mpr ⟨h, rfl⟩

theorem Short.of_le {n m : ℤ} (h : Short m) (nonneg : 0 ≤ n) (le : n ≤ m) : Short n := by
  rw [Short, abs_of_nonneg nonneg]
  exact (le.trans (le_abs_self m)).trans_lt h

theorem decimalText_ne_empty (n : ℤ) : decimalText n ≠ "" := by
  obtain ⟨c, s, h, -⟩ := head_intText n
  rw [decimalText, h]
  exact fun h' => nomatch String.ofList_eq_empty_iff.mp h'

def isWhiteSpace (c : Char) : Bool :=
  let n := c.toNat
  (9 ≤ n && n ≤ 13) || n == 0x20 || n == 0x85 || n == 0xa0 || n == 0x1680 ||
    (0x2000 ≤ n && n ≤ 0x200a) || n == 0x2028 || n == 0x2029 || n == 0x202f || n == 0x205f ||
    n == 0x3000

def strip (s : String) : String :=
  String.ofList ((s.toList.dropWhile isWhiteSpace).rdropWhile isWhiteSpace)

theorem length_strip_le (s : String) : (strip s).length ≤ s.length := by
  simp only [strip, String.length_ofList]
  calc ((s.toList.dropWhile isWhiteSpace).rdropWhile isWhiteSpace).length
      ≤ (s.toList.dropWhile isWhiteSpace).length := (List.rdropWhile_prefix _ _).length_le
    _ ≤ s.toList.length := (List.dropWhile_suffix _).length_le
    _ = s.length := String.length_toList

/-- Text without white space is its own stripped form. -/
theorem strip_eq_self {s : String} (h : ∀ c ∈ s.toList, isWhiteSpace c = false) : strip s = s := by
  have hfront : s.toList.dropWhile isWhiteSpace = s.toList := by
    cases hs : s.toList with
    | nil => rfl
    | cons c cs => simp [h c (by rw [hs]; exact List.mem_cons_self)]
  have hback : s.toList.rdropWhile isWhiteSpace = s.toList := by
    rw [List.rdropWhile_eq_self_iff]
    intro hne
    simp [h _ (List.getLast_mem hne)]
  rw [strip, hfront, hback, String.ofList_toList]

def isGraphic (c : Char) : Bool := 33 ≤ c.toNat && c.toNat ≤ 126

theorem isWhiteSpace_of_isGraphic {c : Char} (h : isGraphic c = true) : isWhiteSpace c = false := by
  simp only [isGraphic, Bool.and_eq_true, decide_eq_true_eq] at h
  simp only [isWhiteSpace, Bool.or_eq_false_iff, Bool.and_eq_false_iff, decide_eq_false_iff_not,
    beq_eq_false_iff_ne]
  omega

theorem isGraphic_of_range {a b c : Char} (h : a ≤ c ∧ c ≤ b) (ha : 33 ≤ a.toNat)
    (hb : b.toNat ≤ 126) : isGraphic c = true := by
  have hlow : a.toNat ≤ c.toNat := h.1
  have hhigh : c.toNat ≤ b.toNat := h.2
  simp only [isGraphic, Bool.and_eq_true, decide_eq_true_eq]
  omega

/-- Visible text has nothing to strip. -/
theorem strip_eq_self_of_isGraphic {s : String} (h : ∀ c ∈ s.toList, isGraphic c = true) :
    strip s = s :=
  strip_eq_self fun c hc => isWhiteSpace_of_isGraphic (h c hc)

theorem strip_strip (s : String) : strip (strip s) = strip s := by
  have hback : ∀ cs : List Char, (cs.rdropWhile isWhiteSpace).rdropWhile isWhiteSpace =
      cs.rdropWhile isWhiteSpace := List.rdropWhile_idempotent _
  have hfront : ∀ cs : List Char, cs.dropWhile isWhiteSpace = cs →
      (cs.rdropWhile isWhiteSpace).dropWhile isWhiteSpace = cs.rdropWhile isWhiteSpace := by
    intro cs hcs
    cases hr : cs.rdropWhile isWhiteSpace with
    | nil => rfl
    | cons c rest =>
      obtain ⟨tail, htail⟩ := List.rdropWhile_prefix isWhiteSpace cs
      rw [hr, List.cons_append] at htail
      have hc : isWhiteSpace c = false := by
        rw [← htail] at hcs
        cases hws : isWhiteSpace c with
        | false => rfl
        | true =>
          rw [List.dropWhile_cons_of_pos hws] at hcs
          have hlength := congrArg List.length hcs
          have hle := (List.dropWhile_suffix (l := rest ++ tail) isWhiteSpace).length_le
          rw [List.length_cons] at hlength
          omega
      rw [List.dropWhile_cons_of_neg (by simp [hc])]
  have hdrop : (s.toList.dropWhile isWhiteSpace).dropWhile isWhiteSpace =
      s.toList.dropWhile isWhiteSpace := List.dropWhile_idempotent _ _
  rw [strip, strip, String.toList_ofList, hfront _ hdrop, hback]

end PythonText
