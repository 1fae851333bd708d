import PolicyModelRouter.DigitStrings
import Mathlib.Data.Int.Basic

/-!
# Decimal arithmetic in a bounded context

Finite decimals with a sign, a coefficient and an exponent, and the operations of
the General Decimal Arithmetic model: every result is the exact one, rounded half
to even to the precision of the context and checked against its exponent range.
A trapped condition is the error of an operation. Comparisons are exact.
-/

namespace DecimalArithmetic
open DigitStrings

structure Decimal where
  negative : Bool
  coefficient : ℕ
  exponent : ℤ
  deriving DecidableEq

structure Context where
  precision : ℕ
  emin : ℤ
  emax : ℤ

inductive Signal where
  | overflow
  | divisionByZero
  | invalidOperation
  deriving DecidableEq

def Context.etiny (ctx : Context) : ℤ := ctx.emin - ctx.precision + 1

def Context.etop (ctx : Context) : ℤ := ctx.emax - ctx.precision + 1

namespace Decimal

def ofInt (n : ℤ) : Decimal := ⟨n < 0, n.natAbs, 0⟩

def numDigits (n : ℕ) : ℕ := (natText n).length

/-- `n / 10 ^ k`, rounded half to even. -/
def roundHalfEven (n k : ℕ) : ℕ :=
  let q := n / 10 ^ k
  let r := n % 10 ^ k
  if 2 * r < 10 ^ k then q
  else if 10 ^ k < 2 * r then q + 1
  else if q % 2 = 0 then q else q + 1

/-- Round a result to the context and bring its exponent into range. -/
def fix (ctx : Context) (d : Decimal) : Except Signal Decimal :=
  if d.coefficient = 0 then
    .ok { d with exponent := min (max d.exponent ctx.etiny) ctx.emax }
  else
    let expMin := numDigits d.coefficient + d.exponent - ctx.precision
    if ctx.etop < expMin then .error .overflow
    else
      let expMin := max expMin ctx.etiny
      if d.exponent < expMin then
        let rounded := roundHalfEven d.coefficient (expMin - d.exponent).toNat
        -- a carry into one digit too many moves the exponent up by one
        if ctx.precision < numDigits rounded then
          if ctx.etop < expMin + 1 then .error .overflow
          else .ok ⟨d.negative, rounded / 10, expMin + 1⟩
        else .ok ⟨d.negative, rounded, expMin⟩
      else .ok d

/-- The coefficient with its sign, at an exponent not above the decimal's own. -/
def scaled (d : Decimal) (e : ℤ) : ℤ :=
  (if d.negative then -1 else 1) * d.coefficient * 10 ^ (d.exponent - e).toNat

def add (ctx : Context) (a b : Decimal) : Except Signal Decimal :=
  let e := min a.exponent b.exponent
  let sum := a.scaled e + b.scaled e
  fix ctx ⟨if sum = 0 then a.negative && b.negative else sum < 0, sum.natAbs, e⟩

def mul (ctx : Context) (a b : Decimal) : Except Signal Decimal :=
  fix ctx ⟨xor a.negative b.negative, a.coefficient * b.coefficient, a.exponent + b.exponent⟩

/-- Drop trailing zeros of an exact quotient until the ideal exponent is reached. -/
def reduceTo (ideal : ℤ) : ℕ → ℕ → ℤ → ℕ × ℤ
  | 0, coefficient, e => (coefficient, e)
  | fuel + 1, coefficient, e =>
    if e < ideal ∧ coefficient % 10 = 0 then reduceTo ideal fuel (coefficient / 10) (e + 1)
    else (coefficient, e)

def div (ctx : Context) (a b : Decimal) : Except Signal Decimal :=
  let negative := xor a.negative b.negative
  let ideal := a.exponent - b.exponent
  if b.coefficient = 0 then
    .error (if a.coefficient = 0 then .invalidOperation else .divisionByZero)
  else if a.coefficient = 0 then fix ctx ⟨negative, 0, ideal⟩
  else
    let shift : ℤ := numDigits b.coefficient - numDigits a.coefficient + ctx.precision + 1
    let dividend := a.coefficient * 10 ^ shift.toNat
    let divisor := b.coefficient * 10 ^ (-shift).toNat
    let quotient := dividend / divisor
    if dividend % divisor = 0 then
      let reduced := reduceTo ideal (ideal - (ideal - shift)).toNat quotient (ideal - shift)
      fix ctx ⟨negative, reduced.1, reduced.2⟩
    else
      -- the last digit stands for the dropped remainder, so it must not look exact
      fix ctx ⟨negative, if quotient % 5 = 0 then quotient + 1 else quotient, ideal - shift⟩

def le (a b : Decimal) : Bool :=
  let e := min a.exponent b.exponent
  a.scaled e ≤ b.scaled e

/-- Numerical equality: trailing zeros and the sign of a zero do not count. -/
def eqv (a b : Decimal) : Bool := a.le b && b.le a

/-- The nearest integral decimal, without rounding to the context's precision. -/
def toIntegralValue (d : Decimal) : Decimal :=
  if 0 ≤ d.exponent then d
  else ⟨d.negative, roundHalfEven d.coefficient (-d.exponent).toNat, 0⟩

/-- The integer an integral decimal stands for. -/
def toInt (d : Decimal) : ℤ := d.scaled 0

/-- Scientific notation unless the exponent is at most zero and small. -/
def toText (d : Decimal) : String :=
  let digits := natText d.coefficient
  let leftDigits := d.exponent + digits.length
  let dotPlace := if d.exponent ≤ 0 ∧ -6 < leftDigits then leftDigits else 1
  let sign := if d.negative then ['-'] else []
  let mantissa :=
    if dotPlace ≤ 0 then '0' :: '.' :: (List.replicate (-dotPlace).toNat '0' ++ digits)
    else if digits.length ≤ dotPlace then
      digits ++ List.replicate (dotPlace - digits.length).toNat '0'
    else digits.take dotPlace.toNat ++ '.' :: digits.drop dotPlace.toNat
  let e := leftDigits - dotPlace
  let suffix :=
    if e = 0 then [] else 'E' :: (if 0 ≤ e then '+' :: intText e else intText e)
  String.ofList (sign ++ mantissa ++ suffix)

example : (⟨false, 30, -2⟩ : Decimal).toText = "0.30" := by decide
example : (⟨true, 123, -10⟩ : Decimal).toText = "-1.23E-8" := by decide
example : (⟨false, 12, 3⟩ : Decimal).toText = "1.2E+4" := by decide

end Decimal

end DecimalArithmetic
