import Mathlib.Data.List.Basic
import Mathlib.Data.String.Basic

/-!
# Strict base64 decoding

The strict mode of the standard decoder: only characters of the alphabet, no data
after the padding and no leading padding. Trailing bits of the last digit and
padding behind a complete group are not checked.
-/

namespace Base64Text

inductive DecodeError where
  | leadingPadding
  | onlyBase64Data
  | discontinuousPadding
  | excessData
  | dataCharacters
  | incorrectPadding
  deriving DecidableEq

def sextet (c : Char) : Option ℕ :=
  if 'A' ≤ c ∧ c ≤ 'Z' then some (c.toNat - 'A'.toNat)
  else if 'a' ≤ c ∧ c ≤ 'z' then some (c.toNat - 'a'.toNat + 26)
  else if '0' ≤ c ∧ c ≤ '9' then some (c.toNat - '0'.toNat + 52)
  else if c = '+' then some 62
  else if c = '/' then some 63
  else none

/-- The decoding loop: the place in the group of four, the bits left over from the last
digit, and the padding seen so far. -/
def decodeFrom : List Char → ℕ → ℕ → ℕ → Bool → Except DecodeError (List UInt8)
  | [], place, _, _, _ =>
    if place = 0 then .ok []
    else .error (if place = 1 then .dataCharacters else .incorrectPadding)
  | c :: cs, place, left, pads, padded =>
    if c = '=' then
      if 2 ≤ place then
        if 4 ≤ place + (pads + 1) then if cs.isEmpty then .ok [] else .error .excessData
        else decodeFrom cs place left (pads + 1) true
      else decodeFrom cs place left pads true
    else
      match sextet c with
      | none => .error .onlyBase64Data
      | some d =>
        if padded then .error .discontinuousPadding
        else
          match place with
          | 0 => decodeFrom cs 1 d 0 padded
          | 1 => (decodeFrom cs 2 (d % 16) 0 padded).map (UInt8.ofNat (left * 4 + d / 16) :: ·)
          | 2 => (decodeFrom cs 3 (d % 4) 0 padded).map (UInt8.ofNat (left * 16 + d / 4) :: ·)
          | _ => (decodeFrom cs 0 0 0 padded).map (UInt8.ofNat (left * 64 + d) :: ·)

def decodeStrict (cs : List Char) : Except DecodeError (List UInt8) :=
  if cs.head? = some '=' then .error .leadingPadding else decodeFrom cs 0 0 0 false

example : decodeStrict ['A', 'A', '=', '='] = .ok [0] := by decide
example : decodeStrict ['A', 'B', '=', '='] = .ok [0] := by decide

end Base64Text
