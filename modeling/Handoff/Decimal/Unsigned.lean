/-!
# Unsigned decimal numerals

An optional plus sign and one or more ASCII digits, with a value below a limit. The digits are read
from left to right and the first fault is reported: a character that is no digit comes before the
overflow that it would cause, and after an overflow that an earlier digit caused.
-/

namespace Handoff

namespace Decimal

/-- Why a text is no numeral. -/
inductive NumeralError where
  | empty
  /-- A character is no digit, or the digits are missing. -/
  | invalidDigit
  /-- The value reaches the limit. -/
  | tooLarge
  deriving DecidableEq, Repr

def NumeralError.message : NumeralError → String
  | .empty => "cannot parse integer from empty string"
  | .invalidDigit => "invalid digit found in string"
  | .tooLarge => "number too large to fit in target type"

/-- The value of `c`, if it is an ASCII digit. -/
def digit? (c : Char) : Option Nat :=
  if '0' ≤ c ∧ c ≤ '9' then some (c.toNat - '0'.toNat) else none

/-- Reads digits after those of value `n`; the value stays below `limit`. -/
def readDigits (limit n : Nat) : List Char → Except NumeralError Nat
  | [] => .ok n
  | c :: cs =>
    match digit? c with
    | none => .error .invalidDigit
    | some d => if n * 10 + d < limit then readDigits limit (n * 10 + d) cs else .error .tooLarge

/-- Reads a numeral whose value is below `limit`. -/
def read (limit : Nat) : List Char → Except NumeralError Nat
  | [] => .error .empty
  | ['+'] => .error .invalidDigit
  | '+' :: cs => readDigits limit 0 cs
  | cs => readDigits limit 0 cs

/-- Reads a numeral below `2 ^ 64`. -/
def read64 (s : String) : Except NumeralError Nat := read UInt64.size s.toList

end Decimal

end Handoff
