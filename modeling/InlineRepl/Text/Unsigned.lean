/-!
# Unsigned numbers in decimal

Reading a number below a bound: one optional plus sign, then digits. Digits are read from the left
and the first fault met is the one reported, so a number that overflows before its first bad digit
is too large.
-/

namespace InlineRepl.Text

namespace Unsigned

/-- Why a text is not an unsigned number. -/
inductive Fault where
  | empty
  | invalidDigit
  | tooLarge
  deriving Repr, DecidableEq

/-- The wording of a fault. -/
def Fault.message : Fault → String
  | .empty => "cannot parse integer from empty string"
  | .invalidDigit => "invalid digit found in string"
  | .tooLarge => "number too large to fit in target type"

/-- The value of an ASCII digit. -/
def digit? (c : Char) : Option Nat :=
  if '0' ≤ c ∧ c ≤ '9' then some (c.toNat - '0'.toNat) else none

/-- Reads digits after the number `acc`, staying below `bound`. -/
def readDigits (bound : Nat) (acc : Nat) : List Char → Except Fault Nat
  | [] => .ok acc
  | c :: cs =>
    match digit? c with
    | none => .error .invalidDigit
    | some d =>
      if acc * 10 + d < bound then readDigits bound (acc * 10 + d) cs else .error .tooLarge

/-- Reads a number below `bound`. -/
def read (bound : Nat) : List Char → Except Fault Nat
  | [] => .error .empty
  | ['+'] => .error .invalidDigit
  | '+' :: cs => readDigits bound 0 cs
  | cs => readDigits bound 0 cs

end Unsigned

end InlineRepl.Text
