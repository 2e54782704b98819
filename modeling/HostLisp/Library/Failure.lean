import HostLisp.Kind

/-!
# How library functions fail

Most of these causes cannot be met through a program, because a call checks its arguments against
the signature first.  They are what a library function says when it is invoked directly.
-/

namespace HostLisp.Library

/-- The longest text, in bytes, that `repeat` makes. -/
def maxRepeat : Nat := 16777216

/-- Why a library function fails. -/
inductive Failure where
  | expectedInt (found : Kind)
  /-- The exact result is not a 64-bit integer. -/
  | overflow
  | expectedTwoOperands
  | divisionByZero
  | expectedOneBool
  | expectedFormat
  | expectedString (found : Kind)
  | expectedTextAndCount
  /-- The text would be longer than `maxRepeat`. -/
  | tooLong
  deriving DecidableEq, Repr

/-- The text of a failure. -/
def Failure.message : Failure → String
  | .expectedInt found => "expected int, got " ++ found.label
  | .overflow => "integer overflow"
  | .expectedTwoOperands => "expected two operands"
  | .divisionByZero => "division by zero"
  | .expectedOneBool => "expected one bool"
  | .expectedFormat => "expected a format string"
  | .expectedString found => "expected string, got " ++ found.label
  | .expectedTextAndCount => "expected a string and a count"
  | .tooLong => "result longer than " ++ toString maxRepeat ++ " bytes"

end HostLisp.Library
