import HostLisp.Library.Failure
import HostLisp.Value

/-!
# Integer functions

Every operation computes the exact integer and then asks whether it is a 64-bit one, so a result is
exact or the call fails.  Sums and products of several operands go from left to right, and each
partial result has to be in range.
-/

namespace HostLisp.Library

/-! ## Operands -/

/-- The operands of an integer function; the first that is no integer is the failure. -/
def ints (args : List Value) : Except Failure (List Int64) :=
  args.mapM fun value =>
    match value with
    | .int i => .ok i
    | other => .error (.expectedInt other.kind)

/-- The two operands of a binary integer function. -/
def twoInts (args : List Value) : Except Failure (Int64 × Int64) := do
  match ← ints args with
  | [a, b] => pure (a, b)
  | _ => throw .expectedTwoOperands

/-- An exact result as a 64-bit integer. -/
def exact (n : Int) : Except Failure Int64 :=
  if Int64.minValue.toInt ≤ n ∧ n ≤ Int64.maxValue.toInt then .ok (Int64.ofInt n)
  else .error .overflow

/-! ## Several operands -/

/-- The sum. -/
def sum (operands : List Int64) : Except Failure Int64 :=
  operands.foldlM (fun total i => exact (total.toInt + i.toInt)) 0

/-- The product. -/
def product (operands : List Int64) : Except Failure Int64 :=
  operands.foldlM (fun total i => exact (total.toInt * i.toInt)) 1

/-- The negation of a single operand, or the first less all the others. -/
def difference : List Int64 → Except Failure Int64
  | [] => .error .overflow
  | [only] => exact (-only.toInt)
  | first :: rest => rest.foldlM (fun total i => exact (total.toInt - i.toInt)) first

/-! ## Two operands -/

/-- The quotient, with its fraction dropped. -/
def quotient (a b : Int64) : Except Failure Int64 :=
  if b = 0 then .error .divisionByZero else exact (a.toInt.tdiv b.toInt)

/-- What the quotient leaves over.  The least integer by minus one leaves nothing, but is refused
all the same. -/
def remainder (a b : Int64) : Except Failure Int64 :=
  if b = 0 then .error .divisionByZero
  else if a = Int64.minValue ∧ b = -1 then .error .overflow
  else exact (a.toInt.tmod b.toInt)

/-! ## On argument lists -/

/-- The function `+`. -/
def add (args : List Value) : Except Failure Value := do
  return .int (← sum (← ints args))

/-- The function `*`. -/
def multiply (args : List Value) : Except Failure Value := do
  return .int (← product (← ints args))

/-- The function `-`. -/
def subtract (args : List Value) : Except Failure Value := do
  return .int (← difference (← ints args))

/-- The function `/`. -/
def divide (args : List Value) : Except Failure Value := do
  let (a, b) ← twoInts args
  return .int (← quotient a b)

/-- The function `%`. -/
def modulo (args : List Value) : Except Failure Value := do
  let (a, b) ← twoInts args
  return .int (← remainder a b)

/-- A comparison of two integers. -/
def compare (test : Int64 → Int64 → Bool) (args : List Value) : Except Failure Value := do
  let (a, b) ← twoInts args
  return .bool (test a b)

end HostLisp.Library
