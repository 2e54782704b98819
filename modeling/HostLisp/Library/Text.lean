import HostLisp.Library.Failure
import HostLisp.Library.Format

/-!
# Functions on texts, truth values and any two values
-/

namespace HostLisp.Library

/-- The function `=`. -/
def equal : List Value → Except Failure Value
  | [a, b] => .ok (.bool (a.same b))
  | _ => .error .expectedTwoOperands

/-- The function `not`.  Only the first argument matters. -/
def negate : List Value → Except Failure Value
  | .bool b :: _ => .ok (.bool !b)
  | _ => .error .expectedOneBool

/-- The functions `print` and `println`: a formatted text and what ends it. -/
def print (ending : String) : List Value → Except Failure Value
  | .str template :: args => .ok (.str (format template args ++ ending))
  | _ => .error .expectedFormat

/-- The function `concat`.  The first argument that is no text is the failure. -/
def concat (args : List Value) : Except Failure Value := do
  let texts ← args.mapM fun value =>
    match value with
    | .str s => .ok s
    | other => .error (Failure.expectedString other.kind)
  return .str (String.join texts)

/-- A text `count` times over.  Nothing repeated is nothing, however often. -/
def repeated (text : String) (count : Nat) : String :=
  if text.isEmpty then "" else Nat.repeat (· ++ text) count ""

/-- The function `repeat`, which looks at the length before it makes the text. -/
def repeatText : List Value → Except Failure Value
  | .str text :: .uint count :: _ =>
    if text.utf8ByteSize * count.toNat ≤ maxRepeat then .ok (.str (repeated text count.toNat))
    else .error .tooLong
  | _ => .error .expectedTextAndCount

end HostLisp.Library
