import HostLisp.Text.Class

/-!
# Integer literals

A literal is an optional sign, an optional base mark and digits.  It has two readings, as a signed
and as an unsigned 64-bit integer; a minus sign takes the unsigned reading around the end of the
range.  A literal of a program needs both, and they have to be the same 64 bits.
-/

namespace HostLisp

open Text

/-- An integer literal taken apart. -/
structure Numeral where
  negative : Bool
  magnitude : Nat
  deriving DecidableEq, Repr

namespace Numeral

/-- The magnitude of a literal without its sign: hexadecimal after a base mark. -/
def magnitude? : List Char → Option Nat
  | '0' :: 'x' :: digits => readDigits? 16 digits
  | '0' :: 'X' :: digits => readDigits? 16 digits
  | digits => readDigits? 10 digits

/-- Takes a literal apart, if the text is one. -/
def ofChars? : List Char → Option Numeral
  | '-' :: rest => (magnitude? rest).map (⟨true, ·⟩)
  | '+' :: rest => (magnitude? rest).map (⟨false, ·⟩)
  | rest => (magnitude? rest).map (⟨false, ·⟩)

/-- The literal as a signed integer, if its magnitude is one. -/
def signed? (n : Numeral) : Option Int64 :=
  if (n.magnitude : Int) ≤ Int64.maxValue.toInt then
    some (Int64.ofInt (if n.negative then -(n.magnitude : Int) else n.magnitude))
  else none

/-- The literal as an unsigned integer, if its magnitude is one; a minus sign wraps around. -/
def unsigned? (n : Numeral) : Option UInt64 :=
  if n.magnitude < UInt64.size then
    let magnitude := UInt64.ofNat n.magnitude
    some (if n.negative then -magnitude else magnitude)
  else none

end Numeral

/-- The signed reading of a literal. -/
def signedReading? (text : String) : Option Int64 :=
  (Numeral.ofChars? text.toList).bind Numeral.signed?

/-- The unsigned reading of a literal. -/
def unsignedReading? (text : String) : Option UInt64 :=
  (Numeral.ofChars? text.toList).bind Numeral.unsigned?

/-- The value of a literal in a program: the signed reading, as long as the unsigned one has the
same bits. -/
def integerLiteral? (text : String) : Option Int64 := do
  let signed ← signedReading? text
  let unsigned ← unsignedReading? text
  if signed.toUInt64 = unsigned then some signed else none

/-- A signed integer as an unsigned one, if it is not negative. -/
def nonNegative? (value : Int64) : Option UInt64 :=
  if 0 ≤ value then some value.toUInt64 else none

/-- An integer in a program, with the text it was written as. -/
structure NumberLiteral where
  text : String
  value : Int64
  deriving DecidableEq, Repr

/-- Reads a literal. -/
def NumberLiteral.ofText? (text : String) : Option NumberLiteral :=
  (integerLiteral? text).map (⟨text, ·⟩)

/-- The literal as the unsigned integer that a host function may ask for. -/
def NumberLiteral.unsigned? (literal : NumberLiteral) : Option UInt64 :=
  nonNegative? literal.value

end HostLisp
