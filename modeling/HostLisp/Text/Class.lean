/-!
# Character classes

What the scanner and the readers of literals ask about single characters.  Large classes are lists
of closed ranges of code points in increasing order.  The small ones are spelled out: blanks are the
space, the tab, the carriage return and the line feed, and nothing else; digits are the ASCII ones,
with letters of either case above nine.
-/

namespace HostLisp.Text

/-! ## Sets of code points -/

/-- Whether `n` lies in one of the ranges.  The ranges increase, so the search ends at the first one
that starts above `n`. -/
def inRanges : List (Nat × Nat) → Nat → Bool
  | [], _ => false
  | (lo, hi) :: rest, n => lo ≤ n && (n ≤ hi || inRanges rest n)

/-! ## Source text -/

/-- The characters that separate tokens. -/
def isBlank (c : Char) : Bool :=
  c = ' ' || c = '\t' || c = '\r' || c = '\n'

/-- The characters that no word or name contains. -/
def endsWord (c : Char) : Bool :=
  isBlank c || c = ')'

/-- The two characters that delimit a string literal. -/
def isQuote (c : Char) : Bool :=
  c = '"' || c = '\''

/-! ## Digits -/

/-- The digits of a decimal literal. -/
def isDecimal (c : Char) : Bool :=
  '0' ≤ c && c ≤ '9'

/-- The digits of a hexadecimal literal. -/
def isHexadecimal (c : Char) : Bool :=
  isDecimal c || ('a' ≤ c && c ≤ 'f') || ('A' ≤ c && c ≤ 'F')

/-- The value of a digit, if it is below `radix`. -/
def digitValue? (radix : Nat) (c : Char) : Option Nat :=
  let value? :=
    if isDecimal c then some (c.toNat - '0'.toNat)
    else if 'a' ≤ c ∧ c ≤ 'z' then some (c.toNat - 'a'.toNat + 10)
    else if 'A' ≤ c ∧ c ≤ 'Z' then some (c.toNat - 'A'.toNat + 10)
    else none
  value?.filter (· < radix)

/-- The value of a run of digits, the first one counting most.  There is none if the run is empty
or holds anything but digits. -/
def readDigits? (radix : Nat) (digits : List Char) : Option Nat :=
  if digits.isEmpty then none
  else digits.foldlM (fun n c => (digitValue? radix c).map (n * radix + ·)) 0

end HostLisp.Text
