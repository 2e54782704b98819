import HostLisp.Outline

/-!
# Kinds

A kind says what a value is, or what a host function takes and returns.  Two kinds are never the
kind of a value: `any`, which a parameter may ask for, and `error`, by which a signature declares
that a call may fail.
-/

namespace HostLisp

/-- What a value is, or may be. -/
inductive Kind where
  | any
  | unit
  | bool
  | int
  | uint
  | str
  | closure
  | error
  deriving DecidableEq, Repr, Inhabited

namespace Kind

/-- The name of a kind in messages. -/
def label : Kind → String
  | .any => "any"
  | .unit => "unit"
  | .bool => "bool"
  | .int => "int"
  | .uint => "uint"
  | .str => "string"
  | .closure => "lambda"
  | .error => "error"

/-- Whether a slot of this kind takes a value of kind `found`. -/
def admits (slot found : Kind) : Bool :=
  slot = .any || slot = found

/-- The name of a kind in an outline. -/
def outline : Kind → Outline
  | .any => .atom "Any"
  | .unit => .atom "Unit"
  | .bool => .atom "Bool"
  | .int => .atom "Int"
  | .uint => .atom "Uint"
  | .str => .atom "Str"
  | .closure => .atom "Closure"
  | .error => .atom "Error"

end Kind

end HostLisp
