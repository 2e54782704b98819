import HostLisp.Kind
import HostLisp.Node

/-!
# Values

What expressions evaluate to.  Integers are 64 bits wide; an unsigned one only ever comes from a
host function or goes to one.  A closure keeps the scope it was made in, by the scope's number, and
a number of its own: two closures are equal only if they are the same one.
-/

namespace HostLisp

/-- The number of a scope in a machine. -/
abbrev ScopeId := Nat

/-- A function made by a program. -/
structure Closure where
  /-- Tells closures apart that were made by the same expression. -/
  id : Nat
  params : List String
  body : Call
  /-- The scope that the body sees around its parameters. -/
  captured : ScopeId
  deriving Repr, Inhabited

/-- How many arguments the closure takes. -/
def Closure.arity (c : Closure) : Nat := c.params.length

/-- The result of an expression. -/
inductive Value where
  /-- The result of an expression that has none. -/
  | unit
  | bool (b : Bool)
  | int (i : Int64)
  | uint (u : UInt64)
  | str (s : String)
  | closure (c : Closure)
  deriving Repr, Inhabited

namespace Value

/-- What the value is. -/
def kind : Value → Kind
  | .unit => .unit
  | .bool _ => .bool
  | .int _ => .int
  | .uint _ => .uint
  | .str _ => .str
  | .closure _ => .closure

/-! ## Parts -/

/-- The truth value, if it is one. -/
def bool? : Value → Option Bool
  | .bool b => some b
  | _ => none

/-- The signed integer, if it is one. -/
def int? : Value → Option Int64
  | .int i => some i
  | _ => none

/-- The unsigned integer, if it is one. -/
def uint? : Value → Option UInt64
  | .uint u => some u
  | _ => none

/-- The text, if it is one. -/
def str? : Value → Option String
  | .str s => some s
  | _ => none

/-! ## Equality -/

/-- Whether two values are the same.  Values of different kinds never are. -/
def same : Value → Value → Bool
  | .unit, .unit => true
  | .bool a, .bool b => a = b
  | .int a, .int b => a = b
  | .uint a, .uint b => a = b
  | .str a, .str b => a = b
  | .closure a, .closure b => a.id = b.id
  | _, _ => false

/-! ## Text -/

/-- The text of a value. -/
def display : Value → String
  | .unit => ""
  | .bool b => if b then "true" else "false"
  | .int i => toString i.toInt
  | .uint u => toString u.toNat
  | .str s => s
  | .closure c => "<lambda value with arity " ++ toString c.arity ++ ">"

/-- The outline of a value.  Of a closure it shows the parameters and the function that the body
calls. -/
def outline : Value → Outline
  | .unit => .atom "Unit"
  | .bool b => .tuple "Bool" [.bool b]
  | .int i => .tuple "Int" [.atom (toString i.toInt)]
  | .uint u => .tuple "Uint" [.count u.toNat]
  | .str s => .tuple "Str" [.text s]
  | .closure c =>
    .tuple "Closure"
      [.record "Closure" false
        [.field "params" (.texts c.params), .field "body" (.text c.body.name)]]

end Value

end HostLisp
