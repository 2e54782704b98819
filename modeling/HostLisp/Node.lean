import HostLisp.Number
import HostLisp.Outline

/-!
# Program trees

A program is a list of expressions.  An expression is a literal, a variable, a call of a named
function, or one of five special forms; the body of a `lambda` is always a call.  A list of
expressions is itself a node, the root of a parsed program, and occurs nowhere below it.
-/

namespace HostLisp

/-- A node of a program tree. -/
inductive Node where
  /-- A whole program. -/
  | list (children : List Node)
  | call (name : String) (args : List Node)
  /-- Binds a new name in the innermost scope. -/
  | define (name : String) (value : Node)
  /-- Rebinds a name that is bound already. -/
  | assign (name : String) (value : Node)
  /-- The special form `if`. -/
  | cond (test conseq alt : Node)
  | begin (body : List Node)
  | var (name : String)
  | number (literal : NumberLiteral)
  | str (text : String)
  | bool (value : Bool)
  /-- A function whose body is the call of `name` with `args`. -/
  | lambda (params : List String) (name : String) (args : List Node)
  deriving Repr, Inhabited

/-- A call apart from the tree, as closures keep it. -/
structure Call where
  name : String
  args : List Node
  deriving Repr, Inhabited

/-- The call as an expression. -/
def Call.node (c : Call) : Node := .call c.name c.args

/-! ## Outlines -/

/-- The outline of a literal shows the text beside the value. -/
def NumberLiteral.outline (literal : NumberLiteral) : Outline :=
  .record "NumberLiteral" true
    [.field "text" (.text literal.text), .field "value" (.atom (toString literal.value.toInt))]

/-- The outline of a call, given those of its arguments. -/
def Call.outlineWith (name : String) (args : List Outline) : Outline :=
  .record "Call" true [.field "name" (.text name), .field "args" (.sequence args)]

mutual

/-- The outline of a tree. -/
def Node.outline : Node → Outline
  | .list children =>
    .record "List" true [.field "children" (.sequence (Node.outlines children))]
  | .call name args => .tuple "Call" [Call.outlineWith name (Node.outlines args)]
  | .define name value =>
    .record "Define" true [.field "name" (.text name), .field "value" value.outline]
  | .assign name value =>
    .record "Set" true [.field "name" (.text name), .field "value" value.outline]
  | .cond test conseq alt =>
    .record "If" true
      [.field "test" test.outline, .field "conseq" conseq.outline, .field "alt" alt.outline]
  | .begin body => .record "Begin" true [.field "body" (.sequence (Node.outlines body))]
  | .var name => .record "Var" true [.field "name" (.text name)]
  | .number literal => .tuple "Number" [literal.outline]
  | .str text => .record "Str" true [.field "text" (.text text)]
  | .bool value => .record "Bool" true [.field "value" (.bool value)]
  | .lambda params name args =>
    .record "Lambda" true
      [.field "params" (.texts params),
       .field "body" (Call.outlineWith name (Node.outlines args))]

/-- The outlines of several trees. -/
def Node.outlines : List Node → List Outline
  | [] => []
  | node :: rest => node.outline :: Node.outlines rest

end

end HostLisp
