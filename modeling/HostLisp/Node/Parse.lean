import HostLisp.Error
import HostLisp.Node
import HostLisp.Token.Scan

/-!
# Reading program trees

The parser reads pending tokens one at a time.  What it has read of the forms that are still open
is a stack of *holes*, each a form with a place for one more expression; what it needs next is a
*goal*.  A token moves the goal, opens a hole, or completes a node, which then fills the hole on top
of the stack.  So every token is looked at once, and reading a tree is one recursion over the
pending tokens.

A token is taken when it is read, even if it turns out to be wrong, with three exceptions: the end
of the source stays pending after a program, and so does a token that would nest too deep, and a
token that stands where the body of a `lambda` should start.  What remains pending is part of the
outcome, of failures too, so that reading can go on after an error.

The nesting limit counts the expressions around an expression.  The body of a `lambda` is not an
expression of its own but a part of the `lambda`, so it adds no level.
-/

namespace HostLisp.Parse

/-- How many expressions may be nested. -/
def maxNesting : Nat := 2000

/-- A result, and the tokens that are still pending. -/
abbrev Outcome (α : Type) := Except Error α × List Token

/-! ## Single tokens -/

/-- The error for a token of another kind than `expected`. -/
def unexpected (expected : TokenKind) (context : String) (found : Token) : SyntaxError :=
  .unexpected expected context found.describe found.line

/-- Takes the next token.  An `error` token is taken too, but its message is the result. -/
def next : List Token → Outcome Token
  | [] => (.error (.fatal .tokensClosed), [])
  | t :: rest => if t.kind = .error then (.error (.lexical t.text t.line), rest) else (.ok t, rest)

/-- Looks at the next token and leaves it pending. -/
def peek (pending : List Token) : Outcome Token :=
  match next pending with
  | (.ok t, _) => (.ok t, pending)
  | failed => failed

/-- Takes the next token, which has to be of a given kind. -/
def expect (kind : TokenKind) (context : String) (pending : List Token) : Outcome Token :=
  match next pending with
  | (.ok t, rest) =>
    if t.kind = kind then (.ok t, rest) else (.error (.parse (unexpected kind context t)), rest)
  | failed => failed

/-- Makes a token that was taken the next one again. -/
def handBack (t : Token) (pending : List Token) : List Token := t :: pending

/-! ## Open forms -/

/-- The two forms that give a name a value. -/
inductive Binder where
  | define
  | assign
  deriving DecidableEq, Repr

/-- The form's own name. -/
def Binder.label : Binder → String
  | .define => "define"
  | .assign => "set"

/-- The finished form. -/
def Binder.node : Binder → String → Node → Node
  | .define => .define
  | .assign => .assign

/-- The two forms that hold any number of expressions. -/
inductive Block where
  /-- A sequence, whose first word stands on `line`. -/
  | begin (line : Nat)
  | call (name : String)
  deriving DecidableEq, Repr

/-- What a message calls the form. -/
def Block.label : Block → String
  | .begin _ => "begin"
  | .call _ => "call"

/-- The finished form, given its expressions in order. -/
def Block.node : Block → List Node → Except SyntaxError Node
  | .begin line, [] => .error (.emptyBegin line)
  | .begin _, body => .ok (.begin body)
  | .call name, args => .ok (.call name args)

/-- A form with a place for one more expression.  Those read before are kept last one first. -/
inductive Hole where
  /-- A whole program. -/
  | program (done : List Node)
  | value (binder : Binder) (name : String)
  | test
  | conseq (test : Node)
  | alt (test conseq : Node)
  | item (block : Block) (done : List Node)
  /-- The body of a `lambda` whose first word stands on `line`. -/
  | body (line : Nat) (params : List String)
  deriving Repr

/-- Whether an expression in the hole is nested one level deeper than the form. -/
def Hole.isLevel : Hole → Bool
  | .program _ | .body _ _ => false
  | _ => true

/-- How many expressions surround an expression in the hole on top. -/
def depth (holes : List Hole) : Nat := holes.countP Hole.isLevel

/-- What the parser needs next. -/
inductive Goal where
  /-- Something that fills the hole on top, or closes its form. -/
  | operand
  /-- The first word of a form. -/
  | head
  /-- The name that a form binds. -/
  | target (binder : Binder)
  /-- The parenthesis before the parameters of a `lambda`. -/
  | paramsOpen (line : Nat)
  /-- One more parameter, or the parenthesis after them.  Parameters are kept last one first. -/
  | params (line : Nat) (names : List String)
  /-- The parenthesis that completes a form. -/
  | close (context : String) (node : Node)
  deriving Repr

/-! ## One token -/

/-- What a token does. -/
inductive Step where
  /-- The token is taken and reading goes on. -/
  | shift (goal : Goal) (holes : List Hole)
  /-- The token is taken and reading ends. -/
  | stop (result : Except SyntaxError Node)
  /-- The token stays pending and reading ends. -/
  | leave (result : Except SyntaxError Node)

/-- A finished node fills the hole on top; without a hole it is the result. -/
def fill (node : Node) : List Hole → Step
  | [] => .stop (.ok node)
  | .program done :: holes => .shift .operand (.program (node :: done) :: holes)
  | .value binder name :: holes => .shift (.close binder.label (binder.node name node)) holes
  | .test :: holes => .shift .operand (.conseq node :: holes)
  | .conseq test :: holes => .shift .operand (.alt test node :: holes)
  | .alt test conseq :: holes => .shift (.close "if" (.cond test conseq node)) holes
  | .item block done :: holes => .shift .operand (.item block (node :: done) :: holes)
  | .body line params :: holes =>
    match node with
    | .call name args => .shift (.close "lambda" (.lambda params name args)) holes
    | _ => .stop (.error (.lambdaBody line))

/-- A node that may be wrong fills the hole on top. -/
def fillWith (node : Except SyntaxError Node) (holes : List Hole) : Step :=
  match node with
  | .ok node => fill node holes
  | .error e => .stop (.error e)

/-- An expression that is a single token. -/
def leaf (t : Token) : Except SyntaxError Node :=
  match t.kind with
  | .number =>
    match NumberLiteral.ofText? t.text with
    | some literal => .ok (.number literal)
    | none => .error (.illegalNumber t.text t.line)
  | .string =>
    match Quoted.decode t.text with
    | .ok text => .ok (.str text)
    | .error reason => .error (.badString t.text reason t.line)
  | .bool =>
    if t.text = "#t" then .ok (.bool true)
    else if t.text = "#f" then .ok (.bool false)
    else .error (.badBool t.text t.line)
  | .word => .ok (.var t.text)
  | _ => .error (.notAnExpression t.describe t.line)

/-- Reads the first token of an expression, which may have `limit` expressions around it. -/
def expressionStep (limit : Nat) (holes : List Hole) (t : Token) : Step :=
  if limit ≤ depth holes then .leave (.error (.tooDeep maxNesting t.line))
  else if t.kind = .leftParen then .shift .head holes
  else fillWith (leaf t) holes

/-- Reads a token where the hole on top may be filled or its form closed. -/
def operandStep (limit : Nat) (holes : List Hole) (t : Token) : Step :=
  match holes with
  | .program done :: _ =>
    if t.kind = .eof then .leave (.ok (.list done.reverse)) else expressionStep limit holes t
  | .item block done :: below =>
    if t.kind = .rightParen then fillWith (block.node done.reverse) below
    else if t.kind = .eof then .stop (.error (unexpected .rightParen block.label t))
    else expressionStep limit holes t
  | .body line _ :: _ =>
    if t.kind = .leftParen then .shift .head holes else .leave (.error (.lambdaBody line))
  | _ => expressionStep limit holes t

/-- Reads the first word of a form. -/
def headStep (holes : List Hole) (t : Token) : Step :=
  match t.kind with
  | .define => .shift (.target .define) holes
  | .call =>
    match t.text with
    | "set" => .shift (.target .assign) holes
    | "if" => .shift .operand (.test :: holes)
    | "begin" => .shift .operand (.item (.begin t.line) [] :: holes)
    | "lambda" => .shift (.paramsOpen t.line) holes
    | name => .shift .operand (.item (.call name) [] :: holes)
  | _ => .stop (.error (unexpected .call "call" t))

/-- Reads a token. -/
def step (limit : Nat) (goal : Goal) (holes : List Hole) (t : Token) : Step :=
  match goal with
  | .operand => operandStep limit holes t
  | .head => headStep holes t
  | .target binder =>
    if t.kind = .word then .shift .operand (.value binder t.text :: holes)
    else .stop (.error (unexpected .word binder.label t))
  | .paramsOpen line =>
    if t.kind = .leftParen then .shift (.params line []) holes
    else .stop (.error (unexpected .leftParen "lambda" t))
  | .params line names =>
    match t.kind with
    | .call | .word => .shift (.params line (t.text :: names)) holes
    | .rightParen => .shift .operand (.body line names.reverse :: holes)
    | _ => .stop (.error (unexpected .word "lambda parameters" t))
  | .close context node =>
    if t.kind = .rightParen then fill node holes
    else .stop (.error (unexpected .rightParen context t))

/-! ## Whole trees -/

/-- Reads pending tokens until the stack of holes is used up or a token is refused. -/
def run (limit : Nat) (goal : Goal) (holes : List Hole) : List Token → Outcome Node
  | [] => (.error (.fatal .tokensClosed), [])
  | t :: rest =>
    if t.kind = .error then (.error (.lexical t.text t.line), rest)
    else
      match step limit goal holes t with
      | .shift goal holes => run limit goal holes rest
      | .stop result => (result.mapError .parse, rest)
      | .leave result => (result.mapError .parse, t :: rest)

/-- Reads one expression. -/
def expression (pending : List Token) : Outcome Node :=
  run maxNesting .operand [] pending

/-- Reads one form in parentheses.  It is no level of its own, so one more hole may be open inside
it than inside an expression. -/
def call (pending : List Token) : Outcome Node :=
  match expect .leftParen "call" pending with
  | (.ok _, rest) => run (maxNesting + 1) .head [] rest
  | (.error e, rest) => (.error e, rest)

/-- Reads expressions up to the end of the source, which stays pending. -/
def program (pending : List Token) : Outcome Node :=
  run maxNesting .operand [.program []] pending

end HostLisp.Parse

namespace HostLisp

/-- The program tree of a source. -/
def parse (source : String) : Except Error Node :=
  (Parse.program (tokenize source)).1

end HostLisp
