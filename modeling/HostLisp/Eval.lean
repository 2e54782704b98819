import HostLisp.Machine

/-!
# Evaluation

Evaluation turns a node into a value and changes the machine on the way, also when it fails.

Two things could make it run forever, and each has its own recursion.  Inside one body, evaluation
follows the tree: `evalNode` is structural on the node, and takes what *entering a closure* does as
a parameter.  Entering a closure evaluates another body, whose tree has nothing to do with the
caller's; `enter` is structural on the number of closure calls that may still be opened.  When none
is left the call is refused, so no program runs forever.
-/

namespace HostLisp

/-- How many closure calls may be in progress at once. -/
def maxCallDepth : Nat := 10000

/-- A computation that may fail, and changes the machine either way. -/
abbrev Eval (ω : Type) := EStateM Error (Machine ω)

/-- What entering a closure does: given the name it was called by and its parameters' values. -/
abbrev Enter (ω : Type) := String → Closure → Bindings → Eval ω Value

namespace Eval

variable {ω : Type}

/-! ## Single steps -/

/-- Fails with a binding error. -/
def refuse {α : Type} (e : BindError) : Eval ω α := throw (.bind e)

/-- A check that fails with a binding error. -/
def check {α : Type} : Except BindError α → Eval ω α
  | .ok a => pure a
  | .error e => refuse e

/-- The value of a variable. -/
def readVar (env : ScopeId) (name : String) : Eval ω Value := do
  match (← get).lookup env name with
  | some value => pure value
  | none => refuse (.undefinedVariable name)

/-- Binds a new name. -/
def define (env : ScopeId) (name : String) (value : Value) : Eval ω Value := fun m =>
  match m.define env name value with
  | .ok m => .ok .unit m
  | .error e => .error (.bind e) m

/-- Rebinds a name. -/
def assign (env : ScopeId) (name : String) (value : Value) : Eval ω Value := fun m =>
  match m.assign env name value with
  | .ok m => .ok .unit m
  | .error e => .error (.bind e) m

/-- Makes a closure. -/
def makeClosure (params : List String) (body : Call) (env : ScopeId) : Eval ω Value := fun m =>
  let (closure, m) := m.makeClosure params body env
  .ok (.closure closure) m

/-- Counts a dispatched call. -/
def countCall : Eval ω Unit :=
  modify fun m => { m with calls := m.calls + 1 }

/-! ## Calling the host -/

/-- Runs a host function on the host's own state. -/
def invoke (f : HostFunction ω) (args : List Value) : Eval ω (Except String Value) := fun m =>
  let (result, world) := f.call args m.world
  .ok result { m with world }

/-- What a call of a host function amounts to.  A failure has to be declared, and a declared value
has to come back with its kind; without a declared value the result is unit. -/
def hostResult (function : String) (shape : ReturnShape) (result : Except String Value) :
    Except Error Value :=
  match result with
  | .error cause =>
    if shape.fallible then .error (.host function cause)
    else .error (.fatal (.undeclaredFailure function cause))
  | .ok value =>
    match shape.kind with
    | none => .ok .unit
    | some expected =>
      if expected.admits value.kind then .ok value
      else .error (.fatal (.returnKind function expected value.kind))

/-- Calls a host function with bound arguments. -/
def callHost (f : HostFunction ω) (shape : ReturnShape) (args : List Value) : Eval ω Value := do
  match hostResult f.name shape (← invoke f args) with
  | .ok value => pure value
  | .error e => throw e

/-- Binds an argument of a host function to its slot, given what evaluates it.  A number literal in
a slot for an unsigned integer is read as one instead. -/
def hostArg (function : String) (slot : Kind) (arg : Node) (value : Eval ω Value) : Eval ω Value :=
  match arg, slot with
  | .number literal, .uint => check (bindUnsigned function literal)
  | _, slot => do check (bindArgument function slot (← value))

/-! ## Inside one body -/

mutual

/-- Evaluates a node in a scope. -/
def evalNode (enter : Enter ω) : Node → ScopeId → Eval ω Value
  | .list _, _ => throw (.fatal .nestedList)
  | .number literal, _ => pure (.int literal.value)
  | .str text, _ => pure (.str text)
  | .bool value, _ => pure (.bool value)
  | .var name, env => readVar env name
  | .define name value, env => do
    if (← get).isLocal env name then refuse (.alreadyDefined name)
    else do
      let value ← evalNode enter value env
      define env name value
  | .assign name value, env => do
    if ((← get).lookup env name).isNone then refuse (.undefinedVariable name)
    else do
      let value ← evalNode enter value env
      assign env name value
  | .cond test conseq alt, env => do
    match ← evalNode enter test env with
    | .bool true => evalNode enter conseq env
    | .bool false => evalNode enter alt env
    | other => refuse (.nonBooleanTest other.kind)
  | .begin body, env => evalBody enter .unit body env
  | .lambda params name args, env => makeClosure params ⟨name, args⟩ env
  | .call name args, env => do
    countCall
    match (← get).hostFunction? env name with
    | some f => do
      check (f.signature.checkArity f.name args.length)
      let shape ← check (f.signature.returnShape f.name)
      let values ← evalHostArgs enter f 0 args env
      callHost f shape values
    | none =>
      match (← get).lookup env name with
      | some (.closure closure) =>
        if args.length = closure.arity then do
          let bindings ← evalParams enter [] closure.params args env
          enter name closure bindings
        else refuse (.argumentCount name (.exactly closure.arity) args.length)
      | some other => refuse (.notCallable name other.kind)
      | none => refuse (.undefinedFunction name)

/-- Evaluates expressions in order; the value is that of the last one, or `last` if there is
none. -/
def evalBody (enter : Enter ω) (last : Value) : List Node → ScopeId → Eval ω Value
  | [], _ => pure last
  | node :: rest, env => do
    let value ← evalNode enter node env
    evalBody enter value rest env

/-- Evaluates the arguments of a host function from `index` on and binds each to its slot. -/
def evalHostArgs (enter : Enter ω) (f : HostFunction ω) (index : Nat) :
    List Node → ScopeId → Eval ω (List Value)
  | [], _ => pure []
  | arg :: rest, env => do
    let slot := (f.signature.param? index).getD .any
    let value ← hostArg f.name slot arg (evalNode enter arg env)
    let values ← evalHostArgs enter f (index + 1) rest env
    pure (value :: values)

/-- Evaluates the arguments of a closure and binds each to its parameter, after those in `bound`.  A
repeated parameter is refused once its argument is evaluated. -/
def evalParams (enter : Enter ω) (bound : Bindings) :
    List String → List Node → ScopeId → Eval ω Bindings
  | param :: params, arg :: rest, env => do
    let value ← evalNode enter arg env
    if bound.contains param then refuse (.alreadyDefined param)
    else evalParams enter ((param, value) :: bound) params rest env
  | _, _, _ => pure bound

end

/-! ## From body to body -/

/-- Evaluates a call with one more closure call in progress. -/
def atDepth (body : Eval ω Value) : Eval ω Value := fun m =>
  match body { m with depth := m.depth + 1 } with
  | .ok value m => .ok value { m with depth := m.depth - 1 }
  | .error e m => .error e { m with depth := m.depth - 1 }

/-- Enters a closure when `left` more closure calls may be opened: its parameters are bound in a new
scope inside the one it was made in, and the body runs there. -/
def enter : (left : Nat) → Enter ω
  | 0, name, _, _ => refuse (.recursionLimit name maxCallDepth)
  | left + 1, _, closure, bindings => do
    let env ← modifyGet fun m => m.openChild closure.captured bindings
    atDepth (evalNode (enter left) closure.body.node env)

end Eval

/-- Evaluates a node in a scope.  The closure calls already in progress count toward the limit. -/
def eval {ω : Type} (node : Node) (env : ScopeId) : Eval ω Value := do
  Eval.evalNode (Eval.enter (maxCallDepth - (← get).depth)) node env

end HostLisp
