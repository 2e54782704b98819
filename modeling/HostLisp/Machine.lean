import HostLisp.Registry

/-!
# Scopes and machines

A machine holds everything that evaluation changes: the scopes, how many calls were dispatched, how
many closure calls are open, and the host's own state.

Scopes are numbered in the order they were opened and are never given up.  A scope knows the scopes
around it, innermost first; this list is fixed when the scope is opened, so the *chain* that a name
is looked up along is a finite list from the start.  Reading and writing names are then searches of
that list.
-/

namespace HostLisp

/-! ## Bindings -/

/-- The names of one scope with their values, latest first. -/
abbrev Bindings := List (String × Value)

namespace Bindings

/-- The value of a name. -/
def get? (b : Bindings) (name : String) : Option Value :=
  List.lookup name b

/-- Whether a name is bound. -/
def contains (b : Bindings) (name : String) : Bool :=
  (get? b name).isSome

/-- Gives a bound name another value. -/
def replace (b : Bindings) (name : String) (value : Value) : Bindings :=
  b.map fun entry => if entry.1 = name then (name, value) else entry

/-- The names in increasing order. -/
def names (b : Bindings) : List String :=
  (b.map (·.1)).mergeSort (fun x y => decide (x ≤ y))

end Bindings

/-! ## Scopes -/

/-- One scope. -/
structure Scope (ω : Type) where
  bindings : Bindings
  /-- The host functions that the scope offers to everything inside it. -/
  registry : Option (Registry ω)
  /-- The scopes around it, innermost first. -/
  outer : List ScopeId

/-- Everything that evaluation changes. -/
structure Machine (ω : Type) where
  /-- The scope that programs run in. -/
  globals : ScopeId
  scopes : Array (Scope ω)
  /-- Calls dispatched so far, failed ones included.  The count is taken as unbounded, and
  never wraps around. -/
  calls : Nat
  /-- Closure calls in progress. -/
  depth : Nat
  /-- Closures made so far. -/
  closures : Nat
  /-- The host's own state. -/
  world : ω

namespace Machine

variable {ω : Type}

/-- A machine with one scope, the global one, which offers the functions of `registry`. -/
def new (registry : Registry ω) (world : ω) : Machine ω :=
  { globals := 0
    scopes := #[⟨[], some registry, []⟩]
    calls := 0
    depth := 0
    closures := 0
    world }

/-! ## Opening scopes and making closures -/

/-- Opens a scope; its number is the count of the scopes before it. -/
def openScope (m : Machine ω) (scope : Scope ω) : ScopeId × Machine ω :=
  (m.scopes.size, { m with scopes := m.scopes.push scope })

/-- The scopes around a scope, innermost first. -/
def outer (m : Machine ω) (env : ScopeId) : List ScopeId :=
  match m.scopes[env]? with
  | some scope => scope.outer
  | none => []

/-- A scope and the scopes around it, innermost first. -/
def chain (m : Machine ω) (env : ScopeId) : List ScopeId :=
  env :: m.outer env

/-- Opens a scope with `bindings` inside `env`. -/
def openChild (m : Machine ω) (env : ScopeId) (bindings : Bindings) : ScopeId × Machine ω :=
  m.openScope ⟨bindings, none, m.chain env⟩

/-- Opens a scope that has no registry and no scope around it. -/
def openRoot (m : Machine ω) : ScopeId × Machine ω :=
  m.openScope ⟨[], none, []⟩

/-- Opens a scope that offers the functions of `registry` and has no scope around it. -/
def openGlobal (m : Machine ω) (registry : Registry ω) : ScopeId × Machine ω :=
  m.openScope ⟨[], some registry, []⟩

/-- Opens a global scope and makes it the one that programs run in. -/
def withGlobals (m : Machine ω) (registry : Registry ω) : Machine ω :=
  let (globals, m) := m.openGlobal registry
  { m with globals }

/-- Makes a closure in the scope `env`. -/
def makeClosure (m : Machine ω) (params : List String) (body : Call) (env : ScopeId) :
    Closure × Machine ω :=
  (⟨m.closures, params, body, env⟩, { m with closures := m.closures + 1 })

/-! ## Names -/

/-- The bindings of one scope. -/
def bindings (m : Machine ω) (env : ScopeId) : Bindings :=
  match m.scopes[env]? with
  | some scope => scope.bindings
  | none => []

/-- Whether the scope itself binds a name. -/
def isLocal (m : Machine ω) (env : ScopeId) (name : String) : Bool :=
  (m.bindings env).contains name

/-- The innermost scope of the chain that binds a name. -/
def holder? (m : Machine ω) (env : ScopeId) (name : String) : Option ScopeId :=
  (m.chain env).find? fun id => m.isLocal id name

/-- The value of a name, as the innermost scope that binds it has it. -/
def lookup (m : Machine ω) (env : ScopeId) (name : String) : Option Value :=
  (m.chain env).findSome? fun id => (m.bindings id).get? name

/-- Changes the bindings of one scope. -/
def updateBindings (m : Machine ω) (env : ScopeId) (f : Bindings → Bindings) : Machine ω :=
  { m with scopes := m.scopes.modify env fun scope => { scope with bindings := f scope.bindings } }

/-- Binds a new name in the scope itself. -/
@[inline] def define (m : Machine ω) (env : ScopeId) (name : String) (value : Value) :
    Except BindError (Machine ω) :=
  if m.isLocal env name then .error (.alreadyDefined name)
  else .ok (m.updateBindings env ((name, value) :: ·))

/-- Rebinds a name in the innermost scope that binds it. -/
@[inline] def assign (m : Machine ω) (env : ScopeId) (name : String) (value : Value) :
    Except BindError (Machine ω) :=
  match m.holder? env name with
  | some id => .ok (m.updateBindings id (·.replace name value))
  | none => .error (.undefinedVariable name)

/-! ## Host functions -/

/-- The host functions that one scope offers. -/
def registry? (m : Machine ω) (env : ScopeId) : Option (Registry ω) :=
  m.scopes[env]?.bind (·.registry)

/-- The host function of a name, as the innermost registry that has one gives it. -/
def hostFunction? (m : Machine ω) (env : ScopeId) (name : String) : Option (HostFunction ω) :=
  (m.chain env).findSome? fun id => (m.registry? id).bind (·.get? name)

/-! ## Outlines -/

/-- The outline of a scope. -/
def outlineScope (m : Machine ω) (env : ScopeId) : Outline :=
  .record "Environment" true
    [.field "bindings" (.texts (m.bindings env).names),
     .field "has_registry" (.bool (m.registry? env).isSome),
     .field "has_outer" (.bool !(m.outer env).isEmpty)]

/-- The outline of a machine. -/
def outline (m : Machine ω) : Outline :=
  .record "Context" true
    [.field "globals" (m.outlineScope m.globals),
     .field "calls" (.count m.calls),
     .field "depth" (.count m.depth)]

end Machine

end HostLisp
