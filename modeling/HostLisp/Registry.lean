import HostLisp.Signature

/-!
# Host functions and registries

A host function is a name, a signature and what a call does.  A call sees its arguments and the
host's own state, which it may change.  It returns a value, or fails with a text.

A closure among the arguments has the number of the scope that it captured, and a call may pass the
number on in a closure of its own.  It cannot use it to read the names of that scope, to define one
or to assign to one.  A host that reaches into the scopes of a program in this way is outside of
what is modelled here, and nothing that is shown about host functions speaks of it.

A registry holds host functions by name, at most one for each.
-/

namespace HostLisp

/-- A function that the host offers to programs; `ω` is the host's own state. -/
structure HostFunction (ω : Type) where
  name : String
  signature : Signature
  call : List Value → ω → Except String Value × ω

/-- The outline of a host function does not show what it does. -/
def HostFunction.outline {ω : Type} (f : HostFunction ω) : Outline :=
  .record "HostFunction" false
    [.field "name" (.text f.name), .field "signature" f.signature.outline]

/-- The words that begin special forms, which no host function can be named. -/
def reservedNames : List String := ["define", "set", "if", "begin", "lambda"]

/-- Host functions by name. -/
structure Registry (ω : Type) where
  functions : List (HostFunction ω)

namespace Registry

variable {ω : Type}

/-- The registry without functions. -/
def empty : Registry ω := ⟨[]⟩

/-- The function of a name. -/
def get? (r : Registry ω) (name : String) : Option (HostFunction ω) :=
  r.functions.find? (·.name = name)

/-- Whether a name has a function. -/
def contains (r : Registry ω) (name : String) : Bool :=
  (r.get? name).isSome

/-- Adds a function, in place of the one that has its name. -/
def insert (r : Registry ω) (f : HostFunction ω) : Registry ω :=
  ⟨f :: r.functions.filter (·.name ≠ f.name)⟩

/-- Adds a function unless its name is reserved. -/
def register (r : Registry ω) (f : HostFunction ω) : Except BindError (Registry ω) :=
  if f.name ∈ reservedNames then .error (.reservedName f.name) else .ok (r.insert f)

/-- The names in increasing order. -/
def names (r : Registry ω) : List String :=
  (r.functions.map (·.name)).mergeSort (fun a b => decide (a ≤ b))

/-- How many names there are. -/
def size (r : Registry ω) : Nat := r.functions.length

/-- Whether there are none. -/
def isEmpty (r : Registry ω) : Bool := r.functions.isEmpty

end Registry

end HostLisp
