import HostLisp.Library.Arithmetic
import HostLisp.Library.Text
import HostLisp.Registry

/-!
# The library

The functions that every program has unless the host says otherwise, with their signatures.  A
function whose signature declares no error cannot fail on arguments that fit the signature, and
what it returns has the declared kind.
-/

namespace HostLisp.Library

/-- A library function: it needs nothing of the host. -/
structure Entry where
  name : String
  params : List Kind
  variadic : Option Kind
  returns : List Kind
  call : List Value → Except Failure Value

/-- The signature of a library function. -/
def Entry.signature (e : Entry) : Signature := ⟨e.params, e.variadic, e.returns⟩

/-- The library functions. -/
def entries : List Entry :=
  [⟨"+", [.int, .int], some .int, [.int, .error], add⟩,
   ⟨"-", [.int], some .int, [.int, .error], subtract⟩,
   ⟨"*", [.int, .int], some .int, [.int, .error], multiply⟩,
   ⟨"/", [.int, .int], none, [.int, .error], divide⟩,
   ⟨"%", [.int, .int], none, [.int, .error], modulo⟩,
   ⟨">", [.int, .int], none, [.bool], compare fun a b => b < a⟩,
   ⟨">=", [.int, .int], none, [.bool], compare fun a b => b ≤ a⟩,
   ⟨"<", [.int, .int], none, [.bool], compare fun a b => a < b⟩,
   ⟨"<=", [.int, .int], none, [.bool], compare fun a b => a ≤ b⟩,
   ⟨"=", [.any, .any], none, [.bool], equal⟩,
   ⟨"not", [.bool], none, [.bool], negate⟩,
   ⟨"print", [.str], some .any, [.str], print ""⟩,
   ⟨"println", [.str], some .any, [.str], print "\n"⟩,
   ⟨"concat", [], some .str, [.str], concat⟩,
   ⟨"repeat", [.str, .uint], none, [.str, .error], repeatText⟩]

/-- The names of the library functions. -/
def names : List String := entries.map (·.name)

/-- The library function of a name. -/
def entry? (name : String) : Option Entry := entries.find? (·.name = name)

/-- A library function as a host function, which leaves the host's state alone. -/
def Entry.toHost {ω : Type} (e : Entry) : HostFunction ω :=
  { name := e.name
    signature := e.signature
    call := fun args world => ((e.call args).mapError Failure.message, world) }

/-- The registry of the library functions. -/
def registry {ω : Type} : Registry ω :=
  entries.foldl (fun r e => r.insert e.toHost) .empty

end HostLisp.Library
