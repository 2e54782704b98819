import HostLisp.Eval
import HostLisp.Library
import HostLisp.Node.Parse
import HostLisp.Sink

/-!
# Running programs

Running a program evaluates its expressions in the global scope one after the other and prints each
result: a text as it is, unit not at all, and anything else on a line of its own.  The first error
ends the run; what was printed and defined before stays.
-/

namespace HostLisp

/-- What a run changes. -/
structure Console (ω : Type) where
  machine : Machine ω
  sink : Sink

/-- A run, which may fail, and changes the console either way. -/
abbrev Exec (ω : Type) := EStateM Error (Console ω)

/-- What is printed of a top-level result. -/
def Value.printed : Value → String
  | .unit => ""
  | .str s => s
  | other => other.display ++ "\n"

namespace Exec

variable {ω : Type}

/-- Evaluation within a run. -/
def liftEval {α : Type} (x : Eval ω α) : Exec ω α := fun c =>
  match x c.machine with
  | .ok a machine => .ok a { c with machine }
  | .error e machine => .error e { c with machine }

/-- Prints a text. -/
def print (text : String) : Exec ω Unit := fun c =>
  match c.sink.write text with
  | (true, sink) => .ok () { c with sink }
  | (false, sink) => .error .sinkFull { c with sink }

/-- Runs expressions in order, each in the global scope. -/
def nodes : List Node → Exec ω Unit
  | [] => pure ()
  | node :: rest => do
    let value ← liftEval (do eval node (← get).globals)
    print value.printed
    nodes rest

end Exec

/-- The expressions of a program; an expression by itself is a program of one. -/
def Node.toplevel : Node → List Node
  | .list children => children
  | node => [node]

/-- Runs a program. -/
def exec {ω : Type} (program : Node) : Exec ω Unit :=
  Exec.nodes program.toplevel

/-- Reads a source and runs it. -/
def execSource {ω : Type} (source : String) : Exec ω Unit :=
  match parse source with
  | .ok program => exec program
  | .error e => throw e

/-- What a finished run leaves: the first error, if there was one, and the console. -/
def Exec.outcome {ω : Type} (x : Exec ω Unit) (c : Console ω) : Option Error × Console ω :=
  match x c with
  | .ok _ c => (none, c)
  | .error e c => (some e, c)

/-- Runs a source in a new machine. -/
def runWith {ω : Type} (registry : Registry ω) (world : ω) (source : String) (sink : Sink) :
    Option Error × Console ω :=
  (execSource source).outcome ⟨.new registry world, sink⟩

/-- Runs a source with the library functions. -/
def run (source : String) (sink : Sink) : Option Error × Sink :=
  let (error, console) := runWith Library.registry () source sink
  (error, console.sink)

end HostLisp
