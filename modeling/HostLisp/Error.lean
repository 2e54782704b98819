import HostLisp.Kind
import HostLisp.Quoted
import HostLisp.Token

/-!
# Errors

Everything that can go wrong between reading a source and printing its last result, as causes.  The
wording is in the `message` functions and nowhere else.

The errors fall into groups by who is to blame.  Lexical and syntax errors are the source's, binding
errors the program's as it runs, and host errors are the failures that a host function declares.
A `Fault` is none of these: it means that the host broke its own declarations, or that the
evaluator was handed something that no source text parses to.
-/

namespace HostLisp

/-! ## Syntax -/

/-- Why tokens do not form a program.  Tokens that were found are shown by their description. -/
inductive SyntaxError where
  | unexpected (expected : TokenKind) (context found : String) (line : Nat)
  | notAnExpression (found : String) (line : Nat)
  | illegalNumber (text : String) (line : Nat)
  | badString (text : String) (reason : QuoteError) (line : Nat)
  | badBool (text : String) (line : Nat)
  | emptyBegin (line : Nat)
  | tooDeep (limit line : Nat)
  | lambdaBody (line : Nat)
  deriving DecidableEq, Repr

namespace SyntaxError

/-- The line a syntax error is reported on. -/
def line : SyntaxError → Nat
  | .unexpected _ _ _ line | .notAnExpression _ line | .illegalNumber _ line
  | .badString _ _ line | .badBool _ line | .emptyBegin line | .tooDeep _ line
  | .lambdaBody line => line

/-- What is wrong, without the line. -/
def reason : SyntaxError → String
  | .unexpected expected context found _ =>
    "expected " ++ expected.label ++ " in " ++ context ++ "; got " ++ found
  | .notAnExpression found _ => "cannot use this kind of value as an expression: " ++ found
  | .illegalNumber text _ => "illegal number syntax: " ++ text
  | .badString text reason _ =>
    "cannot unquote the string literal " ++ text ++ ": " ++ reason.message
  | .badBool text _ => "incorrect boolean value, should be #t or #f: " ++ text
  | .emptyBegin _ => "begin sentence without expressions"
  | .tooDeep limit _ => "expressions nested deeper than " ++ toString limit ++ " levels"
  | .lambdaBody _ => "lambda body must be a function call"

end SyntaxError

/-- A reason with the line it applies to. -/
def onLine (line : Nat) (reason : String) : String :=
  "Error on line " ++ toString line ++ ": " ++ reason ++ "."

/-! ## Binding -/

/-- How many arguments a function takes. -/
inductive Arity where
  | exactly (count : Nat)
  | atLeast (count : Nat)
  deriving DecidableEq, Repr

namespace Arity

/-- How a message shows an arity. -/
def label : Arity → String
  | .exactly count => toString count
  | .atLeast count => "at least " ++ toString count

/-- Whether a call with `found` arguments fits. -/
def fits : Arity → Nat → Bool
  | .exactly count, found => found = count
  | .atLeast count, found => count ≤ found

end Arity

/-- Why names, arguments and kinds do not fit together. -/
inductive BindError where
  | undefinedVariable (name : String)
  | alreadyDefined (name : String)
  | undefinedFunction (name : String)
  | notCallable (name : String) (found : Kind)
  | argumentCount (function : String) (expected : Arity) (found : Nat)
  | argumentType (function : String) (expected found : Kind)
  | multipleReturns (function : String)
  | nonBooleanTest (found : Kind)
  | recursionLimit (function : String) (limit : Nat)
  | reservedName (name : String)
  deriving DecidableEq, Repr

/-- What a message says about a binding error. -/
def BindError.message : BindError → String
  | .undefinedVariable name => "variable not defined: " ++ name
  | .alreadyDefined name => "variable already defined: " ++ name
  | .undefinedFunction name => "function not defined: " ++ name
  | .notCallable name found =>
    "function not defined: " ++ name ++ " is bound to a " ++ found.label ++ " value"
  | .argumentCount function expected found =>
    "wrong number of args for " ++ function ++ ": want " ++ expected.label ++ ", got "
      ++ toString found
  | .argumentType function expected found =>
    "incorrect argument type for " ++ function ++ ", expected " ++ expected.label ++ ", got "
      ++ found.label
  | .multipleReturns function => "can't handle multiple returns from function " ++ function
  | .nonBooleanTest found => "if condition is not a boolean, got " ++ found.label
  | .recursionLimit function limit =>
    "maximum call depth of " ++ toString limit ++ " exceeded calling " ++ function
  | .reservedName name => "cannot register host function under the reserved name " ++ name

/-! ## Faults -/

/-- A broken promise of the host, or of whoever feeds the parser and the evaluator. -/
inductive Fault where
  /-- A token list has no final token. -/
  | tokensClosed
  /-- A host function failed though its signature declares no error. -/
  | undeclaredFailure (function cause : String)
  /-- A host function returned a value of another kind than it declares. -/
  | returnKind (function : String) (expected found : Kind)
  /-- A whole program stands where an expression should. -/
  | nestedList
  deriving DecidableEq, Repr

/-- What a message says about a fault. -/
def Fault.message : Fault → String
  | .tokensClosed => "internal error: token stream closed before EOF"
  | .undeclaredFailure function cause =>
    "internal error: host function " ++ function
      ++ " failed without declaring an error return: " ++ cause
  | .returnKind function expected found =>
    "internal error: host function " ++ function ++ " returned a " ++ found.label
      ++ " value, declared " ++ expected.label
  | .nestedList => "internal error: cannot evaluate a nested program list"

/-! ## All errors -/

/-- Why a program could not be read or run to its end. -/
inductive Error where
  /-- The source could not be split into tokens. -/
  | lexical (reason : String) (line : Nat)
  | parse (error : SyntaxError)
  | bind (error : BindError)
  /-- A host function failed as its signature says it may. -/
  | host (function cause : String)
  | fatal (fault : Fault)
  /-- The output takes no more. -/
  | sinkFull
  deriving DecidableEq, Repr

namespace Error

/-- The text of an error. -/
def message : Error → String
  | .lexical reason line => onLine line reason
  | .parse error => onLine error.line error.reason
  | .bind error => error.message
  | .host function cause => "error calling " ++ function ++ ": " ++ cause
  | .fatal fault => fault.message
  | .sinkFull => "I/O error: sink full"

/-- Whether the error is a fault rather than a mistake in the program. -/
def isFatal : Error → Bool
  | .fatal _ => true
  | _ => false

end Error

end HostLisp
