import HostLisp.Error
import HostLisp.Value

/-!
# Signatures

A signature declares what a host function takes and what it returns.  Parameters have kinds, and a
variadic function takes any number of further arguments of one kind.  Of the return lists that can
be written down only four mean anything to a program: nothing, a value, an error, or a value and an
error; a call through any other signature is refused.
-/

namespace HostLisp

/-- What a host function takes and returns. -/
structure Signature where
  params : List Kind
  /-- The kind of the arguments after the parameters, if there may be any. -/
  variadic : Option Kind
  returns : List Kind
  deriving DecidableEq, Repr, Inhabited

/-- What the return list of a signature says. -/
structure ReturnShape where
  /-- The kind of the value, if one is returned. -/
  kind : Option Kind
  /-- Whether a call may fail. -/
  fallible : Bool
  deriving DecidableEq, Repr

namespace Signature

/-- How many arguments fit. -/
def arity (s : Signature) : Arity :=
  if s.variadic.isSome then .atLeast s.params.length else .exactly s.params.length

/-- The kind of the argument at an index, if there may be one. -/
def param? (s : Signature) (index : Nat) : Option Kind :=
  s.params[index]?.or s.variadic

/-- Refuses a call of `function` with a number of arguments that does not fit. -/
def checkArity (s : Signature) (function : String) (found : Nat) : Except BindError Unit :=
  if s.arity.fits found then .ok () else .error (.argumentCount function s.arity found)

/-- What the return list says, if a program can use it. -/
def returnShape (s : Signature) (function : String) : Except BindError ReturnShape :=
  match s.returns with
  | [] => .ok ⟨none, false⟩
  | [.error] => .ok ⟨none, true⟩
  | [kind] => .ok ⟨some kind, false⟩
  | [kind, .error] =>
    if kind = .error then .error (.multipleReturns function) else .ok ⟨some kind, true⟩
  | _ => .error (.multipleReturns function)

/-- The outline of a signature. -/
def outline (s : Signature) : Outline :=
  .record "Signature" true
    [.field "params" (.sequence (s.params.map Kind.outline)),
     .field "variadic" (.option (s.variadic.map Kind.outline)),
     .field "returns" (.sequence (s.returns.map Kind.outline))]

end Signature

/-- Refuses an argument of `function` whose kind the slot does not admit. -/
def bindArgument (function : String) (slot : Kind) (value : Value) : Except BindError Value :=
  if slot.admits value.kind then .ok value
  else .error (.argumentType function slot value.kind)

/-- Reads a number literal into a slot for an unsigned integer. -/
def bindUnsigned (function : String) (literal : NumberLiteral) : Except BindError Value :=
  match literal.unsigned? with
  | some u => .ok (.uint u)
  | none => .error (.argumentType function .uint .int)

end HostLisp
