import HostLisp.Value

/-!
# Format templates

A template is text with verbs: a percent sign and a letter.  Each verb shows the next argument.  A
verb whose letter does not fit its argument shows the argument's kind beside it, a verb without an
argument says so, and arguments without a verb are listed at the end.

Reading a template and showing it are apart: `pieces` says what the template consists of, whatever
the arguments, and `showPieces` goes through the pieces with the arguments.
-/

namespace HostLisp.Library

/-- What a verb expects. -/
inductive Verb where
  /-- Any value. -/
  | value
  /-- An integer. -/
  | decimal
  | string
  | truth
  deriving DecidableEq, Repr

namespace Verb

/-- The letter of a verb. -/
def letter : Verb → Char
  | .value => 'v'
  | .decimal => 'd'
  | .string => 's'
  | .truth => 't'

/-- The verb of a letter. -/
def ofLetter? : Char → Option Verb
  | 'v' => some .value
  | 'd' => some .decimal
  | 's' => some .string
  | 't' => some .truth
  | _ => none

/-- Whether a verb takes values of a kind. -/
def fits : Verb → Kind → Bool
  | .value, _ => true
  | .decimal, kind => kind = .int || kind = .uint
  | .string, kind => kind = .str
  | .truth, kind => kind = .bool

end Verb

/-- A part of a template. -/
inductive Piece where
  /-- Text that is shown as it stands. -/
  | literal (chars : List Char)
  | verb (v : Verb)
  deriving DecidableEq, Repr

/-- What a percent sign and a character after it are: a verb, a doubled percent sign that shows one,
or two characters that stand for themselves. -/
def Piece.ofPercent (c : Char) : Piece :=
  match Verb.ofLetter? c with
  | some v => .verb v
  | none => if c = '%' then .literal ['%'] else .literal ['%', c]

/-- The parts of a template.  A percent sign at the end stands for itself. -/
def pieces : List Char → List Piece
  | [] => []
  | ['%'] => [.literal ['%']]
  | '%' :: c :: rest => .ofPercent c :: pieces rest
  | c :: rest => .literal [c] :: pieces rest

/-- An argument with its kind. -/
def labelled (value : Value) : String :=
  value.kind.label ++ "=" ++ value.display

/-- What a verb shows of an argument. -/
def Verb.render (v : Verb) (value : Value) : String :=
  if v.fits value.kind then value.display
  else "%!" ++ v.letter.toString ++ "(" ++ labelled value ++ ")"

/-- What a verb shows without an argument. -/
def Verb.missing (v : Verb) : String :=
  "%!" ++ v.letter.toString ++ "(MISSING)"

/-- The list of the arguments that no verb has shown. -/
def extra : List Value → String
  | [] => ""
  | args => "%!(EXTRA " ++ ", ".intercalate (args.map labelled) ++ ")"

/-- Shows pieces with arguments, each argument once and in order. -/
def showPieces : List Piece → List Value → List String
  | [], args => [extra args]
  | .literal chars :: rest, args => String.ofList chars :: showPieces rest args
  | .verb v :: rest, [] => v.missing :: showPieces rest []
  | .verb v :: rest, arg :: args => v.render arg :: showPieces rest args

/-- A template with its arguments filled in. -/
def format (template : String) (args : List Value) : String :=
  String.join (showPieces (pieces template.toList) args)

end HostLisp.Library
