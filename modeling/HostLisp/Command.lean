import HostLisp.Run

/-!
# The command

The command line runs a source, or shows its tokens or its tree.  The source is an option's value, a
file, or the standard input.

Arguments are read from left to right, and the first that makes no sense ends the reading, as does a
request for the version or for help.  Whether options contradict each other is asked at the end.
Asking for more log lines is allowed, any number of times, and changes nothing that is printed here.
-/

namespace HostLisp.Command

/-! ## Arguments -/

/-- What the arguments ask for. -/
structure Options where
  /-- The file to read the source from. -/
  file : Option String
  /-- The source itself. -/
  source : Option String
  /-- Whether the tokens of the source are shown. -/
  tokens : Bool
  /-- Whether the tree of the source is shown. -/
  tree : Bool
  deriving DecidableEq, Repr

/-- No arguments: the program on standard input is run. -/
def Options.initial : Options := ⟨none, none, false, false⟩

/-- What is to be done. -/
inductive Request where
  /-- The arguments make no sense. -/
  | usage
  | version
  | help
  | process (options : Options)
  deriving DecidableEq, Repr

/-- Takes the source from the arguments; a second one is refused. -/
def Options.setSource? (o : Options) (source : String) : Option Options :=
  if o.source.isSome then none else some { o with source := some source }

/-- Takes the file from the arguments; a second one is refused, and an empty one. -/
def Options.setFile? (o : Options) (file : String) : Option Options :=
  if o.file.isSome || file.isEmpty then none else some { o with file := some file }

/-- The request at the end of the arguments, unless they contradict each other. -/
def Options.request (o : Options) : Request :=
  if o.file.isSome && o.source.isSome then .usage
  else if o.tokens && o.tree then .usage
  else .process o

/-- What one argument comes to. -/
inductive Reading where
  /-- The arguments so far. -/
  | more (options : Options)
  /-- The next argument is the source. -/
  | awaitSource (options : Options)
  | done (request : Request)

/-- The arguments so far, or a refusal. -/
def Reading.ofOption : Option Options → Reading
  | some o => .more o
  | none => .done .usage

/-- Reads single-letter options that stand together.  The text after the letter of the source, less
an equals sign, is the source. -/
def readLetters (o : Options) : List Char → Reading
  | [] => .more o
  | 'v' :: rest => readLetters o rest
  | 'V' :: _ => .done .version
  | 'h' :: _ => .done .help
  | ['e'] => .awaitSource o
  | 'e' :: '=' :: source => .ofOption (o.setSource? (String.ofList source))
  | 'e' :: source => .ofOption (o.setSource? (String.ofList source))
  | _ => .done .usage

/-- Reads an option that is a word, with the text after its equals sign if it has one. -/
def readWord (o : Options) (word : String) (value? : Option String) : Reading :=
  match word, value? with
  | "eval", none => .awaitSource o
  | "eval", some source => .ofOption (o.setSource? source)
  | "tokens", none => if o.tokens then .done .usage else .more { o with tokens := true }
  | "ast", none => if o.tree then .done .usage else .more { o with tree := true }
  | "verbose", none => .more o
  | "version", none => .done .version
  | "help", none => .done .help
  | _, _ => .done .usage

/-- Takes a word option apart at its first equals sign. -/
def splitWord (chars : List Char) : String × Option String :=
  let word := chars.takeWhile (· ≠ '=')
  match chars.drop word.length with
  | [] => (String.ofList word, none)
  | _ :: value => (String.ofList word, some (String.ofList value))

/-- Reads one argument where options may stand. -/
def readArgument (o : Options) (arg : String) : Reading :=
  match arg.toList with
  | '-' :: '-' :: word =>
    let (word, value?) := splitWord word
    readWord o word value?
  | '-' :: letters@(_ :: _) => readLetters o letters
  | _ => .ofOption (o.setFile? arg)

/-- Whether an argument cannot be the value of an option, because it looks like an option. -/
def looksLikeOption (arg : String) : Bool :=
  arg.startsWith "-" && arg ≠ "-"

/-- Reads arguments that are all files. -/
def readFiles (o : Options) : List String → Request
  | [] => o.request
  | arg :: rest =>
    match o.setFile? arg with
    | some o => readFiles o rest
    | none => .usage

mutual

/-- Reads arguments. -/
def readArguments (o : Options) : List String → Request
  | [] => o.request
  | arg :: rest =>
    if arg = "--" then readFiles o rest
    else
      match readArgument o arg with
      | .more o => readArguments o rest
      | .awaitSource o => readSource o rest
      | .done request => request

/-- Reads the argument that is the source, and the arguments after it. -/
def readSource (o : Options) : List String → Request
  | [] => .usage
  | arg :: rest =>
    if looksLikeOption arg then .usage
    else
      match o.setSource? arg with
      | some o => readArguments o rest
      | none => .usage

end

/-- What the arguments of the command ask for. -/
def request (args : List String) : Request :=
  readArguments .initial args

/-! ## Sources -/

/-- Where a source comes from. -/
inductive Origin where
  | argument (source : String)
  | file (path : String)
  | standardInput
  deriving DecidableEq, Repr

/-- Where the source comes from. -/
def Options.origin (o : Options) : Origin :=
  match o.source, o.file with
  | some source, _ => .argument source
  | none, some path => .file path
  | none, none => .standardInput

/-- Why a source cannot be read. -/
inductive ReadError where
  | missing
  | directory
  /-- The bytes are not the encoding of a text. -/
  | notText
  /-- Anything else, in the system's words. -/
  | system (reason : String)
  deriving DecidableEq, Repr

/-- What a message says about a source that cannot be read. -/
def ReadError.message : ReadError → String
  | .missing => "No such file or directory (os error 2)"
  | .directory => "Is a directory (os error 21)"
  | .notText => "stream did not contain valid UTF-8"
  | .system reason => reason

/-- The text that bytes encode. -/
def decode (bytes : ByteArray) : Except ReadError String :=
  match String.fromUTF8? bytes with
  | some text => .ok text
  | none => .error .notText

/-! ## Responses -/

/-- What the command prints, and the status it ends with. -/
structure Response where
  status : Nat
  output : String
  errors : String
  deriving DecidableEq, Repr

/-- The output of a command that succeeds. -/
def Response.success (output : String) : Response := ⟨0, output, ""⟩

/-- The output of a command that fails, and what it says about the failure. -/
def Response.failure (status : Nat) (output message : String) : Response :=
  ⟨status, output, "ERROR: " ++ message ++ "\n"⟩

/-- The status after an error: faults have one of their own. -/
def statusOf (e : Error) : Nat := if e.isFatal then 70 else 1

/-- The output of a command that ends with an error, or without. -/
def Response.ofResult (output : String) : Option Error → Response
  | none => .success output
  | some e => .failure (statusOf e) output e.message

/-- Each token of a source on a line.  An error token is shown like any other. -/
def tokenLines (source : String) : String :=
  String.join ((tokenize source).map fun t => t.describe ++ "\n")

/-- Does to a source what the options ask for. -/
def process (o : Options) (source : String) : Response :=
  if o.tokens then .success (tokenLines source)
  else if o.tree then
    match parse source with
    | .ok program => .success (program.outline.indented ++ "\n")
    | .error e => .ofResult "" (some e)
  else
    let (error?, sink) := run source .unlimited
    .ofResult sink.text error?

/-- How the command is used. -/
def usageText : String :=
  "Usage: water [OPTIONS] [FILE]\n\n"
    ++ "Options:\n"
    ++ "  -e, --eval <EVAL>  Run this source instead of a file\n"
    ++ "      --tokens       Show the tokens of the source\n"
    ++ "      --ast          Show the tree of the source\n"
    ++ "  -v, --verbose...   Log more\n"
    ++ "  -h, --help         Print help\n"
    ++ "  -V, --version      Print version\n"

/-- The response to a request, given what reading its source comes to. -/
def respond (request : Request) (source : Except ReadError String) : Response :=
  match request with
  | .usage => ⟨2, "", usageText⟩
  | .version => .success "water 0.1.0\n"
  | .help => .success usageText
  | .process o =>
    match source with
    | .ok source => process o source
    | .error e => .failure 1 "" ("cannot read the program source: " ++ e.message)

end HostLisp.Command
