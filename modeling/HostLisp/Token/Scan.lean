import HostLisp.Text.Alphanumeric
import HostLisp.Text.Class
import HostLisp.Token

/-!
# Reading tokens

The scanner reads a source one character at a time and never looks ahead: a character either
extends the token being read, or ends it and begins the next.  Everything the scanner has to
remember is a `Scanner`, so reading a source is one fold over its characters, and reading two
sources in a row is reading the second from the state the first one leaves.

Right after an opening parenthesis the scanner reads a *head*: a name up to a blank or a closing
parenthesis, whatever it contains.  The head `define` is set apart, and an opening parenthesis ends
it too.  Anywhere else a character decides by itself what it begins, except that a sign begins a
number only before a digit.
-/

namespace HostLisp

open Text

/-! ## Positions -/

/-- A place between two characters of a source. -/
structure Position where
  /-- Bytes before it. -/
  offset : Nat
  /-- One more than the line feeds before it. -/
  line : Nat
  deriving DecidableEq, Repr, Inhabited

/-- The place before the first character. -/
def Position.origin : Position := ⟨0, 1⟩

/-- The place after `c`, if `c` stands at `p`. -/
def Position.advance (p : Position) (c : Char) : Position :=
  ⟨p.offset + c.utf8Size, if c = '\n' then p.line + 1 else p.line⟩

/-! ## Why a source is refused -/

/-- Why no token can be read. -/
inductive ScanError where
  /-- A number runs into a letter, a digit or an underscore, the last character of `text`. -/
  | badNumber (text : String)
  /-- The source ends before the closing delimiter. -/
  | unclosedString
  /-- The source ends inside the name after an opening parenthesis. -/
  | unclosedHead
  /-- A closing parenthesis stands where the name should be. -/
  | missingHead
  deriving DecidableEq, Repr

/-- The text of the `error` token. -/
def ScanError.message : ScanError → String
  | .badNumber text => "bad number syntax: " ++ text
  | .unclosedString => "eof not expected inside a string"
  | .unclosedHead => "eof not expected inside a method call"
  | .missingHead => "illegal function name"

/-! ## The scanner -/

/-- Which digits a number literal may go on with. -/
inductive Digits where
  /-- Only a zero was read: a base mark may follow. -/
  | leadingZero
  | decimal
  | hexadecimal
  deriving DecidableEq, Repr

/-- What the digits are after one more character, if it belongs to them. -/
def Digits.extend? : Digits → Char → Option Digits
  | .leadingZero, c =>
    if c = 'x' || c = 'X' then some .hexadecimal
    else if isDecimal c then some .decimal
    else none
  | .decimal, c => if isDecimal c then some .decimal else none
  | .hexadecimal, c => if isHexadecimal c then some .hexadecimal else none

/-- What the characters since the last token are part of. -/
inductive Shape where
  /-- Nothing: a token may begin. -/
  | gap
  /-- The name after an opening parenthesis, or the blanks before it. -/
  | head
  /-- A sign, which a digit makes a number and anything else a word. -/
  | sign
  | number (digits : Digits)
  /-- A string literal; `escaped` right after a backslash that is not itself escaped. -/
  | quoted (delimiter : Char) (escaped : Bool)
  | word
  /-- An error was reported: the rest of the source is not read. -/
  | halted
  deriving DecidableEq, Repr

/-- What the scanner remembers between two characters. -/
structure Scanner where
  shape : Shape
  /-- The characters of the token being read, last one first. -/
  read : List Char
  /-- Where the token being read starts. -/
  start : Position
  deriving DecidableEq, Repr

namespace Scanner

/-- Between tokens, at `p`. -/
def between (p : Position) : Scanner := ⟨.gap, [], p⟩

/-- The text of the token being read. -/
def text (s : Scanner) : String := String.ofList s.read.reverse

/-- The token being read, ending at `stop`. -/
def emit (s : Scanner) (kind : TokenKind) (stop : Position) : Token :=
  ⟨kind, s.text, s.start.offset, stop.offset, s.start.line⟩

/-- The error token in place of the token being read. -/
def refuse (s : Scanner) (e : ScanError) (stop : Position) : Token :=
  ⟨.error, e.message, s.start.offset, stop.offset, s.start.line⟩

/-- One more character of the token being read. -/
def push (s : Scanner) (shape : Shape) (c : Char) : Scanner :=
  { s with shape, read := c :: s.read }

/-- The state after an error. -/
def halt (s : Scanner) : Scanner := { s with shape := .halted }

/-- A finished word: a hash sign at its start makes it a boolean. -/
def wordKind (s : Scanner) : TokenKind :=
  if s.read.getLast? = some '#' then .bool else .word

/-- Whether the head read so far is the word `define`. -/
def atDefine (s : Scanner) : Bool :=
  s.read.reverse = ['d', 'e', 'f', 'i', 'n', 'e']

/-- A finished head. -/
def headKind (s : Scanner) : TokenKind :=
  if s.atDefine then .define else .call

/-- What a character that is neither blank nor a parenthesis begins. -/
def opening (c : Char) : Shape :=
  if c = '+' || c = '-' then .sign
  else if c = '0' then .number .leadingZero
  else if isDecimal c then .number .decimal
  else if isQuote c then .quoted c false
  else .word

/-- Reads `c`, which stands at `p`, where a token may begin. -/
def begin (p : Position) (c : Char) : List Token × Scanner :=
  let next := p.advance c
  if isBlank c then ([], between next)
  else if c = '(' then
    ([⟨.leftParen, "(", p.offset, next.offset, p.line⟩], ⟨.head, [], next⟩)
  else if c = ')' then
    ([⟨.rightParen, ")", p.offset, next.offset, p.line⟩], between next)
  else ([], ⟨opening c, [c], p⟩)

/-- Ends the token being read before `c`, which stands at `p`, and reads `c` as a beginning. -/
def finishThen (s : Scanner) (kind : TokenKind) (p : Position) (c : Char) : List Token × Scanner :=
  let (tokens, after) := begin p c
  (s.emit kind p :: tokens, after)

/-- Reads `c`, which stands at `p`: the tokens it completes and the state after it. -/
def step (s : Scanner) (p : Position) (c : Char) : List Token × Scanner :=
  match s.shape with
  | .gap => begin p c
  | .head =>
    if endsWord c then
      if s.read.isEmpty then
        if isBlank c then ([], { s with start := p.advance c })
        else ([s.refuse .missingHead p], s.halt)
      else s.finishThen s.headKind p c
    else if c = '(' && s.atDefine then s.finishThen .define p c
    else ([], s.push .head c)
  | .sign =>
    if c = '0' then ([], s.push (.number .leadingZero) c)
    else if isDecimal c then ([], s.push (.number .decimal) c)
    else if endsWord c then s.finishThen s.wordKind p c
    else ([], s.push .word c)
  | .number digits =>
    match digits.extend? c with
    | some digits => ([], s.push (.number digits) c)
    | none =>
      if isAlphanumeric c || c = '_' then
        ([s.refuse (.badNumber (s.push s.shape c).text) (p.advance c)], s.halt)
      else s.finishThen .number p c
  | .quoted delimiter escaped =>
    if escaped then ([], s.push (.quoted delimiter false) c)
    else if c = '\\' then ([], s.push (.quoted delimiter true) c)
    else if c = delimiter then
      ([(s.push s.shape c).emit .string (p.advance c)], between (p.advance c))
    else ([], s.push s.shape c)
  | .word =>
    if endsWord c then s.finishThen s.wordKind p c
    else ([], s.push .word c)
  | .halted => ([], s)

/-- The tokens that the end of the source, at `p`, completes. -/
def finish (s : Scanner) (p : Position) : List Token :=
  let eof : Token := ⟨.eof, "", p.offset, p.offset, p.line⟩
  match s.shape with
  | .gap => [eof]
  | .head => if s.atDefine then [s.emit .define p, eof] else [s.refuse .unclosedHead p]
  | .sign | .word => [s.emit s.wordKind p, eof]
  | .number _ => [s.emit .number p, eof]
  | .quoted _ _ => [s.refuse .unclosedString p]
  | .halted => []

/-- Reads the characters that stand from `p` to the end of the source. -/
def scan (s : Scanner) (p : Position) : List Char → List Token
  | [] => s.finish p
  | c :: rest =>
    let (tokens, after) := s.step p c
    tokens ++ after.scan (p.advance c) rest

end Scanner

/-- The tokens of a source.  The last one, and only the last one, is `eof` or `error`. -/
def tokenize (source : String) : List Token :=
  (Scanner.between .origin).scan .origin source.toList

end HostLisp
