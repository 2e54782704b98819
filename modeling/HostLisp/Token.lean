/-!
# Tokens

A token is a stretch of source text with a kind.  It records where it stands twice: as a range of
bytes, which tiles the source, and as a line, which is what messages show.  An `error` token ends a
token list in place of `eof`; its text is the message and its range the text that was refused.
-/

namespace HostLisp

/-- What a token is. -/
inductive TokenKind where
  /-- The source cannot be read further. -/
  | error
  /-- The source has ended. -/
  | eof
  /-- An opening parenthesis. -/
  | leftParen
  /-- A closing parenthesis. -/
  | rightParen
  /-- The name right after an opening parenthesis. -/
  | call
  /-- An integer literal. -/
  | number
  /-- A quoted string literal, delimiters included. -/
  | string
  /-- A bare word outside call position. -/
  | word
  /-- The word `define` right after an opening parenthesis. -/
  | define
  /-- A bare word that starts with a hash sign. -/
  | bool
  deriving DecidableEq, Repr, Inhabited

/-- The name a message uses for a kind of token. -/
def TokenKind.label : TokenKind → String
  | .error => "ERROR"
  | .eof => "EOF"
  | .leftParen => "("
  | .rightParen => ")"
  | .call => "call"
  | .number => "number"
  | .string => "string"
  | .word => "variable"
  | .define => "define"
  | .bool => "bool"

/-- A kind, the text it was read from, and where that text stands. -/
structure Token where
  kind : TokenKind
  /-- The source text, or the message of an `error` token. -/
  text : String
  /-- Bytes before the token. -/
  start : Nat
  /-- Bytes up to and including the token. -/
  stop : Nat
  /-- The line of the first character, counted from one. -/
  line : Nat
  deriving DecidableEq, Repr, Inhabited

/-- How a message shows a token. -/
def Token.describe (t : Token) : String :=
  t.kind.label ++ " => " ++ t.text

/-- Whether nothing follows the token in a token list. -/
def Token.isFinal (t : Token) : Bool :=
  t.kind = .eof || t.kind = .error

end HostLisp
