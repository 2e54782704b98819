import HostLisp.Text.Class

/-!
# Quoted string literals

A literal is a delimiter, a body and the same delimiter.  In the body a backslash begins an escape;
every other character stands for itself, and the delimiter has to be escaped.  An escape is a single
letter, or a number in one of five spellings: three octal or two hexadecimal digits for an ASCII
character; four, eight, or any count of hexadecimal digits in braces for a Unicode scalar value.

Reading goes through the body once.  An escape reports how many characters it is spelled with, and
those are passed over.
-/

namespace HostLisp

open Text

/-- The two spellings of an ASCII character by its number. -/
inductive ByteEscape where
  | octal
  | hexadecimal
  deriving DecidableEq, Repr

/-- How a message names the spelling. -/
def ByteEscape.label : ByteEscape → String
  | .octal => "octal"
  | .hexadecimal => "\\x"

/-- Why a text is not a string literal. -/
inductive QuoteError where
  /-- There is no room for two delimiters. -/
  | missingDelimiters
  /-- The first and the last character are not the same quote. -/
  | mismatchedDelimiters
  /-- The delimiter stands in the body without a backslash. -/
  | bareDelimiter (delimiter : Char)
  /-- The body ends in a backslash. -/
  | trailingBackslash
  | shortOctal
  | shortHexadecimal
  /-- The number of an octal or a two-digit escape is above the ASCII range. -/
  | notAscii (escape : ByteEscape) (value : Nat)
  /-- An opening brace has no closing one. -/
  | unclosedBrace
  /-- The digits are not a scalar value, or not digits at all. -/
  | invalidScalar
  | unknownEscape (c : Char)
  deriving DecidableEq, Repr

/-- A number with its base mark, in lower-case hexadecimal digits. -/
def hexadecimalText (n : Nat) : String :=
  "0x" ++ String.ofList (Nat.toDigits 16 n)

/-- What a message says about a refused literal. -/
def QuoteError.message : QuoteError → String
  | .missingDelimiters => "missing delimiters"
  | .mismatchedDelimiters => "mismatched delimiters"
  | .bareDelimiter delimiter => "unescaped " ++ delimiter.toString ++ " inside the literal"
  | .trailingBackslash => "trailing backslash"
  | .shortOctal => "octal escape needs three digits"
  | .shortHexadecimal => "\\x escape needs two hex digits"
  | .notAscii escape value =>
    escape.label ++ " escape " ++ hexadecimalText value ++ " is not an ASCII byte"
  | .unclosedBrace => "unterminated \\u\x7b...\x7d escape"
  | .invalidScalar => "invalid unicode escape"
  | .unknownEscape c => "unknown escape sequence \\" ++ c.toString

namespace Quoted

/-! ## Numbers in escapes -/

/-- The character with a number, if the number is a Unicode scalar value. -/
def scalar? (n : Nat) : Option Char :=
  if n < 0xD800 ∨ (0xDFFF < n ∧ n < 0x110000) then some (Char.ofNat n) else none

/-- The number that the next `count` characters spell. -/
def leading? (count radix : Nat) (rest : List Char) : Option Nat :=
  if count ≤ rest.length then readDigits? radix (rest.take count) else none

/-- The number spelled between braces, which one plus sign may precede. -/
def braced? : List Char → Option Nat
  | '+' :: digits => readDigits? 16 digits
  | digits => readDigits? 16 digits

/-- The ASCII character with a number. -/
def ascii (escape : ByteEscape) (n : Nat) : Except QuoteError Char :=
  if n < 0x80 then .ok (Char.ofNat n) else .error (.notAscii escape n)

/-- The character with a number that was spelled in full. -/
def scalar (n? : Option Nat) : Except QuoteError Char :=
  match n?.bind scalar? with
  | some c => .ok c
  | none => .error .invalidScalar

/-! ## Escapes -/

/-- The character that a one-letter escape stands for. -/
def letter? (delimiter : Char) (c : Char) : Option Char :=
  match c with
  | 'a' => some '\x07'
  | 'b' => some '\x08'
  | 'f' => some '\x0c'
  | 'n' => some '\n'
  | 'r' => some '\r'
  | 't' => some '\t'
  | 'v' => some '\x0b'
  | '\\' => some '\\'
  | c => if c = delimiter then some c else none

/-- The character between braces, and the count of characters up to the closing brace. -/
def bracedEscape (rest : List Char) : Except QuoteError (Char × Nat) :=
  let digits := rest.takeWhile (· ≠ '\x7d')
  if digits.length < rest.length then do
    let c ← scalar (braced? digits)
    pure (c, digits.length + 1)
  else .error .unclosedBrace

/-- Reads an escape after its backslash: the character it stands for, and how many characters
spell it. -/
def escape (delimiter : Char) : List Char → Except QuoteError (Char × Nat)
  | [] => .error .trailingBackslash
  | c :: rest =>
    match letter? delimiter c with
    | some plain => .ok (plain, 1)
    | none =>
      match c, rest with
      | 'x', rest =>
        match leading? 2 16 rest with
        | some n => (ascii .hexadecimal n).map (·, 3)
        | none => .error .shortHexadecimal
      | 'u', '\x7b' :: rest => (bracedEscape rest).map fun (c, count) => (c, count + 2)
      | 'u', rest => (scalar (leading? 4 16 rest)).map (·, 5)
      | 'U', rest => (scalar (leading? 8 16 rest)).map (·, 9)
      | c, rest =>
        match digitValue? 8 c with
        | none => .error (.unknownEscape c)
        | some first =>
          match leading? 2 8 rest with
          | some n => (ascii .octal (first * 64 + n)).map (·, 3)
          | none => .error .shortOctal

/-! ## Literals -/

/-- Reads a body, after passing over `skip` characters that an escape has used. -/
def body (delimiter : Char) : Nat → List Char → Except QuoteError (List Char)
  | _, [] => .ok []
  | skip + 1, _ :: rest => body delimiter skip rest
  | 0, c :: rest =>
    if c = '\\' then do
      let (plain, used) ← escape delimiter rest
      let chars ← body delimiter used rest
      pure (plain :: chars)
    else if c = delimiter then .error (.bareDelimiter delimiter)
    else do
      let chars ← body delimiter 0 rest
      pure (c :: chars)

/-- Reads a literal given as characters. -/
def decodeChars : List Char → Except QuoteError (List Char)
  | opening :: inner@(_ :: _) =>
    if inner.getLast? = some opening ∧ isQuote opening then
      body opening 0 inner.dropLast
    else .error .mismatchedDelimiters
  | _ => .error .missingDelimiters

/-- Writes a literal: only backslashes and the delimiter itself are escaped. -/
def encodeChars (delimiter : Char) (text : List Char) : List Char :=
  let escaped := text.flatMap fun c => if c = '\\' ∨ c = delimiter then ['\\', c] else [c]
  delimiter :: escaped ++ [delimiter]

/-- The text that a string literal stands for. -/
def decode (literal : String) : Except QuoteError String :=
  (decodeChars literal.toList).map String.ofList

/-- A string literal that stands for a text, between double quotes. -/
def encode (text : String) : String :=
  String.ofList (encodeChars '"' text.toList)

end Quoted

end HostLisp
