import HostLisp.Text.Visible

/-!
# Outlines

An outline shows the structure of a value to a person: constructor names, field names and quoted
texts.  It is written on one line, or indented with one part to a line and a comma after each.
-/

namespace HostLisp

/-! ## Quoted text -/

/-- A character inside a quoted text.  Characters that cannot be seen on their own are shown by
their number. -/
def quoteChar (c : Char) : String :=
  match c with
  | '"' => "\\\""
  | '\\' => "\\\\"
  | '\n' => "\\n"
  | '\r' => "\\r"
  | '\t' => "\\t"
  | '\x00' => "\\0"
  | c =>
    if Text.isVisible c then c.toString
    else "\\u\x7b" ++ String.ofList (Nat.toDigits 16 c.toNat) ++ "\x7d"

/-- A text between double quotes. -/
def quote (text : String) : String :=
  "\"" ++ String.join (text.toList.map quoteChar) ++ "\""

/-! ## Outlines -/

/-- The structure of a value. -/
inductive Outline where
  /-- A value without parts, already written out. -/
  | atom (text : String)
  /-- A labelled part of a record. -/
  | field (label : String) (value : Outline)
  /-- A record; `complete` unless it has parts that are not shown. -/
  | record (name : String) (complete : Bool) (fields : List Outline)
  /-- A constructor applied to unlabelled parts. -/
  | tuple (name : String) (items : List Outline)
  | sequence (items : List Outline)
  deriving Repr, Inhabited

namespace Outline

/-- A quoted text as a part. -/
def text (s : String) : Outline := .atom (quote s)

/-- A list of quoted texts. -/
def texts (ss : List String) : Outline := .sequence (ss.map text)

/-- A truth value. -/
def bool (b : Bool) : Outline := .atom (if b then "true" else "false")

/-- A count. -/
def count (n : Nat) : Outline := .atom (toString n)

/-- A part that may be missing. -/
def option : Option Outline → Outline
  | none => .atom "None"
  | some o => .tuple "Some" [o]

/-! ## One line -/

mutual

/-- An outline on one line. -/
def inline : Outline → String
  | .atom text => text
  | .field label value => label ++ ": " ++ inline value
  | .record name complete fields =>
    let parts := inlineAll fields ++ if complete then [] else [".."]
    name ++ " \x7b " ++ ", ".intercalate parts ++ " \x7d"
  | .tuple name items => name ++ "(" ++ ", ".intercalate (inlineAll items) ++ ")"
  | .sequence items => "[" ++ ", ".intercalate (inlineAll items) ++ "]"

/-- Each of several outlines on one line. -/
def inlineAll : List Outline → List String
  | [] => []
  | o :: rest => inline o :: inlineAll rest

end

/-! ## Indented -/

/-- The start of a line, `depth` levels in. -/
def margin (depth : Nat) : String :=
  "\n" ++ String.ofList (List.replicate (4 * depth) ' ')

mutual

/-- An outline whose first line starts somewhere on a line that is `depth` levels in. -/
def indentedAt (depth : Nat) : Outline → String
  | .atom text => text
  | .field label value => label ++ ": " ++ indentedAt depth value
  | .record name complete fields =>
    let omitted := if complete then "" else margin (depth + 1) ++ ".."
    name ++ " \x7b" ++ partsAt (depth + 1) fields ++ omitted ++ margin depth ++ "\x7d"
  | .tuple name items => name ++ "(" ++ partsAt (depth + 1) items ++ margin depth ++ ")"
  | .sequence [] => "[]"
  | .sequence (o :: rest) => "[" ++ partsAt (depth + 1) (o :: rest) ++ margin depth ++ "]"

/-- Several outlines, each on lines of its own and followed by a comma. -/
def partsAt (depth : Nat) : List Outline → String
  | [] => ""
  | o :: rest => margin depth ++ indentedAt depth o ++ "," ++ partsAt depth rest

end

/-- An outline over several lines. -/
def indented (o : Outline) : String := o.indentedAt 0

end Outline

end HostLisp
