import HostLisp.Node
import HostLisp.Quoted
import HostLisp.Token

/-!
# Writing program trees

A tree is written as the tokens it is read from, one blank between each two.  The blanks are more
than reading needs, but they make every token stand by itself, whatever its neighbours are.
-/

namespace HostLisp

/-- A token without its place: what is left of it when it is not read from a source. -/
structure Lexeme where
  kind : TokenKind
  text : String
  deriving DecidableEq, Repr

namespace Lexeme

/-- The opening parenthesis. -/
def opening : Lexeme := ⟨.leftParen, "("⟩

/-- The closing parenthesis. -/
def closing : Lexeme := ⟨.rightParen, ")"⟩

/-- The parameters of a `lambda`.  The first stands right after a parenthesis. -/
def ofParams : List String → List Lexeme
  | [] => []
  | first :: rest => ⟨.call, first⟩ :: rest.map (⟨.word, ·⟩)

end Lexeme

mutual

/-- The tokens that a tree is written with. -/
def Node.lexemes : Node → List Lexeme
  | .list children => Node.lexemesAll children
  | .call name args => .opening :: ⟨.call, name⟩ :: Node.lexemesAll args ++ [.closing]
  | .define name value =>
    .opening :: ⟨.define, "define"⟩ :: ⟨.word, name⟩ :: value.lexemes ++ [.closing]
  | .assign name value =>
    .opening :: ⟨.call, "set"⟩ :: ⟨.word, name⟩ :: value.lexemes ++ [.closing]
  | .cond test conseq alt =>
    .opening :: ⟨.call, "if"⟩ :: test.lexemes ++ conseq.lexemes ++ alt.lexemes ++ [.closing]
  | .begin body => .opening :: ⟨.call, "begin"⟩ :: Node.lexemesAll body ++ [.closing]
  | .var name => [⟨.word, name⟩]
  | .number literal => [⟨.number, literal.text⟩]
  | .str text => [⟨.string, Quoted.encode text⟩]
  | .bool value => [⟨.bool, if value then "#t" else "#f"⟩]
  | .lambda params name args =>
    .opening :: ⟨.call, "lambda"⟩ :: .opening :: Lexeme.ofParams params
      ++ .closing :: .opening :: ⟨.call, name⟩ :: Node.lexemesAll args ++ [.closing, .closing]

/-- The tokens that several trees are written with. -/
def Node.lexemesAll : List Node → List Lexeme
  | [] => []
  | node :: rest => node.lexemes ++ Node.lexemesAll rest

end

/-- A tree as source text. -/
def Node.render (node : Node) : String :=
  " ".intercalate (node.lexemes.map (·.text))

end HostLisp
