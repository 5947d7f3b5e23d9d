import LinkedScopes.Source.Position

/-! Tokens: the words, numbers and symbols of a program together with where they
stand. A token's text is kept beside its kind and nothing ties the two together,
because a token may also be built by hand. -/
namespace LinkedScopes

inductive Operator where
  | add | sub | mul | div | pow | assign
deriving DecidableEq

inductive Kind where
  | endOfInput | number | identifier | keyword
  | operator (op : Operator)
  | openParen | closeParen | openCurly | closeCurly
  | semicolon
deriving DecidableEq

structure Token where
  kind : Kind
  text : String
  span : Span
deriving DecidableEq

namespace Operator

def all : List Operator := [.add, .sub, .mul, .div, .pow, .assign]

def symbol : Operator → Char
  | .add => '+'
  | .sub => '-'
  | .mul => '*'
  | .div => '/'
  | .pow => '^'
  | .assign => '='

def term : Operator → String
  | .add => "Add"
  | .sub => "Sub"
  | .mul => "Mul"
  | .div => "Div"
  | .pow => "Pow"
  | .assign => "Assign"

end Operator

def Kind.term : Kind → String
  | .endOfInput => "EOF"
  | .number => "Number"
  | .identifier => "Identifier"
  | .keyword => "Keyword"
  | .operator op => Text.applied "Operator" [op.term]
  | .openParen => "OpenParen"
  | .closeParen => "CloseParen"
  | .openCurly => "OpenCurly"
  | .closeCurly => "CloseCurly"
  | .semicolon => "Semicolon"

def conditionalWords : List String := ["if", "while"]

def operationWords : List String := ["print", "sqrt", "sin", "cos", "ln"]

def reservedWords : List String := conditionalWords ++ operationWords

def isConditionalWord (word : String) : Bool := conditionalWords.contains word

def isReserved (word : String) : Bool := reservedWords.contains word

namespace Token

/-- A token that comes from no text. -/
def detached (kind : Kind) (text : String) : Token := ⟨kind, text, .null⟩

def endOfInput (position : Position) : Token := ⟨.endOfInput, "EOF", .at position⟩

def isOperator (token : Token) (op : Operator) : Bool := token.kind == .operator op

def term (token : Token) : String :=
  Text.labelled "Token"
    [("kind", token.kind.term), ("value", Text.quoted token.text), ("span", token.span.term)]

/-- Kind and text on a line each, the text unquoted. -/
def display (token : Token) : String :=
  "Token \x7b\nkind: " ++ token.kind.term ++ ",\nvalue: " ++ token.text ++ "\x7d"

end Token
end LinkedScopes
