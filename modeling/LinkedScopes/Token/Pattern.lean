import LinkedScopes.Text.Blank
import LinkedScopes.Token.Basic

/-! The patterns a text is cut by. Each takes as much of the front of a text as it
can; the first pattern of the table that takes anything decides. Only the comment
before the slash depends on that order: no other two patterns start alike. -/
namespace LinkedScopes

inductive Pattern where
  | word | number | blanks | comment
  | symbol (c : Char) (kind : Kind)
deriving DecidableEq

namespace Pattern

/-- Letters and digits of words and numbers are those of ASCII. -/
def startsWord (c : Char) : Bool := c.isAlpha || c == '_' || c == '$'

def continuesWord (c : Char) : Bool := c.isAlphanum || c == '_' || c == '$'

/-- A point and the digits after it, if there are any. -/
def fraction : List Char → List Char
  | '.' :: text =>
    match text.takeWhile Char.isDigit with
    | [] => []
    | places => '.' :: places
  | _ => []

/-- Digits, and with them a point if digits follow it too. -/
def numeral (text : List Char) : List Char :=
  match text.takeWhile Char.isDigit with
  | [] => []
  | whole => whole ++ fraction (text.dropWhile Char.isDigit)

/-- What the pattern takes of the front of a text, empty if it does not match. -/
def lexeme : Pattern → List Char → List Char
  | word, c :: text => if startsWord c then c :: text.takeWhile continuesWord else []
  | number, text => numeral text
  | blanks, text => text.takeWhile Text.isBlank
  | comment, '/' :: '/' :: text => '/' :: '/' :: text.takeWhile (· ≠ '\n')
  | symbol s _, c :: _ => if c = s then [c] else []
  | _, _ => []

/-- The kind of token a lexeme makes; blanks and comments make none. -/
def kind? : Pattern → String → Option Kind
  | word, text => some (if isReserved text then .keyword else .identifier)
  | number, _ => some .number
  | symbol _ kind, _ => some kind
  | blanks, _ | comment, _ => none

def table : List Pattern :=
  [word, number, blanks, comment,
   symbol '{' .openCurly, symbol '}' .closeCurly,
   symbol '(' .openParen, symbol ')' .closeParen, symbol ';' .semicolon]
  ++ [Operator.assign, .add, .sub, .mul, .div, .pow].map fun op => symbol op.symbol (.operator op)

def first? (text : List Char) : Option Pattern :=
  table.find? fun p => !(p.lexeme text).isEmpty

theorem fraction_isPrefix (text : List Char) : fraction text <+: text := by
  unfold fraction
  split
  · next text =>
    split
    · exact List.nil_prefix
    · exact (List.prefix_cons_inj _).mpr (List.takeWhile_prefix _)
  · exact List.nil_prefix

theorem numeral_isPrefix (text : List Char) : numeral text <+: text := by
  unfold numeral
  split
  · exact List.nil_prefix
  · conv => rhs; rw [← List.takeWhile_append_dropWhile (p := Char.isDigit) (l := text)]
    exact (List.prefix_append_right_inj _).mpr (fraction_isPrefix _)

theorem lexeme_isPrefix (p : Pattern) (text : List Char) : p.lexeme text <+: text := by
  unfold lexeme
  split
  · split
    · exact (List.prefix_cons_inj _).mpr (List.takeWhile_prefix _)
    · exact List.nil_prefix
  · exact numeral_isPrefix text
  · exact List.takeWhile_prefix _
  · simp [List.takeWhile_prefix]
  · split <;> simp
  · exact List.nil_prefix

theorem lexeme_ne_nil {p : Pattern} {text : List Char} (found : first? text = some p) :
    p.lexeme text ≠ [] := by
  have := List.find?_some found
  simpa using this

end Pattern
end LinkedScopes
