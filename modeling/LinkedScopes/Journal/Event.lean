import LinkedScopes.Journal.Record
import LinkedScopes.Token.Basic

/-! What happens while a program is read, as far as the journal tells of it: which rule
looks at which token, and every move of the scopes that have closed without a link to
show it. The text of an event is only made when it is written down. -/
namespace LinkedScopes

inductive RuleName where
  | program | scope | command | conditional | assignment | expression | primary | identifier
deriving DecidableEq

inductive Event where
  /-- A source was cut into so many tokens. -/
  | tokenized (count : Nat) (file : String)
  | entered (rule : RuleName) (token : Token)
  /-- An operator is about to join two operands. -/
  | joining (op : Operator)
  /-- A scope starts while closes of earlier ones are owed; it keeps them aside. -/
  | holding (closes : Nat)
  /-- A scope ended, so that many closes are owed. -/
  | closed (owed : Nat)
  /-- A scope places what it kept aside. -/
  | payingInherited (closes : Nat)
  /-- A command places what is owed. -/
  | paying (closes : Nat)
  /-- The program places what is left at its end. -/
  | placing (closes : Nat)

namespace RuleName

def name : RuleName → String
  | program => "parse_program"
  | scope => "parse_scope"
  | command => "parse_command"
  | conditional => "parse_conditional"
  | assignment => "parse_assignment"
  | expression => "parse_expr"
  | primary => "parse_primary"
  | identifier => "parse_identifier"

def target : RuleName → String
  | program => "scopec::parser::parser"
  | scope => "scopec::parser::scope"
  | command | conditional | assignment => "scopec::parser::stmt"
  | expression | primary | identifier => "scopec::parser::expr"

/-- The program and expressions name the kind of the next token, other rules all of it. -/
def shown (token : Token) : RuleName → String
  | program | expression => token.kind.term
  | _ => token.term

end RuleName

namespace Event

/-- Only the moves of closes are more than a trace. -/
def level : Event → Level
  | tokenized _ _ | entered _ _ | joining _ => .trace
  | holding _ | closed _ | payingInherited _ | paying _ | placing _ => .debug

def target : Event → String
  | tokenized _ _ => "scopec::lexer::lexer"
  | entered rule _ => rule.target
  | joining _ => RuleName.expression.target
  | holding _ | closed _ | payingInherited _ => RuleName.scope.target
  | paying _ => RuleName.command.target
  | placing _ => RuleName.program.target

def message : Event → String
  | tokenized count file => "tokenize: " ++ toString count ++ " tokens from " ++ file
  | entered rule token => rule.name ++ ": next token = " ++ rule.shown token
  | joining op => "parse_binary_level: operator " ++ String.singleton op.symbol
  | holding closes => "parse_scope: holding " ++ toString closes ++ " inherited scope closes"
  | closed owed => "parse_scope: closed, debt now " ++ toString owed
  | payingInherited closes =>
    "parse_scope: paying " ++ toString closes ++ " inherited scope closes"
  | paying closes => "parse_command: paying " ++ toString closes ++ " scope closes"
  | placing closes => "parse_program: placing " ++ toString closes ++ " trailing scope closes"

def record (event : Event) : Record := ⟨event.level, event.target, event.message⟩

end Event
end LinkedScopes
