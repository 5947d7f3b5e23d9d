import LinkedScopes.Binary64.Basic
import LinkedScopes.Token.Basic

/-! Programs as chains. A chain is a sequence of links, each with a marker and at most
one command. Scopes leave no nesting behind: a link may open a scope or close one, and
the commands of a chain stand in source order whatever scopes they came from. Only the
body of a conditional is a chain inside a command. -/
namespace LinkedScopes

inductive Marker where
  | statement
  /-- The first element of a scope. -/
  | scopeOpen
  /-- One scope ended before this link. -/
  | scopeClose
deriving DecidableEq

mutual

inductive Node where
  | number (value : Binary64)
  | var (name : String)
  | operation (op : Operator) (left right : Node)
  /-- A conditional word by itself. -/
  | head (word : String)
  | call (word : String) (argument : Node)
  | conditional (word : String) (condition : Node) (body : List Link)
  | assignment (target : String) (value : Node)

structure Link where
  marker : Marker
  command : Option Node

end

/-- The empty chain stands for the absence of one. -/
abbrev Chain := List Link

inductive Tag where
  | number | var | operator | keyword | assignment | statement | scopeOpen | scopeClose
deriving DecidableEq

def Tag.term : Tag → String
  | number => "Number"
  | var => "Variable"
  | operator => "Operator"
  | keyword => "Keyword"
  | assignment => "Assignment"
  | statement => "Statement"
  | scopeOpen => "ScopeOpen"
  | scopeClose => "ScopeClose"

/-- Whatever starts with a keyword is one. -/
def Node.tag : Node → Tag
  | number _ => .number
  | var _ => .var
  | operation _ _ _ => .operator
  | head _ | call _ _ | conditional _ _ _ => .keyword
  | assignment _ _ => .assignment

def Marker.tag : Marker → Tag
  | statement => .statement
  | scopeOpen => .scopeOpen
  | scopeClose => .scopeClose

def Link.tag (link : Link) : Tag := link.marker.tag

def Chain.commands (chain : Chain) : List Node := chain.filterMap Link.command

end LinkedScopes
