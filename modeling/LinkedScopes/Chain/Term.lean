import LinkedScopes.Binary64.Term
import LinkedScopes.Chain.Basic

/-! Trees written as terms. A link's term holds the rest of its chain as a field, so a
chain's term is that of its first link. -/
namespace LinkedScopes

open Text

def Marker.term (marker : Marker) : String := marker.tag.term

mutual

def Node.term : Node → String
  | .number value => applied "Number" [value.term]
  | .var name => applied "Variable" [quoted name]
  | .operation op left right =>
    labelled "Operator" [("op", op.term), ("lhs", left.term), ("rhs", right.term)]
  | .head word => applied "Keyword" [quoted word]
  | .call word argument => labelled "Call" [("keyword", quoted word), ("arg", argument.term)]
  | .conditional word condition body =>
    labelled "Conditional"
      [("keyword", quoted word), ("cond", condition.term), ("body", chainTerm body)]
  | .assignment target value =>
    labelled "Assignment" [("target", quoted target), ("value", value.term)]

def commandTerm : Option Node → String
  | none => "None"
  | some command => applied "Some" [command.term]

def Link.term (next : String) : Link → String
  | ⟨marker, command⟩ =>
    labelled "Link" [("marker", marker.term), ("command", commandTerm command), ("next", next)]

def chainTerm : List Link → String
  | [] => "None"
  | [link] => link.term "None"
  | link :: rest => link.term (applied "Some" [chainTerm rest])

end

def Chain.term (chain : Chain) : String := chainTerm chain

end LinkedScopes
