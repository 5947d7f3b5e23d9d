import LinkedScopes.Binary64.Decimal
import LinkedScopes.Chain.Basic
import LinkedScopes.Rule.Basic

/-! Expressions: three levels of operators over operands, each level folding to the
left, the power no less than the others. Every whole expression is one level of
nesting, so groups and the arguments of calls are limited, chains of operators not. -/
namespace LinkedScopes

inductive Reference where
  | var (name : String)
  /-- A conditional word, which takes no argument. -/
  | head (word : String)
  | call (word : String) (argument : Node)

namespace Reference

def word : Reference → String
  | var word | head word | call word _ => word

def node : Reference → Node
  | var name => .var name
  | head word => .head word
  | call word argument => .call word argument

end Reference

def Kind.operatorAmong (ops : List Operator) : Kind → Option Operator
  | .operator op => if op ∈ ops then some op else none
  | _ => none

theorem Kind.operatorAmong_eq_some_iff {kind : Kind} {ops : List Operator} {op : Operator} :
    kind.operatorAmong ops = some op ↔ kind = .operator op ∧ op ∈ ops := by
  cases kind with
  | operator other =>
    simp only [operatorAmong, Option.ite_none_right_eq_some, Option.some.injEq, operator.injEq]
    constructor
    · rintro ⟨member, rfl⟩
      exact ⟨rfl, member⟩
    · rintro ⟨rfl, member⟩
      exact ⟨member, rfl⟩
  | _ => simp [operatorAmong]

namespace Rule

/-- Joins operands to what is on the left of them while one of the operators follows. -/
def joinsWithin (ops : List Operator) (operand : Rule Node) : Nat → Node → Rule Node
  | 0, _ => exhausted
  | bound + 1, left => do
    match (← kind).operatorAmong ops with
    | none => return left
    | some op =>
      emit (.joining op)
      _ ← advance
      let right ← operand
      joinsWithin ops operand bound (.operation op left right)

def level (ops : List Operator) (operand : Rule Node) : Rule Node := do
  let first ← operand
  bounded fun bound => joinsWithin ops operand bound first

/-- A variable, a conditional word, or another keyword with its argument. -/
def referenceOf (expression : Rule Node) : Rule Reference := do
  enter .identifier
  let token ← current
  match token.kind with
  | .identifier =>
    _ ← advance
    return .var token.text
  | .keyword =>
    _ ← advance
    if isConditionalWord token.text then return .head token.text
    else if (← kind) ≠ .openParen then
      fail (.keywordMisused token.text "must be followed by `(`") (← position)
    else
      _ ← advance
      let argument ← expression
      _ ← expectFor .closeParen ("expected `)` to close the `" ++ token.text ++ "` call")
      return .call token.text argument
  | _ => fail (.malformedExpression token.text) token.span.start

def primaryOf (expression : Rule Node) : Rule Node := do
  enter .primary
  let token ← current
  match token.kind with
  | .openParen =>
    _ ← advance
    let inner ← expression
    _ ← expectFor .closeParen "expected `)` to close the group"
    return inner
  | .number =>
    match Binary64.ofText? token.text with
    | none => fail (.malformedNumber token.text) token.span.start
    | some value =>
      _ ← advance
      return .number value
  | _ => return (← referenceOf expression).node

def powerOf (expression : Rule Node) : Rule Node := level [.pow] (primaryOf expression)

def termOf (expression : Rule Node) : Rule Node := level [.mul, .div] (powerOf expression)

def expressionWithin : Nat → Rule Node
  | 0 => exhausted
  | bound + 1 => do
    enter .expression
    nested (level [.add, .sub] (termOf (expressionWithin bound)))

def expression : Rule Node := bounded expressionWithin

def term : Rule Node := termOf expression

def power : Rule Node := powerOf expression

def primary : Rule Node := primaryOf expression

def reference : Rule Reference := referenceOf expression

def identifier : Rule Node := do return (← reference).node

end Rule
end LinkedScopes
