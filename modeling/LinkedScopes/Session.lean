import LinkedScopes.Rule.Scope

/-! Sessions: rules run one after another on the same tokens, each from the state the
one before left, whether it failed or not. Steps may be run inside a level of nesting;
a step that fails in there ends neither the level nor the steps after it. -/
namespace LinkedScopes.Session

inductive Reading where
  | expression | term | power | primary | identifier | assignment | conditional
  | command | element | scope

inductive Step where
  | read (what : Reading)
  | advance
  | current
  | position
  | expect (kind : Kind)
  | expectFor (kind : Kind) (message : String)
  | unexpected (message : String)
  | owe
  | takeDebt
  | nested (steps : List Step)

mutual

inductive Value where
  | node (value : Node)
  | chain (value : Chain)
  | token (value : Token)
  | position (value : Position)
  | count (value : Nat)
  | answers (value : List Answer)
  | nothing

structure Answer where
  outcome : Except Halt Value
  state : State
  kind : Kind

end

def Reading.rule : Reading → Rule Value
  | expression => .node <$> Rule.expression
  | term => .node <$> Rule.term
  | power => .node <$> Rule.power
  | primary => .node <$> Rule.primary
  | identifier => .node <$> Rule.identifier
  | assignment => .node <$> Rule.assignment
  | conditional => .node <$> Rule.conditional
  | command => .chain <$> Rule.command
  | element => .chain <$> Rule.element
  | scope => .chain <$> Rule.scope

/-- Runs a rule whose failure is an answer like any other. -/
def answering (rule : Rule Value) : Rule Answer := fun input s =>
  let (outcome, s) := rule.runFrom input s
  (.ok ⟨outcome, s, (input.token s.cursor).kind⟩, s)

mutual

def Step.rule : Step → Rule Value
  | .read what => what.rule
  | .advance => .token <$> Rule.advance
  | .current => .token <$> Rule.current
  | .position => .position <$> Rule.position
  | .expect kind => .token <$> Rule.expect kind
  | .expectFor kind message => .token <$> Rule.expectFor kind message
  | .unexpected message => Rule.unexpected message
  | .owe => do Rule.owe; return .nothing
  | .takeDebt => .count <$> Rule.takeDebt
  | .nested steps => Rule.nested (.answers <$> answers steps)

def answers : List Step → Rule (List Answer)
  | [] => return []
  | step :: steps => do
    let answer ← answering step.rule
    return answer :: (← answers steps)

end

end LinkedScopes.Session
