import LinkedScopes.Diagnostic.Basic
import LinkedScopes.Journal.Event

/-! Grammar rules. A rule reads tokens at a cursor that only moves forward and never
back, keeps count of the scopes that have closed without a link to show it and of the
nesting it is in, and ends with a result or a diagnostic. What a rule did to the state
stays done when it fails.

Rules that contain themselves take a bound on how often they may do so. Running into
that bound is told apart from a fault; bounds are taken from the tokens that are left,
and every re-entry passes one, so none is ever reached. -/
namespace LinkedScopes

/-- What a rule reads and never changes. -/
structure Input where
  tokens : Array Token
  /-- The nesting that is still allowed. -/
  limit : Nat

structure State where
  cursor : Nat := 0
  /-- Scopes that have closed and await their links. -/
  debt : Nat := 0
  /-- Scopes, conditionals and expressions around the cursor. -/
  depth : Nat := 0
  /-- What has happened, the latest first. -/
  events : List Event := []

inductive Halt where
  | fault (d : Diagnostic)
  /-- The bound on repetition was reached. -/
  | exhausted

abbrev Rule := ReaderT Input (ExceptT Halt (StateM State))

namespace Input

/-- The token past the last one. It stands where the last one ended. -/
def ending (input : Input) : Token :=
  .endOfInput <| match input.tokens.back? with
    | some last => last.span.stop
    | none => .null

def token (input : Input) (index : Nat) : Token :=
  input.tokens[index]?.getD input.ending

/-- How many tokens are left at a cursor. -/
def remaining (input : Input) (cursor : Nat) : Nat := input.tokens.size - cursor

end Input

namespace Rule

variable {α : Type}

def runFrom (rule : Rule α) (input : Input) (s : State) : Except Halt α × State :=
  rule input s

def current : Rule Token := do return (← read).token (← get).cursor

def kind : Rule Kind := do return (← current).kind

def position : Rule Position := do return (← current).span.start

def advance : Rule Token := do
  let token ← current
  modify fun s => { s with cursor := s.cursor + 1 }
  return token

def emit (event : Event) : Rule Unit :=
  modify fun s => { s with events := event :: s.events }

def enter (rule : RuleName) : Rule Unit := do emit (.entered rule (← current))

def fail (fault : Fault) (position : Position) : Rule α := throw (.fault ⟨fault, position⟩)

def exhausted : Rule α := throw .exhausted

def unexpected (message : String) : Rule α := do
  let token ← current
  fail (.unexpectedFor token.text message) token.span.start

def expect (expected : Kind) : Rule Token := do
  let token ← current
  if token.kind = expected then advance
  else fail (.unexpected token.text) token.span.start

/-- Passes a token of this kind and no other, saying what is missing. -/
def expectFor (expected : Kind) (message : String) : Rule Token := do
  if (← kind) = expected then advance else unexpected message

/-- Takes over all closes that are owed. -/
def takeDebt : Rule Nat := do
  let s ← get
  set { s with debt := 0 }
  return s.debt

def owe : Rule Unit := modify fun s => { s with debt := s.debt + 1 }

/-- Runs a rule one level deeper, however it ends. -/
def deeper (rule : Rule α) : Rule α := fun input s =>
  let (result, s) := rule.runFrom input { s with depth := s.depth + 1 }
  (result, { s with depth := s.depth - 1 })

def nested (rule : Rule α) : Rule α := do
  let limit := (← read).limit
  if limit ≤ (← get).depth then fail (.nestingTooDeep limit) (← position)
  else deeper rule

/-- Bounds a rule by the tokens that are left. -/
def bounded (rule : Nat → Rule α) : Rule α := do
  rule ((← read).remaining (← get).cursor + 1)

/-- Items up to the closing brace, those already seen given last first. -/
def itemsWithin (item : Rule α) : Nat → List α → Rule (List α)
  | 0, _ => exhausted
  | bound + 1, seen => do
    if (← kind) = .closeCurly then return seen.reverse
    else itemsWithin item bound ((← item) :: seen)

/-- One item or more, and the closing brace. -/
def braced (item : Rule α) : Rule (List α) := do
  let first ← item
  let items ← bounded fun bound => itemsWithin item bound [first]
  _ ← advance
  return items

/-! What the steps do to an outcome and a state. -/

variable {β : Type} (input : Input) (s : State)

theorem runFrom_pure (a : α) : (pure a : Rule α).runFrom input s = (.ok a, s) := rfl

theorem runFrom_bind (rule : Rule α) (next : α → Rule β) :
    (rule >>= next).runFrom input s =
      match rule.runFrom input s with
      | (.ok a, t) => (next a).runFrom input t
      | (.error halt, t) => (.error halt, t) := by
  change ExceptT.bind (rule input) (fun a => next a input) s = _
  unfold ExceptT.bind ExceptT.mk runFrom
  change (match rule input s with | (a, t) => ExceptT.bindCont (fun a => next a input) a t) = _
  rcases rule input s with ⟨_ | _, t⟩ <;> rfl

theorem runFrom_emit (event : Event) :
    (emit event).runFrom input s = (.ok (), { s with events := event :: s.events }) := rfl

theorem runFrom_fail (fault : Fault) (position : Position) :
    (fail fault position : Rule α).runFrom input s = (.error (.fault ⟨fault, position⟩), s) := rfl

theorem runFrom_deeper (rule : Rule α) :
    (deeper rule).runFrom input s =
      ((rule.runFrom input { s with depth := s.depth + 1 }).1,
        let t := (rule.runFrom input { s with depth := s.depth + 1 }).2
        { t with depth := t.depth - 1 }) := rfl

end Rule
end LinkedScopes
