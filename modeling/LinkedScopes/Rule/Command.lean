import LinkedScopes.Chain.Builder
import LinkedScopes.Rule.Expression

/-! Commands: assignments and conditionals. A command takes over the closes owed when it
starts and shows them ahead of itself, so those owed before a conditional never reach
its body. -/
namespace LinkedScopes.Rule

/-- A variable and its value, without the semicolon. -/
def assignment : Rule Node := do
  enter .assignment
  if (← kind) ≠ .identifier then unexpected "expected a variable to assign to"
  else
    let target := (← advance).text
    if !(← current).isOperator .assign then unexpected ("expected `=` after `" ++ target ++ "`")
    else
      _ ← advance
      return .assignment target (← expression)

/-- A braced run of commands, or one command. The braces open no scope. -/
def bodyOf (command : Rule Chain) : Rule Chain := do
  if (← kind) = .openCurly then
    _ ← advance
    return (← braced command).flatten
  else command

/-- The word a conditional starts with. Any other reference is read to its end before
it is refused. -/
def headWord : Rule String := do
  let start ← position
  match ← reference with
  | .head word => return word
  | other =>
    fail (.keywordMisused other.word "cannot start a command, only `if` and `while` can") start

def conditionalOf (command : Rule Chain) : Rule Node := nested do
  enter .conditional
  let word ← headWord
  _ ← expectFor .openParen ("expected `(` after `" ++ word ++ "`")
  let condition ← expression
  _ ← expectFor .closeParen "expected `)` to close the condition"
  return .conditional word condition (← bodyOf command)

/-- A keyword starts a conditional, anything else is taken for an assignment. -/
def commandOf (conditional : Rule Node) : Rule Chain := do
  enter .command
  let owed ← takeDebt
  let command ←
    if (← kind) = .keyword then conditional
    else do
      let command ← assignment
      _ ← expect .semicolon
      pure command
  if 0 < owed then emit (.paying owed)
  return Chain.settle owed command

/-- A command that contains at most so many others inside one another. -/
def commandWithin : Nat → Rule Chain
  | 0 => exhausted
  | bound + 1 => commandOf (conditionalOf (commandWithin bound))

def command : Rule Chain := bounded commandWithin

def conditional : Rule Node := conditionalOf command

end LinkedScopes.Rule
