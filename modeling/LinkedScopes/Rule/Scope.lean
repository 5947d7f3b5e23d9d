import LinkedScopes.Rule.Command

/-! Scopes. Where a scope ends is not kept with it: its end is owed, and whatever follows
at the level around it places the closes. A command places them as links ahead of
itself, a scope as links ahead of its own first one. Each scope starts with nothing
owed and keeps what was owed before it aside until its own end. -/
namespace LinkedScopes.Rule

def scopeOf (element : Rule Chain) : Rule Chain := nested do
  enter .scope
  _ ← expectFor .openCurly "expected `\x7b` to open a scope"
  let inherited ← takeDebt
  if 0 < inherited then emit (.holding inherited)
  let elements ← braced element
  owe
  emit (.closed (← get).debt)
  if 0 < inherited then emit (.payingInherited inherited)
  return (Chain.openScope elements.flatten).wrap inherited

def elementWithin : Nat → Rule Chain
  | 0 => exhausted
  | bound + 1 => do
    if (← kind) = .openCurly then scopeOf (elementWithin bound) else command

/-- A scope if a brace opens one, otherwise a command. -/
def element : Rule Chain := bounded elementWithin

def scope : Rule Chain := scopeOf element

/-- One element and nothing after it. The end of the input closes the outermost scope,
so one close less than owed is placed, ahead of everything. -/
def program : Rule Chain := do
  enter .program
  let root ← element
  if (← kind) ≠ .endOfInput then unexpected "expected end of input"
  else
    let trailing := (← takeDebt) - 1
    if 0 < trailing then emit (.placing trailing)
    return root.wrap trailing

end LinkedScopes.Rule

namespace LinkedScopes

/-- The nesting allowed unless another limit is asked for. -/
def defaultLimit : Nat := 128

def parse (tokens : List Token) (limit : Nat) : Except Halt Chain × State :=
  Rule.program.runFrom ⟨tokens.toArray, limit⟩ {}

end LinkedScopes
