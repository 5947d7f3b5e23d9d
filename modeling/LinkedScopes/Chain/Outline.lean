import LinkedScopes.Chain.Term

/-! Chains in outline: a line for each link, in order, and the lines of a conditional's
body below its own, four spaces further in. -/
namespace LinkedScopes

mutual

def Link.outline (indent : Nat) : Link → List String
  | ⟨marker, command⟩ =>
    commandOutline indent (String.ofList (List.replicate indent ' ') ++ marker.term) command

/-- The lines of a link whose marker is already written. -/
def commandOutline (indent : Nat) (marked : String) : Option Node → List String
  | none => [marked]
  | some command => command.outline indent marked

def Node.outline (indent : Nat) (marked : String) : Node → List String
  | .conditional word condition body =>
    (marked ++ " " ++ word ++ " (" ++ condition.term ++ ")") :: chainOutline (indent + 4) body
  | command => [marked ++ " " ++ command.term]

def chainOutline (indent : Nat) : List Link → List String
  | [] => []
  | link :: rest => link.outline indent ++ chainOutline indent rest

end

def Chain.outline (chain : Chain) : String :=
  String.join ((chainOutline 0 chain).map (· ++ "\n"))

end LinkedScopes
