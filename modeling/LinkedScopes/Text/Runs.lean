/-! Character classes given as runs of code points, the form in which the standard
publishes its properties. -/
namespace LinkedScopes.Text

/-- First and last code point of each run. -/
abbrev Runs := List (Nat × Nat)

def Runs.has (runs : Runs) (c : Char) : Bool :=
  runs.any fun run => run.1 ≤ c.toNat && c.toNat ≤ run.2

end LinkedScopes.Text
