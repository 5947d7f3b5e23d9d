/-! Journal records and the levels that decide which of them are kept. -/
namespace LinkedScopes

inductive Level where
  | error | warn | info | debug | trace
deriving DecidableEq

namespace Level

def rank : Level → Nat
  | error => 1
  | warn => 2
  | info => 3
  | debug => 4
  | trace => 5

def name : Level → String
  | error => "ERROR"
  | warn => "WARN"
  | info => "INFO"
  | debug => "DEBUG"
  | trace => "TRACE"

/-- Whether a filter keeps records of this level; no filter keeps none. -/
def passes (level : Level) : Option Level → Bool
  | none => false
  | some filter => level.rank ≤ filter.rank

end Level

structure Record where
  level : Level
  target : String
  message : String

def Record.line (r : Record) : String :=
  "[" ++ r.level.name ++ "] " ++ r.target ++ ": " ++ r.message ++ "\n"

end LinkedScopes
