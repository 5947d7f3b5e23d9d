import LinkedScopes.Disk.Location
import LinkedScopes.Rule.Scope

/-! What a command line asks for. Arguments are read from the left, the first fault
ends the reading, and the last of several values for one option counts. -/
namespace LinkedScopes

structure Invocation where
  file : String
  limit : Nat
  log : Option String

inductive UsageError where
  | limitMissing
  | limitInvalid (value : String)
  | logMissing
  | argumentUnexpected (argument : String)
  | fileMissing
deriving DecidableEq

namespace UsageError

def message : UsageError → String
  | limitMissing => "--max-depth needs a value"
  | limitInvalid value => "invalid --max-depth value `" ++ value ++ "`"
  | logMissing => "--log needs a file"
  | argumentUnexpected argument => "unexpected argument `" ++ argument ++ "`"
  | fileMissing => "no input file given"

def report (e : UsageError) : String :=
  e.message ++ "\nusage: scopec <file> [--max-depth N] [--log FILE]\n"

end UsageError

namespace Invocation

/-- Decimal digits after an optional plus, for a number of at most 64 bits. -/
def limit? (value : String) : Option Nat :=
  let digits := match value.toList with
    | '+' :: digits => digits
    | digits => digits
  if digits.isEmpty || !digits.all Char.isDigit then none
  else
    let limit := Decimal.spelled digits
    if limit < UInt64.size then some limit else none

/-- Reads the arguments that are left, given what the others asked for. -/
def ofRest (file : Option String) (limit : Nat) (log : Option String) :
    List String → Except UsageError Invocation
  | [] =>
    match file with
    | some file => .ok ⟨file, limit, log⟩
    | none => .error .fileMissing
  | ["--max-depth"] => .error .limitMissing
  | ["--log"] => .error .logMissing
  | "--max-depth" :: value :: rest =>
    match limit? value with
    | some limit => ofRest file limit log rest
    | none => .error (.limitInvalid value)
  | "--log" :: path :: rest => ofRest file limit (some path) rest
  | argument :: rest =>
    match file with
    | none => ofRest (some argument) limit log rest
    | some _ => .error (.argumentUnexpected argument)

def ofArguments (arguments : List String) : Except UsageError Invocation :=
  ofRest none defaultLimit none arguments

/-- The name a file is reported under, the last of its path; a path without a name is
its own. -/
def fileName (inv : Invocation) : String :=
  match ((pathNames inv.file).filter fun name => name ≠ "" ∧ name ≠ ".").getLast? with
  | none | some ".." => inv.file
  | some name => name

end Invocation
end LinkedScopes
