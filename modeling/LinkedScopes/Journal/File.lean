import LinkedScopes.Disk.Basic
import LinkedScopes.Journal.Record

/-! A journal kept in a file. The file is opened by the first record that passes the
filter, and only then does an older file at its path lose what it held. If it cannot be
opened that is complained of once, and no record is kept from then on. -/
namespace LinkedScopes

inductive Sink where
  | unused
  | opened (place : Location)
  | failed
deriving DecidableEq

structure Journal where
  path : String
  /-- The lightest records to keep, or none at all. -/
  filter : Option Level
  disk : Disk
  sink : Sink := .unused
  complaints : List String := []

namespace Journal

def complaint (path reason : String) : String :=
  "Error opening log file " ++ path ++ ": " ++ reason

def passes (j : Journal) (r : Record) : Bool := r.level.passes j.filter

/-- Opens the file if that has not been tried. -/
def ready (j : Journal) : Journal :=
  match j.sink with
  | .unused =>
    match j.disk.create j.path with
    | .ok (place, disk) => { j with sink := .opened place, disk }
    | .error failure =>
      { j with sink := .failed, complaints := j.complaints ++ [complaint j.path failure.message] }
  | _ => j

def write (j : Journal) (r : Record) : Journal :=
  match j.sink with
  | .opened place => { j with disk := j.disk.append place r.line.toUTF8 }
  | _ => j

def log (j : Journal) (r : Record) : Journal :=
  if j.passes r then j.ready.write r else j

/-- Every record is in the file once it is logged, so there is nothing left to write. -/
def flush (j : Journal) : Journal := j

def content (j : Journal) : Option String := (j.disk.text j.path).toOption

end Journal
end LinkedScopes
