import LinkedScopes.CommandLine.Response
import LinkedScopes.Journal.File

/-! A run of the program over folders and files: its arguments are read, then the file,
then the journal receives what happened, all of it whatever its level. -/
namespace LinkedScopes

structure RunResult where
  exit : Nat
  output : String
  complaints : String
  disk : Disk

namespace RunResult

/-- The journal's complaints come first, since the first event precedes all else that
is said. -/
def ofResponse (r : Response) (log : Option String) (disk : Disk) : RunResult :=
  match log with
  | none => ⟨r.ending.exit, r.output, r.complaints, disk⟩
  | some path =>
    let journal : Journal := { path, filter := some .trace, disk }
    let journal := (r.events.map Event.record).foldl Journal.log journal
    let complaints := String.join (journal.complaints.map (· ++ "\n"))
    ⟨r.ending.exit, r.output, complaints ++ r.complaints, journal.disk⟩

end RunResult

def run (arguments : List String) (disk : Disk) (times : Timings) : RunResult :=
  match Invocation.ofArguments arguments with
  | .error e => ⟨1, "", e.report, disk⟩
  | .ok inv =>
    let response := match disk.text inv.file with
      | .error failure => Response.unreadable inv failure.message
      | .ok text => Response.ofText inv text times
    RunResult.ofResponse response inv.log disk

end LinkedScopes
