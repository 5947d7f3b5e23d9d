import LinkedScopes.CommandLine.Response
import LinkedScopes.Journal.File

/-! The command line on the machine it runs on: real files, clock and streams around
the responses of the library. -/
namespace LinkedScopes

/-- Why a file cannot be used. Some of the machine's own calls report the number of an
error negated. -/
def systemReason (e : IO.Error) : String :=
  let reason (code : UInt32) (details : String) : String :=
    match min code.toNat (UInt32.size - code.toNat) with
    | 2 => DiskFailure.notFound.message
    | 20 => DiskFailure.notFolder.message
    | 21 => DiskFailure.isFolder.message
    | number => details ++ " (os error " ++ toString number ++ ")"
  match e with
  | .noFileOrDirectory _ code details
  | .inappropriateType _ code details
  | .permissionDenied _ code details => reason code details
  | other => toString other

def readText (path : String) : IO (Except String String) := do
  try
    match String.fromUTF8? (← IO.FS.readBinFile path) with
    | some text => return .ok text
    | none => return .error DiskFailure.notText.message
  catch e => return .error (systemReason e)

def respond (inv : Invocation) (text : String) : IO Response := do
  let source : Source := ⟨text, inv.fileName⟩
  let start ← IO.monoNanosNow
  match ← IO.lazyPure fun _ => source.tokens with
  | .error d => return .untokenized source d
  | .ok tokens =>
    let middle ← IO.monoNanosNow
    let result ← IO.lazyPure fun _ => parse tokens inv.limit
    let stop ← IO.monoNanosNow
    return .parsed source tokens result
      ⟨Timings.elapsed (middle - start), Timings.elapsed (stop - middle)⟩

def keepJournal (path : String) (events : List Event) : IO Unit := do
  try
    let file ← IO.FS.Handle.mk path .write
    for event in events do
      file.putStr event.record.line
    file.flush
  catch e => IO.eprintln (Journal.complaint path (systemReason e))

end LinkedScopes

open LinkedScopes

def main (arguments : List String) : IO UInt32 := do
  match Invocation.ofArguments arguments with
  | .error e =>
    IO.eprint e.report
    return 1
  | .ok inv =>
    let response ← match ← readText inv.file with
      | .error reason => pure (Response.unreadable inv reason)
      | .ok text => respond inv text
    if let some path := inv.log then
      if !response.events.isEmpty then keepJournal path response.events
    IO.eprint response.complaints
    IO.print response.output
    return UInt32.ofNat response.ending.exit
