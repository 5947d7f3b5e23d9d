import LinkedScopes.Chain.Outline
import LinkedScopes.CommandLine.Invocation
import LinkedScopes.Diagnostic.Excerpt
import LinkedScopes.Token.Scanner

/-! What the program says for a text it was given. Whether a journal is kept plays no
part: the events are the same, and what becomes of them is decided elsewhere. -/
namespace LinkedScopes

/-- How long each stage took, as it is printed. -/
structure Timings where
  tokenizing : String
  parsing : String

/-- A duration in the largest unit it reaches, without closing zeros. -/
def Timings.elapsed (nanoseconds : Nat) : String :=
  let scaled (places : Nat) (name : String) : String :=
    let unit := Nat.pow 10 places
    let digits := Nat.toDigits 10 (nanoseconds % unit)
    let padded := List.replicate (places - digits.length) '0' ++ digits
    let shown := (padded.reverse.dropWhile (· = '0')).reverse
    let fraction := if shown.isEmpty then [] else '.' :: shown
    toString (nanoseconds / unit) ++ String.ofList fraction ++ name
  if nanoseconds < 1000 then toString nanoseconds ++ "ns"
  else if nanoseconds < 1000000 then scaled 3 "µs"
  else if nanoseconds < 1000000000 then scaled 6 "ms"
  else scaled 9 "s"

inductive Ending where
  | succeeded
  | failed
  /-- What there was to say could not be put into words. -/
  | aborted
deriving DecidableEq

def Ending.exit : Ending → Nat
  | succeeded => 0
  | failed => 1
  | aborted => 101

structure Response where
  /-- What happened, in order. -/
  events : List Event
  output : String
  complaints : String
  ending : Ending

namespace Response

def unreadable (inv : Invocation) (reason : String) : Response :=
  ⟨[], "", "Failed to read " ++ inv.file ++ ": " ++ reason ++ "\n", .failed⟩

/-- A text with something wrong in it, after what was said before that was found. -/
def faulty (events : List Event) (said : String) (source : Source) (d : Diagnostic) : Response :=
  match d.report? source.text with
  | some report => ⟨events, "", said ++ report, .failed⟩
  | none => ⟨events, "", said ++ "Formatting argument out of range\n", .aborted⟩

/-- A text that could not be cut into tokens. -/
def untokenized (source : Source) (d : Diagnostic) : Response := faulty [] "" source d

def parsed (source : Source) (tokens : List Token) (result : Except Halt Chain × State)
    (times : Timings) : Response :=
  let events := .tokenized tokens.length source.file :: result.2.events.reverse
  let timing := "Tokenized in " ++ times.tokenizing ++ "\nParsed in " ++ times.parsing ++ "\n"
  match result.1 with
  | .ok chain => ⟨events, chain.outline, timing, .succeeded⟩
  | .error (.fault d) => faulty events timing source d
  | .error .exhausted => ⟨events, "", timing, .failed⟩

def ofText (inv : Invocation) (text : String) (times : Timings) : Response :=
  let source : Source := ⟨text, inv.fileName⟩
  match source.tokens with
  | .error d => untokenized source d
  | .ok tokens => parsed source tokens (parse tokens inv.limit) times

end Response
end LinkedScopes
