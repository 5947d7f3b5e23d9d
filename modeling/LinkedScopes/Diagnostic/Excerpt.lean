import LinkedScopes.Diagnostic.Basic
import LinkedScopes.Source.Line
import LinkedScopes.Text.Blank

/-! A diagnostic as it is shown: a headline, the file, and the faulty line with a
caret under the reported byte.

The line is shown without the spaces and tabs it starts with, and then without any
other blanks at its ends. Only the first removal moves the caret, which counts the
bytes left of it, so blanks of another kind or characters of several bytes left of
the fault push it to the right. A caret pushed further than a field can be wide
cannot be set, and then nothing is shown at all. -/
namespace LinkedScopes.Diagnostic

open Text

/-- Widths of fields are kept in 16 bits. -/
def widest : Nat := 65535

/-- The blanks that are taken from the front of a line before it is shown. -/
def isIndent (c : Char) : Bool := c = ' ' || c = '\t'

/-- How far in the caret stands under a line. -/
def column (line : Line) : Nat := line.offset - (line.text.takeWhile isIndent).length

/-- The dashes leading to the caret and the caret, one field. -/
def caret? (column : Nat) : Option (List Char) :=
  if column + 1 ≤ widest then some (List.replicate column '-' ++ ['^']) else none

/-- The lines that show where the fault is. -/
def excerpt? (line : Line) : Option String :=
  (caret? (column line)).map fun caret =>
    let number := toString line.number
    let margin := String.ofList (List.replicate (number.length + 1) ' ') ++ "|"
    let shown := trimBlanks (line.text.drop (line.text.takeWhile isIndent).length)
    margin ++ "\n" ++
    number ++ " | " ++ String.ofList shown ++ "\n" ++
    margin ++ " " ++ String.ofList caret ++ "\n"

def heading (d : Diagnostic) : String :=
  let headline := match d.fault.tip with
    | none => d.fault.name
    | some tip => d.fault.name ++ " (" ++ tip ++ ")"
  "Error: " ++ headline ++ "\n-> " ++ d.position.file ++ "\n"

/-- The whole report. It ends with its heading when the place lies beyond the text, and
there is none when the caret cannot be set. -/
def report? (d : Diagnostic) (text : String) : Option String :=
  match Line.at? text.toList d.position.offset.toNat with
  | none => some d.heading
  | some line => (excerpt? line).map (d.heading ++ ·)

theorem eq_of_caret? {column : Nat} {caret : List Char} (set : caret? column = some caret) :
    caret = List.replicate column '-' ++ ['^'] := by
  rw [caret?] at set
  split at set
  · exact (Option.some.inj set).symm
  · cases set

theorem caret?_eq_none_iff {column : Nat} : caret? column = none ↔ widest ≤ column := by
  rw [caret?]
  split <;> simp <;> omega

theorem excerpt?_eq_none_iff {line : Line} : excerpt? line = none ↔ widest ≤ column line := by
  rw [excerpt?, Option.map_eq_none_iff, caret?_eq_none_iff]

end LinkedScopes.Diagnostic
