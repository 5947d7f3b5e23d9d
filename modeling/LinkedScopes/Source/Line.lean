import LinkedScopes.Text.Width

/-! The lines of a text. A line keeps its line feed, so the lines of a text
concatenate to it; the last one may lack its line feed, and no line is empty. -/
namespace LinkedScopes

open Text

/-- Where an offset falls: the number of its line counted from one, the line with
its line feed, and the bytes of the line before the offset. -/
structure Line where
  number : Nat
  text : List Char
  offset : Nat

namespace Line

/-- Puts a character in front of lines; a line feed is a line of its own. -/
def prepend (c : Char) (lines : List (List Char)) : List (List Char) :=
  if c = '\n' then [c] :: lines
  else match lines with
    | [] => [[c]]
    | line :: rest => (c :: line) :: rest

def segments (text : List Char) : List (List Char) := text.foldr prepend []

theorem prepend_flatten (c : Char) (lines : List (List Char)) :
    (prepend c lines).flatten = c :: lines.flatten := by
  unfold prepend
  split
  · simp
  · split <;> simp

theorem segments_flatten (text : List Char) : (segments text).flatten = text := by
  induction text with
  | nil => rfl
  | cons c text ih => exact (prepend_flatten c _).trans (congrArg (c :: ·) ih)

/-- The line that holds the byte at an offset counted from the first of these lines,
which is the one of the given number. -/
def holding (number offset : Nat) : List (List Char) → Option Line
  | [] => none
  | line :: rest =>
    if offset < width line then some ⟨number, line, offset⟩
    else holding (number + 1) (offset - width line) rest

/-- The end of a text belongs to its last line, before that line's line feed; an
empty text has one empty line. -/
def ending (lines : List (List Char)) : Line :=
  let last := lines.getLast?.getD []
  ⟨max lines.length 1, last, width (last.filter (· ≠ '\n'))⟩

/-- The line at a byte offset, if the text reaches that far. -/
def at? (text : List Char) (offset : Nat) : Option Line :=
  let lines := segments text
  if width text < offset then none
  else (holding 1 offset lines).or (some (ending lines))

end Line
end LinkedScopes
