import LinkedScopes.Text.Quoted
import LinkedScopes.Text.Term

/-! Places in a source text. Offsets count bytes of UTF-8 in 32 bits, so they wrap in
a text of four gigabytes or more; nothing here depends on the text itself. -/
namespace LinkedScopes

structure Position where
  offset : UInt32
  file : String
deriving DecidableEq

/-- The bytes from `start` up to, but not including, `stop`. -/
structure Span where
  start : Position
  stop : Position
deriving DecidableEq

/-- The place of what was never read from a text. -/
def Position.null : Position := ⟨0, "<null>"⟩

/-- Wraps the offset to 32 bits. -/
def Position.ofBytes (offset : Nat) (file : String) : Position := ⟨UInt32.ofNat offset, file⟩

def Span.null : Span := ⟨.null, .null⟩

def Span.at (position : Position) : Span := ⟨position, position⟩

def Span.ofBytes (offset length : Nat) (file : String) : Span :=
  ⟨.ofBytes offset file, .ofBytes (offset + length) file⟩

def Position.term (position : Position) : String :=
  Text.applied "Position" [toString position.offset.toNat, Text.quoted position.file]

def Span.term (span : Span) : String :=
  Text.labelled "Span" [("start", span.start.term), ("end", span.stop.term)]

end LinkedScopes
