import LinkedScopes.Source.Basic
import LinkedScopes.Source.Position
import LinkedScopes.Text.Width

/-! A byte offset moving over a source, in 64 bits. Nothing keeps it inside the text or
on a character boundary; it is the reading that fails there. Only a sum that leaves
the 64 bits is refused, and then the cursor stays where it was. -/
namespace LinkedScopes

structure Cursor where
  source : Source
  offset : UInt64

namespace Cursor

def start (source : Source) : Cursor := ⟨source, 0⟩

/-- The offset so many bytes further on; nothing when it does not fit. -/
def offsetAfter? (c : Cursor) (bytes : Nat) : Option UInt64 :=
  if fits : c.offset.toNat + bytes < UInt64.size then some (.ofNatLT _ fits) else none

def advance? (c : Cursor) (bytes : Nat) : Option Cursor :=
  (c.offsetAfter? bytes).map fun offset => { c with offset }

/-- The text from here on; nothing inside a character or past the end. -/
def remainder? (c : Cursor) : Option String :=
  (Text.afterBytes? c.offset.toNat c.source.text.toList).map String.ofList

/-- The character here, NUL at the end. -/
def current? (c : Cursor) : Option Char :=
  (Text.afterBytes? c.offset.toNat c.source.text.toList).map fun rest => rest.head?.getD '\x00'

def atEnd (c : Cursor) : Bool := Text.width c.source.text.toList ≤ c.offset.toNat

def position (c : Cursor) : Position := .ofBytes c.offset.toNat c.source.file

def span? (c : Cursor) (bytes : Nat) : Option Span :=
  (c.offsetAfter? bytes).map fun stop => ⟨c.position, .ofBytes stop.toNat c.source.file⟩

theorem toNat_of_offsetAfter? {c : Cursor} {bytes : Nat} {offset : UInt64}
    (h : c.offsetAfter? bytes = some offset) : offset.toNat = c.offset.toNat + bytes := by
  unfold offsetAfter? at h
  split at h
  · cases h
    exact UInt64.toNat_ofNatLT
  · cases h

theorem offsetAfter?_eq_none_iff {c : Cursor} {bytes : Nat} :
    c.offsetAfter? bytes = none ↔ UInt64.size ≤ c.offset.toNat + bytes := by
  unfold offsetAfter?
  split <;> simp <;> omega

end Cursor
end LinkedScopes
