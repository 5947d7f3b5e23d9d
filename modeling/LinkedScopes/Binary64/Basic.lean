/-! Floating-point numbers of the 64-bit binary format, kept as their bit patterns.
The magnitude is the pattern without the sign bit; as a natural number it grows with
the absolute value, infinity stands above every finite number and the patterns that
are no number above infinity. -/
namespace LinkedScopes

structure Binary64 where
  bits : UInt64
deriving DecidableEq

namespace Binary64

/-- The bit that makes a number negative. -/
def signBit : Nat := 0x8000000000000000

/-- The bit above those of the fraction, one unit of the exponent. -/
def unitBit : Nat := 0x10000000000000

def magnitude (x : Binary64) : Nat := x.bits.toNat % signBit

def isNegative (x : Binary64) : Bool := signBit ≤ x.bits.toNat

def infinity : Nat := 2047 * unitBit

/-- The magnitude that a reader gives to what is not a number. -/
def quietNaN : Nat := infinity + unitBit / 2

def ofMagnitude (negative : Bool) (magnitude : Nat) : Binary64 :=
  ⟨UInt64.ofNat (if negative then signBit + magnitude else magnitude)⟩

def isNaN (x : Binary64) : Bool := infinity < x.magnitude

/-- Equality of numbers: both zeros are one number, and what is not a number equals
nothing. -/
def same (x y : Binary64) : Bool :=
  !x.isNaN && !y.isNaN && (x == y || (x.magnitude == 0 && y.magnitude == 0))

/-- A finite magnitude as an integer times a power of two. The power is that of the
last place, so the integer is below two unit bits, and at least one unless the power is the
least there is. -/
def parts (magnitude : Nat) : Nat × Int :=
  let exponent := max 1 (magnitude / unitBit)
  (magnitude - (exponent - 1) * unitBit, (exponent : Int) - 1075)

end Binary64
end LinkedScopes
