import LinkedScopes.Binary64.Basic

/-! Numbers read from decimal text. The text is read as an exact decimal, which is
then rounded once, to the nearest number of the format and halfway to the even one. -/
namespace LinkedScopes

/-- The number `digits * 10 ^ exponent`. -/
structure Decimal where
  digits : Nat
  exponent : Int

namespace Decimal

def spelled (digits : List Char) : Nat :=
  digits.foldl (fun n c => 10 * n + (c.toNat - '0'.toNat)) 0

/-- The number that the digits of an exponent spell, read until it is out of every
range that could matter. -/
def spelledExponent (digits : List Char) : Nat :=
  digits.foldl (fun n c => if n < 0x10000 then 10 * n + (c.toNat - '0'.toNat) else n) 0

def exponentDigits? (text : List Char) : Option Nat :=
  if text.isEmpty || !text.all Char.isDigit then none else some (spelledExponent text)

/-- The exponent that ends a number, if it has one. -/
def exponent? : List Char → Option Int
  | [] => some 0
  | c :: text =>
    if c ≠ 'e' ∧ c ≠ 'E' then none
    else match text with
      | '-' :: text => (exponentDigits? text).map fun n => -(n : Int)
      | '+' :: text => (exponentDigits? text).map fun n => (n : Int)
      | text => (exponentDigits? text).map fun n => (n : Int)

/-- Digits with a point among, before or after them, then an exponent. -/
def ofText? (text : List Char) : Option Decimal :=
  let whole := text.takeWhile Char.isDigit
  let (places, rest) := match text.dropWhile Char.isDigit with
    | '.' :: rest => (rest.takeWhile Char.isDigit, rest.dropWhile Char.isDigit)
    | rest => ([], rest)
  if whole.isEmpty && places.isEmpty then none
  else (exponent? rest).map fun e => ⟨spelled (whole ++ places), e - places.length⟩

end Decimal

namespace Binary64

/-- The integer nearest to `num / den`, the even one of two. -/
def roundEven (num den : Nat) : Nat :=
  let whole := num / den
  let rest := 2 * (num % den)
  if rest < den then whole
  else if den < rest then whole + 1
  else whole + whole % 2

/-- The power of two of the leading binary digit of `num / den`. -/
def binaryOrder (num den : Nat) : Int :=
  let guess : Int := (num.log2 : Int) - den.log2
  if den * Nat.pow 2 guess.toNat ≤ num * Nat.pow 2 (-guess).toNat then guess else guess - 1

/-- The magnitude nearest to a positive quotient. Rounding up past the last number of
a power of two carries into the next, and past the last of all into infinity. -/
def nearest (num den : Nat) : Nat :=
  let power := max (-1074) (binaryOrder num den - 52)
  let rounded := roundEven (num * Nat.pow 2 (-power).toNat) (den * Nat.pow 2 power.toNat)
  min infinity ((power + 1074).toNat * unitBit + rounded)

/-- The magnitude nearest to a decimal. Decimals above `10 ^ 309` or below `10 ^ -324`
are settled by their order, so no power of ten grows with the exponent. -/
def ofDecimal (d : Decimal) : Nat :=
  let order : Int := (Nat.toDigits 10 d.digits).length + d.exponent
  if d.digits = 0 then 0
  else if 309 < order then infinity
  else if order < -323 then 0
  else nearest (d.digits * Nat.pow 10 d.exponent.toNat) (Nat.pow 10 (-d.exponent).toNat)

def named? (text : List Char) : Option Nat :=
  match String.ofList (text.map Char.toLower) with
  | "inf" | "infinity" => some infinity
  | "nan" => some quietNaN
  | _ => none

def magnitude? (text : List Char) : Option Nat :=
  (named? text).or ((Decimal.ofText? text).map ofDecimal)

/-- The number that a text denotes: a sign, then a name or a decimal. -/
def ofText? (text : String) : Option Binary64 :=
  match text.toList with
  | '-' :: text => (magnitude? text).map (ofMagnitude true)
  | '+' :: text => (magnitude? text).map (ofMagnitude false)
  | text => (magnitude? text).map (ofMagnitude false)

end Binary64
end LinkedScopes
