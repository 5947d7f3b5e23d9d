import LinkedScopes.Binary64.Shortest

/-! The written form of a number: its shortest decimal, positional with at least one
place from `0.0001` up to below `10 ^ 16`, otherwise one digit, the point if more
follow, and the power of ten. -/
namespace LinkedScopes.Binary64

/-- Digits with the point so many places behind the first; zeros fill the gaps. -/
def positional (digits : List Char) (point : Int) : List Char :=
  if point ≤ 0 then ['0', '.'] ++ List.replicate (-point).toNat '0' ++ digits
  else
    let whole := point.toNat
    let places := digits.drop whole
    digits.take whole ++ List.replicate (whole - digits.length) '0' ++ ['.'] ++
      (if places.isEmpty then ['0'] else places)

def scientific (digits : List Char) (power : Int) : List Char :=
  let places := digits.drop 1
  digits.take 1 ++ (if places.isEmpty then [] else '.' :: places) ++ 'e' :: (toString power).toList

def written (d : Decimal) : List Char :=
  let all := Nat.toDigits 10 d.digits
  let digits := (all.reverse.dropWhile (· = '0')).reverse
  let point := (all.length : Int) + d.exponent
  if -3 ≤ point ∧ point ≤ 16 then positional digits point else scientific digits (point - 1)

def term (x : Binary64) : String :=
  let unsigned :=
    if x.magnitude = infinity then "inf"
    else if x.magnitude = 0 then "0.0"
    else String.ofList (written (shortest x.magnitude))
  if x.isNaN then "NaN"
  else if x.isNegative then "-" ++ unsigned
  else unsigned

end LinkedScopes.Binary64
