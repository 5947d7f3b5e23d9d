import LinkedScopes.Binary64.Decimal

/-! The shortest decimal that reads back as a given number. For each count of digits
only the two decimals around the number need a look: if any decimal of that many digits
reads back, the nearer neighbour on its side does. -/
namespace LinkedScopes.Binary64

/-- The decimal of exponent `e` that reads as `m * 2 ^ q` and is nearest to it; of two
equally near ones the greater. All is measured in quarters of the last place of `m`, of
which a number of the format owns two on either side, but only one below a power of
two, and their ends if `m` is even. -/
def onGrid? (m : Nat) (q e : Int) : Option Nat :=
  let tick := Nat.pow 10 e.toNat * Nat.pow 2 (2 - q).toNat
  let quarter := Nat.pow 10 (-e).toNat * Nat.pow 2 (q - 2).toNat
  let low := if m = unitBit ∧ -1074 < q then 4 * m - 1 else 4 * m - 2
  let high := 4 * m + 2
  let owned (c : Nat) : Bool :=
    if m % 2 = 0 then low * quarter ≤ c * tick && c * tick ≤ high * quarter
    else low * quarter < c * tick && c * tick < high * quarter
  let down := 4 * m * quarter / tick
  let up := down + 1
  match owned down, owned up with
  | true, true => if 2 * (4 * m * quarter) < (down + up) * tick then some down else some up
  | true, false => some down
  | false, true => some up
  | false, false => none

/-- The power of ten of the leading digit of `num / den`. -/
def decimalOrder (num den : Nat) : Int :=
  if den ≤ num then ((Nat.toDigits 10 (num / den)).length : Int) - 1
  else
    let below := (Nat.toDigits 10 (den / num)).length
    if num * Nat.pow 10 (below - 1) = den then 1 - (below : Int) else -(below : Int)

/-- The decimal of fewest digits that reads as a finite magnitude above zero. Seventeen
digits always suffice. -/
def shortest (magnitude : Nat) : Decimal :=
  let (m, q) := parts magnitude
  let order := decimalOrder (m * Nat.pow 2 q.toNat) (Nat.pow 2 (-q).toNat)
  let grids := (List.range 17).map fun (k : Nat) => order - (k : Int)
  (grids.findSome? fun e => (onGrid? m q e).map fun c => ⟨c, e⟩).getD ⟨0, 0⟩

end LinkedScopes.Binary64
