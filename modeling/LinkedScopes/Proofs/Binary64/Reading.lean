import LinkedScopes.Binary64.Decimal
import Mathlib.Data.List.TakeWhile

/-! Numbers that are read from digits. A text of digits, maybe with a point and more digits after
them, always denotes one. It is never negative and never stands for what is not a number, though
it may be so large that only infinity is left. -/
namespace LinkedScopes

namespace Decimal

variable {digits places : List Char} (each : ∀ c ∈ digits, c.isDigit = true)

include each

theorem ofText?_digits (nonempty : digits ≠ []) :
    ofText? digits = some ⟨spelled digits, 0⟩ := by
  have whole : digits.takeWhile Char.isDigit = digits := List.takeWhile_eq_self_iff.mpr each
  have rest : digits.dropWhile Char.isDigit = [] := List.dropWhile_eq_nil_iff.mpr each
  simp [ofText?, whole, rest, exponent?, nonempty]

theorem ofText?_point (nonempty : digits ≠ []) (each' : ∀ c ∈ places, c.isDigit = true) :
    ofText? (digits ++ '.' :: places) =
      some ⟨spelled (digits ++ places), -(places.length : Int)⟩ := by
  have whole : (digits ++ '.' :: places).takeWhile Char.isDigit = digits := by
    rw [List.takeWhile_append_of_pos each, List.takeWhile_cons_of_neg (by decide), List.append_nil]
  have behind : (digits ++ '.' :: places).dropWhile Char.isDigit = '.' :: places := by
    rw [List.dropWhile_append_of_pos each, List.dropWhile_cons_of_neg (by decide)]
  have taken : places.takeWhile Char.isDigit = places := List.takeWhile_eq_self_iff.mpr each'
  have rest : places.dropWhile Char.isDigit = [] := List.dropWhile_eq_nil_iff.mpr each'
  simp [ofText?, whole, behind, taken, rest, exponent?, nonempty]

end Decimal

namespace Binary64

theorem nearest_le_infinity (num den : Nat) : nearest num den ≤ infinity := Nat.min_le_left _ _

theorem ofDecimal_le_infinity (d : Decimal) : ofDecimal d ≤ infinity := by
  unfold ofDecimal
  dsimp only
  split
  · exact Nat.zero_le _
  · split
    · exact Nat.le_refl _
    · split
      · exact Nat.zero_le _
      · exact nearest_le_infinity _ _

/-- A number, and not below zero, with the sign bit clear. -/
structure Unsigned (x : Binary64) : Prop where
  number : x.isNaN = false
  positive : x.isNegative = false

theorem unsigned_ofMagnitude {magnitude : Nat} (within : magnitude ≤ infinity) :
    (ofMagnitude false magnitude).Unsigned := by
  have below : infinity < signBit := by decide
  have bits : (ofMagnitude false magnitude).bits.toNat = magnitude := by
    have fits : signBit < UInt64.size := by decide
    exact UInt64.toNat_ofNat_of_lt' (Nat.lt_of_le_of_lt within (Nat.lt_trans below fits))
  constructor
  · rw [isNaN, Binary64.magnitude, bits, Nat.mod_eq_of_lt (by omega)]
    exact decide_eq_false (Nat.not_lt.mpr within)
  · rw [isNegative, bits]
    exact decide_eq_false (by omega)

theorem toLower_of_isDigit {c : Char} (digit : c.isDigit = true) : c.toLower = c := by
  simp only [Char.isDigit, Bool.and_eq_true, decide_eq_true_eq] at digit
  exact dif_neg fun upper => absurd (UInt32.le_trans upper.1 digit.2) (by decide)

section

variable {first : Char} {text : List Char} (digit : first.isDigit = true)

include digit

theorem named?_of_digit : named? (first :: text) = none := by
  have other (letter : Char) (more : List Char) (different : letter.isDigit = false) :
      String.ofList ((first :: text).map Char.toLower) ≠ String.ofList (letter :: more) := by
    intro same
    have starts := List.head_eq_of_cons_eq (String.ofList_injective same)
    rw [toLower_of_isDigit digit] at starts
    rw [← starts, digit] at different
    cases different
  unfold named?
  split
  · next is => exact absurd is (other 'i' ['n', 'f'] rfl)
  · next is => exact absurd is (other 'i' ['n', 'f', 'i', 'n', 'i', 't', 'y'] rfl)
  · next is => exact absurd is (other 'n' ['a', 'n'] rfl)
  · rfl

theorem ofText?_of_digit :
    ofText? (String.ofList (first :: text)) =
      (Decimal.ofText? (first :: text)).map fun d => ofMagnitude false (ofDecimal d) := by
  have magnitude : magnitude? (first :: text) =
      (Decimal.ofText? (first :: text)).map ofDecimal := by
    rw [magnitude?, named?_of_digit digit, Option.none_or]
  rw [ofText?, String.toList_ofList]
  split
  · next is =>
    cases is
    cases digit
  · next is =>
    cases is
    cases digit
  · rw [magnitude, Option.map_map]
    rfl

theorem exists_unsigned_of_digit {d : Decimal} (reads : Decimal.ofText? (first :: text) = some d) :
    ∃ x, ofText? (String.ofList (first :: text)) = some x ∧ x.Unsigned := by
  refine ⟨_, ?_, unsigned_ofMagnitude (ofDecimal_le_infinity d)⟩
  rw [ofText?_of_digit digit, reads, Option.map_some]

end

section

variable {digits places : List Char} (nonempty : digits ≠ [])
  (each : ∀ c ∈ digits, c.isDigit = true)

include nonempty each

theorem exists_unsigned_digits : ∃ x, ofText? (String.ofList digits) = some x ∧ x.Unsigned := by
  have reads := Decimal.ofText?_digits each nonempty
  obtain ⟨first, others, rfl⟩ := List.exists_cons_of_ne_nil nonempty
  exact exists_unsigned_of_digit (each first List.mem_cons_self) reads

theorem exists_unsigned_point (each' : ∀ c ∈ places, c.isDigit = true) :
    ∃ x, ofText? (String.ofList (digits ++ '.' :: places)) = some x ∧ x.Unsigned := by
  have reads := Decimal.ofText?_point each nonempty each'
  obtain ⟨first, others, rfl⟩ := List.exists_cons_of_ne_nil nonempty
  exact exists_unsigned_of_digit (each first List.mem_cons_self) reads

end

end Binary64
end LinkedScopes
