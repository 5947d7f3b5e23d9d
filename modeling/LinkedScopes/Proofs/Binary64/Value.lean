import LinkedScopes.Binary64.Basic
import Mathlib.Algebra.Order.Field.Power
import Mathlib.Algebra.Order.Ring.Rat
import Mathlib.Order.Monotone.Basic
import Mathlib.Tactic.Linarith

/-! The numbers that patterns of bits stand for. A magnitude and the next one never stand for the
same, so two patterns stand for one number only if they are one, or the two of zero. -/
namespace LinkedScopes.Binary64

inductive Value where
  | finite (value : ℚ)
  | infinite (negative : Bool)
deriving DecidableEq

def size (magnitude : Nat) : ℚ := (parts magnitude).1 * 2 ^ (parts magnitude).2

/-- What a sign and a magnitude stand for, if they make up a number. -/
def value (negative : Bool) (magnitude : Nat) : Value :=
  if magnitude = infinity then .infinite negative
  else .finite (if negative then -size magnitude else size magnitude)

def value? (x : Binary64) : Option Value :=
  if x.isNaN then none else some (value x.isNegative x.magnitude)

/-- Numbers of one value. What is no number has no value to share, not even with itself. -/
def Equal (x y : Binary64) : Prop := ∃ v, x.value? = some v ∧ y.value? = some v

/-- The next magnitude has a greater integer in the same place, or the integer carries into the
next place. -/
theorem parts_succ (magnitude : Nat) :
    ((parts magnitude).1 < (parts (magnitude + 1)).1 ∧
      (parts (magnitude + 1)).2 = (parts magnitude).2) ∨
    ((parts magnitude).1 < 2 * (parts (magnitude + 1)).1 ∧
      (parts (magnitude + 1)).2 = (parts magnitude).2 + 1) := by
  simp only [parts, unitBit]
  omega

theorem size_lt_succ (magnitude : Nat) : size magnitude < size (magnitude + 1) := by
  have place : (0 : ℚ) < 2 ^ (parts magnitude).2 := zpow_pos two_pos _
  rcases parts_succ magnitude with ⟨greater, same⟩ | ⟨greater, next⟩
  · rw [size, size, same]
    exact mul_lt_mul_of_pos_right (Nat.cast_lt.mpr greater) place
  · have carried : ((parts magnitude).1 : ℚ) < 2 * (parts (magnitude + 1)).1 := by
      exact_mod_cast greater
    rw [size, size, next, zpow_add_one₀ two_ne_zero, ← mul_assoc, mul_right_comm, mul_comm _ 2]
    exact mul_lt_mul_of_pos_right carried place

theorem size_strictMono : StrictMono size := strictMono_nat_of_lt_succ size_lt_succ

theorem size_zero : size 0 = 0 := by simp [size, parts]

theorem size_nonneg (magnitude : Nat) : 0 ≤ size magnitude :=
  size_zero ▸ size_strictMono.monotone (Nat.zero_le magnitude)

theorem size_eq_zero {magnitude : Nat} (nothing : size magnitude = 0) : magnitude = 0 :=
  size_strictMono.injective (nothing.trans size_zero.symm)

theorem value_zero (negative : Bool) : value negative 0 = .finite 0 := by
  rw [value, if_neg (by decide), size_zero, neg_zero, ite_self]

theorem signed_size_inj {a b : Bool} {m n : Nat}
    (same : (if a then -size m else size m) = if b then -size n else size n) :
    m = n ∧ (a = b ∨ m = 0) := by
  by_cases signs : a = b
  · subst signs
    have sizes : size m = size n := by cases a <;> simpa using same
    exact ⟨size_strictMono.injective sizes, .inl rfl⟩
  · have positive := size_nonneg m
    have positive' := size_nonneg n
    have nothing : size m = 0 ∧ size n = 0 := by
      cases a <;> cases b <;> simp at same signs <;> constructor <;> linarith
    have zero := size_eq_zero nothing.1
    exact ⟨zero.trans (size_eq_zero nothing.2).symm, .inr zero⟩

/-- A value has one magnitude, and one sign unless it is zero. -/
theorem value_inj {a b : Bool} {m n : Nat} (same : value a m = value b n) :
    m = n ∧ (a = b ∨ m = 0) := by
  by_cases infinite : m = infinity <;> by_cases infinite' : n = infinity
  · rw [value, value, if_pos infinite, if_pos infinite'] at same
    exact ⟨infinite.trans infinite'.symm, .inl (Value.infinite.inj same)⟩
  · rw [value, value, if_pos infinite, if_neg infinite'] at same
    cases same
  · rw [value, value, if_neg infinite, if_pos infinite'] at same
    cases same
  · rw [value, value, if_neg infinite, if_neg infinite'] at same
    exact signed_size_inj (Value.finite.inj same)

theorem ext_magnitude {x y : Binary64} (magnitude : x.magnitude = y.magnitude)
    (sign : x.isNegative = y.isNegative) : x = y := by
  obtain ⟨a⟩ := x
  obtain ⟨b⟩ := y
  have below := a.toNat_lt
  have below' := b.toNat_lt
  replace sign := decide_eq_decide.mp sign
  simp only [Binary64.magnitude, signBit] at magnitude sign
  exact congrArg mk (UInt64.toNat_inj.mp (by omega))

theorem value_eq_iff (x y : Binary64) :
    value x.isNegative x.magnitude = value y.isNegative y.magnitude ↔
      x = y ∨ (x.magnitude = 0 ∧ y.magnitude = 0) := by
  constructor
  · intro same
    obtain ⟨magnitude, sign | zero⟩ := value_inj same
    · exact .inl (ext_magnitude magnitude sign)
    · exact .inr ⟨zero, magnitude ▸ zero⟩
  · rintro (rfl | ⟨zero, zero'⟩)
    · rfl
    · rw [zero, zero', value_zero, value_zero]

/-- Neighbours differ: the greatest finite number, and infinity. -/
example : value? ⟨0x7fefffffffffffff⟩ = some (.finite ((2 ^ 53 - 1) * 2 ^ 971)) ∧
    value? ⟨0x7ff0000000000000⟩ = some (.infinite false) := by decide +kernel

/-- Numbers are compared by what they stand for. -/
theorem same_iff_equal (x y : Binary64) : x.same y = true ↔ x.Equal y := by
  have values : x.Equal y ↔ x.isNaN = false ∧ y.isNaN = false ∧
      value x.isNegative x.magnitude = value y.isNegative y.magnitude := by
    cases none : x.isNaN <;> cases none' : y.isNaN <;> simp [Equal, value?, none, none', eq_comm]
  rw [values, value_eq_iff]
  simp [same, and_assoc]

/-- Both zeros are one number. -/
example : same ⟨0⟩ ⟨0x8000000000000000⟩ = true := by decide

namespace Equal

variable {x y z : Binary64}

theorem symm : x.Equal y → y.Equal x := fun ⟨v, first, second⟩ => ⟨v, second, first⟩

theorem trans : x.Equal y → y.Equal z → x.Equal z := by
  rintro ⟨v, first, second⟩ ⟨w, second', third⟩
  obtain rfl := Option.some.inj (second.symm.trans second')
  exact ⟨v, first, third⟩

end Equal

theorem equal_self_iff (x : Binary64) : x.Equal x ↔ x.isNaN = false := by
  rw [← same_iff_equal]
  simp [same]

end LinkedScopes.Binary64
