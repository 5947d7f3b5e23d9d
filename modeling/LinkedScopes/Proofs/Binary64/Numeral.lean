import LinkedScopes.Binary64.Term

/-! What the written form of a number is made of: digits, letters, a point and a minus.
Nothing that ends a term or a line is among them. -/
namespace LinkedScopes.Binary64

def Numeral (c : Char) : Prop := c.isAlphanum = true ∨ c = '.' ∨ c = '-'

instance (c : Char) : Decidable (Numeral c) := inferInstanceAs (Decidable (_ ∨ _))

def Numerals (text : List Char) : Prop := ∀ c ∈ text, Numeral c

instance (text : List Char) : Decidable (Numerals text) := List.decidableBAll Numeral text

theorem Numerals.append {a b : List Char} (first : Numerals a) (second : Numerals b) :
    Numerals (a ++ b) :=
  List.forall_mem_append.mpr ⟨first, second⟩

theorem Numerals.of_subset {a b : List Char} (all : Numerals b) (part : a ⊆ b) : Numerals a :=
  fun c member => all c (part member)

theorem numerals_zeros (count : Nat) : Numerals (List.replicate count '0') := by
  intro c member
  rw [List.eq_of_mem_replicate member]
  decide

theorem numerals_digits (n : Nat) : Numerals (Nat.toDigits 10 n) := by
  intro c member
  have digit := Nat.isDigit_of_mem_toDigits (by decide) (by decide) member
  exact .inl (by simp [Char.isAlphanum, digit])

theorem numerals_int (n : Int) : Numerals (toString n).toList := by
  have natural (m : Nat) : Numerals m.repr.toList := by
    rw [Nat.repr_eq_ofList_toDigits, String.toList_ofList]
    exact numerals_digits m
  cases n with
  | ofNat m => exact natural m
  | negSucc m =>
    have negative : (toString (Int.negSucc m)).toList = ['-'] ++ m.succ.repr.toList :=
      String.toList_append
    rw [negative]
    exact .append (by decide) (natural m.succ)

variable {digits : List Char}

theorem numerals_positional (all : Numerals digits) (point : Int) :
    Numerals (positional digits point) := by
  unfold positional
  split
  · exact .append (.append (by decide) (numerals_zeros _)) all
  · refine .append (.append (.append ?_ (numerals_zeros _)) (by decide)) ?_
    · exact all.of_subset (List.take_subset _ _)
    · split
      · decide
      · exact all.of_subset (List.drop_subset _ _)

theorem numerals_scientific (all : Numerals digits) (power : Int) :
    Numerals (scientific digits power) := by
  have places := all.of_subset (List.drop_subset 1 digits)
  have ending : Numerals ('e' :: (toString power).toList) :=
    .append (a := ['e']) (by decide) (numerals_int power)
  refine .append (.append (all.of_subset (List.take_subset _ _)) ?_) ending
  split
  · decide
  · exact .append (a := ['.']) (by decide) places

theorem numerals_written (d : Decimal) : Numerals (written d) := by
  have digits : Numerals ((Nat.toDigits 10 d.digits).reverse.dropWhile (· = '0')).reverse := by
    intro c member
    have inside := (List.dropWhile_sublist _).subset (List.mem_reverse.mp member)
    exact numerals_digits d.digits c (List.mem_reverse.mp inside)
  unfold written
  dsimp only
  split
  · exact numerals_positional digits _
  · exact numerals_scientific digits _

theorem numerals_term (x : Binary64) : Numerals x.term.toList := by
  have unsigned : Numerals (if x.magnitude = infinity then "inf"
      else if x.magnitude = 0 then "0.0"
      else String.ofList (written (shortest x.magnitude))).toList := by
    split
    · decide
    · split
      · decide
      · rw [String.toList_ofList]
        exact numerals_written _
  unfold term
  dsimp only
  split
  · decide
  · split
    · rw [String.toList_append]
      exact .append (by decide) unsigned
    · exact unsigned

end LinkedScopes.Binary64
