/-! Texts measured in bytes of UTF-8. Offsets count bytes while texts are lists of
characters, so an offset names a place in a text only if it is the width of one of
its prefixes. -/
namespace LinkedScopes.Text

/-- Bytes of UTF-8 that a text takes. -/
def width (text : List Char) : Nat :=
  text.foldr (fun c bytes => c.utf8Size + bytes) 0

@[simp] theorem width_nil : width [] = 0 := rfl

@[simp] theorem width_cons (c : Char) (text : List Char) :
    width (c :: text) = c.utf8Size + width text := rfl

@[simp] theorem width_append (a b : List Char) : width (a ++ b) = width a + width b := by
  induction a with
  | nil => simp
  | cons c a ih => simp [ih, Nat.add_assoc]

theorem width_le_append (before piece : List Char) : width before ≤ width (before ++ piece) := by
  rw [width_append]
  exact Nat.le_add_right _ _

theorem width_lt_append (before : List Char) {piece : List Char} (nonempty : piece ≠ []) :
    width before < width (before ++ piece) := by
  obtain ⟨c, others, rfl⟩ := List.exists_cons_of_ne_nil nonempty
  have some := c.utf8Size_pos
  rw [width_append, width_cons]
  omega

theorem width_ofList (text : List Char) : width text = (String.ofList text).utf8ByteSize := by
  induction text with
  | nil => simp
  | cons c text ih =>
    have split : String.ofList (c :: text) = String.ofList [c] ++ String.ofList text := by
      rw [← String.ofList_append]; rfl
    have one : (String.ofList [c]).utf8ByteSize = c.utf8Size := by
      rw [← String.singleton_eq_ofList, String.utf8ByteSize_singleton]
    rw [width_cons, ih, split, String.utf8ByteSize_append, one]

/-- The text after the given number of bytes; nothing when the count ends inside a
character or past the end. -/
def afterBytes? : Nat → List Char → Option (List Char)
  | 0, text => some text
  | _ + 1, [] => none
  | n + 1, c :: text => if c.utf8Size ≤ n + 1 then afterBytes? (n + 1 - c.utf8Size) text else none

/-- Widths of prefixes are exactly the places from which a text can be read on. -/
theorem afterBytes?_width (a b : List Char) : afterBytes? (width a) (a ++ b) = some b := by
  induction a with
  | nil => simp [afterBytes?]
  | cons c a ih =>
    have positive := Char.utf8Size_pos c
    obtain ⟨n, hn⟩ : ∃ n, width (c :: a) = n + 1 := ⟨width (c :: a) - 1, by simp; omega⟩
    have fits : c.utf8Size ≤ n + 1 := by rw [← hn]; simp
    have rest : n + 1 - c.utf8Size = width a := by rw [← hn]; simp
    rw [hn, List.cons_append, afterBytes?, if_pos fits, rest, ih]

end LinkedScopes.Text
