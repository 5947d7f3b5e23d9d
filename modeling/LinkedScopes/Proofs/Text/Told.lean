import LinkedScopes.Text.Quoted
import LinkedScopes.Text.Term

/-! Texts that can be told apart. A term is read from the left and nothing marks its end,
so it is not enough that different values have different terms: what follows a term must
never be taken for a part of it. Both are said at once, for two texts at a time, and carry
over from the parts of a term to the whole. -/
namespace LinkedScopes.Text

/-- Whatever follows them, two texts that begin alike are of the same value, and what
follows is the same. -/
def Told (same : Prop) (a b : String) : Prop :=
  ∀ r s : List Char, a.toList ++ r = b.toList ++ s → same ∧ r = s

theorem Told.mono {P Q : Prop} {a b : String} (told : Told P a b) (weaker : P → Q) :
    Told Q a b :=
  fun r s equal => (told r s equal).imp_left weaker

theorem Told.symm {P : Prop} {a b : String} (told : Told P a b) : Told P b a :=
  fun r s equal => (told s r equal.symm).imp_right Eq.symm

theorem told_self (a : String) : Told True a a :=
  fun _ _ equal => ⟨trivial, List.append_cancel_left equal⟩

theorem Told.append {P Q : Prop} {a b c d : String} (first : Told P a b) (second : Told Q c d) :
    Told (P ∧ Q) (a ++ c) (b ++ d) := by
  intro r s equal
  rw [String.toList_append, String.toList_append, List.append_assoc, List.append_assoc] at equal
  obtain ⟨p, rest⟩ := first _ _ equal
  obtain ⟨q, same⟩ := second r s rest
  exact ⟨⟨p, q⟩, same⟩

theorem Told.after {P : Prop} {a b : String} (told : Told P a b) (lead : String) :
    Told P (lead ++ a) (lead ++ b) :=
  ((told_self lead).append told).mono And.right

theorem Told.before {P : Prop} {a b : String} (told : Told P a b) (tail : String) :
    Told P (a ++ tail) (b ++ tail) :=
  (told.append (told_self tail)).mono And.left

theorem told_of_head_ne {P : Prop} {a b : String} {c d : Char} (first : a.toList.head? = some c)
    (second : b.toList.head? = some d) (differ : c ≠ d) : Told P a b := by
  intro r s equal
  have heads := congrArg List.head? equal
  rw [List.head?_append, List.head?_append, first, second] at heads
  exact absurd (Option.some.inj heads) differ

/-- A row ends where something comes that it does not hold. -/
theorem append_stop_inj {α : Type} {stop : α} {x y r s : List α} (left : stop ∉ x)
    (right : stop ∉ y) (equal : x ++ stop :: r = y ++ stop :: s) : x = y ∧ r = s := by
  induction x generalizing y with
  | nil =>
    cases y with
    | nil => exact ⟨rfl, (List.cons.inj equal).2⟩
    | cons d y => exact absurd ((List.cons.inj equal).1 ▸ List.mem_cons_self) right
  | cons c x ih =>
    cases y with
    | nil => exact absurd ((List.cons.inj equal).1 ▸ List.mem_cons_self) left
    | cons d y =>
      obtain ⟨same, rest⟩ := List.cons.inj equal
      obtain ⟨rfl, follows⟩ := ih (fun member => left (List.mem_cons_of_mem c member))
        (fun member => right (List.mem_cons_of_mem d member)) rest
      exact ⟨same ▸ rfl, follows⟩

theorem told_closed {stop : Char} {a b : String} (left : stop ∉ a.toList)
    (right : stop ∉ b.toList) :
    Told (a = b) (a ++ String.singleton stop) (b ++ String.singleton stop) := by
  intro r s equal
  simp only [String.toList_append, String.toList_singleton, List.append_assoc,
    List.singleton_append] at equal
  exact (append_stop_inj left right equal).imp_left String.toList_inj.mp

def Flat (a : String) : Prop := '\n' ∉ a.toList

instance (a : String) : Decidable (Flat a) := inferInstanceAs (Decidable ('\n' ∉ a.toList))

theorem Flat.append {a b : String} (first : Flat a) (second : Flat b) : Flat (a ++ b) := by
  rw [Flat, String.toList_append, List.mem_append]
  exact not_or.mpr ⟨first, second⟩

theorem Told.applied {P : Prop} {a b : String} (told : Told P a b) (name : String) :
    Told P (applied name [a]) (applied name [b]) :=
  (told.after (name ++ "(")).before ")"

theorem told_applied {a b : String} (left : ')' ∉ a.toList) (right : ')' ∉ b.toList)
    (name : String) : Told (a = b) (applied name [a]) (applied name [b]) := by
  have grouped (x : String) : applied name [x] = name ++ "(" ++ (x ++ ")") := String.append_assoc
  rw [grouped, grouped]
  exact (told_closed left right).after (name ++ "(")

theorem Flat.applied {a : String} (flat : Flat a) (name : String) (named : Flat name) :
    Flat (applied name [a]) :=
  ((named.append (by decide)).append flat).append (by decide)

def fieldRow (fields : List (String × String)) : String :=
  ", ".intercalate (fields.map fun field => field.1 ++ ": " ++ field.2)

theorem fieldRow_cons (label a : String) (next : String × String)
    (rest : List (String × String)) :
    fieldRow ((label, a) :: next :: rest) =
      label ++ ": " ++ a ++ ", " ++ fieldRow (next :: rest) :=
  String.intercalate_cons_cons

theorem Told.labelled {P : Prop} {fields others : List (String × String)}
    (told : Told P (fieldRow fields) (fieldRow others)) (name : String) :
    Told P (labelled name fields) (labelled name others) :=
  (told.after (name ++ " \x7b ")).before " \x7d"

theorem Told.field {P : Prop} {a b : String} (told : Told P a b) (label : String) :
    Told P (fieldRow [(label, a)]) (fieldRow [(label, b)]) :=
  told.after (label ++ ": ")

theorem Told.fields {P Q : Prop} {a b : String} {next next' : String × String}
    {rest rest' : List (String × String)} (told : Told P a b) (label : String)
    (others : Told Q (fieldRow (next :: rest)) (fieldRow (next' :: rest'))) :
    Told (P ∧ Q) (fieldRow ((label, a) :: next :: rest))
      (fieldRow ((label, b) :: next' :: rest')) := by
  rw [fieldRow_cons, fieldRow_cons]
  exact ((told.after (label ++ ": ")).before ", ").append others

theorem Flat.labelled {fields : List (String × String)} (flat : Flat (fieldRow fields))
    (name : String) (named : Flat name) : Flat (labelled name fields) :=
  ((named.append (by decide)).append flat).append (by decide)

theorem Flat.field {a : String} (flat : Flat a) (label : String) (named : Flat label) :
    Flat (fieldRow [(label, a)]) :=
  (named.append (by decide)).append flat

theorem Flat.fields {a : String} {next : String × String} {rest : List (String × String)}
    (flat : Flat a) (label : String) (named : Flat label)
    (others : Flat (fieldRow (next :: rest))) :
    Flat (fieldRow ((label, a) :: next :: rest)) := by
  rw [fieldRow_cons]
  exact (((named.append (by decide)).append flat).append (by decide)).append others

end LinkedScopes.Text
