import LinkedScopes.Text.Blank
import LinkedScopes.Token.Basic

/-! The shapes of lexemes, said without a word on how they are found: words, numbers, blanks,
comments and eleven signs. The lexeme at the front of a text is the longest that stands there,
whichever shape it has. -/
namespace LinkedScopes

open Text

def Letter (c : Char) : Prop := 'A' ≤ c ∧ c ≤ 'Z' ∨ 'a' ≤ c ∧ c ≤ 'z' ∨ c = '_' ∨ c = '$'

def Digit (c : Char) : Prop := '0' ≤ c ∧ c ≤ '9'

instance : DecidablePred Letter := fun _ => inferInstanceAs (Decidable (_ ∨ _))

instance : DecidablePred Digit := fun _ => inferInstanceAs (Decidable (_ ∧ _))

def keywords : List String := ["if", "while", "print", "sqrt", "sin", "cos", "ln"]

/-- The characters that are lexemes by themselves, with the kind of token each makes. -/
def signs : List (Char × Kind) :=
  [('\x7b', .openCurly), ('\x7d', .closeCurly), ('(', .openParen), (')', .closeParen),
   (';', .semicolon), ('=', .operator .assign), ('+', .operator .add), ('-', .operator .sub),
   ('*', .operator .mul), ('/', .operator .div), ('^', .operator .pow)]

/-- The lexemes, and the kind of token each makes. Blanks and comments make none. -/
inductive Shape : List Char → Option Kind → Prop
  | word {first : Char} {others : List Char} (starts : Letter first)
      (continues : ∀ c ∈ others, Letter c ∨ Digit c) :
    Shape (first :: others)
      (some (if String.ofList (first :: others) ∈ keywords then .keyword else .identifier))
  | whole {digits : List Char} (nonempty : digits ≠ []) (each : ∀ c ∈ digits, Digit c) :
    Shape digits (some .number)
  | decimal {digits places : List Char} (nonempty : digits ≠ []) (each : ∀ c ∈ digits, Digit c)
      (nonempty' : places ≠ []) (each' : ∀ c ∈ places, Digit c) :
    Shape (digits ++ '.' :: places) (some .number)
  | blanks {text : List Char} (nonempty : text ≠ []) (each : ∀ c ∈ text, isBlank c) :
    Shape text none
  | comment {line : List Char} (within : '\n' ∉ line) : Shape ('/' :: '/' :: line) none
  | sign {c : Char} {kind : Kind} (member : (c, kind) ∈ signs) : Shape [c] (some kind)

/-- The lexeme in front of the rest of a text is the longest of any shape. -/
structure Munch (lexeme rest : List Char) (kind? : Option Kind) : Prop where
  shape : Shape lexeme kind?
  longest : ∀ other other?, other <+: lexeme ++ rest → Shape other other? →
    other.length ≤ lexeme.length

def Stuck (text : List Char) : Prop := ∀ lexeme kind?, lexeme <+: text → ¬ Shape lexeme kind?

theorem Shape.ne_nil {lexeme : List Char} {kind? : Option Kind} (shape : Shape lexeme kind?) :
    lexeme ≠ [] := by
  cases shape with
  | whole nonempty | blanks nonempty => exact nonempty
  | decimal nonempty => simp
  | word | comment | sign => exact List.cons_ne_nil _ _

/-! No two of the classes of characters meet. -/

section

variable {c : Char} {kind : Kind}

theorem letter_iff : Letter c ↔
    65 ≤ c.toNat ∧ c.toNat ≤ 90 ∨ 97 ≤ c.toNat ∧ c.toNat ≤ 122 ∨ c.toNat = 95 ∨ c.toNat = 36 := by
  have same (d : Char) : c = d ↔ c.toNat = d.toNat := Char.toNat_inj.symm
  simp [Letter, Char.le_def, UInt32.le_iff_toNat_le, same]

theorem digit_iff : Digit c ↔ 48 ≤ c.toNat ∧ c.toNat ≤ 57 := by
  simp [Digit, Char.le_def, UInt32.le_iff_toNat_le]

theorem Letter.not_digit (letter : Letter c) : ¬ Digit c := by
  rw [letter_iff] at letter
  rw [digit_iff]
  omega

theorem Letter.not_blank (letter : Letter c) : isBlank c = false := by
  rw [letter_iff] at letter
  simp [isBlank, Runs.has, blankRuns]
  omega

theorem Digit.not_blank (digit : Digit c) : isBlank c = false := by
  rw [digit_iff] at digit
  simp [isBlank, Runs.has, blankRuns]
  omega

theorem not_blank_of_sign (member : (c, kind) ∈ signs) : isBlank c = false := by
  have all : ∀ sign ∈ signs, isBlank sign.1 = false := by decide
  exact all _ member

theorem not_blank_point : isBlank '.' = false := by decide

theorem not_blank_slash : isBlank '/' = false := by decide

end

namespace Shape

variable {c : Char} {text : List Char} {kind : Kind} {kind? : Option Kind}

/-- No lexeme that makes a token has a blank in it. -/
theorem not_blank (shape : Shape text (some kind)) : ∀ c ∈ text, isBlank c = false := by
  cases shape with
  | word starts continues =>
    intro c member
    rcases List.mem_cons.mp member with rfl | later
    · exact starts.not_blank
    · rcases continues c later with letter | digit
      · exact letter.not_blank
      · exact digit.not_blank
  | whole nonempty each => exact fun c member => (each c member).not_blank
  | decimal nonempty each nonempty' each' =>
    intro c member
    rcases List.mem_append.mp member with early | late
    · exact (each c early).not_blank
    · rcases List.mem_cons.mp late with rfl | later
      · exact not_blank_point
      · exact (each' c later).not_blank
  | sign listed =>
    intro c member
    rw [List.mem_singleton.mp member]
    exact not_blank_of_sign listed

theorem blank_of_head (shape : Shape text kind?) (head : c ∈ text.head?)
    (blank : isBlank c = true) : ∀ d ∈ text, isBlank d = true := by
  cases kind? with
  | some kind =>
    have other := shape.not_blank c (List.mem_of_mem_head? head)
    rw [blank] at other
    cases other
  | none =>
    cases shape with
    | blanks nonempty each => exact each
    | comment within =>
      obtain rfl := Option.some.inj head
      rw [not_blank_slash] at blank
      cases blank

theorem of_slash (shape : Shape text kind?) (head : '/' ∈ text.head?) :
    (kind? = none ∧ ∃ line, text = '/' :: '/' :: line ∧ '\n' ∉ line) ∨ text = ['/'] := by
  cases shape with
  | word letter continues =>
    obtain rfl := Option.some.inj head
    exact absurd letter (by decide)
  | whole nonempty each =>
    have digit := each _ (List.mem_of_mem_head? head)
    exact absurd digit (by decide)
  | decimal nonempty each nonempty' each' =>
    obtain ⟨d, others, rfl⟩ := List.exists_cons_of_ne_nil nonempty
    obtain rfl := Option.some.inj head
    exact absurd (each _ List.mem_cons_self) (by decide)
  | blanks nonempty each =>
    have blank := each _ (List.mem_of_mem_head? head)
    rw [not_blank_slash] at blank
    cases blank
  | comment within => exact .inl ⟨rfl, _, rfl, within⟩
  | sign listed =>
    obtain rfl := Option.some.inj head
    exact .inr rfl

end Shape

end LinkedScopes
