import LinkedScopes.Proofs.Scan.Run

/-! What munching passes between tokens: blanks, and comments up to the end of their line. Where
one gap is cut into lexemes plays no part, since blanks on both sides of a cut are one lexeme. -/
namespace LinkedScopes

open Text

def EndsLine (rest : List Char) : Prop := ∀ c ∈ rest.head?, c = '\n'

/-- A gap in front of the rest of a text: blanks and comments, each comment up to the end of its
line or of the text. -/
inductive Gap : List Char → List Char → Prop
  | empty {rest : List Char} : Gap [] rest
  | blank {c : Char} {gap rest : List Char} (blank : isBlank c = true) (more : Gap gap rest) :
    Gap (c :: gap) rest
  | comment {line gap rest : List Char} (within : '\n' ∉ line) (ends : EndsLine (gap ++ rest))
      (more : Gap gap rest) : Gap ('/' :: '/' :: (line ++ gap)) rest

/-! A lexeme is the longest where what follows cannot belong to it. -/

/-- What starts a text and has only characters of a class ends no later than a piece that no
character of the class follows. -/
theorem length_le_of_class (Class : Char → Prop) {other more text rest : List Char}
    (parts : other ++ more = text ++ rest) (each : ∀ c ∈ other, Class c)
    (ends : ∀ c ∈ rest.head?, ¬ Class c) : other.length ≤ text.length := by
  rcases List.append_eq_append_iff.mp parts with ⟨left, rfl, -⟩ | ⟨beyond, rfl, rfl⟩
  · rw [List.length_append]
    exact Nat.le_add_right _ _
  · cases beyond with
    | nil => rw [List.append_nil]
    | cons c beyond => exact absurd (each c (by simp)) (ends c rfl)

namespace Munch

variable {text rest : List Char} {kind : Kind}

theorem blanks (nonempty : text ≠ []) (each : ∀ c ∈ text, isBlank c = true)
    (ends : ∀ c ∈ rest.head?, ¬ isBlank c = true) : Munch text rest none where
  shape := .blanks nonempty each
  longest := by
    rintro other other? ⟨more, parts⟩ shape
    obtain ⟨c, others, rfl⟩ := List.exists_cons_of_ne_nil shape.ne_nil
    obtain ⟨d, text, rfl⟩ := List.exists_cons_of_ne_nil nonempty
    obtain ⟨rfl, -⟩ := List.cons.inj parts
    have all := shape.blank_of_head rfl (each c List.mem_cons_self)
    exact length_le_of_class (isBlank · = true) parts all ends

theorem comment {line : List Char} (within : '\n' ∉ line) (ends : EndsLine rest) :
    Munch ('/' :: '/' :: line) rest none where
  shape := .comment within
  longest := by
    rintro other other? ⟨more, parts⟩ shape
    obtain ⟨c, others, rfl⟩ := List.exists_cons_of_ne_nil shape.ne_nil
    obtain ⟨rfl, -⟩ := List.cons.inj parts
    rcases shape.of_slash rfl with ⟨-, line', same, within'⟩ | single
    · rw [same] at parts ⊢
      apply length_le_of_class (· ≠ '\n') parts
      · rintro c member rfl
        simp [within'] at member
      · intro c head other
        exact other (ends c head)
    · rw [single]
      exact Nat.succ_le_succ (Nat.zero_le _)

/-- A lexeme that makes a token ends in front of a blank. A slash before it starts no comment. -/
theorem of_blank (shape : Shape text (some kind)) (ends : ∀ c ∈ rest.head?, isBlank c = true) :
    Munch text rest (some kind) where
  shape := shape
  longest := by
    rintro other other? ⟨more, parts⟩ shape'
    cases other? with
    | some kind' =>
      apply length_le_of_class (isBlank · = false) parts shape'.not_blank
      intro c head other
      rw [ends c head] at other
      cases other
    -- Blanks or a comment could reach over the blank, but neither starts as the lexeme does: a
    -- comment has a slash where the blank is.
    | none =>
      obtain ⟨c, others, rfl⟩ := List.exists_cons_of_ne_nil shape.ne_nil
      have first := shape.not_blank c List.mem_cons_self
      cases shape' with
      | blanks nonempty each =>
        obtain ⟨d, blanks, rfl⟩ := List.exists_cons_of_ne_nil nonempty
        obtain ⟨rfl, -⟩ := List.cons.inj parts
        rw [each d List.mem_cons_self] at first
        cases first
      | comment within =>
        obtain ⟨rfl, after⟩ := List.cons.inj parts
        rcases shape.of_slash rfl with ⟨none, -⟩ | single
        · cases none
        · obtain ⟨-, rfl⟩ := List.cons.inj single
          obtain rfl : '/' :: _ = rest := after
          have slash := ends '/' rfl
          rw [not_blank_slash] at slash
          cases slash

theorem not_longer {c : Char} {kind? other? : Option Kind} (munch : Munch text (c :: rest) kind?) :
    ¬ Shape (text ++ [c]) other? := by
  intro shape
  have long := munch.longest _ _ ⟨rest, by simp⟩ shape
  rw [List.length_append, List.length_singleton] at long
  exact Nat.not_succ_le_self _ long

theorem ends_blanks (munch : Munch text rest none) (each : ∀ c ∈ text, isBlank c = true) :
    ∀ c ∈ rest.head?, ¬ isBlank c = true := by
  intro c head blank
  obtain ⟨more, rfl⟩ := List.head?_eq_some_iff.mp head
  apply munch.not_longer (.blanks (by simp) _)
  intro d member
  rcases List.mem_append.mp member with early | last
  · exact each d early
  · rw [List.mem_singleton.mp last]
    exact blank

theorem ends_line {line : List Char} (munch : Munch ('/' :: '/' :: line) rest none)
    (within : '\n' ∉ line) : EndsLine rest := by
  intro c head
  obtain ⟨more, rfl⟩ := List.head?_eq_some_iff.mp head
  apply Decidable.byContradiction
  intro other
  apply munch.not_longer (.comment _)
  intro member
  rcases List.mem_append.mp member with early | last
  · exact within early
  · exact other (List.mem_singleton.mp last).symm

end Munch

/-! Munching passes a gap. -/

section

variable {file : String} {offset : Nat} {outcome : Except Stop (List Token)}

/-- A blank belongs to the blanks behind it, if there are any. -/
theorem Munches.blank {c : Char} {text : List Char} (blank : isBlank c = true)
    (later : Munches file (offset + c.utf8Size) text outcome) :
    Munches file offset (c :: text) outcome := by
  by_cases ends : ∀ d ∈ text.head?, ¬ isBlank d = true
  · -- No blank follows, so this one is a lexeme.
    have munch : Munch [c] text none := .blanks (List.cons_ne_nil c []) (by simpa using blank) ends
    exact .passed munch later
  · -- A blank follows, so munching goes on there with a lexeme of blanks.
    obtain ⟨d, head, blank'⟩ : ∃ d ∈ text.head?, isBlank d = true := by simpa using ends
    cases later with
    | ended => cases head
    | @passed _ lexeme rest _ munch later =>
      obtain ⟨e, others, rfl⟩ := List.exists_cons_of_ne_nil munch.shape.ne_nil
      obtain rfl := Option.some.inj head
      have each := munch.shape.blank_of_head rfl blank'
      have whole : Munch (c :: e :: others) rest none := by
        apply Munch.blanks (List.cons_ne_nil _ _) _ (munch.ends_blanks each)
        exact List.forall_mem_cons.mpr ⟨blank, each⟩
      rw [Nat.add_assoc, ← width_cons] at later
      exact .passed whole later
    | @made _ lexeme rest kind _ munch later =>
      obtain ⟨e, others, rfl⟩ := List.exists_cons_of_ne_nil munch.shape.ne_nil
      obtain rfl := Option.some.inj head
      rw [munch.shape.not_blank e List.mem_cons_self] at blank'
      cases blank'
    | @stuck _ e rest stuck =>
      obtain rfl := Option.some.inj head
      have shape : Shape [e] none := .blanks (List.cons_ne_nil e []) (by simpa using blank')
      exact absurd shape (stuck [e] none ⟨rest, rfl⟩)

theorem Gap.munches {gap rest : List Char} (passed : Gap gap rest)
    (later : Munches file (offset + width gap) rest outcome) :
    Munches file offset (gap ++ rest) outcome := by
  induction passed generalizing offset with
  | empty => exact later
  | blank blank more ih =>
    rw [width_cons, ← Nat.add_assoc] at later
    exact .blank blank (ih later)
  | @comment line gap rest within ends more ih =>
    have parts : '/' :: '/' :: (line ++ gap) = '/' :: '/' :: line ++ gap := rfl
    rw [parts, width_append, ← Nat.add_assoc] at later
    rw [parts, List.append_assoc]
    exact .passed (.comment within ends) (ih later)

end

theorem Gap.blanks {text gap rest : List Char} (each : ∀ c ∈ text, isBlank c = true)
    (more : Gap gap rest) : Gap (text ++ gap) rest := by
  induction text with
  | nil => exact more
  | cons c text ih =>
    obtain ⟨blank, each⟩ := List.forall_mem_cons.mp each
    exact .blank blank (ih each)

theorem Gap.of_munch {lexeme gap rest : List Char} (munch : Munch lexeme (gap ++ rest) none)
    (more : Gap gap rest) : Gap (lexeme ++ gap) rest := by
  cases munch.shape with
  | blanks nonempty each => exact .blanks each more
  | comment within => exact .comment within (munch.ends_line within) more

end LinkedScopes
