import LinkedScopes.Proofs.Grammar.Phrase
import LinkedScopes.Proofs.Grammar.Reading

/-! Prefixes of phrases. Lexemes open a category if a phrase of it starts with them. What opens a
category opens every phrase around it too, behind what of that phrase comes before; so a rule that
stops inside a phrase leaves the prefix of a program, whatever is around it.

There is one way in which a rule passes more than that. Where a command starts, any keyword is read
as a reference, and refused only then if it is not the word of a conditional. -/
namespace LinkedScopes

/-- A phrase whose numbers can be read starts with these lexemes. -/
def Category.Opens (c : Category) (passed : List Lexeme) : Prop :=
  ∃ p : Phrase c, (∀ lexeme ∈ p.lexemes, lexeme.Readable) ∧ passed <+: p.lexemes

/-- Among these lexemes is a keyword of an operation where a conditional could start. -/
def Category.Strays (c : Category) (passed : List Lexeme) : Prop :=
  ∃ before word after, passed = before ++ ⟨.keyword, word⟩ :: after ∧
    isConditionalWord word = false ∧ c.Opens (before ++ [⟨.keyword, "if"⟩, .bare .openParen])

/-- What a rule of a category has passed when it stops between two places: the start of
a phrase, or a keyword that starts no command and what comes after it. -/
def Category.Broken (c : Category) (input : Input) (s t : Place) : Prop :=
  ∃ passed, Reading input s t passed 0 ∧ (c.Opens passed ∨ c.Strays passed)

namespace Phrase

def filler : Phrase .expression :=
  .expression (.joined (.product (.joined (.power (.joined (.primary (.var "x")) .none)) .none))
    .none)

end Phrase

namespace Category

variable {c d : Category} {front passed rest : List Lexeme}

section

variable (around : Phrase d → Phrase c)
  (spells : ∀ p, (around p).lexemes = front ++ (p.lexemes ++ rest))
  (before : ∀ lexeme ∈ front, lexeme.Readable) (after : ∀ lexeme ∈ rest, lexeme.Readable)

include spells before after

theorem Opens.within (opens : d.Opens passed) : c.Opens (front ++ passed) := by
  obtain ⟨p, readable, starts⟩ := opens
  refine ⟨around p, ?_, ?_⟩
  · rw [spells]
    exact List.forall_mem_append.mpr ⟨before, List.forall_mem_append.mpr ⟨readable, after⟩⟩
  · rw [spells]
    exact (List.prefix_append_right_inj front).mpr (starts.trans (List.prefix_append _ _))

theorem Strays.within (strays : d.Strays passed) : c.Strays (front ++ passed) := by
  obtain ⟨earlier, word, later, rfl, operation, opens⟩ := strays
  refine ⟨front ++ earlier, word, later, (List.append_assoc ..).symm, operation, ?_⟩
  rw [List.append_assoc]
  exact opens.within around spells before after

end

variable {input : Input} {s t u : Place} {n : Nat}

/-- A rule stops in the middle of a phrase of its own, of which the rest is missing. -/
theorem Broken.here (reading : Reading input s t front n) (p : Phrase c) (rest : List Lexeme)
    (spells : p.lexemes = front ++ rest) (after : ∀ lexeme ∈ rest, lexeme.Readable) :
    c.Broken input s t := by
  refine ⟨front, reading.mono (Nat.zero_le n), .inl ⟨p, ?_, ?_⟩⟩
  · rw [spells]
    exact List.forall_mem_append.mpr ⟨reading.readable, after⟩
  · rw [spells]
    exact List.prefix_append front rest

theorem Broken.behind {p : Phrase c} (reading : Reading input s t p.lexemes n) :
    c.Broken input s t :=
  .here reading p [] (List.append_nil _).symm (List.forall_mem_nil _)

theorem Broken.within (broken : d.Broken input u t) (reading : Reading input s u front n)
    (around : Phrase d → Phrase c) (rest : List Lexeme)
    (spells : ∀ p, (around p).lexemes = front ++ (p.lexemes ++ rest))
    (after : ∀ lexeme ∈ rest, lexeme.Readable) : c.Broken input s t := by
  obtain ⟨passed, inner, breaks⟩ := broken
  have before := reading.readable
  refine ⟨front ++ passed, (reading.append inner).mono (Nat.zero_le _), ?_⟩
  exact breaks.imp (Opens.within around spells before after)
    (Strays.within around spells before after)

theorem Broken.last (broken : d.Broken input u t) (reading : Reading input s u front n)
    (around : Phrase d → Phrase c) (spells : ∀ p, (around p).lexemes = front ++ p.lexemes) :
    c.Broken input s t := by
  refine broken.within reading around [] ?_ (List.forall_mem_nil _)
  intro p
  rw [List.append_nil, spells]

theorem Broken.wrap (broken : d.Broken input s t) (around : Phrase d → Phrase c)
    (spells : ∀ p, (around p).lexemes = p.lexemes) : c.Broken input s t :=
  broken.last .nil around spells

theorem Broken.cursor_le (broken : c.Broken input s t) : s.cursor ≤ t.cursor := by
  obtain ⟨passed, reading, -⟩ := broken
  rw [reading.cursor]
  exact Nat.le_add_right _ _

/-- A rule that is to read a conditional stops after a keyword of an operation. -/
theorem Broken.strayed {cursor depth : Nat}
    (reading : Reading input ⟨cursor, depth⟩ t passed n) (moved : cursor < t.cursor)
    (word : (input.token cursor).kind = .keyword)
    (operation : isConditionalWord (input.token cursor).text = false) :
    Category.conditional.Broken input ⟨cursor, depth⟩ t := by
  refine ⟨passed, reading.mono (Nat.zero_le n), .inr ?_⟩
  cases passed with
  | nil =>
    rw [reading.eq_of_nil] at moved
    exact absurd moved (Nat.lt_irrefl _)
  | cons first after =>
    have is : (input.token cursor).lexeme = first := reading.of_cons.1
    rw [Token.lexeme_eq_spelled word rfl] at is
    refine ⟨[], _, after, by rw [← is]; rfl, operation, ?_⟩
    exact ⟨.conditional "if" rfl .filler (.single (.copy "x" "x")), by decide, by decide⟩

end Category

end LinkedScopes
