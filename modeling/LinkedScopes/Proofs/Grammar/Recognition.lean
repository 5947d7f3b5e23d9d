import LinkedScopes.Proofs.Grammar.Completeness
import LinkedScopes.Proofs.Grammar.Soundness
import LinkedScopes.Proofs.Grammar.Uniqueness

/-! The reader recognizes the grammar. With room for every token to nest, it accepts what
derives from a program and nothing else, and what it returns is what the one derivation
stands for. -/
namespace LinkedScopes

/-- Lexemes of a phrase that no level of nesting accounts for. -/
def Category.spare : Category → Nat
  | .primary | .operand _ | .level _ | .one (.join _) => 1
  | _ => 0

namespace Phrase

/-- Each level of nesting takes a lexeme. -/
theorem nesting_add_spare_le {c : Category} (p : Phrase c) :
    p.nesting + c.spare ≤ p.lexemes.length := by
  induction p with
  | number | var | head | none => simp [lexemes, nesting, Category.spare]
  | call _ _ _ ih | group _ ih | join _ _ _ ih | assignment _ _ ih | assigned _ ih =>
    simp only [lexemes, nesting, Category.spare, List.length_cons, List.length_append] at ih ⊢
    omega
  | product _ ih | power _ ih | primary _ ih | expression _ ih | single _ ih
  | conditioned _ ih | plain _ ih | enclosed _ ih =>
    simp only [lexemes, nesting, Category.spare] at ih ⊢
    omega
  | joined first joins ih ihs =>
    simp only [lexemes, nesting, Category.spare, List.length_append] at ih ihs ⊢
    omega
  | conditional _ _ _ _ ih ihs | block _ _ ih ihs | scope _ _ ih ihs =>
    simp only [lexemes, nesting, Category.spare, List.length_cons, List.length_append] at ih ihs ⊢
    omega
  | @more what _ _ ih ihs =>
    cases what <;> simp only [lexemes, nesting, Category.spare, List.length_append] at ih ihs ⊢ <;>
      omega

theorem nesting_le_length {c : Category} (p : Phrase c) : p.nesting ≤ p.lexemes.length :=
  Nat.le_trans (Nat.le_add_right _ _) p.nesting_add_spare_le

end Phrase

/-- There are as many lexemes as tokens before the first that stands for the end. -/
theorem length_lexemes (tokens : List Token) :
    (lexemes tokens).length = tokens.findIdx (·.kind = .endOfInput) := by
  have inside := tokens.findIdx_le_length (p := (·.kind = .endOfInput))
  rw [lexemes, List.length_map, List.takeWhile_eq_take_findIdx_not, List.length_take]
  simpa using Nat.min_eq_left inside

theorem length_lexemes_le (tokens : List Token) : (lexemes tokens).length ≤ tokens.length := by
  rw [length_lexemes]
  exact List.findIdx_le_length

theorem Token.readable_lexeme_iff (token : Token) :
    token.lexeme.Readable ↔ (token.kind = .number → (Binary64.ofText? token.text).isSome) := by
  constructor
  · intro readable number
    have is : token.lexeme = ⟨.number, token.text⟩ := Token.lexeme_eq_spelled number rfl
    rw [is] at readable
    exact readable rfl
  · intro denotes number
    have is : token.lexeme = ⟨.number, token.text⟩ := Token.lexeme_eq_spelled number rfl
    rw [is]
    exact denotes number

theorem forall_readable_iff (tokens : List Token) :
    (∀ lexeme ∈ lexemes tokens, lexeme.Readable) ↔
      ∀ token ∈ tokens.takeWhile (·.kind ≠ .endOfInput), token.kind = .number →
        (Binary64.ofText? token.text).isSome := by
  simp only [lexemes, List.forall_mem_map, Token.readable_lexeme_iff]

/-- With room for one level of nesting more than there are tokens, the reader accepts exactly
the tokens that derive from a program and whose numbers can be read. The derivation is then
the only one, the reader stops where the tokens end, and the commands of the chain are those
of the derivation. -/
theorem parse_recognizes (tokens : List Token) (limit : Nat) (roomy : tokens.length + 1 ≤ limit) :
    ((∃ chain t, parse tokens limit = (.ok chain, t)) ↔
      (∃ p : Phrase (.one .element), p.lexemes = lexemes tokens) ∧
        ∀ token ∈ tokens.takeWhile (·.kind ≠ .endOfInput), token.kind = .number →
          (Binary64.ofText? token.text).isSome) ∧
    ∀ chain t, parse tokens limit = (.ok chain, t) →
      ∃ p : Phrase (.one .element), p.lexemes = lexemes tokens ∧
        (∀ q : Phrase (.one .element), q.lexemes = lexemes tokens → q = p) ∧
        t.cursor = tokens.findIdx (·.kind = .endOfInput) ∧
        chain.commands = Item.commands p.value := by
  refine ⟨⟨?_, ?_⟩, ?_⟩
  · rintro ⟨chain, t, run⟩
    obtain ⟨p, derives, readable, -⟩ := parse_accepts run
    rw [← derives] at readable
    exact ⟨⟨p, derives.symm⟩, (forall_readable_iff tokens).mp readable⟩
  · rintro ⟨⟨p, derives⟩, denotes⟩
    have readable : ∀ lexeme ∈ p.lexemes, lexeme.Readable := by
      rw [derives]
      exact (forall_readable_iff tokens).mpr denotes
    have fits : p.nesting ≤ limit := by
      have deep := p.nesting_le_length
      have long := length_lexemes_le tokens
      rw [derives] at deep
      omega
    obtain ⟨events, run⟩ := parse_returns p derives readable fits
    exact ⟨_, _, run⟩
  · intro chain t run
    obtain ⟨p, derives, -, -, rfl, cursor, -⟩ := parse_accepts run
    refine ⟨p, derives.symm, ?_, ?_, Item.commands_program _⟩
    · intro q same
      exact Phrase.eq_of_lexemes_eq (same.trans derives)
    · rw [cursor, ← derives, length_lexemes]

/-- A variable that is given the value of another. -/
theorem parse_recognizes_copy :
    let tokens : List Token := [.detached .identifier "x", .detached (.operator .assign) "=",
      .detached .identifier "y", .detached .semicolon ";"]
    tokens.length + 1 ≤ 5 ∧ ∃ chain t, parse tokens 5 = (.ok chain, t) ∧ t.cursor = 4 ∧
      chain.commands = [.assignment "x" (.var "y")] := by
  intro tokens
  have recognizes := parse_recognizes tokens 5 (by decide)
  have derives : (Phrase.plain (.copy "x" "y")).lexemes = lexemes tokens := by decide
  obtain ⟨chain, t, run⟩ := recognizes.1.mpr ⟨⟨_, derives⟩, by decide⟩
  obtain ⟨p, -, only, cursor, commands⟩ := recognizes.2 chain t run
  obtain rfl := only _ derives
  exact ⟨by decide, chain, t, run, cursor, commands⟩

end LinkedScopes
