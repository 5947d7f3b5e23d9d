import LinkedScopes.Proofs.Grammar.Completeness
import LinkedScopes.Proofs.Grammar.Soundness
import LinkedScopes.Proofs.Grammar.Spelling
import LinkedScopes.Proofs.Nesting.Group

/-! The chains that reading returns are the well-formed ones, and every one of them is
returned for some tokens. -/
namespace LinkedScopes

/-- The tokens that spell an item are read back as its chain. -/
theorem Item.Formed.exists_parse {item : Item} (formed : item.Formed IsCommand) :
    ∃ tokens limit t, parse tokens limit = (.ok item.program, t) := by
  obtain ⟨p, readable, rfl⟩ := formed.exists_phrase
  obtain ⟨events, run⟩ := parse_returns p (lexemes_detached p.spelled).symm readable
    (Nat.le_refl p.nesting)
  exact ⟨_, _, _, run⟩

/-- A chain is returned for some tokens under some limit if and only if it is well-formed. -/
theorem exists_parse_iff (chain : Chain) :
    (∃ tokens limit t, parse tokens limit = (.ok chain, t)) ↔ chain.WellFormed := by
  rw [Chain.wellFormed_iff]
  constructor
  · rintro ⟨tokens, limit, t, run⟩
    obtain ⟨p, -, -, -, rfl, -⟩ := parse_accepts run
    exact ⟨p.value, p.value_valid, rfl⟩
  · rintro ⟨item, formed, rfl⟩
    exact formed.exists_parse

end LinkedScopes
