import LinkedScopes.Proofs.Grammar.Completeness
import LinkedScopes.Proofs.Grammar.Soundness
import LinkedScopes.Proofs.Grammar.Uniqueness
import LinkedScopes.Proofs.Rule.Bounds
import LinkedScopes.Proofs.Rule.Threshold

/-! The limit on nesting is a threshold for whole programs, and for those that are accepted
the threshold is how deep they nest. -/
namespace LinkedScopes

/-- Every list of tokens has a threshold. Under any limit from it on, reading comes to one
result in one state, with one cursor and one debt. Under any limit below it reading stops at
the limit, and where it ends never falls back as the limit rises. If the result is a chain,
the threshold is the nesting of the one derivation. -/
theorem exists_threshold (tokens : List Token) :
    ∃ (threshold : Nat) (result : Except Diagnostic Chain) (ending : State),
      (∀ limit, threshold ≤ limit → parse tokens limit = (result.mapError .fault, ending)) ∧
      (∀ limit, limit < threshold → ∃ position t,
        parse tokens limit = (.error (.fault ⟨.nestingTooDeep limit, position⟩), t)) ∧
      (∀ limit higher, limit ≤ higher →
        (parse tokens limit).2.cursor ≤ (parse tokens higher).2.cursor) ∧
      ∀ chain, result = .ok chain →
        (∃ p : Phrase (.one .element), p.lexemes = lexemes tokens) ∧
        ∀ p : Phrase (.one .element), p.lexemes = lexemes tokens → p.nesting = threshold := by
  obtain ⟨threshold, runs⟩ := Rule.Built.program.thresholded tokens.toArray {}
  have above : ∀ limit, threshold ≤ limit → parse tokens limit = parse tokens threshold :=
    runs.above
  have below : ∀ limit, limit < threshold → Rule.StopsAt limit (parse tokens limit) := runs.below
  have inside := parse_ne_exhausted tokens threshold
  obtain ⟨result, same⟩ : ∃ result : Except Diagnostic Chain,
      (parse tokens threshold).1 = result.mapError .fault := by
    rcases outcome : (parse tokens threshold).1 with (d | _) | chain
    · exact ⟨.error d, rfl⟩
    · exact absurd outcome inside
    · exact ⟨.ok chain, rfl⟩
  refine ⟨threshold, result, (parse tokens threshold).2, ?_, ?_, runs.forward, ?_⟩
  · intro limit le
    rw [above limit le, ← same]
  · intro limit low
    obtain ⟨position, halt⟩ := below limit low
    exact ⟨position, _, by rw [← halt]⟩
  · rintro chain rfl
    have run : parse tokens threshold = (.ok chain, (parse tokens threshold).2) := by
      exact Prod.ext same rfl
    obtain ⟨p, derives, readable, fits, -⟩ := parse_accepts run
    refine ⟨⟨p, derives.symm⟩, ?_⟩
    intro q same
    obtain rfl := Phrase.eq_of_lexemes_eq (same.trans derives)
    apply Nat.le_antisymm fits
    apply Nat.le_of_not_lt
    intro low
    -- A limit as low as the nesting is still enough, so it cannot be below the threshold.
    obtain ⟨position, halt⟩ := below q.nesting low
    obtain ⟨events, enough⟩ := parse_returns q same readable (Nat.le_refl _)
    rw [enough] at halt
    cases halt

end LinkedScopes
