import LinkedScopes.Proofs.Grammar.Lexeme

/-! Readings: what stands between two places of the input. They are put together and taken
apart as the phrases that stand there are. -/
namespace LinkedScopes

/-- The part of a state that reading moves along. -/
structure Place where
  cursor : Nat
  depth : Nat

def State.place (s : State) : Place := ⟨s.cursor, s.depth⟩

/-- These lexemes stand between two places, can be read, and nest no deeper than allowed. -/
structure Reading (input : Input) (s t : Place) (passed : List Lexeme) (nesting : Nat) :
    Prop where
  rest : input.rest s.cursor = passed ++ input.rest t.cursor
  cursor : t.cursor = s.cursor + passed.length
  depth : t.depth = s.depth
  fits : nesting ≤ input.limit - s.depth
  readable : ∀ lexeme ∈ passed, lexeme.Readable

namespace Reading

variable {input : Input} {s t u : Place} {passed more : List Lexeme} {m n : Nat}

theorem nil : Reading input s s [] 0 := ⟨rfl, rfl, rfl, Nat.zero_le _, List.forall_mem_nil _⟩

theorem append (first : Reading input s t passed m) (second : Reading input t u more n) :
    Reading input s u (passed ++ more) (max m n) where
  rest := by rw [first.rest, second.rest, List.append_assoc]
  cursor := by rw [second.cursor, first.cursor, List.length_append, Nat.add_assoc]
  depth := second.depth.trans first.depth
  fits := by have := first.fits; have := second.fits; rw [first.depth] at this; omega
  readable := by
    intro lexeme member
    exact (List.mem_append.mp member).elim (first.readable _) (second.readable _)

theorem token (depth : Nat) {cursor : Nat} {lexeme : Lexeme}
    (kind : (input.token cursor).kind ≠ .endOfInput)
    (is : (input.token cursor).lexeme = lexeme) (readable : lexeme.Readable) :
    Reading input ⟨cursor, depth⟩ ⟨cursor + 1, depth⟩ [lexeme] 0 where
  rest := by rw [Input.rest_eq_cons kind, is]; rfl
  cursor := rfl
  depth := rfl
  fits := Nat.zero_le _
  readable := by simpa using readable

theorem bare (depth : Nat) {cursor : Nat} {kind : Kind} (is : (input.token cursor).kind = kind)
    (plain : kind.spelled = false) (proper : kind ≠ .endOfInput) :
    Reading input ⟨cursor, depth⟩ ⟨cursor + 1, depth⟩ [.bare kind] 0 := by
  apply token depth (is ▸ proper) (Token.lexeme_eq_bare is plain)
  rintro rfl
  cases plain

theorem word (depth : Nat) {cursor : Nat} {kind : Kind} (is : (input.token cursor).kind = kind)
    (spelled : kind.spelled = true) (word : kind ≠ .number) :
    Reading input ⟨cursor, depth⟩ ⟨cursor + 1, depth⟩
      [⟨kind, (input.token cursor).text⟩] 0 := by
  apply token depth _ (Token.lexeme_eq_spelled is spelled) fun number => absurd number word
  rintro ending
  rw [← is, ending] at spelled
  cases spelled

theorem deeper {cursor depth : Nat} (allowed : depth < input.limit)
    (inner : Reading input ⟨cursor, depth + 1⟩ t passed n) :
    Reading input ⟨cursor, depth⟩ ⟨t.cursor, t.depth - 1⟩ passed (n + 1) where
  rest := inner.rest
  cursor := inner.cursor
  depth := by rw [inner.depth]; rfl
  fits := by have := inner.fits; simp only at this ⊢; omega
  readable := inner.readable

theorem mono (h : Reading input s t passed n) (less : m ≤ n) : Reading input s t passed m where
  rest := h.rest
  cursor := h.cursor
  depth := h.depth
  fits := Nat.le_trans less h.fits
  readable := h.readable

/-! Taking readings apart again. -/

theorem of_append {k : Nat} (h : Reading input s t (passed ++ more) k) (left : m ≤ k)
    (right : n ≤ k) : ∃ u, Reading input s u passed m ∧ Reading input u t more n := by
  have rest : input.rest (s.cursor + passed.length) = more ++ input.rest t.cursor :=
    Input.rest_add (by rw [h.rest, List.append_assoc])
  have cursor := h.cursor
  have fits := h.fits
  rw [List.length_append] at cursor
  refine ⟨⟨s.cursor + passed.length, s.depth⟩, ⟨?_, rfl, rfl, by omega, ?_⟩,
    ⟨rest, by simp only; omega, h.depth, by simp only; omega, ?_⟩⟩
  · rw [h.rest, rest, List.append_assoc]
  · intro lexeme member
    exact h.readable _ (List.mem_append_left _ member)
  · intro lexeme member
    exact h.readable _ (List.mem_append_right _ member)

theorem of_cons {cursor depth : Nat} {lexeme : Lexeme}
    (h : Reading input ⟨cursor, depth⟩ t (lexeme :: more) n) :
    (input.token cursor).lexeme = lexeme ∧ lexeme.Readable ∧
      Reading input ⟨cursor + 1, depth⟩ t more n := by
  obtain ⟨first, rest⟩ := Input.of_rest_eq_cons h.rest
  have cursor := h.cursor
  simp only [List.length_cons] at cursor
  refine ⟨first, h.readable _ List.mem_cons_self, rest, by simp only; omega, h.depth, h.fits, ?_⟩
  intro lexeme member
  exact h.readable _ (List.mem_cons_of_mem _ member)

theorem of_deeper {cursor depth : Nat} (h : Reading input ⟨cursor, depth⟩ t passed (n + 1)) :
    depth < input.limit ∧
      Reading input ⟨cursor, depth + 1⟩ ⟨t.cursor, depth + 1⟩ passed n := by
  have fits := h.fits
  simp only at fits
  exact ⟨by omega, h.rest, h.cursor, rfl, by simp only; omega, h.readable⟩

theorem eq_of_nil (h : Reading input s t [] n) : t = s := by
  obtain ⟨cursor, depth⟩ := t
  exact congr (congrArg Place.mk h.cursor) h.depth

theorem length_le (h : Reading input s t passed n) : passed.length ≤ input.remaining s.cursor := by
  have := input.length_rest_le s.cursor
  rw [h.rest, List.length_append] at this
  omega

end Reading

end LinkedScopes
