import LinkedScopes.Proofs.Grammar.Viability
import LinkedScopes.Session

/-! How far rules go. What a rule passes are the lexemes of a phrase, or of one that breaks off, and
a lexeme never stands for the end of the input. So a cursor moves forward and stops where the input
ends at the latest, whether the rule succeeds there or not. -/
namespace LinkedScopes

theorem Reading.proper {input : Input} {s t : Place} {passed : List Lexeme} {n index : Nat}
    (reading : Reading input s t passed n) (after : s.cursor ≤ index) (before : index < t.cursor) :
    (input.token index).kind ≠ .endOfInput := by
  obtain ⟨offset, rfl⟩ := Nat.exists_eq_add_of_le after
  have less : offset < passed.length := by
    have cursor := reading.cursor
    omega
  have parts : input.rest s.cursor =
      passed.take offset ++ (passed.drop offset ++ input.rest t.cursor) := by
    rw [reading.rest, ← List.append_assoc, List.take_append_drop]
  have goes := Input.rest_add parts
  rw [List.length_take, Nat.min_eq_left (Nat.le_of_lt less), List.drop_eq_getElem_cons less] at goes
  intro ends
  rw [Input.rest_eq_nil_iff.mpr ends] at goes
  cases goes

theorem Reading.cursor_le {input : Input} {s t : Place} {passed : List Lexeme} {n : Nat}
    (reading : Reading input s t passed n) : s.cursor ≤ t.cursor := by
  rw [reading.cursor]
  exact Nat.le_add_right _ _

theorem Reading.le_size {input : Input} {s t : Place} {passed : List Lexeme} {n : Nat}
    (reading : Reading input s t passed n) (inside : s.cursor ≤ input.tokens.size) :
    t.cursor ≤ input.tokens.size := by
  apply Nat.le_of_not_lt
  intro beyond
  refine reading.proper inside beyond ?_
  rw [Input.token_of_size_le (Nat.le_refl _)]
  rfl

namespace Rule

variable {α β : Type} {input : Input}

/-- However the rule ends it has read some lexemes, one at least if it succeeds, and it ends with a
result or a diagnostic. -/
structure Progresses (rule : Rule α) : Prop where
  reads : ∀ input s, ∃ passed, Reading input s.place (rule.runFrom input s).2.place passed 0
  moves : ∀ input s a, (rule.runFrom input s).1 = .ok a →
    s.cursor < (rule.runFrom input s).2.cursor
  inside : ∀ input s, (rule.runFrom input s).1 ≠ .error .exhausted

theorem Progresses.map {rule : Rule α} (progresses : rule.Progresses) (f : α → β) :
    (f <$> rule).Progresses where
  reads := by
    intro input s
    rw [runFrom_map]
    exact progresses.reads input s
  moves := by
    intro input s b ends
    rw [runFrom_map] at ends ⊢
    cases result : (rule.runFrom input s).1 with
    | error halt => simp [result, Except.map] at ends
    | ok a => exact progresses.moves input s a result
  inside := by
    intro input s ends
    rw [runFrom_map] at ends
    cases result : (rule.runFrom input s).1 with
    | error halt =>
      rw [result] at ends
      cases ends
      exact progresses.inside input s result
    | ok a => simp [result, Except.map] at ends

theorem Falters.reads {rule : Rule α} {c : Category} (falters : Falters input rule c) (s : State)
    (d : Diagnostic) (t : State) (run : rule.runFrom input s = (.error (.fault d), t)) :
    ∃ passed, Reading input s.place t.place passed 0 := by
  obtain ⟨passed, reading, -⟩ := falters s d t run
  exact ⟨passed, reading⟩

/-- A rule progresses if it reads phrases of a category, whatever it makes of them, and its faults
break off what it reads. -/
theorem Progresses.of_category {rule : Rule α} {c : Category}
    {makes : Input → State → α → State → Phrase c → Prop} (solid : ∀ what, c ≠ .many what)
    (accepts : ∀ {input} s a t, rule.runFrom input s = (.ok a, t) →
      ∃ p : Phrase c, Reading input s.place t.place p.lexemes p.nesting ∧ makes input s a t p)
    (faults : ∀ {input} s d t, rule.runFrom input s = (.error (.fault d), t) →
      ∃ passed, Reading input s.place t.place passed 0)
    (inside : ∀ input s, (rule.runFrom input s).1 ≠ .error .exhausted) : rule.Progresses where
  reads := by
    intro input s
    rcases run : rule.runFrom input s with ⟨(_ | d) | a, t⟩
    · exact faults s _ t run
    · exact absurd (congrArg Prod.fst run) (inside input s)
    · obtain ⟨p, reading, -⟩ := accepts s a t run
      exact ⟨p.lexemes, reading.mono (Nat.zero_le _)⟩
  moves := by
    intro input s a ends
    obtain ⟨p, reading, -⟩ := accepts s a _ (Prod.ext ends rfl)
    have cursor : (rule.runFrom input s).2.cursor = s.cursor + p.lexemes.length := reading.cursor
    have longer := p.length_pos solid
    omega
  inside := inside

theorem reference_progresses : reference.Progresses :=
  .of_category (by simp) (referenceOf_accepts expression_accepts)
    (referenceOf_falters expression_accepts expression_falters).reads
    (referenceOf_guarded.inside expression_alike)

theorem headWord_faults {s : State} {d : Diagnostic} {t : State}
    (run : headWord.runFrom input s = (.error (.fault d), t)) :
    ∃ passed, Reading input s.place t.place passed 0 := by
  rw [headWord, runFrom_position_bind] at run
  have reads := reference_progresses.reads input s
  rcases runFrom_bind_error_iff.mp run with first | ⟨reference, u, first, last⟩
  · rwa [first] at reads
  · rw [first] at reads
    cases reference with
    | head => cases last
    | _ =>
      obtain ⟨-, rfl⟩ := Prod.mk.inj last
      exact reads

theorem conditional_faults {s : State} {d : Diagnostic} {t : State}
    (run : conditional.runFrom input s = (.error (.fault d), t)) :
    ∃ passed, Reading input s.place t.place passed 0 := by
  by_cases word : (input.token s.cursor).kind = .keyword
  · obtain ⟨passed, reading, -⟩ :=
      conditionalOf_falters command_accepts command_falters word d t run
    exact ⟨passed, reading⟩
  · rw [conditional, conditionalOf, runFrom_nested] at run
    split at run
    · obtain ⟨-, rfl⟩ := Prod.mk.inj run
      exact ⟨[], .nil⟩
    · next allowed =>
      rw [runFrom_deeper, runFrom_enter_bind] at run
      obtain ⟨fails, rfl⟩ := Prod.mk.inj run
      rcases runFrom_bind_error_iff.mp (Prod.ext fails rfl) with head | ⟨head, u, start, -⟩
      · obtain ⟨passed, reading⟩ := headWord_faults head
        have inner := Reading.deeper (Nat.lt_of_not_le allowed) reading
        exact ⟨passed, inner.mono (Nat.zero_le _)⟩
      · obtain ⟨-, reading, -⟩ := headWord_ok start
        have is := congrArg Lexeme.kind reading.of_cons.1
        exact absurd is word

theorem conditional_progresses : conditional.Progresses :=
  .of_category (by simp) (conditionalOf_accepts command_accepts)
    (fun _ _ _ run => conditional_faults run) (conditionalOf_guarded.inside command_alike)

theorem reading_progresses (what : Session.Reading) : what.rule.Progresses := by
  cases what with
  | expression =>
    exact (Progresses.of_category (by simp) expression_accepts expression_falters.reads
      fun _ s => (expression_alike s).inside).map _
  | term =>
    exact (Progresses.of_category (by simp) (termOf_accepts expression_accepts)
      (termOf_falters expression_accepts expression_falters).reads
      (termOf_guarded.inside expression_alike)).map _
  | power =>
    exact (Progresses.of_category (by simp) (powerOf_accepts expression_accepts)
      (powerOf_falters expression_accepts expression_falters).reads
      (powerOf_guarded.inside expression_alike)).map _
  | primary =>
    exact (Progresses.of_category (by simp) (primaryOf_accepts expression_accepts)
      (primaryOf_falters expression_accepts expression_falters).reads
      (primaryOf_guarded.inside expression_alike)).map _
  | identifier =>
    have node := reference_progresses.map Reference.node
    rw [map_eq_pure_bind] at node
    exact node.map _
  | assignment =>
    exact (Progresses.of_category (by simp) assignment_accepts assignment_falters.reads
      fun _ s => (assignment_alike s).inside).map _
  | conditional => exact conditional_progresses.map _
  | command =>
    exact (Progresses.of_category (by simp) command_accepts command_falters.reads
      fun _ s => (command_alike s).inside).map _
  | element =>
    exact (Progresses.of_category (by simp) element_accepts element_falters.reads
      fun _ s => (element_alike s).inside).map _
  | scope =>
    exact (Progresses.of_category (by simp) (scopeOf_accepts element_accepts)
      (scopeOf_falters element_accepts element_falters).reads
      (scopeOf_guarded.inside element_alike)).map _

/-- From one state among some tokens to another a rule has moved forward, over tokens none of which
stands for the end, and not past the last one. It has passed a token if it succeeds; where the input
ends it finds fault and stays. -/
structure Advances (tokens : List Token) (s : State) (result : Except Halt α) (t : State) :
    Prop where
  forward : s.cursor ≤ t.cursor
  inside : t.cursor ≤ tokens.length
  proper : ∀ token ∈ (tokens.take t.cursor).drop s.cursor, token.kind ≠ .endOfInput
  moves : ∀ a, result = .ok a → s.cursor < t.cursor
  stays : (∀ token, tokens[s.cursor]? = some token → token.kind = .endOfInput) →
    (∃ d, result = .error (.fault d)) ∧ t.cursor = s.cursor

theorem Progresses.advances {rule : Rule α} (progresses : rule.Progresses) {tokens : List Token}
    {limit : Nat} {s t : State} {result : Except Halt α} (among : s.cursor ≤ tokens.length)
    (run : rule.runFrom ⟨tokens.toArray, limit⟩ s = (result, t)) : Advances tokens s result t := by
  obtain ⟨passed, reading⟩ := progresses.reads ⟨tokens.toArray, limit⟩ s
  have moves := progresses.moves ⟨tokens.toArray, limit⟩ s
  have ends := progresses.inside ⟨tokens.toArray, limit⟩ s
  rw [run] at reading moves ends
  have forward : s.cursor ≤ t.cursor := reading.cursor_le
  have inside : t.cursor ≤ tokens.length := reading.le_size among
  refine ⟨forward, inside, ?_, moves, ?_⟩
  · intro token member
    obtain ⟨offset, within, rfl⟩ := List.mem_iff_getElem.mp member
    rw [List.length_drop, List.length_take, Nat.min_eq_left inside] at within
    have before : s.cursor + offset < t.cursor := by omega
    have short : s.cursor + offset < tokens.length := Nat.lt_of_lt_of_le before inside
    have here : (Input.token ⟨tokens.toArray, limit⟩ (s.cursor + offset)).kind ≠ .endOfInput :=
      reading.proper (Nat.le_add_right _ _) before
    rw [List.getElem_drop, List.getElem_take]
    rwa [Input.token_of_lt_size short] at here
  · intro nothing
    have ended : (Input.token ⟨tokens.toArray, limit⟩ s.cursor).kind = .endOfInput := by
      rw [Input.token, List.getElem?_toArray]
      cases here : tokens[s.cursor]? with
      | none => rfl
      | some token => exact nothing token here
    have still : t.cursor = s.cursor := by
      refine Nat.le_antisymm (Nat.le_of_not_lt fun moved => ?_) forward
      exact reading.proper (Nat.le_refl _) moved ended
    refine ⟨?_, still⟩
    rcases result with (d | _) | a
    · exact ⟨d, rfl⟩
    · exact absurd rfl ends
    · exact absurd still (Nat.ne_of_gt (moves a rfl))

end Rule

theorem parse_cursor_le {tokens : List Token} {limit : Nat} {result : Except Halt Chain} {t : State}
    (run : parse tokens limit = (result, t)) :
    t.cursor ≤ tokens.findIdx (·.kind = .endOfInput) := by
  rw [← length_lexemes]
  rcases result with (d | _) | chain
  · obtain ⟨passed, reading, -⟩ := Rule.program_falters {} d t run
    have parts : lexemes tokens = passed ++ _ := reading.rest
    have cursor : t.cursor = 0 + passed.length := reading.cursor
    rw [parts, List.length_append]
    omega
  · exact absurd (congrArg Prod.fst run) (parse_ne_exhausted tokens limit)
  · obtain ⟨p, derives, -, -, -, cursor, -⟩ := parse_accepts run
    exact Nat.le_of_eq (by rw [cursor, derives])

/-- From every cursor among the tokens every rule advances, and reading a program stops at the
latest where the input first ends. -/
theorem rules_advance (tokens : List Token) (limit : Nat) :
    (∀ (what : Session.Reading) (s : State) (result : Except Halt Session.Value) (t : State),
      s.cursor ≤ tokens.length → what.rule.runFrom ⟨tokens.toArray, limit⟩ s = (result, t) →
      Rule.Advances tokens s result t) ∧
    ∀ (result : Except Halt Chain) (t : State), parse tokens limit = (result, t) →
      t.cursor ≤ tokens.findIdx (·.kind = .endOfInput) := by
  constructor
  · intro what s result t among run
    exact (Rule.reading_progresses what).advances among run
  · intro result t run
    exact parse_cursor_le run

/-- A call whose argument is missing, with the end of the input before its parenthesis: the
conditional rule passes the keyword and the first parenthesis, and so does the reading of a
program. -/
theorem rules_advance_cut :
    let tokens : List Token := [.detached .keyword "print", .detached .openParen "(",
      .endOfInput .null, .detached .closeParen ")"]
    let run := Session.Reading.conditional.rule.runFrom ⟨tokens.toArray, 3⟩ {}
    run.2.cursor = 2 ∧ Rule.Advances tokens {} run.1 run.2 ∧ (parse tokens 3).2.cursor ≤ 2 := by
  intro tokens run
  obtain ⟨rules, program⟩ := rules_advance tokens 3
  refine ⟨rfl, rules .conditional {} run.1 run.2 (Nat.zero_le _) rfl, ?_⟩
  have first : tokens.findIdx (·.kind = .endOfInput) = 2 := rfl
  rw [← first]
  exact program _ _ rfl

end LinkedScopes
