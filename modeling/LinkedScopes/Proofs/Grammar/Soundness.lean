import LinkedScopes.Proofs.Grammar.Phrase
import LinkedScopes.Proofs.Grammar.Reading
import LinkedScopes.Proofs.Rule.Step

/-! What rules accept. A rule that succeeds has passed the lexemes of a phrase of its
category, returns what the phrase stands for, and had room for the phrase's nesting. The
bounds of recursive rules play no part: a rule that reaches one does not succeed. -/
namespace LinkedScopes

namespace Rule

variable {input : Input}

/-- Each success of the rule has read an expression phrase of the category, has returned
what it stands for and has left what is owed as it was. -/
def AcceptsNode (input : Input) (rule : Rule Node) (c : Category) (node : Phrase c → Node) :
    Prop :=
  ∀ s a t, rule.runFrom input s = (.ok a, t) → ∃ p : Phrase c,
    Reading input s.place t.place p.lexemes p.nesting ∧ a = node p ∧ t.debt = s.debt

section Expressions

variable {rank : Precedence} {operand expression : Rule Node}

theorem joinsWithin_accepts
    (accepts : AcceptsNode input operand (.operand rank) Phrase.value) (bound : Nat) (left : Node) :
    AcceptsNode input (joinsWithin rank.operators operand bound left) (.many (.join rank))
      fun joins => Node.joined left joins.value := by
  induction bound generalizing left with
  | zero =>
    intro s a t run
    cases run
  | succ bound ih =>
    intro s a t run
    rw [joinsWithin, runFrom_kind_bind] at run
    split at run
    · obtain ⟨rfl, rfl⟩ := runFrom_pure_ok_iff.mp run
      exact ⟨.none, .nil, rfl, rfl⟩
    · next op among =>
      obtain ⟨kind, member⟩ := Kind.operatorAmong_eq_some_iff.mp among
      simp only [runFrom_emit_bind, runFrom_advance_bind] at run
      obtain ⟨right, u, first, later⟩ := runFrom_bind_ok_iff.mp run
      obtain ⟨p, reading, rfl, owed⟩ := accepts _ _ _ first
      obtain ⟨joins, others, rfl, owed'⟩ := ih _ _ _ _ later
      refine ⟨.more (.join op member p) joins, ?_, rfl, owed'.trans owed⟩
      have sign := Reading.bare s.depth kind rfl (by simp)
      simpa [Phrase.lexemes, Phrase.nesting, State.place, Lexeme.operator] using
        (sign.append reading).append others

theorem level_accepts (rank : Precedence)
    (accepts : AcceptsNode input operand (.operand rank) Phrase.value) :
    AcceptsNode input (level rank.operators operand) (.level rank) Phrase.value := by
  intro s a t run
  obtain ⟨first, u, run, later⟩ := runFrom_bind_ok_iff.mp run
  obtain ⟨p, reading, rfl, owed⟩ := accepts _ _ _ run
  obtain ⟨joins, others, rfl, owed'⟩ := joinsWithin_accepts accepts _ _ _ _ _ later
  exact ⟨.joined p joins, reading.append others, rfl, owed'.trans owed⟩

theorem closing_accepts {α : Type} {message : String} {next : Node → Rule α} {s t : State} {a : α}
    (accepts : AcceptsNode input expression .expression Phrase.value)
    (run : (do
      let node ← expression
      _ ← expectFor .closeParen message
      next node).runFrom input s = (.ok a, t)) :
    ∃ (p : Phrase .expression) (u : State),
      Reading input s.place u.place (p.lexemes ++ [.bare .closeParen]) p.nesting ∧
        u.debt = s.debt ∧ (next p.value).runFrom input u = (.ok a, t) := by
  obtain ⟨node, u, first, later⟩ := runFrom_bind_ok_iff.mp run
  obtain ⟨p, reading, rfl, owed⟩ := accepts _ _ _ first
  obtain ⟨_, v, closes, last⟩ := runFrom_bind_ok_iff.mp later
  obtain ⟨close, -, rfl⟩ := runFrom_expectFor_ok_iff.mp closes
  refine ⟨p, { u with cursor := u.cursor + 1 }, ?_, owed, last⟩
  simpa [State.place] using reading.append (Reading.bare u.depth close rfl (by simp))

theorem referenceOf_accepts (accepts : AcceptsNode input expression .expression Phrase.value) :
    ∀ s reference t, (referenceOf expression).runFrom input s = (.ok reference, t) →
      ∃ p : Phrase .primary, Reading input s.place t.place p.lexemes p.nesting ∧
        reference.node = p.value ∧ t.debt = s.debt ∧
        ∀ word, reference = .head word → ∃ conditional, p = .head word conditional := by
  intro s reference t run
  simp only [referenceOf, runFrom_enter_bind, runFrom_current_bind] at run
  split at run
  · next kind =>
    rw [runFrom_advance_bind] at run
    obtain ⟨rfl, rfl⟩ := runFrom_pure_ok_iff.mp run
    exact ⟨.var (input.token s.cursor).text, .word s.depth kind rfl (by simp), rfl, rfl, by simp⟩
  · next kind =>
    have word := Reading.word s.depth kind rfl (by simp)
    rw [runFrom_advance_bind] at run
    split at run
    · next conditional =>
      obtain ⟨rfl, rfl⟩ := runFrom_pure_ok_iff.mp run
      refine ⟨.head _ conditional, word, rfl, rfl, ?_⟩
      intro _ same
      cases same
      exact ⟨conditional, rfl⟩
    · next operation =>
      rw [runFrom_kind_bind] at run
      split at run
      · cases run
      · next opens =>
        rw [runFrom_advance_bind] at run
        obtain ⟨p, u, reading, owed, last⟩ := closing_accepts accepts run
        obtain ⟨rfl, rfl⟩ := runFrom_pure_ok_iff.mp last
        refine ⟨.call _ (Bool.eq_false_iff.mpr operation) p, ?_, rfl, owed, by simp⟩
        have opening := Reading.bare s.depth (Decidable.not_not.mp opens) rfl (by simp)
        simpa [Phrase.lexemes, Phrase.nesting, State.place] using
          (word.append opening).append reading
  · cases run

theorem primaryOf_accepts (accepts : AcceptsNode input expression .expression Phrase.value) :
    AcceptsNode input (primaryOf expression) .primary Phrase.value := by
  intro s a t run
  simp only [primaryOf, runFrom_enter_bind, runFrom_current_bind] at run
  split at run
  · next opens =>
    rw [runFrom_advance_bind] at run
    obtain ⟨p, u, reading, owed, last⟩ := closing_accepts accepts run
    obtain ⟨rfl, rfl⟩ := runFrom_pure_ok_iff.mp last
    refine ⟨.group p, ?_, rfl, owed⟩
    simpa [Phrase.lexemes, Phrase.nesting, State.place] using
      (Reading.bare s.depth opens rfl (by simp)).append reading
  · next kind =>
    split at run
    · cases run
    · next value denotes =>
      rw [runFrom_advance_bind] at run
      obtain ⟨rfl, rfl⟩ := runFrom_pure_ok_iff.mp run
      refine ⟨.number (input.token s.cursor).text, ?_, by simp [Phrase.value, denotes], rfl⟩
      exact .token s.depth (by simp [kind]) (Token.lexeme_eq_spelled kind rfl)
        fun _ => by simp [denotes]
  · obtain ⟨reference, u, run, last⟩ := runFrom_bind_ok_iff.mp run
    obtain ⟨p, reading, node, owed, -⟩ := referenceOf_accepts accepts _ _ _ run
    obtain ⟨rfl, rfl⟩ := runFrom_pure_ok_iff.mp last
    exact ⟨p, reading, node, owed⟩

/-- A phrase may be wrapped in a production that passes and means the same. -/
theorem AcceptsNode.wrap {rule : Rule Node} {c d : Category} {node : Phrase c → Node}
    {node' : Phrase d → Node} (accepts : AcceptsNode input rule c node) (wrap : Phrase c → Phrase d)
    (lexemes : ∀ p, (wrap p).lexemes = p.lexemes := by intro; rfl)
    (nesting : ∀ p, (wrap p).nesting = p.nesting := by intro; rfl)
    (value : ∀ p, node' (wrap p) = node p := by intro; rfl) :
    AcceptsNode input rule d node' := by
  intro s a t run
  obtain ⟨p, reading, rfl, owed⟩ := accepts s a t run
  exact ⟨wrap p, by rw [lexemes, nesting]; exact reading, (value p).symm, owed⟩

theorem powerOf_accepts (accepts : AcceptsNode input expression .expression Phrase.value) :
    AcceptsNode input (powerOf expression) (.level .power) Phrase.value :=
  level_accepts .power ((primaryOf_accepts accepts).wrap .primary)

theorem termOf_accepts (accepts : AcceptsNode input expression .expression Phrase.value) :
    AcceptsNode input (termOf expression) (.level .product) Phrase.value :=
  level_accepts .product ((powerOf_accepts accepts).wrap .power)

end Expressions

theorem expressionWithin_accepts (bound : Nat) :
    AcceptsNode input (expressionWithin bound) .expression Phrase.value := by
  refine within_ok rfl ?_ bound
  intro bound ih s a t run
  rw [expressionWithin, runFrom_enter_bind] at run
  obtain ⟨allowed, u, within, rfl⟩ := runFrom_nested_ok_iff.mp run
  have sum := level_accepts .sum ((termOf_accepts ih).wrap .product)
  obtain ⟨p, reading, rfl, owed⟩ := sum _ _ _ within
  exact ⟨.expression p, .deeper allowed reading, rfl, owed⟩

theorem expression_accepts : AcceptsNode input expression .expression Phrase.value := by
  intro s a t run
  rw [expression, runFrom_bounded] at run
  exact expressionWithin_accepts _ s a t run

theorem assignment_accepts : AcceptsNode input assignment .assignment Phrase.value := by
  intro s a t run
  simp only [assignment, runFrom_enter_bind, runFrom_kind_bind] at run
  split at run
  · cases run
  · next kind =>
    simp only [runFrom_advance_bind, runFrom_current_bind] at run
    split at run
    · cases run
    · next sign =>
      rw [runFrom_advance_bind] at run
      obtain ⟨value, u, run, last⟩ := runFrom_bind_ok_iff.mp run
      obtain ⟨p, reading, rfl, owed⟩ := expression_accepts _ _ _ run
      obtain ⟨rfl, rfl⟩ := runFrom_pure_ok_iff.mp last
      refine ⟨.assignment (input.token s.cursor).text p, ?_, rfl, owed⟩
      have target := Reading.word s.depth (Decidable.not_not.mp kind) rfl (by simp)
      have assign : Reading input ⟨s.cursor + 1, s.depth⟩ ⟨s.cursor + 2, s.depth⟩
          [.operator .assign] 0 :=
        .bare s.depth (by simpa [Token.isOperator] using sign) rfl (by simp)
      simpa [Phrase.lexemes, Phrase.nesting, State.place] using
        (target.append assign).append reading

/-- Each success of the rule has read a phrase of the category, has returned the links of its
item with what was owed before, and has left owed what the item leaves. -/
def AcceptsItem (input : Input) (rule : Rule Chain) (c : Category) (item : Phrase c → Item) :
    Prop :=
  ∀ s a t, rule.runFrom input s = (.ok a, t) → ∃ p : Phrase c,
    Reading input s.place t.place p.lexemes p.nesting ∧
      a = (item p).chain s.debt ∧ t.debt = (item p).debt

section Braces

variable (what : Repeated) (item : what.Value → Item) {rule : Rule Chain}

theorem itemsWithin_accepts (accepts : AcceptsItem input rule (.one what) fun p => item p.value)
    (bound : Nat) (seen : List Chain) :
    ∀ s a t, (itemsWithin rule bound seen).runFrom input s = (.ok a, t) →
      ∃ others : Phrase (.many what),
        Reading input s.place t.place others.lexemes others.nesting ∧
        a = seen.reverse ++ Item.chains s.debt (others.value.map item) ∧
        t.debt = Item.debts s.debt (others.value.map item) ∧
        (input.token t.cursor).kind = .closeCurly := by
  induction bound generalizing seen with
  | zero =>
    intro s a t run
    cases run
  | succ bound ih =>
    intro s a t run
    rw [itemsWithin, runFrom_kind_bind] at run
    split at run
    · next close =>
      obtain ⟨rfl, rfl⟩ := runFrom_pure_ok_iff.mp run
      exact ⟨.none, .nil, by simp [Item.chains], rfl, close⟩
    · obtain ⟨links, u, first, later⟩ := runFrom_bind_ok_iff.mp run
      obtain ⟨p, reading, rfl, owed⟩ := accepts _ _ _ first
      obtain ⟨others, more, rfl, owed', close⟩ := ih _ _ _ _ later
      refine ⟨.more p others, reading.append more, ?_, ?_, close⟩
      · simp [Item.chains, owed]
      · simp [Item.debts, owed', owed]

theorem braced_accepts (accepts : AcceptsItem input rule (.one what) fun p => item p.value) :
    ∀ s a t, (braced rule).runFrom input s = (.ok a, t) →
      ∃ (first : Phrase (.one what)) (others : Phrase (.many what)),
        Reading input s.place t.place (first.lexemes ++ others.lexemes ++ [.bare .closeCurly])
          (max first.nesting others.nesting) ∧
        a = Item.chains s.debt (item first.value :: others.value.map item) ∧
        t.debt = Item.debts s.debt (item first.value :: others.value.map item) := by
  intro s a t run
  obtain ⟨links, u, first, later⟩ := runFrom_bind_ok_iff.mp run
  obtain ⟨p, reading, rfl, owed⟩ := accepts _ _ _ first
  obtain ⟨links, v, items, last⟩ := runFrom_bind_ok_iff.mp later
  rw [runFrom_bounded] at items
  obtain ⟨others, more, rfl, owed', close⟩ := itemsWithin_accepts what item accepts _ _ _ _ _ items
  rw [runFrom_advance_bind] at last
  obtain ⟨rfl, rfl⟩ := runFrom_pure_ok_iff.mp last
  refine ⟨p, others, ?_, ?_, ?_⟩
  · simpa [State.place] using
      (reading.append more).append (Reading.bare v.depth close rfl (by simp))
  · simp [Item.chains, owed]
  · simp [Item.debts, owed', owed]

end Braces

section Commands

variable {command : Rule Chain} {conditional : Rule Node}

/-- A body is the run of its commands, the first of which places what is owed. -/
theorem bodyOf_accepts
    (accepts : AcceptsItem input command (.one .command) fun p => .command p.value) :
    ∀ s a t, (bodyOf command).runFrom input s = (.ok a, t) → ∃ p : Phrase .body,
      Reading input s.place t.place p.lexemes p.nesting ∧
        a = bodyChain s.debt p.value ∧ t.debt = 0 := by
  intro s a t run
  rw [bodyOf, runFrom_kind_bind] at run
  split at run
  · next opens =>
    rw [runFrom_advance_bind] at run
    obtain ⟨links, u, inner, last⟩ := runFrom_bind_ok_iff.mp run
    obtain ⟨first, others, reading, rfl, owed⟩ :=
      braced_accepts .command .command accepts _ _ _ inner
    obtain ⟨rfl, rfl⟩ := runFrom_pure_ok_iff.mp last
    refine ⟨.block first others, ?_, rfl, ?_⟩
    · simpa [Phrase.lexemes, Phrase.nesting, State.place] using
        (Reading.bare s.depth opens rfl (by simp)).append reading
    · rw [owed]
      exact Item.debts_command first.value others.value 0
  · obtain ⟨p, reading, rfl, owed⟩ := accepts _ _ _ run
    exact ⟨.single p, reading, (List.append_nil _).symm, owed⟩

theorem headWord_ok {s t : State} {word : String}
    (run : headWord.runFrom input s = (.ok word, t)) :
    isConditionalWord word = true ∧
      Reading input s.place t.place [⟨.keyword, word⟩] 0 ∧ t.debt = s.debt := by
  rw [headWord, runFrom_position_bind] at run
  obtain ⟨reference, u, first, last⟩ := runFrom_bind_ok_iff.mp run
  obtain ⟨p, reading, -, owed, only⟩ := referenceOf_accepts expression_accepts _ _ _ first
  cases reference with
  | head other =>
    obtain ⟨rfl, rfl⟩ := runFrom_pure_ok_iff.mp last
    obtain ⟨conditional, rfl⟩ := only _ rfl
    exact ⟨conditional, reading, owed⟩
  | _ => cases last

def AcceptsConditional (input : Input) (rule : Rule Node) : Prop :=
  ∀ s a t, rule.runFrom input s = (.ok a, t) → ∃ p : Phrase .conditional,
    Reading input s.place t.place p.lexemes p.nesting ∧ a = p.value s.debt ∧ t.debt = 0

theorem conditionalOf_accepts
    (accepts : AcceptsItem input command (.one .command) fun p => .command p.value) :
    AcceptsConditional input (conditionalOf command) := by
  intro s a t run
  obtain ⟨allowed, u, within, rfl⟩ := runFrom_nested_ok_iff.mp run
  rw [runFrom_enter_bind] at within
  obtain ⟨word, v, start, within⟩ := runFrom_bind_ok_iff.mp within
  obtain ⟨conditional, head, owed⟩ := headWord_ok start
  obtain ⟨_, w, opens, within⟩ := runFrom_bind_ok_iff.mp within
  obtain ⟨opening, -, rfl⟩ := runFrom_expectFor_ok_iff.mp opens
  obtain ⟨p, w, inner, owed', within⟩ := closing_accepts expression_accepts within
  obtain ⟨body, x, run, last⟩ := runFrom_bind_ok_iff.mp within
  obtain ⟨q, outer, rfl, settled⟩ := bodyOf_accepts accepts _ _ _ run
  obtain ⟨rfl, rfl⟩ := runFrom_pure_ok_iff.mp last
  refine ⟨.conditional word conditional p q, ?_, ?_, settled⟩
  · have before := (head.append (.bare v.depth opening rfl (by simp))).append inner
    have inside : Reading input ⟨s.cursor, s.depth + 1⟩ u.place
        (Phrase.conditional word conditional p q).lexemes (max p.nesting q.nesting) := by
      simpa [Phrase.lexemes, State.place] using before.append outer
    exact .deeper allowed inside
  · have kept : w.debt = s.debt := owed'.trans owed
    rw [kept]
    rfl

theorem commandOf_accepts (accepts : AcceptsConditional input conditional) :
    AcceptsItem input (commandOf conditional) (.one .command) fun p => .command p.value := by
  intro s a t run
  simp only [commandOf, runFrom_enter_bind, runFrom_takeDebt_bind, runFrom_kind_bind] at run
  split at run
  · obtain ⟨node, u, first, last⟩ := runFrom_bind_ok_iff.mp run
    obtain ⟨p, reading, rfl, settled⟩ := accepts _ _ _ first
    simp only [runFrom_ite_emit_bind, runFrom_pure_ok_iff] at last
    obtain ⟨rfl, rfl⟩ := last
    exact ⟨.conditioned p, reading, rfl, settled⟩
  · obtain ⟨node, u, first, later⟩ := runFrom_bind_ok_iff.mp run
    obtain ⟨p, reading, rfl, settled⟩ := assignment_accepts _ _ _ first
    obtain ⟨_, v, ends, last⟩ := runFrom_bind_ok_iff.mp later
    obtain ⟨semicolon, -, rfl⟩ := runFrom_expect_ok_iff.mp ends
    simp only [pure_bind, runFrom_ite_emit_bind, runFrom_pure_ok_iff] at last
    obtain ⟨rfl, rfl⟩ := last
    refine ⟨.assigned p, ?_, rfl, settled⟩
    simpa [Phrase.lexemes, Phrase.nesting, State.place] using
      reading.append (.bare u.depth semicolon rfl (by simp))

end Commands

theorem commandWithin_accepts (bound : Nat) :
    AcceptsItem input (commandWithin bound) (.one .command) fun p => .command p.value := by
  refine within_ok rfl ?_ bound
  intro bound ih
  exact commandOf_accepts (conditionalOf_accepts ih)

theorem command_accepts :
    AcceptsItem input command (.one .command) fun p => .command p.value := by
  intro s a t run
  rw [command, runFrom_bounded] at run
  exact commandWithin_accepts _ s a t run

section Scopes

variable {element : Rule Chain}

theorem scopeOf_accepts (accepts : AcceptsItem input element (.one .element) fun p => p.value) :
    AcceptsItem input (scopeOf element) .scope Phrase.value := by
  intro s a t run
  obtain ⟨allowed, u, within, rfl⟩ := runFrom_nested_ok_iff.mp run
  rw [runFrom_enter_bind] at within
  obtain ⟨_, v, opens, within⟩ := runFrom_bind_ok_iff.mp within
  obtain ⟨opening, -, rfl⟩ := runFrom_expectFor_ok_iff.mp opens
  simp only [runFrom_takeDebt_bind, runFrom_ite_emit_bind] at within
  obtain ⟨links, w, inner, within⟩ := runFrom_bind_ok_iff.mp within
  obtain ⟨first, others, reading, rfl, owed⟩ := braced_accepts .element id accepts _ _ _ inner
  simp only [runFrom_owe_bind, runFrom_get_bind, runFrom_emit_bind, runFrom_ite_emit_bind,
    runFrom_pure_ok_iff] at within
  obtain ⟨rfl, rfl⟩ := within
  refine ⟨.scope first others, ?_, ?_, ?_⟩
  · have inside : Reading input ⟨s.cursor, s.depth + 1⟩ w.place
        (Phrase.scope first others).lexemes (max first.nesting others.nesting) := by
      simpa [Phrase.lexemes, State.place] using
        (Reading.bare (s.depth + 1) opening rfl (by simp)).append reading
    exact .deeper allowed inside
  · simp [Phrase.value, Item.chain]
  · simp [Phrase.value, Item.debt, owed]

end Scopes

theorem elementWithin_accepts (bound : Nat) :
    AcceptsItem input (elementWithin bound) (.one .element) Phrase.value := by
  refine within_ok rfl ?_ bound
  intro bound ih s a t run
  rw [elementWithin, runFrom_kind_bind] at run
  split at run
  · obtain ⟨p, reading, rfl, owed⟩ := scopeOf_accepts ih _ _ _ run
    exact ⟨.enclosed p, reading, rfl, owed⟩
  · obtain ⟨p, reading, rfl, owed⟩ := command_accepts _ _ _ run
    exact ⟨.plain p, reading, rfl, owed⟩

theorem element_accepts : AcceptsItem input element (.one .element) Phrase.value := by
  intro s a t run
  rw [element, runFrom_bounded] at run
  exact elementWithin_accepts _ s a t run

end Rule

/-- A program that is accepted is an element and nothing else. -/
theorem parse_accepts {tokens : List Token} {limit : Nat} {chain : Chain} {t : State}
    (run : parse tokens limit = (.ok chain, t)) :
    ∃ p : Phrase (.one .element), lexemes tokens = p.lexemes ∧
      (∀ lexeme ∈ p.lexemes, lexeme.Readable) ∧ p.nesting ≤ limit ∧
      chain = Item.program p.value ∧ t.cursor = p.lexemes.length ∧ t.debt = 0 := by
  simp only [parse, Rule.program, Rule.runFrom_enter_bind] at run
  obtain ⟨root, u, first, later⟩ := Rule.runFrom_bind_ok_iff.mp run
  obtain ⟨p, reading, rfl, owed⟩ := Rule.element_accepts _ _ _ first
  rw [Rule.runFrom_kind_bind] at later
  split at later
  · cases later
  · next ending =>
    simp only [Rule.runFrom_takeDebt_bind, Rule.runFrom_ite_emit_bind,
      Rule.runFrom_pure_ok_iff] at later
    obtain ⟨rfl, rfl⟩ := later
    have nothing : Input.rest _ u.place.cursor = [] :=
      Input.rest_eq_nil_iff.mpr (Decidable.not_not.mp ending)
    have all := reading.rest
    have cursor := reading.cursor
    refine ⟨p, ?_, reading.readable, ?_, ?_, ?_, rfl⟩
    · rwa [nothing, List.append_nil] at all
    · simpa [State.place] using reading.fits
    · rw [owed]
      rfl
    · simpa [State.place] using cursor

end LinkedScopes
