import LinkedScopes.Proofs.Grammar.Prefix
import LinkedScopes.Proofs.Grammar.Recognition
import LinkedScopes.Proofs.Grammar.Spelling
import LinkedScopes.Proofs.Rule.Bounds

/-! Faults are found as early as the grammar allows. Whatever a rule has passed when it finds a
fault is the start of a phrase of its category, or has a keyword in it that starts no command. -/
namespace LinkedScopes

namespace Rule

variable {α β : Type} {input : Input} {s t : State}

/-- Where the rule finds a fault, it has broken off a phrase of the category. -/
def FaltersFrom (input : Input) (rule : Rule α) (c : Category) (s : State) : Prop :=
  ∀ d t, rule.runFrom input s = (.error (.fault d), t) → c.Broken input s.place t.place

def Falters (input : Input) (rule : Rule α) (c : Category) : Prop :=
  ∀ s, FaltersFrom input rule c s

theorem Falters.wrap {rule : Rule α} {c d : Category} (falters : Falters input rule d)
    (around : Phrase d → Phrase c)
    (same : ∀ p, (around p).lexemes = p.lexemes) : Falters input rule c := by
  intro s d t run
  exact (falters s d t run).wrap around same

theorem broken_of_nested {rule : Rule α} {c : Category} {d : Diagnostic}
    (run : (nested rule).runFrom input s = (.error (.fault d), t)) (p : Phrase c)
    (falters : FaltersFrom input rule c { s with depth := s.depth + 1 })
    (readable : ∀ lexeme ∈ p.lexemes, lexeme.Readable) :
    c.Broken input s.place t.place := by
  rw [runFrom_nested] at run
  split at run
  · obtain ⟨-, rfl⟩ := Prod.mk.inj run
    exact .here .nil p p.lexemes rfl readable
  · next allowed =>
    rw [runFrom_deeper] at run
    obtain ⟨fails, rfl⟩ := Prod.mk.inj run
    obtain ⟨passed, reading, breaks⟩ := falters d _ (Prod.ext fails rfl)
    refine ⟨passed, ?_, breaks⟩
    exact (Reading.deeper (Nat.lt_of_not_le allowed) reading).mono (Nat.zero_le _)

/-- With no bound left no fault is found, so what holds of each fault of a rule that contains
itself is shown from what holds of those inside. -/
theorem falters_bounded {rule : Nat → Rule α} {c : Category} (zero : rule 0 = exhausted)
    (succ : ∀ bound, Falters input (rule bound) c → Falters input (rule (bound + 1)) c) :
    Falters input (bounded rule) c := by
  have all (bound : Nat) : Falters input (rule bound) c := by
    induction bound with
    | zero =>
      intro s d t run
      rw [zero] at run
      cases run
    | succ bound ih => exact succ bound ih
  intro s d t run
  rw [runFrom_bounded] at run
  exact all _ s d t run

section Expressions

variable {rank : Precedence} {operand expression : Rule Node}

theorem joinsWithin_falters (accepts : AcceptsNode input operand (.operand rank) Phrase.value)
    (falters : Falters input operand (.operand rank)) (bound : Nat) (left : Node) :
    Falters input (joinsWithin rank.operators operand bound left) (.many (.join rank)) := by
  induction bound generalizing left with
  | zero =>
    intro s d t run
    cases run
  | succ bound ih =>
    intro s d t run
    rw [joinsWithin, runFrom_kind_bind] at run
    split at run
    · cases run
    · next op among =>
      obtain ⟨kind, member⟩ := Kind.operatorAmong_eq_some_iff.mp among
      simp only [runFrom_emit_bind, runFrom_advance_bind] at run
      have sign : Reading input s.place ⟨s.cursor + 1, s.depth⟩ [.operator op] 0 :=
        .bare s.depth kind rfl (by simp)
      rcases runFrom_bind_error_iff.mp run with first | ⟨right, u, first, later⟩
      · exact (falters _ _ _ first).last sign (fun p => .more (.join op member p) .none)
          (by simp [Phrase.lexemes])
      · obtain ⟨p, reading, -⟩ := accepts _ _ _ first
        exact (ih _ _ _ _ later).last (sign.append reading) (.more (.join op member p)) fun _ => rfl

theorem level_falters (rank : Precedence)
    (accepts : AcceptsNode input operand (.operand rank) Phrase.value)
    (falters : Falters input operand (.operand rank)) :
    Falters input (level rank.operators operand) (.level rank) := by
  intro s d t run
  rcases runFrom_bind_error_iff.mp run with first | ⟨node, u, first, later⟩
  · exact (falters _ _ _ first).wrap (fun p => .joined p .none) fun _ => List.append_nil _
  · obtain ⟨p, reading, -⟩ := accepts _ _ _ first
    rw [runFrom_bounded] at later
    exact (joinsWithin_falters accepts falters _ _ _ _ _ later).last reading (.joined p)
      fun _ => rfl

/-- An expression breaks off, or the parenthesis that closes it is missing, and then what stands
before is a whole expression. -/
theorem closing_falters {message : String} {result : Node → α}
    (accepts : AcceptsNode input expression .expression Phrase.value)
    (falters : Falters input expression .expression) :
    Falters input (do
      let node ← expression
      _ ← expectFor .closeParen message
      return result node) .expression := by
  intro s d t run
  rcases runFrom_bind_error_iff.mp run with first | ⟨node, u, first, later⟩
  · exact falters _ _ _ first
  · obtain ⟨p, reading, -⟩ := accepts _ _ _ first
    rcases runFrom_bind_error_iff.mp later with missing | ⟨_, v, -, last⟩
    · obtain rfl := runFrom_expectFor_error missing
      exact .behind reading
    · cases last

theorem referenceOf_falters (accepts : AcceptsNode input expression .expression Phrase.value)
    (falters : Falters input expression .expression) :
    Falters input (referenceOf expression) .primary := by
  intro s d t run
  simp only [referenceOf, runFrom_enter_bind, runFrom_current_bind] at run
  split at run
  · cases run
  · next kind =>
    have word := Reading.word s.depth kind rfl (by simp)
    rw [runFrom_advance_bind] at run
    split at run
    · cases run
    · next operation =>
      have operation := Bool.eq_false_iff.mpr operation
      rw [runFrom_kind_bind] at run
      split at run
      · obtain ⟨-, rfl⟩ := Prod.mk.inj run
        exact .here word (.call _ operation .filler)
          [.bare .openParen, ⟨.identifier, "x"⟩, .bare .closeParen] rfl (by decide)
      · next opens =>
        have opening := Reading.bare s.depth (Decidable.not_not.mp opens) rfl (by simp)
        rw [runFrom_advance_bind] at run
        exact (closing_falters accepts falters _ _ _ run).within (word.append opening)
          (.call _ operation) [.bare .closeParen] (fun _ => rfl) (by decide)
  · obtain ⟨-, rfl⟩ := Prod.mk.inj run
    exact .here .nil (.var "x") [⟨.identifier, "x"⟩] rfl (by decide)

theorem primaryOf_falters (accepts : AcceptsNode input expression .expression Phrase.value)
    (falters : Falters input expression .expression) :
    Falters input (primaryOf expression) .primary := by
  intro s d t run
  simp only [primaryOf, runFrom_enter_bind, runFrom_current_bind] at run
  split at run
  · next opens =>
    rw [runFrom_advance_bind] at run
    exact (closing_falters accepts falters _ _ _ run).within (.bare s.depth opens rfl (by simp))
      .group [.bare .closeParen] (fun _ => rfl) (by decide)
  · split at run
    · obtain ⟨-, rfl⟩ := Prod.mk.inj run
      exact .here .nil (.var "x") [⟨.identifier, "x"⟩] rfl (by decide)
    · cases run
  · rcases runFrom_bind_error_iff.mp run with refers | ⟨reference, u, -, last⟩
    · have broken := referenceOf_falters accepts falters _ _ _ refers
      exact broken
    · cases last

theorem powerOf_falters (accepts : AcceptsNode input expression .expression Phrase.value)
    (falters : Falters input expression .expression) :
    Falters input (powerOf expression) (.level .power) :=
  level_falters .power ((primaryOf_accepts accepts).wrap .primary)
    ((primaryOf_falters accepts falters).wrap .primary fun _ => rfl)

theorem termOf_falters (accepts : AcceptsNode input expression .expression Phrase.value)
    (falters : Falters input expression .expression) :
    Falters input (termOf expression) (.level .product) :=
  level_falters .product ((powerOf_accepts accepts).wrap .power)
    ((powerOf_falters accepts falters).wrap .power fun _ => rfl)

end Expressions

theorem expression_falters : Falters input expression .expression := by
  refine falters_bounded rfl ?_
  intro bound ih s d t run
  rw [expressionWithin, runFrom_enter_bind] at run
  have accepts : AcceptsNode input (expressionWithin bound) .expression Phrase.value :=
    expressionWithin_accepts bound
  have falters := level_falters .sum ((termOf_accepts accepts).wrap .product)
    ((termOf_falters accepts ih).wrap .product fun _ => rfl)
  have whole := falters.wrap .expression fun _ => rfl
  have broken := broken_of_nested run .filler (whole _) (by decide)
  exact broken

theorem assignment_falters : Falters input assignment .assignment := by
  intro s d t run
  simp only [assignment, runFrom_enter_bind, runFrom_kind_bind] at run
  split at run
  · obtain ⟨-, rfl⟩ := Prod.mk.inj run
    exact .here .nil (.assignment "x" .filler)
      [⟨.identifier, "x"⟩, .operator .assign, ⟨.identifier, "x"⟩] rfl (by decide)
  · next kind =>
    have target := Reading.word s.depth (Decidable.not_not.mp kind) rfl (by simp)
    simp only [runFrom_advance_bind, runFrom_current_bind] at run
    split at run
    · obtain ⟨-, rfl⟩ := Prod.mk.inj run
      exact .here target (.assignment (input.token s.cursor).text .filler)
        [.operator .assign, ⟨.identifier, "x"⟩] rfl (by decide)
    · next sign =>
      have assign : Reading input ⟨s.cursor + 1, s.depth⟩ ⟨s.cursor + 2, s.depth⟩
          [.operator .assign] 0 :=
        .bare s.depth (by simpa [Token.isOperator] using sign) rfl (by simp)
      rw [runFrom_advance_bind] at run
      rcases runFrom_bind_error_iff.mp run with value | ⟨value, u, -, last⟩
      · exact (expression_falters _ _ _ value).last (target.append assign)
          (.assignment (input.token s.cursor).text) fun _ => rfl
      · cases last

section Braces

variable (what : Repeated) (item : what.Value → Item) {rule : Rule Chain}

theorem itemsWithin_falters (accepts : AcceptsItem input rule (.one what) fun p => item p.value)
    (falters : Falters input rule (.one what)) (bound : Nat) (seen : List Chain) :
    Falters input (itemsWithin rule bound seen) (.many what) := by
  induction bound generalizing seen with
  | zero =>
    intro s d t run
    cases run
  | succ bound ih =>
    intro s d t run
    rw [itemsWithin, runFrom_kind_bind] at run
    split at run
    · cases run
    · rcases runFrom_bind_error_iff.mp run with first | ⟨links, u, first, later⟩
      · exact (falters _ _ _ first).wrap (fun p => .more p .none) fun _ => List.append_nil _
      · obtain ⟨p, reading, -⟩ := accepts _ _ _ first
        exact (ih _ _ _ _ later).last reading (.more p) fun _ => rfl

theorem braced_falters {c : Category}
    (accepts : AcceptsItem input rule (.one what) fun p => item p.value)
    (falters : Falters input rule (.one what))
    (around : Phrase (.one what) → Phrase (.many what) → Phrase c)
    (spells : ∀ first others, (around first others).lexemes =
      .bare .openCurly :: (first.lexemes ++ others.lexemes ++ [.bare .closeCurly]))
    (opens : (input.token s.cursor).kind = .openCurly) {d : Diagnostic} {debt : Nat}
    {events : List Event}
    (run : (braced rule).runFrom input ⟨s.cursor + 1, debt, s.depth, events⟩ =
      (.error (.fault d), t)) : c.Broken input s.place t.place := by
  have opening := Reading.bare s.depth opens rfl (by simp)
  rcases runFrom_bind_error_iff.mp run with first | ⟨links, u, first, later⟩
  · exact (falters _ _ _ first).within opening (fun p => around p .none) [.bare .closeCurly]
      (by simp [spells, Phrase.lexemes]) (by decide)
  · obtain ⟨p, reading, -⟩ := accepts _ _ _ first
    rcases runFrom_bind_error_iff.mp later with items | ⟨links, v, -, last⟩
    · rw [runFrom_bounded] at items
      exact (itemsWithin_falters what item accepts falters _ _ _ _ _ items).within
        (opening.append reading) (around p) [.bare .closeCurly] (by simp [spells]) (by decide)
    · cases last

end Braces

section Commands

variable {command : Rule Chain} {conditional : Rule Node}

theorem bodyOf_falters
    (accepts : AcceptsItem input command (.one .command) fun p => .command p.value)
    (falters : Falters input command (.one .command)) :
    Falters input (bodyOf command) .body := by
  intro s d t run
  rw [bodyOf, runFrom_kind_bind] at run
  split at run
  · next opens =>
    rw [runFrom_advance_bind] at run
    rcases runFrom_bind_error_iff.mp run with inner | ⟨links, u, -, last⟩
    · exact braced_falters .command .command accepts falters .block (fun _ _ => rfl) opens inner
    · cases last
  · exact (falters _ _ _ run).wrap .single fun _ => rfl

theorem referenceOf_passes {expression : Rule Node}
    (accepts : AcceptsNode input expression .expression Phrase.value)
    (falters : Falters input expression .expression)
    (word : (input.token s.cursor).kind = .keyword) {d : Diagnostic}
    (run : (referenceOf expression).runFrom input s = (.error (.fault d), t)) :
    s.cursor < t.cursor := by
  simp only [referenceOf, runFrom_enter_bind, runFrom_current_bind, word,
    runFrom_advance_bind] at run
  split at run
  · cases run
  · rw [runFrom_kind_bind] at run
    split at run
    · obtain ⟨-, rfl⟩ := Prod.mk.inj run
      exact Nat.lt_succ_self _
    · rw [runFrom_advance_bind] at run
      have forward := (closing_falters accepts falters _ _ _ run).cursor_le
      exact Nat.lt_of_succ_lt (Nat.lt_of_succ_le forward)

/-- A keyword that starts no conditional is refused, after all of the reference has been read or
where that breaks off. -/
theorem headWord_falters (word : (input.token s.cursor).kind = .keyword) :
    FaltersFrom input headWord .conditional s := by
  intro d t run
  rw [headWord, runFrom_position_bind, reference] at run
  cases conditional : isConditionalWord (input.token s.cursor).text with
  | true =>
    have spelled := Token.lexeme_eq_spelled word rfl
    obtain ⟨events, reads⟩ := Phrase.referenceOf_head s spelled conditional
    rw [runFrom_bind_of_ok reads] at run
    cases run
  | false =>
    rcases runFrom_bind_error_iff.mp run with first | ⟨reference, u, first, last⟩
    · obtain ⟨passed, reading, -⟩ :=
        referenceOf_falters expression_accepts expression_falters _ _ _ first
      have moved := referenceOf_passes expression_accepts expression_falters word first
      exact .strayed reading moved word conditional
    · obtain ⟨p, reading, -⟩ := referenceOf_accepts expression_accepts _ _ _ first
      have moved : s.cursor < u.cursor := by
        have cursor := reading.cursor
        have some := p.length_pos (by simp)
        simp only [State.place] at cursor
        omega
      cases reference with
      | head => cases last
      | _ =>
        obtain ⟨-, rfl⟩ := Prod.mk.inj last
        exact .strayed reading moved word conditional

theorem conditionalOf_falters
    (accepts : AcceptsItem input command (.one .command) fun p => .command p.value)
    (falters : Falters input command (.one .command))
    (word : (input.token s.cursor).kind = .keyword) :
    FaltersFrom input (conditionalOf command) .conditional s := by
  intro d t run
  refine broken_of_nested run (.conditional "if" rfl .filler (.single (.copy "x" "x"))) ?_
    (by decide)
  intro d t run
  rw [runFrom_enter_bind] at run
  rcases runFrom_bind_error_iff.mp run with head | ⟨head, u, start, run⟩
  · have broken := headWord_falters (s := ⟨s.cursor, s.debt, s.depth + 1, _⟩) word _ _ head
    exact broken
  obtain ⟨conditional, reading, -⟩ := headWord_ok start
  rcases runFrom_bind_error_iff.mp run with missing | ⟨_, v, opens, run⟩
  · obtain rfl := runFrom_expectFor_error missing
    exact .here reading (.conditional head conditional .filler (.single (.copy "x" "x")))
      (.bare .openParen :: ⟨.identifier, "x"⟩ :: .bare .closeParen :: (Phrase.copy "x" "x").lexemes)
      rfl (by decide)
  obtain ⟨opening, -, rfl⟩ := runFrom_expectFor_ok_iff.mp opens
  have reading := reading.append (.bare u.depth opening rfl (by simp))
  rcases runFrom_bind_error_iff.mp run with inner | ⟨condition, v, inner, run⟩
  · exact (expression_falters _ _ _ inner).within reading
      (fun p => .conditional head conditional p (.single (.copy "x" "x")))
      (.bare .closeParen :: (Phrase.copy "x" "x").lexemes) (fun _ => rfl) (by decide)
  obtain ⟨p, inside, -⟩ := expression_accepts _ _ _ inner
  have reading := reading.append inside
  rcases runFrom_bind_error_iff.mp run with missing | ⟨_, w, closes, run⟩
  · obtain rfl := runFrom_expectFor_error missing
    exact .here reading (.conditional head conditional p (.single (.copy "x" "x")))
      (.bare .closeParen :: (Phrase.copy "x" "x").lexemes) rfl (by decide)
  obtain ⟨closing, -, rfl⟩ := runFrom_expectFor_ok_iff.mp closes
  have reading := reading.append (.bare v.depth closing rfl (by simp))
  rcases runFrom_bind_error_iff.mp run with body | ⟨body, w, -, last⟩
  · exact (bodyOf_falters accepts falters _ _ _ body).last reading (.conditional head conditional p)
      (by simp [Phrase.lexemes])
  · cases last

theorem commandOf_falters (falters : ∀ s, (input.token s.cursor).kind = .keyword →
      FaltersFrom input conditional .conditional s) :
    Falters input (commandOf conditional) (.one .command) := by
  intro s d t run
  simp only [commandOf, runFrom_enter_bind, runFrom_takeDebt_bind, runFrom_kind_bind] at run
  split at run
  · next word =>
    rcases runFrom_bind_error_iff.mp run with inner | ⟨node, u, -, last⟩
    · have broken := falters ⟨s.cursor, 0, s.depth, _⟩ word _ _ inner
      exact broken.wrap .conditioned fun _ => rfl
    · rw [runFrom_ite_emit_bind] at last
      cases last
  · rcases runFrom_bind_error_iff.mp run with inner | ⟨node, u, inner, later⟩
    · exact (assignment_falters _ _ _ inner).within .nil .assigned [.bare .semicolon]
        (fun _ => rfl) (by decide)
    · obtain ⟨p, reading, -⟩ := assignment_accepts _ _ _ inner
      rcases runFrom_bind_error_iff.mp later with missing | ⟨_, v, -, last⟩
      · obtain rfl := runFrom_expect_error missing
        exact .here reading (.assigned p) [.bare .semicolon] rfl (by decide)
      · rw [pure_bind, runFrom_ite_emit_bind] at last
        cases last

end Commands

theorem command_falters : Falters input command (.one .command) := by
  refine falters_bounded rfl ?_
  intro bound ih
  exact commandOf_falters fun s => conditionalOf_falters (commandWithin_accepts bound) ih

theorem scopeOf_falters {element : Rule Chain}
    (accepts : AcceptsItem input element (.one .element) fun p => p.value)
    (falters : Falters input element (.one .element)) :
    Falters input (scopeOf element) .scope := by
  intro s d t run
  refine broken_of_nested run (.scope (.plain (.copy "x" "x")) .none) ?_ (by decide)
  intro d t run
  rw [runFrom_enter_bind] at run
  rcases runFrom_bind_error_iff.mp run with missing | ⟨_, u, opens, run⟩
  · obtain rfl := runFrom_expectFor_error missing
    exact .here .nil (.scope (.plain (.copy "x" "x")) .none)
      (.bare .openCurly :: (Phrase.copy "x" "x").lexemes ++ [.bare .closeCurly]) rfl (by decide)
  obtain ⟨opening, -, rfl⟩ := runFrom_expectFor_ok_iff.mp opens
  simp only [runFrom_takeDebt_bind, runFrom_ite_emit_bind] at run
  rcases runFrom_bind_error_iff.mp run with inner | ⟨links, v, -, last⟩
  · exact braced_falters .element id accepts falters .scope (fun _ _ => rfl) opening inner
  · simp only [runFrom_owe_bind, runFrom_get_bind, runFrom_emit_bind,
      runFrom_ite_emit_bind] at last
    cases last

theorem element_falters : Falters input element (.one .element) := by
  refine falters_bounded rfl ?_
  intro bound ih s d t run
  rw [elementWithin, runFrom_kind_bind] at run
  split at run
  · have broken := scopeOf_falters (elementWithin_accepts bound) ih _ _ _ run
    exact broken.wrap .enclosed fun _ => rfl
  · exact (command_falters _ _ _ run).wrap .plain fun _ => rfl

theorem program_falters : Falters input program (.one .element) := by
  intro s d t run
  simp only [program, runFrom_enter_bind] at run
  rcases runFrom_bind_error_iff.mp run with inner | ⟨root, u, inner, later⟩
  · have broken := element_falters _ _ _ inner
    exact broken
  · obtain ⟨p, reading, -⟩ := element_accepts _ _ _ inner
    rw [runFrom_kind_bind] at later
    split at later
    · obtain ⟨-, rfl⟩ := Prod.mk.inj later
      exact .behind reading
    · simp only [runFrom_takeDebt_bind, runFrom_ite_emit_bind] at later
      cases later

end Rule

/-! From lexemes back to tokens. -/

/-- Some tokens can go on so that all of them are accepted, if enough nesting is allowed. -/
def Viable (tokens : List Token) : Prop :=
  ∃ more limit chain t, parse (tokens ++ more) limit = (.ok chain, t)

theorem viable_of_opens {front : List Token} (proper : ∀ token ∈ front, token.kind ≠ .endOfInput)
    (opens : Category.Opens (.one .element) (front.map Token.lexeme)) : Viable front := by
  obtain ⟨p, readable, rest, parts⟩ := opens
  have spelled : ∀ lexeme ∈ rest, lexeme.Spelled := by
    intro lexeme member
    apply p.spelled
    rw [← parts]
    exact List.mem_append_right _ member
  let more := rest.map fun lexeme => Token.detached lexeme.kind lexeme.text
  have derives : p.lexemes = lexemes (front ++ more) := by
    rw [lexemes_append proper, lexemes_detached spelled, parts]
  obtain ⟨events, run⟩ := parse_returns p derives readable (Nat.le_refl _)
  exact ⟨more, p.nesting, _, _, run⟩

/-- Where a keyword of an operation has strayed among some tokens, `if` and its parenthesis could
have stood. -/
theorem viable_of_strays {front : List Token} (proper : ∀ token ∈ front, token.kind ≠ .endOfInput)
    (strays : Category.Strays (.one .element) (front.map Token.lexeme)) :
    ∃ i < front.length, ∃ token, front[i]? = some token ∧ token.kind = .keyword ∧
      isConditionalWord token.text = false ∧
      Viable (front.take i ++ [.detached .keyword "if", .detached .openParen "("]) := by
  obtain ⟨before, word, after, parts, operation, opens⟩ := strays
  obtain ⟨earlier, others, rfl, rfl, second⟩ := List.map_eq_append_iff.mp parts
  obtain ⟨token, later, rfl, is, -⟩ := List.map_eq_cons_iff.mp second
  obtain ⟨kind, text⟩ := Token.of_lexeme_eq is rfl
  refine ⟨earlier.length, by simp, token, by simp, kind, by rwa [text], ?_⟩
  rw [List.take_left]
  apply viable_of_opens
  · refine List.forall_mem_append.mpr ⟨?_, by decide⟩
    exact fun other early => proper other (List.mem_append_left _ early)
  · rw [List.map_append]
    exact opens

/-- Faults are found as early as the grammar allows. The tokens that have been passed when reading
fails start a program. There is one exception: a keyword of an operation may have been passed where
`if` and its parenthesis could stand. -/
theorem viable_of_fault {tokens : List Token} {limit : Nat} {halt : Halt} {t : State}
    (run : parse tokens limit = (.error halt, t)) :
    Viable (tokens.take t.cursor) ∨ ∃ i < t.cursor, ∃ token, tokens[i]? = some token ∧
      token.kind = .keyword ∧ isConditionalWord token.text = false ∧
      Viable (tokens.take i ++ [.detached .keyword "if", .detached .openParen "("]) := by
  cases halt with
  | exhausted => exact absurd (congrArg Prod.fst run) (parse_ne_exhausted tokens limit)
  | fault d =>
    obtain ⟨passed, reading, breaks⟩ := Rule.program_falters {} d t run
    have cursor : t.cursor = passed.length := reading.cursor.trans (Nat.zero_add _)
    obtain ⟨same, proper⟩ := take_of_lexemes (show lexemes tokens = _ from reading.rest)
    rw [← cursor] at same proper
    rw [← same] at breaks
    rcases breaks with opens | strays
    · exact .inl (viable_of_opens proper opens)
    · obtain ⟨i, inside, token, here, kind, operation, viable⟩ := viable_of_strays proper strays
      have before : i < t.cursor := Nat.lt_of_lt_of_le inside (List.length_take_le _ _)
      rw [List.getElem?_take_of_lt before] at here
      rw [List.take_take, Nat.min_eq_left (Nat.le_of_lt before)] at viable
      exact .inr ⟨i, before, token, here, kind, operation, viable⟩

/-- An assignment without its semicolon is the start of one. -/
theorem viable_of_fault_open :
    let tokens : List Token := [.detached .identifier "x", .detached (.operator .assign) "=",
      .detached .identifier "y"]
    (parse tokens 9).1 = .error (.fault ⟨.unexpected "EOF", .null⟩) ∧
      (parse tokens 9).2.cursor = 3 ∧ Viable tokens := by
  intro tokens
  have fails : (parse tokens 9).1 = .error (.fault ⟨.unexpected "EOF", .null⟩) := rfl
  have cursor : (parse tokens 9).2.cursor = 3 := rfl
  refine ⟨fails, cursor, ?_⟩
  have run : parse tokens 9 = (.error _, (parse tokens 9).2) := Prod.ext fails rfl
  rcases viable_of_fault run with viable | ⟨i, -, token, here, keyword, -⟩
  · rwa [cursor] at viable
  · have none : ∀ token ∈ tokens, token.kind ≠ .keyword := by decide
    exact absurd keyword (none token (List.mem_of_getElem? here))

end LinkedScopes
