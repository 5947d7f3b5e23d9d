import LinkedScopes.Proofs.Rule.Bounds
import LinkedScopes.Session

/-! Every rule comes to an end. A rule that contains itself has passed a token before it starts
itself over, and a loop passes one each time around, whatever the limit is and wherever the input
ends. So there are no more repetitions than tokens left, and no bound above their number is
reached. -/
namespace LinkedScopes

theorem Input.cursor_lt_of_remaining_lt {input : Input} {cursor cursor' : Nat}
    (less : input.remaining cursor' < input.remaining cursor) : cursor < cursor' := by
  simp only [remaining] at less
  omega

namespace Rule

variable {α β : Type}

/-- From every state among all tokens the rule comes to a result or a diagnostic. -/
def Concludes (rule : Rule α) : Prop :=
  ∀ input s, (∃ a t, rule.runFrom input s = (.ok a, t)) ∨
    ∃ d t, rule.runFrom input s = (.error (.fault d), t)

/-- The rule contains itself, and starts itself over at larger cursors only: what takes its place
inside it has to do the same there, and may do anything, or never end, at this cursor and before. -/
structure Recurs (around : Rule α → Rule α) (rule : Rule α) : Prop where
  contains : rule = around rule
  later : ∀ (input : Input) (s : State) (inner : Rule α),
    (∀ t : State, s.cursor < t.cursor → inner.runFrom input t = rule.runFrom input t) →
    (around inner).runFrom input s = rule.runFrom input s

/-- Each time around, with what it has so far, a loop ends, or fails, or goes on at a larger cursor
with more. How often it may still go around makes no difference to that, and with a bound above
the tokens left it may go around often enough. -/
structure Loops (loop : Nat → β → Rule α) : Prop where
  around : ∀ (input : Input) (b : β) (s : State),
    (∃ a, ∀ bound, (loop (bound + 1) b).runFrom input s = (.ok a, s)) ∨
    (∃ d t, ∀ bound, (loop (bound + 1) b).runFrom input s = (.error (.fault d), t)) ∨
    ∃ b' t, s.cursor < t.cursor ∧
      ∀ bound, (loop (bound + 1) b).runFrom input s = (loop bound b').runFrom input t
  enough : ∀ (input : Input) (b : β) (s : State) (bound : Nat),
    input.remaining s.cursor < bound → ((loop bound b).runFrom input s).1 ≠ .error .exhausted

/-- With a bound above the tokens left, the rule is the one without a bound. -/
def Suffices (within : Nat → Rule α) (rule : Rule α) : Prop :=
  ∀ (input : Input) (s : State) (bound : Nat), input.remaining s.cursor < bound →
    (within bound).runFrom input s = rule.runFrom input s

/-- From every state the rule reaches no bound, and passes a token if it succeeds. -/
def Passes (rule : Rule α) : Prop := ∀ input s, Alike input 1 rule rule s

namespace Passes

variable {rule : Rule α}

theorem concludes (passes : Passes rule) : rule.Concludes := by
  intro input s
  have inside := (passes input s).inside
  rcases run : rule.runFrom input s with ⟨(d | _) | a, t⟩
  · exact .inr ⟨d, t, rfl⟩
  · simp [run] at inside
  · exact .inl ⟨a, t, rfl⟩

theorem cursor_lt (passes : Passes rule) {input : Input} {s t : State} {a : α}
    (run : rule.runFrom input s = (.ok a, t)) : s.cursor < t.cursor :=
  Input.cursor_lt_of_remaining_lt ((passes input s).passes a t run)

theorem below (passes : Passes rule) (input : Input) (room : Nat) :
    AlikeBelow input room 1 rule rule :=
  fun t _ => passes input t

theorem of_guarded {around : Rule α → Rule β} (guarded : Guarded around) (passes : Passes rule) :
    Passes (around rule) :=
  fun input s => guarded (passes.below input _) s (Nat.lt_succ_self _)

/-- Only what is done where fewer tokens are left makes a difference. -/
theorem recurs {around : Rule α → Rule α} (guarded : Guarded around) (passes : Passes rule)
    (contains : rule = around rule) : Recurs around rule where
  contains := contains
  later := by
    intro input s inner same
    have alike : AlikeBelow input (input.remaining s.cursor) 1 rule inner := by
      intro t less
      have here := passes input t
      have agrees := same t (Input.cursor_lt_of_remaining_lt less)
      exact ⟨agrees.symm, here.inside, here.passes⟩
    have runs := (guarded alike s (Nat.lt_succ_self _)).same
    rw [← contains] at runs
    exact runs.symm

theorem itemsWithin_loops (passes : Passes rule) : Loops (itemsWithin rule) where
  around := by
    intro input seen s
    by_cases closes : (input.token s.cursor).kind = .closeCurly
    · refine .inl ⟨seen.reverse, fun bound => ?_⟩
      rw [itemsWithin, runFrom_kind_bind, if_pos closes, runFrom_pure]
    · have goes (bound : Nat) : (itemsWithin rule (bound + 1) seen).runFrom input s =
          (rule >>= fun a => itemsWithin rule bound (a :: seen)).runFrom input s := by
        rw [itemsWithin, runFrom_kind_bind, if_neg closes]
      rcases passes.concludes input s with ⟨a, t, run⟩ | ⟨d, t, run⟩
      · refine .inr (.inr ⟨a :: seen, t, passes.cursor_lt run, fun bound => ?_⟩)
        rw [goes, runFrom_bind_of_ok run]
      · refine .inr (.inl ⟨d, t, fun bound => ?_⟩)
        rw [goes, runFrom_bind_of_error run]
  enough := by
    intro input seen s bound less
    have below := passes.below input (input.remaining s.cursor + 1)
    exact (itemsWithin_alike below bound bound seen s (Nat.lt_succ_self _) less less).inside

theorem joinsWithin_loops {operand : Rule Node} (passes : Passes operand) (ops : List Operator) :
    Loops (joinsWithin ops operand) where
  around := by
    intro input left s
    cases among : (input.token s.cursor).kind.operatorAmong ops with
    | none =>
      refine .inl ⟨left, fun bound => ?_⟩
      rw [joinsWithin, runFrom_kind_bind, among, runFrom_pure]
    | some op =>
      -- The operand is read behind the operator.
      let u : State := { s with cursor := s.cursor + 1, events := .joining op :: s.events }
      have goes (bound : Nat) : (joinsWithin ops operand (bound + 1) left).runFrom input s =
          (operand >>= fun right => joinsWithin ops operand bound
            (.operation op left right)).runFrom input u := by
        rw [joinsWithin, runFrom_kind_bind, among]
        rfl
      rcases passes.concludes input u with ⟨right, t, run⟩ | ⟨d, t, run⟩
      · have further : s.cursor + 1 < t.cursor := passes.cursor_lt run
        refine .inr (.inr ⟨.operation op left right, t, Nat.lt_of_succ_lt further, fun bound => ?_⟩)
        rw [goes, runFrom_bind_of_ok run]
      · refine .inr (.inl ⟨d, t, fun bound => ?_⟩)
        rw [goes, runFrom_bind_of_error run]
  enough := by
    intro input left s bound less
    have below := passes.below input (input.remaining s.cursor + 1)
    exact (joinsWithin_alike ops below bound bound left s (Nat.lt_succ_self _) less less).inside

end Passes

theorem Guarded.suffices {around : Rule α → Rule α} {family : Nat → Rule α}
    (guarded : Guarded around) (succ : ∀ bound, family (bound + 1) = around (family bound)) :
    Suffices family (bounded family) :=
  fun _ s bound less => (guarded.alike_bounded succ bound s less).same

/-! The rules of the grammar. -/

theorem expression_passes : Passes expression := fun _ => expression_alike

theorem command_passes : Passes command := fun _ => command_alike

theorem element_passes : Passes element := fun _ => element_alike

theorem conditional_passes : Passes conditional := command_passes.of_guarded conditionalOf_guarded

theorem scope_passes : Passes scope := element_passes.of_guarded scopeOf_guarded

theorem Passes.map {rule : Rule α} (passes : Passes rule) (f : α → β) : Passes (f <$> rule) := by
  intro input s
  rw [map_eq_pure_bind]
  exact (passes input s).bind fun a t _ => alike_pure (f a)

theorem reading_passes (what : Session.Reading) : Passes what.rule := by
  cases what with
  | expression => exact expression_passes.map _
  | term => exact (expression_passes.of_guarded termOf_guarded).map _
  | power => exact (expression_passes.of_guarded powerOf_guarded).map _
  | primary => exact (expression_passes.of_guarded primaryOf_guarded).map _
  | identifier =>
    have node := (expression_passes.of_guarded referenceOf_guarded).map Reference.node
    rw [map_eq_pure_bind] at node
    exact node.map _
  | assignment => exact Passes.map (fun _ => assignment_alike) _
  | conditional => exact conditional_passes.map _
  | command => exact command_passes.map _
  | element => exact element_passes.map _
  | scope => exact scope_passes.map _

/-- Commands hand a conditional on as they find it. -/
theorem nestedConditional_guarded : Guarded fun inner => conditionalOf (commandOf inner) :=
  fun inner => conditionalOf_guarded (commandOf_alike inner)

theorem nestedScope_guarded :
    Guarded fun inner =>
      scopeOf (kind >>= fun kind => if kind = .openCurly then inner else command) := by
  intro input room rule rule' inner
  apply scopeOf_guarded
  intro s below
  apply Alike.kind
  by_cases opens : (input.token s.cursor).kind = .openCurly
  · rw [if_pos opens, if_pos opens]
    exact inner s below
  · rw [if_neg opens, if_neg opens]
    exact command_alike s

end Rule

open Rule in
/-- Every rule and the reading of a whole program end with a result or a diagnostic. An expression,
a conditional and a scope start themselves over at larger cursors only; every loop fails or moves
forward each time around; and a bound above the tokens left is never reached. None of this
depends on the limit, on the state that a rule starts from, or on where the input ends. -/
theorem rules_conclude :
    ((∀ what : Session.Reading, what.rule.Concludes) ∧ program.Concludes) ∧
    (Recurs (fun inner => enter .expression >>= fun _ =>
        nested (level [.add, .sub] (termOf inner))) expression ∧
      Recurs (fun inner => conditionalOf (commandOf inner)) conditional ∧
      Recurs (fun inner =>
        scopeOf (kind >>= fun kind => if kind = .openCurly then inner else command)) scope) ∧
    (Loops (itemsWithin element) ∧ Loops (itemsWithin command) ∧
      Loops (joinsWithin [.add, .sub] term) ∧ Loops (joinsWithin [.mul, .div] power) ∧
      Loops (joinsWithin [.pow] primary)) ∧
    Suffices expressionWithin expression ∧ Suffices commandWithin command ∧
      Suffices elementWithin element := by
  have conditional_eq : conditional = conditionalOf (commandOf conditional) :=
    congrArg conditionalOf command_eq
  have scope_eq :
      scope = scopeOf (kind >>= fun kind => if kind = .openCurly then scope else command) :=
    congrArg scopeOf element_eq
  refine ⟨⟨?_, ?_⟩, ⟨?_, ?_, ?_⟩, ⟨?_, ?_, ?_, ?_, ?_⟩, ?_, ?_, ?_⟩
  · exact fun what => (reading_passes what).concludes
  · exact Passes.concludes fun _ => program_alike
  · exact expression_passes.recurs expression_guarded expression_eq
  · exact conditional_passes.recurs nestedConditional_guarded conditional_eq
  · exact scope_passes.recurs nestedScope_guarded scope_eq
  · exact element_passes.itemsWithin_loops
  · exact command_passes.itemsWithin_loops
  · exact (expression_passes.of_guarded termOf_guarded).joinsWithin_loops _
  · exact (expression_passes.of_guarded powerOf_guarded).joinsWithin_loops _
  · exact (expression_passes.of_guarded primaryOf_guarded).joinsWithin_loops _
  · exact expression_guarded.suffices fun _ => rfl
  · exact command_guarded.suffices fun _ => rfl
  · exact element_guarded.suffices fun _ => rfl

end LinkedScopes
