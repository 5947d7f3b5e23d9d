import LinkedScopes.Proofs.Grammar.Lexeme
import LinkedScopes.Proofs.Rule.Step

/-! No bound is ever reached. Each time a rule contains itself, or goes around a loop, it has
passed a token, so with a bound above the tokens that are left it ends before the bound does;
and then any two such bounds do the same. Both are carried through the rules together: two
rules are alike where they do the same, reach no bound, and pass some tokens if they
succeed. -/
namespace LinkedScopes

theorem Input.remaining_succ {input : Input} {cursor : Nat}
    (h : (input.token cursor).kind ≠ .endOfInput) :
    input.remaining (cursor + 1) + 1 = input.remaining cursor := by
  have inside := lt_size_of_kind h
  simp only [remaining]
  omega

theorem Input.remaining_succ_le (input : Input) (cursor : Nat) :
    input.remaining (cursor + 1) ≤ input.remaining cursor := by
  simp only [remaining]
  omega

namespace Rule

variable {α β : Type} {input : Input}

/-- From this state two rules do the same, reach no bound, and pass at least so many tokens if
they succeed. -/
structure Alike (input : Input) (passing : Nat) (rule rule' : Rule α) (s : State) : Prop where
  same : rule.runFrom input s = rule'.runFrom input s
  inside : (rule.runFrom input s).1 ≠ .error .exhausted
  passes : ∀ a t, rule.runFrom input s = (.ok a, t) →
    input.remaining t.cursor + passing ≤ input.remaining s.cursor

/-- Two rules are alike where fewer tokens are left than there is room for. -/
def AlikeBelow (input : Input) (room passing : Nat) (rule rule' : Rule α) : Prop :=
  ∀ s, input.remaining s.cursor < room → Alike input passing rule rule' s

section

variable {passing : Nat} {rule rule' : Rule α} {s : State}

theorem Alike.bind {next next' : α → Rule β} (first : Alike input passing rule rule' s)
    (later : ∀ a t, input.remaining t.cursor + passing ≤ input.remaining s.cursor →
      Alike input 0 (next a) (next' a) t) :
    Alike input passing (rule >>= next) (rule' >>= next') s := by
  have same := first.same
  rcases run : rule.runFrom input s with ⟨halt | a, t⟩
  · have run' := same.symm.trans run
    refine ⟨?_, ?_, ?_⟩
    · rw [runFrom_bind_of_error run, runFrom_bind_of_error run']
    · rw [runFrom_bind_of_error run]
      have inside := first.inside
      rw [run] at inside
      intro reached
      exact inside (congrArg Except.error (Except.error.inj reached))
    · intro b u ends
      rw [runFrom_bind_of_error run] at ends
      cases ends
  · have run' := same.symm.trans run
    have passed := first.passes a t run
    have there := later a t passed
    refine ⟨?_, ?_, ?_⟩
    · rw [runFrom_bind_of_ok run, runFrom_bind_of_ok run', there.same]
    · rw [runFrom_bind_of_ok run]
      exact there.inside
    · intro b u ends
      rw [runFrom_bind_of_ok run] at ends
      have passed' := there.passes b u ends
      omega

theorem Alike.weaken (alike : Alike input passing rule rule' s) : Alike input 0 rule rule' s where
  same := alike.same
  inside := alike.inside
  passes := by
    intro a t run
    have := alike.passes a t run
    omega

theorem Alike.seq {next next' : α → Rule β} (first : Alike input passing rule rule' s)
    (later : ∀ a t, input.remaining t.cursor + passing ≤ input.remaining s.cursor →
      Alike input 0 (next a) (next' a) t) :
    Alike input 0 (rule >>= next) (rule' >>= next') s :=
  (first.bind later).weaken

theorem alike_pure (a : α) : Alike input 0 (pure a) (pure a) s :=
  ⟨rfl, by rintro ⟨⟩, by rintro b t ⟨⟩; exact Nat.le_refl _⟩

/-- Even past the end, nothing is left then that was not before. -/
theorem alike_advance : Alike input 0 advance advance s :=
  ⟨rfl, by rintro ⟨⟩, by rintro token t ⟨⟩; exact input.remaining_succ_le s.cursor⟩

theorem alike_fail (fault : Fault) (position : Position) (passing : Nat) :
    Alike input passing (fail fault position : Rule α) (fail fault position) s :=
  ⟨rfl, by rintro ⟨⟩, by rintro a t ⟨⟩⟩

theorem alike_unexpected (message : String) (passing : Nat) :
    Alike input passing (unexpected message : Rule α) (unexpected message) s :=
  ⟨rfl, by rintro ⟨⟩, by rintro a t ⟨⟩⟩

theorem alike_expect {kind : Kind} (proper : kind ≠ .endOfInput) :
    Alike input 1 (expect kind) (expect kind) s := by
  refine ⟨rfl, ?_, ?_⟩
  · rw [runFrom_expect]
    split <;> rintro ⟨⟩
  · intro token t run
    obtain ⟨is, -, rfl⟩ := runFrom_expect_ok_iff.mp run
    exact Nat.le_of_eq (Input.remaining_succ (is ▸ proper))

theorem alike_expectFor {kind : Kind} {message : String} (proper : kind ≠ .endOfInput) :
    Alike input 1 (expectFor kind message) (expectFor kind message) s := by
  refine ⟨rfl, ?_, ?_⟩
  · rw [runFrom_expectFor]
    split <;> rintro ⟨⟩
  · intro token t run
    obtain ⟨is, -, rfl⟩ := runFrom_expectFor_ok_iff.mp run
    exact Nat.le_of_eq (Input.remaining_succ (is ▸ proper))

end

/-! What follows a step that passes no token. -/

section

variable {passing : Nat} {s : State}

theorem Alike.current {next next' : Token → Rule α}
    (later : Alike input passing (next (input.token s.cursor)) (next' (input.token s.cursor)) s) :
    Alike input passing (current >>= next) (current >>= next') s :=
  ⟨later.same, later.inside, later.passes⟩

theorem Alike.kind {next next' : Kind → Rule α}
    (later : Alike input passing (next (input.token s.cursor).kind)
      (next' (input.token s.cursor).kind) s) :
    Alike input passing (kind >>= next) (kind >>= next') s :=
  ⟨later.same, later.inside, later.passes⟩

theorem Alike.position {next next' : Position → Rule α}
    (later : Alike input passing (next (input.token s.cursor).span.start)
      (next' (input.token s.cursor).span.start) s) :
    Alike input passing (position >>= next) (position >>= next') s :=
  ⟨later.same, later.inside, later.passes⟩

theorem Alike.emit {event : Event} {next next' : Unit → Rule α}
    (later : Alike input passing (next ()) (next' ()) { s with events := event :: s.events }) :
    Alike input passing (emit event >>= next) (emit event >>= next') s :=
  ⟨later.same, later.inside, later.passes⟩

theorem Alike.enter {name : RuleName} {next next' : Unit → Rule α}
    (later : Alike input passing (next ()) (next' ())
      { s with events := .entered name (input.token s.cursor) :: s.events }) :
    Alike input passing (enter name >>= next) (enter name >>= next') s :=
  ⟨later.same, later.inside, later.passes⟩

theorem Alike.takeDebt {next next' : Nat → Rule α}
    (later : Alike input passing (next s.debt) (next' s.debt) { s with debt := 0 }) :
    Alike input passing (takeDebt >>= next) (takeDebt >>= next') s :=
  ⟨later.same, later.inside, later.passes⟩

theorem Alike.owe {next next' : Unit → Rule α}
    (later : Alike input passing (next ()) (next' ()) { s with debt := s.debt + 1 }) :
    Alike input passing (owe >>= next) (owe >>= next') s :=
  ⟨later.same, later.inside, later.passes⟩

theorem Alike.get {next next' : State → Rule α}
    (later : Alike input passing (next s) (next' s) s) :
    Alike input passing (get >>= next) (get >>= next') s :=
  ⟨later.same, later.inside, later.passes⟩

theorem Alike.advance {next next' : Token → Rule α}
    (proper : (input.token s.cursor).kind ≠ .endOfInput)
    (later : Alike input (passing - 1) (next (input.token s.cursor)) (next' (input.token s.cursor))
      { s with cursor := s.cursor + 1 }) :
    Alike input passing (advance >>= next) (advance >>= next') s where
  same := later.same
  inside := later.inside
  passes := by
    intro a t run
    have passed := later.passes a t run
    have here := Input.remaining_succ proper
    simp only at passed
    omega

theorem Alike.nested {rule rule' : Rule α}
    (inner : Alike input passing rule rule' { s with depth := s.depth + 1 }) :
    Alike input passing (nested rule) (nested rule') s := by
  by_cases full : input.limit ≤ s.depth
  · refine ⟨?_, ?_, ?_⟩
    · rw [runFrom_nested, runFrom_nested, if_pos full, if_pos full]
    · rw [runFrom_nested, if_pos full]
      rintro ⟨⟩
    · intro a t run
      rw [runFrom_nested, if_pos full] at run
      cases run
  · refine ⟨?_, ?_, ?_⟩
    · rw [runFrom_nested, runFrom_nested, if_neg full, if_neg full, runFrom_deeper, runFrom_deeper,
        inner.same]
    · rw [runFrom_nested, if_neg full]
      exact inner.inside
    · intro a t run
      obtain ⟨-, u, within, rfl⟩ := runFrom_nested_ok_iff.mp run
      exact inner.passes a u within

theorem Alike.bounded {rule rule' : Nat → Rule α}
    (inner : Alike input passing (rule (input.remaining s.cursor + 1))
      (rule' (input.remaining s.cursor + 1)) s) :
    Alike input passing (bounded rule) (bounded rule') s where
  same := by rw [runFrom_bounded, runFrom_bounded, inner.same]
  inside := by rw [runFrom_bounded]; exact inner.inside
  passes := by
    intro a t run
    rw [runFrom_bounded] at run
    exact inner.passes a t run

end

/-! Loops. -/

section

variable {room passing : Nat} {rule rule' : Rule α}

theorem itemsWithin_alike (items : AlikeBelow input room 1 rule rule') (bound bound' : Nat)
    (seen : List α) (s : State) (below : input.remaining s.cursor < room)
    (less : input.remaining s.cursor < bound) (less' : input.remaining s.cursor < bound') :
    Alike input 0 (itemsWithin rule bound seen) (itemsWithin rule' bound' seen) s := by
  induction bound generalizing bound' seen s with
  | zero => exact absurd less (Nat.not_lt_zero _)
  | succ bound ih =>
    cases bound' with
    | zero => exact absurd less' (Nat.not_lt_zero _)
    | succ bound' =>
      rw [itemsWithin, itemsWithin]
      apply Alike.kind
      by_cases close : (input.token s.cursor).kind = .closeCurly
      · rw [if_pos close, if_pos close]
        exact alike_pure _
      · rw [if_neg close, if_neg close]
        exact (items s below).seq fun a t passed =>
          ih bound' (a :: seen) t (by omega) (by omega) (by omega)

theorem braced_alike (items : AlikeBelow input room 1 rule rule') :
    AlikeBelow input room 1 (braced rule) (braced rule') := by
  intro s below
  refine (items s below).bind fun a t passed => ?_
  have loop : Alike input 0 (bounded fun bound => itemsWithin rule bound [a])
      (bounded fun bound => itemsWithin rule' bound [a]) t := by
    have least := Nat.lt_succ_self (input.remaining t.cursor)
    exact .bounded (itemsWithin_alike items _ _ [a] t (by omega) least least)
  exact loop.bind fun links _ _ => alike_advance.bind fun _ _ _ => alike_pure links

theorem joinsWithin_alike (ops : List Operator) {operand operand' : Rule Node}
    (operands : AlikeBelow input room 1 operand operand') (bound bound' : Nat) (left : Node)
    (s : State) (below : input.remaining s.cursor < room)
    (less : input.remaining s.cursor < bound) (less' : input.remaining s.cursor < bound') :
    Alike input 0 (joinsWithin ops operand bound left)
      (joinsWithin ops operand' bound' left) s := by
  induction bound generalizing bound' left s with
  | zero => exact absurd less (Nat.not_lt_zero _)
  | succ bound ih =>
    cases bound' with
    | zero => exact absurd less' (Nat.not_lt_zero _)
    | succ bound' =>
      rw [joinsWithin, joinsWithin]
      apply Alike.kind
      cases among : (input.token s.cursor).kind.operatorAmong ops with
      | none => exact alike_pure _
      | some op =>
        obtain ⟨is, -⟩ := Kind.operatorAmong_eq_some_iff.mp among
        have proper : (input.token s.cursor).kind ≠ .endOfInput := by simp [is]
        have here := Input.remaining_succ proper
        apply Alike.emit
        refine Alike.advance proper ?_
        refine Alike.seq (operands _ (by simp only; omega)) fun right t passed => ?_
        simp only at passed
        exact ih bound' (.operation op left right) t (by omega) (by omega) (by omega)

theorem level_alike (ops : List Operator) {operand operand' : Rule Node}
    (operands : AlikeBelow input room 1 operand operand') :
    AlikeBelow input room 1 (level ops operand) (level ops operand') := by
  intro s below
  refine (operands s below).bind fun first t passed => ?_
  have least := Nat.lt_succ_self (input.remaining t.cursor)
  exact .bounded (joinsWithin_alike ops operands _ _ first t (by omega) least least)

end

/-! Rules that contain themselves. -/

/-- A rule that uses another is guarded if it has passed a token before it does, so that it
takes room for one token more. -/
def Guarded (around : Rule α → Rule β) : Prop :=
  ∀ {input room rule rule'}, AlikeBelow input room 1 rule rule' →
    AlikeBelow input (room + 1) 1 (around rule) (around rule')

section

variable {around : Rule α → Rule α} {family : Nat → Rule α} (guarded : Guarded around)
  (succ : ∀ bound, family (bound + 1) = around (family bound))

include guarded succ

/-- A guarded rule used in itself does not depend on how often, as long as that is more often
than there are tokens left. -/
theorem Guarded.alike (bound bound' : Nat) (s : State) (less : input.remaining s.cursor < bound)
    (less' : input.remaining s.cursor < bound') :
    Alike input 1 (family bound) (family bound') s := by
  induction bound generalizing bound' s with
  | zero => exact absurd less (Nat.not_lt_zero _)
  | succ bound ih =>
    cases bound' with
    | zero => exact absurd less' (Nat.not_lt_zero _)
    | succ bound' =>
      have inner : AlikeBelow input (min bound bound') 1 (family bound) (family bound') := by
        intro t below
        exact ih bound' t (by omega) (by omega)
      rw [succ, succ]
      exact guarded inner s (by omega)

/-- With room for all tokens that are left, none of the bounds makes a difference. -/
theorem Guarded.alike_bounded (bound : Nat) :
    AlikeBelow input bound 1 (family bound) (Rule.bounded family) := by
  intro s below
  have alike := guarded.alike succ bound (input.remaining s.cursor + 1) s below
    (Nat.lt_succ_self _)
  refine ⟨?_, alike.inside, alike.passes⟩
  rw [runFrom_bounded, alike.same]

theorem Guarded.bounded_alike (s : State) :
    Alike input 1 (Rule.bounded family) (Rule.bounded family) s := by
  have least := Nat.lt_succ_self (input.remaining s.cursor)
  exact .bounded (guarded.alike succ _ _ s least least)

/-- A guarded rule is used in itself with no bound left. -/
theorem Guarded.bounded_eq : Rule.bounded family = around (Rule.bounded family) := by
  funext input s
  have inner : AlikeBelow input (input.remaining s.cursor) 1 (family (input.remaining s.cursor))
      (Rule.bounded family) := guarded.alike_bounded succ _
  have unfolded := (guarded inner s (Nat.lt_succ_self _)).same
  rw [← succ] at unfolded
  exact unfolded

end

/-- A rule that uses another only after a token reaches no bound if that one reaches none. -/
theorem Guarded.inside {around : Rule α → Rule β} (guarded : Guarded around) {inner : Rule α}
    (alike : ∀ {input} s, Alike input 1 inner inner s) (input : Input) (s : State) :
    ((around inner).runFrom input s).1 ≠ .error .exhausted :=
  (guarded (fun t _ => alike t) s (Nat.lt_succ_self _)).inside

section

variable {room : Nat} {s : State}

theorem closing_alike {expression expression' : Rule Node}
    (inner : AlikeBelow input room 1 expression expression') {message : String}
    (result : Node → α) (below : input.remaining s.cursor < room) :
    Alike input 0
      (do
        let node ← expression
        _ ← expectFor .closeParen message
        return result node)
      (do
        let node ← expression'
        _ ← expectFor .closeParen message
        return result node) s := by
  have proper : Kind.closeParen ≠ .endOfInput := by decide
  exact (inner s below).seq fun node _ _ => (alike_expectFor proper).seq fun _ _ _ => alike_pure _

theorem referenceOf_guarded : Guarded referenceOf := by
  intro input room expression expression' inner s below
  apply Alike.enter
  apply Alike.current
  simp only
  cases is : (input.token s.cursor).kind with
  | identifier =>
    refine Alike.advance ?_ (alike_pure _)
    simp [is]
  | keyword =>
    have proper : (input.token s.cursor).kind ≠ .endOfInput := by simp [is]
    have here := Input.remaining_succ proper
    refine Alike.advance proper ?_
    by_cases conditional : isConditionalWord (input.token s.cursor).text = true
    · simp only [conditional, if_true]
      exact alike_pure _
    · simp only [conditional]
      apply Alike.kind
      by_cases opens : (input.token (s.cursor + 1)).kind = .openParen
      · simp only [opens, ne_eq, not_true_eq_false, if_false]
        refine Alike.advance ?_ (closing_alike inner _ ?_)
        · simp [opens]
        · have less := input.remaining_succ_le (s.cursor + 1)
          simp only
          omega
      · simp only [opens, ne_eq, not_false_eq_true, if_true]
        exact Alike.position (alike_fail _ _ _)
  | _ => exact alike_fail _ _ _

theorem primaryOf_guarded : Guarded primaryOf := by
  intro input room expression expression' inner s below
  apply Alike.enter
  apply Alike.current
  simp only
  have word := (referenceOf_guarded inner ⟨s.cursor, s.debt, s.depth,
    .entered .primary (input.token s.cursor) :: s.events⟩ below).bind fun reference _ _ =>
      alike_pure reference.node
  cases is : (input.token s.cursor).kind with
  | openParen =>
    have proper : (input.token s.cursor).kind ≠ .endOfInput := by simp [is]
    have here := Input.remaining_succ proper
    refine Alike.advance proper (closing_alike inner id ?_)
    simp only
    omega
  | number =>
    cases Binary64.ofText? (input.token s.cursor).text with
    | none => exact alike_fail _ _ _
    | some value =>
      refine Alike.advance ?_ (alike_pure _)
      simp [is]
  | _ => exact word

theorem powerOf_guarded : Guarded powerOf :=
  fun inner => level_alike _ (primaryOf_guarded inner)

theorem termOf_guarded : Guarded termOf :=
  fun inner => level_alike _ (powerOf_guarded inner)

theorem expression_guarded :
    Guarded fun inner =>
      enter .expression >>= fun _ => nested (level [.add, .sub] (termOf inner)) := by
  intro input room rule rule' inner s below
  exact .enter (.nested (level_alike _ (termOf_guarded inner) _ below))

theorem expression_alike (s : State) : Alike input 1 expression expression s :=
  expression_guarded.bounded_alike (fun _ => rfl) s

theorem reference_alike (s : State) : Alike input 1 reference reference s :=
  referenceOf_guarded (fun t _ => expression_alike t) s (Nat.lt_succ_self _)

theorem assignment_alike (s : State) : Alike input 1 assignment assignment s := by
  apply Alike.enter
  apply Alike.kind
  by_cases is : (input.token s.cursor).kind = .identifier
  · simp only [is, ne_eq, not_true_eq_false, if_false]
    refine Alike.advance ?_ (Alike.current ?_)
    · simp [is]
    by_cases sign : (input.token (s.cursor + 1)).isOperator .assign = true
    · simp only [sign, Bool.not_true, Bool.false_eq_true, if_false]
      refine Alike.advance ?_ ?_
      · have is : (input.token (s.cursor + 1)).kind = .operator .assign := by
          simpa [Token.isOperator] using sign
        simp [is]
      · exact (expression_alike _).seq fun value _ _ => alike_pure _
    · simp only [sign, Bool.not_false, if_true]
      exact alike_unexpected _ _
  · simp only [is, ne_eq, not_false_eq_true, if_true]
    exact alike_unexpected _ _

theorem bodyOf_alike {command command' : Rule Chain}
    (inner : AlikeBelow input room 1 command command') :
    AlikeBelow input room 0 (bodyOf command) (bodyOf command') := by
  intro s below
  apply Alike.kind
  by_cases opens : (input.token s.cursor).kind = .openCurly
  · rw [if_pos opens, if_pos opens]
    have proper : (input.token s.cursor).kind ≠ .endOfInput := by simp [opens]
    have here := Input.remaining_succ proper
    refine Alike.advance proper ?_
    exact (braced_alike inner _ (by simp only; omega)).seq fun links _ _ => alike_pure _
  · rw [if_neg opens, if_neg opens]
    exact (inner s below).weaken

theorem headWord_alike (s : State) : Alike input 1 headWord headWord s := by
  apply Alike.position
  refine (reference_alike s).bind fun reference t _ => ?_
  cases reference with
  | head word => exact alike_pure _
  | _ => exact alike_fail _ _ _

theorem conditionalOf_guarded : Guarded conditionalOf := by
  intro input room command command' inner s below
  apply Alike.nested
  apply Alike.enter
  have proper : Kind.openParen ≠ .endOfInput ∧ Kind.closeParen ≠ .endOfInput := by decide
  refine (headWord_alike _).bind fun word t passed => ?_
  refine (alike_expectFor proper.1).seq fun _ u passed' => ?_
  refine (expression_alike u).seq fun condition v passed'' => ?_
  refine (alike_expectFor proper.2).seq fun _ w passed''' => ?_
  refine (bodyOf_alike inner w ?_).seq fun body _ _ => alike_pure _
  simp only at passed
  omega

theorem alike_ite_emit {c : Prop} [Decidable c] {event : Event} {next next' : Unit → Rule α}
    {passing : Nat}
    (later : ∀ events, Alike input passing (next ()) (next' ()) { s with events := events }) :
    Alike input passing (if c then emit event >>= next else next ())
      (if c then emit event >>= next' else next' ()) s := by
  by_cases holds : c
  · rw [if_pos holds, if_pos holds]
    exact Alike.emit (later _)
  · rw [if_neg holds, if_neg holds]
    exact later s.events

theorem commandOf_alike {conditional conditional' : Rule Node}
    (inner : AlikeBelow input room 1 conditional conditional') :
    AlikeBelow input room 1 (commandOf conditional) (commandOf conditional') := by
  intro s below
  apply Alike.enter
  apply Alike.takeDebt
  apply Alike.kind
  by_cases keyword : (input.token s.cursor).kind = .keyword
  · rw [if_pos keyword, if_pos keyword]
    refine Alike.bind (inner _ ?_) fun node _ _ => ?_
    · exact below
    · exact alike_ite_emit fun _ => alike_pure _
  · rw [if_neg keyword, if_neg keyword]
    have proper : Kind.semicolon ≠ .endOfInput := by decide
    refine (assignment_alike _).bind fun node _ _ => (alike_expect proper).seq fun _ _ _ => ?_
    rw [pure_bind]
    exact alike_ite_emit fun _ => alike_pure _

theorem command_guarded : Guarded fun inner => commandOf (conditionalOf inner) :=
  fun inner => commandOf_alike (conditionalOf_guarded inner)

theorem command_alike (s : State) : Alike input 1 command command s :=
  command_guarded.bounded_alike (fun _ => rfl) s

theorem scopeOf_guarded : Guarded scopeOf := by
  intro input room element element' inner s below
  apply Alike.nested
  apply Alike.enter
  have proper : Kind.openCurly ≠ .endOfInput := by decide
  refine (alike_expectFor proper).bind fun _ t passed => ?_
  simp only at passed
  apply Alike.takeDebt
  refine alike_ite_emit fun _ => ?_
  refine (braced_alike inner _ (by simp only; omega)).seq fun links u _ => ?_
  apply Alike.owe
  apply Alike.get
  apply Alike.emit
  exact alike_ite_emit fun _ => alike_pure _

theorem element_guarded :
    Guarded fun inner =>
      kind >>= fun kind => if kind = .openCurly then scopeOf inner else command := by
  intro input room rule rule' inner s below
  apply Alike.kind
  by_cases opens : (input.token s.cursor).kind = .openCurly
  · rw [if_pos opens, if_pos opens]
    exact scopeOf_guarded inner s below
  · rw [if_neg opens, if_neg opens]
    exact command_alike s

theorem element_alike (s : State) : Alike input 1 element element s :=
  element_guarded.bounded_alike (fun _ => rfl) s

theorem program_alike (s : State) : Alike input 1 program program s := by
  apply Alike.enter
  refine (element_alike _).bind fun root t _ => ?_
  apply Alike.kind
  by_cases ends : (input.token t.cursor).kind = .endOfInput
  · simp only [ends, ne_eq, not_true_eq_false, if_false]
    exact Alike.takeDebt (alike_ite_emit fun _ => alike_pure _)
  · simp only [ends, ne_eq, not_false_eq_true, if_true]
    exact alike_unexpected _ _

end

/-! The rules without their bounds. -/

theorem expression_eq :
    expression = enter .expression >>= fun _ => nested (level [.add, .sub] term) :=
  expression_guarded.bounded_eq fun _ => rfl

theorem command_eq : command = commandOf conditional :=
  command_guarded.bounded_eq fun _ => rfl

theorem element_eq :
    element = kind >>= fun kind => if kind = .openCurly then scope else command :=
  element_guarded.bounded_eq fun _ => rfl

end Rule

/-- Reading ends with a chain or a diagnostic. -/
theorem parse_ne_exhausted (tokens : List Token) (limit : Nat) :
    (parse tokens limit).1 ≠ .error .exhausted :=
  (Rule.program_alike {}).inside

end LinkedScopes
