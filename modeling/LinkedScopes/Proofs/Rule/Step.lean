import LinkedScopes.Rule.Scope

/-! Single steps of a rule. A step that cannot fail hands its result and its state to what
follows; a check does so if it sees the kind it asks for, and otherwise leaves the state
as it is. A success of a sequence is a success of both parts. -/
namespace LinkedScopes.Rule

variable {α β : Type} {input : Input} {s t : State}

section

variable {rule : Rule α} {next : α → Rule β}

theorem runFrom_bind_of_ok {a : α} (h : rule.runFrom input s = (.ok a, t)) :
    (rule >>= next).runFrom input s = (next a).runFrom input t := by
  rw [runFrom_bind, h]

theorem runFrom_bind_of_error {halt : Halt} (h : rule.runFrom input s = (.error halt, t)) :
    (rule >>= next).runFrom input s = (.error halt, t) := by
  rw [runFrom_bind, h]

theorem runFrom_bind_ok_iff {b : β} :
    (rule >>= next).runFrom input s = (.ok b, t) ↔
      ∃ a u, rule.runFrom input s = (.ok a, u) ∧ (next a).runFrom input u = (.ok b, t) := by
  rw [runFrom_bind]
  rcases rule.runFrom input s with ⟨halt | a, u⟩
  · simp
  · simp [and_assoc]

theorem runFrom_bind_error_iff {halt : Halt} :
    (rule >>= next).runFrom input s = (.error halt, t) ↔
      rule.runFrom input s = (.error halt, t) ∨
        ∃ a u, rule.runFrom input s = (.ok a, u) ∧
          (next a).runFrom input u = (.error halt, t) := by
  rw [runFrom_bind]
  rcases rule.runFrom input s with ⟨halt' | a, u⟩
  · simp
  · simp [and_assoc]

end

/-- A rule whose result is only wrapped does to the state what it does unwrapped. -/
theorem runFrom_map (f : α → β) (rule : Rule α) :
    (f <$> rule).runFrom input s = ((rule.runFrom input s).1.map f, (rule.runFrom input s).2) := by
  rw [map_eq_pure_bind, runFrom_bind]
  rcases rule.runFrom input s with ⟨halt | a, t⟩ <;> rfl

theorem runFrom_pure_ok_iff {a b : α} :
    (pure a : Rule α).runFrom input s = (.ok b, t) ↔ b = a ∧ t = s := by
  simp [runFrom_pure, eq_comm]

/-! What follows a step that cannot fail. -/

@[simp] theorem runFrom_current_bind {next : Token → Rule β} :
    (current >>= next).runFrom input s = (next (input.token s.cursor)).runFrom input s := rfl

@[simp] theorem runFrom_kind_bind {next : Kind → Rule β} :
    (kind >>= next).runFrom input s = (next (input.token s.cursor).kind).runFrom input s := rfl

@[simp] theorem runFrom_position_bind {next : Position → Rule β} :
    (position >>= next).runFrom input s =
      (next (input.token s.cursor).span.start).runFrom input s := rfl

@[simp] theorem runFrom_advance_bind {next : Token → Rule β} :
    (advance >>= next).runFrom input s =
      (next (input.token s.cursor)).runFrom input { s with cursor := s.cursor + 1 } := rfl

@[simp] theorem runFrom_emit_bind {event : Event} {next : Unit → Rule β} :
    (emit event >>= next).runFrom input s =
      (next ()).runFrom input { s with events := event :: s.events } := rfl

@[simp] theorem runFrom_enter_bind {rule : RuleName} {next : Unit → Rule β} :
    (enter rule >>= next).runFrom input s =
      (next ()).runFrom input
        { s with events := .entered rule (input.token s.cursor) :: s.events } := rfl

@[simp] theorem runFrom_takeDebt_bind {next : Nat → Rule β} :
    (takeDebt >>= next).runFrom input s = (next s.debt).runFrom input { s with debt := 0 } := rfl

@[simp] theorem runFrom_owe_bind {next : Unit → Rule β} :
    (owe >>= next).runFrom input s = (next ()).runFrom input { s with debt := s.debt + 1 } := rfl

@[simp] theorem runFrom_get_bind {next : State → Rule β} :
    ((get : Rule State) >>= next).runFrom input s = (next s).runFrom input s := rfl

/-- An event that is only announced in some cases is all that differs between them. -/
@[simp] theorem runFrom_ite_emit_bind {c : Prop} [Decidable c] {event : Event}
    {next : Unit → Rule β} :
    (if c then emit event >>= next else next ()).runFrom input s =
      (next ()).runFrom input { s with events := if c then event :: s.events else s.events } := by
  by_cases holds : c
  · simp only [if_pos holds, runFrom_emit_bind]
  · simp only [if_neg holds]

/-! Checks. -/

theorem runFrom_expect {expected : Kind} :
    (expect expected).runFrom input s =
      if (input.token s.cursor).kind = expected then
        (.ok (input.token s.cursor), { s with cursor := s.cursor + 1 })
      else (.error (.fault ⟨.unexpected (input.token s.cursor).text,
        (input.token s.cursor).span.start⟩), s) := by
  rw [expect, runFrom_current_bind]
  split <;> rfl

theorem runFrom_expectFor {expected : Kind} {message : String} :
    (expectFor expected message).runFrom input s =
      if (input.token s.cursor).kind = expected then
        (.ok (input.token s.cursor), { s with cursor := s.cursor + 1 })
      else (.error (.fault ⟨.unexpectedFor (input.token s.cursor).text message,
        (input.token s.cursor).span.start⟩), s) := by
  rw [expectFor, runFrom_kind_bind]
  split <;> rfl

theorem runFrom_expect_ok_iff {expected : Kind} {token : Token} :
    (expect expected).runFrom input s = (.ok token, t) ↔
      (input.token s.cursor).kind = expected ∧ token = input.token s.cursor ∧
        t = { s with cursor := s.cursor + 1 } := by
  rw [runFrom_expect]
  by_cases same : (input.token s.cursor).kind = expected <;> simp [same, eq_comm]

theorem runFrom_expectFor_ok_iff {expected : Kind} {message : String} {token : Token} :
    (expectFor expected message).runFrom input s = (.ok token, t) ↔
      (input.token s.cursor).kind = expected ∧ token = input.token s.cursor ∧
        t = { s with cursor := s.cursor + 1 } := by
  rw [runFrom_expectFor]
  by_cases same : (input.token s.cursor).kind = expected <;> simp [same, eq_comm]

theorem runFrom_expectFor_error {kind : Kind} {message : String} {halt : Halt}
    (run : (expectFor kind message).runFrom input s = (.error halt, t)) : t = s := by
  rw [runFrom_expectFor] at run
  split at run
  · cases run
  · exact (Prod.mk.inj run).2.symm

theorem runFrom_expect_error {kind : Kind} {halt : Halt}
    (run : (expect kind).runFrom input s = (.error halt, t)) : t = s := by
  rw [runFrom_expect] at run
  split at run
  · cases run
  · exact (Prod.mk.inj run).2.symm

/-! Levels of nesting. -/

theorem runFrom_nested {rule : Rule α} :
    (nested rule).runFrom input s =
      if input.limit ≤ s.depth then
        (.error (.fault ⟨.nestingTooDeep input.limit, (input.token s.cursor).span.start⟩), s)
      else (deeper rule).runFrom input s := by
  change (if input.limit ≤ s.depth then _ else _ : Rule α) input s = _
  split <;> rfl

theorem runFrom_nested_ok_iff {rule : Rule α} {a : α} :
    (nested rule).runFrom input s = (.ok a, t) ↔
      s.depth < input.limit ∧ ∃ u, rule.runFrom input { s with depth := s.depth + 1 } = (.ok a, u) ∧
        t = { u with depth := u.depth - 1 } := by
  rw [runFrom_nested]
  by_cases full : input.limit ≤ s.depth
  · simp [full, Nat.not_lt.mpr full]
  · rw [if_neg full, runFrom_deeper]
    rcases rule.runFrom input { s with depth := s.depth + 1 } with ⟨halt | b, u⟩
    · simp
    · simp [Nat.lt_of_not_le full, and_assoc, eq_comm]

theorem runFrom_bounded {rule : Nat → Rule α} :
    (bounded rule).runFrom input s =
      (rule (input.remaining s.cursor + 1)).runFrom input s := rfl

/-- With no bound left nothing succeeds, so what holds of each success of a rule that contains
itself is shown from what holds of those inside. -/
theorem within_ok {rule : Nat → Rule α} {post : State → α → State → Prop}
    (zero : rule 0 = exhausted)
    (succ : ∀ bound, (∀ s a t, (rule bound).runFrom input s = (.ok a, t) → post s a t) →
      ∀ s a t, (rule (bound + 1)).runFrom input s = (.ok a, t) → post s a t) (bound : Nat) :
    ∀ s a t, (rule bound).runFrom input s = (.ok a, t) → post s a t := by
  induction bound with
  | zero =>
    intro s a t run
    rw [zero] at run
    cases run
  | succ bound ih => exact succ bound ih

end LinkedScopes.Rule
