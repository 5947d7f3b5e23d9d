import LinkedScopes.Proofs.Rule.Built
import LinkedScopes.Session

/-! Depth. A level of nesting is the only thing that changes the depth, and it puts the depth back
however the rule inside of it ends. So at every moment of a run the depth is what it was at first
and one more for each level that is open, and after every step it is what it was before. No level is
opened at the limit, so the depth never passes it. -/
namespace LinkedScopes

namespace Rule

variable {α β : Type} {input : Input}

/-- Put together from steps, of which some may fail without ending those after them. -/
inductive Staged : {α : Type} → Rule α → Prop
  | built {α : Type} {rule : Rule α} (built : Built rule) : Staged rule
  | bind {α β : Type} {rule : Rule α} {next : α → Rule β} (first : Staged rule)
    (later : ∀ a, Staged (next a)) : Staged (rule >>= next)
  | nested {α : Type} {rule : Rule α} (inner : Staged rule) : Staged (nested rule)
  | answering {rule : Rule Session.Value} (inner : Staged rule) :
    Staged (Session.answering rule)

/-- A moment in the run of a rule from a state: so many of the levels it has entered are open, and
this is the state. Before and after each step of a run there is a moment, also inside of its levels;
a rule may be taken apart into steps in any way. -/
inductive Moment (input : Input) : {α : Type} → Rule α → State → Nat → State → Prop
  | before {α : Type} {rule : Rule α} {s : State} : Moment input rule s 0 s
  | after {α : Type} {rule : Rule α} {s : State} (staged : Staged rule) :
    Moment input rule s 0 (rule.runFrom input s).2
  | first {α β : Type} {rule : Rule α} {next : α → Rule β} {s u : State} {levels : Nat}
    (inner : Moment input rule s levels u) : Moment input (rule >>= next) s levels u
  | later {α β : Type} {rule : Rule α} {next : α → Rule β} {s t u : State} {levels : Nat} {a : α}
    (staged : Staged rule) (run : rule.runFrom input s = (.ok a, t))
    (inner : Moment input (next a) t levels u) : Moment input (rule >>= next) s levels u
  | nested {α : Type} {rule : Rule α} {s u : State} {levels : Nat} (allowed : s.depth < input.limit)
    (inner : Moment input rule { s with depth := s.depth + 1 } levels u) :
    Moment input (nested rule) s (levels + 1) u
  | bounded {α : Type} {rule : Nat → Rule α} {s u : State} {levels : Nat}
    (inner : Moment input (rule (input.remaining s.cursor + 1)) s levels u) :
    Moment input (bounded rule) s levels u
  | answering {rule : Rule Session.Value} {s u : State} {levels : Nat}
    (inner : Moment input rule s levels u) : Moment input (Session.answering rule) s levels u

theorem depth_bind {rule : Rule α} {next : α → Rule β} {s : State}
    (first : (rule.runFrom input s).2.depth = s.depth)
    (later : ∀ a t, ((next a).runFrom input t).2.depth = t.depth) :
    ((rule >>= next).runFrom input s).2.depth = s.depth := by
  rw [runFrom_bind]
  split
  · next a t run =>
    rw [run] at first
    exact (later a t).trans first
  · next halt t run =>
    rw [run] at first
    exact first

theorem depth_nested {rule : Rule α} {s : State}
    (inner : (rule.runFrom input { s with depth := s.depth + 1 }).2.depth = s.depth + 1) :
    ((nested rule).runFrom input s).2.depth = s.depth := by
  rw [runFrom_nested]
  split
  · rfl
  · rw [runFrom_deeper]
    exact congrArg (· - 1) inner

theorem Built.depth_eq {rule : Rule α} (built : Built rule) (input : Input) (s : State) :
    (rule.runFrom input s).2.depth = s.depth := by
  induction built generalizing s with
  | pure | current | advance | emit | fail | exhausted | takeDebt | owe => rfl
  | bind first later ih ihs => exact depth_bind (ih s) ihs
  | debt later only ihs => exact ihs s s
  | nested inner ih => exact depth_nested (ih _)
  | bounded each ihs => exact ihs _ s

theorem Staged.depth_eq {rule : Rule α} (staged : Staged rule) (input : Input) (s : State) :
    (rule.runFrom input s).2.depth = s.depth := by
  induction staged generalizing s with
  | built built => exact built.depth_eq input s
  | bind first later ih ihs => exact depth_bind (ih s) ihs
  | nested inner ih => exact depth_nested (ih _)
  | answering inner ih => exact ih s

theorem Staged.depth_of_run {rule : Rule α} (staged : Staged rule) {s t : State}
    {result : Except Halt α} (run : rule.runFrom input s = (result, t)) : t.depth = s.depth := by
  rw [← staged.depth_eq input s, run]

theorem Moment.depth_eq {rule : Rule α} {s u : State} {levels : Nat}
    (moment : Moment input rule s levels u) : u.depth = s.depth + levels := by
  induction moment with
  | before => rfl
  | after staged => exact staged.depth_eq input _
  | first inner ih => exact ih
  | later staged run inner ih => rw [ih, staged.depth_of_run run]
  | nested allowed inner ih =>
    rw [ih, Nat.add_assoc, Nat.add_comm 1]
  | bounded inner ih => exact ih
  | answering inner ih => exact ih

/-- A level is only opened below the limit. -/
theorem Moment.depth_le {rule : Rule α} {s u : State} {levels : Nat}
    (moment : Moment input rule s levels u) (within : s.depth ≤ input.limit) :
    u.depth ≤ input.limit := by
  induction moment with
  | before => exact within
  | after staged =>
    rw [staged.depth_eq]
    exact within
  | first inner ih => exact ih within
  | later staged run inner ih =>
    rw [← staged.depth_of_run run] at within
    exact ih within
  | nested allowed inner ih => exact ih allowed
  | bounded inner ih => exact ih within
  | answering inner ih => exact ih within

theorem Built.map {rule : Rule α} (built : Built rule) (f : α → β) : Built (f <$> rule) := by
  rw [map_eq_pure_bind]
  exact .bind built fun _ => .pure _

theorem Staged.map {rule : Rule α} (staged : Staged rule) (f : α → β) : Staged (f <$> rule) := by
  rw [map_eq_pure_bind]
  exact .bind staged fun _ => .built (.pure _)

theorem Moment.map {rule : Rule α} {s u : State} {levels : Nat}
    (moment : Moment input rule s levels u) (f : α → β) : Moment input (f <$> rule) s levels u := by
  rw [map_eq_pure_bind]
  exact .first moment

theorem reading_built (what : Session.Reading) : Built what.rule := by
  have expression := DebtFree.expression
  cases what with
  | expression => exact expression.built.map _
  | term => exact expression.termOf.built.map _
  | power => exact expression.powerOf.built.map _
  | primary => exact expression.primaryOf.built.map _
  | identifier => exact DebtFree.identifier.built.map _
  | assignment => exact DebtFree.assignment.built.map _
  | conditional => exact Built.command.conditionalOf.map _
  | command => exact Built.command.map _
  | element => exact Built.element.map _
  | scope => exact Built.element.scopeOf.map _

mutual

theorem step_staged : (step : Session.Step) → Staged step.rule
  | .read what => .built (reading_built what)
  | .advance => .built (Built.advance.map _)
  | .current => .built (Built.current.map _)
  | .position => .built (DebtFree.position.built.map _)
  | .expect kind => .built ((Built.expect kind).map _)
  | .expectFor kind message => .built ((Built.expectFor kind message).map _)
  | .unexpected message => .built (.unexpected message)
  | .owe => .built (.bind .owe fun _ => .pure _)
  | .takeDebt => .built (Built.takeDebt.map _)
  | .nested steps => .nested ((answers_staged steps).map _)

theorem answers_staged : (steps : List Session.Step) → Staged (Session.answers steps)
  | [] => .built (.pure _)
  | step :: steps =>
    .bind (.answering (step_staged step)) fun _ =>
      .bind (answers_staged steps) fun _ => .built (.pure _)

end

theorem runFrom_answering (rule : Rule Session.Value) (s : State) :
    (Session.answering rule).runFrom input s =
      (.ok ⟨(rule.runFrom input s).1, (rule.runFrom input s).2,
        (input.token (rule.runFrom input s).2.cursor).kind⟩, (rule.runFrom input s).2) := rfl

/-- Steps that fail are answered like any others, so the steps of a session all run. -/
theorem exists_answers (steps : List Session.Step) (s : State) :
    ∃ answers t, (Session.answers steps).runFrom input s = (.ok answers, t) := by
  induction steps generalizing s with
  | nil => exact ⟨[], s, rfl⟩
  | cons step steps ih =>
    obtain ⟨answers, t, run⟩ := ih (step.rule.runFrom input s).2
    rw [Session.answers, runFrom_bind_of_ok (runFrom_answering _ s), runFrom_bind_of_ok run]
    exact ⟨_, _, rfl⟩

/-- Within the limit a level is refused exactly at it, and is otherwise left at the depth it was
entered from. -/
theorem runFrom_nested_of_staged {rule : Rule α} (staged : Staged rule) {s : State}
    (within : s.depth ≤ input.limit) :
    (nested rule).runFrom input s =
      if s.depth = input.limit then
        (.error (.fault ⟨.nestingTooDeep input.limit, (input.token s.cursor).span.start⟩), s)
      else
        let run := rule.runFrom input { s with depth := s.depth + 1 }
        (run.1, { run.2 with depth := s.depth }) := by
  rw [runFrom_nested]
  by_cases full : s.depth = input.limit
  · rw [if_pos full, if_pos (Nat.le_of_eq full.symm)]
  · rw [if_neg full, if_neg (Nat.not_le.mpr (Nat.lt_of_le_of_ne within full)), runFrom_deeper]
    simp only [staged.depth_eq, Nat.add_sub_cancel]

end Rule

def Input.allowance (input : Input) (s : State) : Nat := input.limit - s.depth

/-- At every moment of a session, the depth is what it was when the session started and one more for
each level that is open, and it does not pass the limit. No step leaves another depth than it
found, nor another allowance to the steps after it, however it ends. A level of a session fails
exactly at the limit. There a level is refused whatever is inside, which is not run; anywhere else
it ends as what is inside does. -/
theorem depth_restored (input : Input) :
    (∀ (steps : List Session.Step) (s : State) (levels : Nat) (u : State),
      Rule.Moment input (Session.answers steps) s levels u →
      u.depth = s.depth + levels ∧ (s.depth ≤ input.limit → u.depth ≤ input.limit)) ∧
    (∀ (step : Session.Step) (s : State),
      (step.rule.runFrom input s).2.depth = s.depth ∧
        input.allowance (step.rule.runFrom input s).2 = input.allowance s) ∧
    (∀ (steps : List Session.Step) (s : State), s.depth ≤ input.limit →
      ((∃ position t, (Session.Step.nested steps).rule.runFrom input s =
        (.error (.fault ⟨.nestingTooDeep input.limit, position⟩), t)) ↔ s.depth = input.limit)) ∧
    ∀ (α : Type) (rule : Rule α) (s : State), rule.Staged → s.depth ≤ input.limit →
      (Rule.nested rule).runFrom input s =
        if s.depth = input.limit then
          (.error (.fault ⟨.nestingTooDeep input.limit, (input.token s.cursor).span.start⟩), s)
        else
          let run := rule.runFrom input { s with depth := s.depth + 1 }
          (run.1, { run.2 with depth := s.depth }) := by
  refine ⟨?_, ?_, ?_, ?_⟩
  · intro steps s levels u moment
    exact ⟨moment.depth_eq, moment.depth_le⟩
  · intro step s
    have kept := (Rule.step_staged step).depth_eq input s
    exact ⟨kept, congrArg (input.limit - ·) kept⟩
  · intro steps s within
    have staged := (Rule.answers_staged steps).map Session.Value.answers
    rw [Session.Step.rule, Rule.runFrom_nested_of_staged staged within]
    constructor
    · rintro ⟨position, t, run⟩
      apply Decidable.byContradiction
      intro full
      obtain ⟨answers, u, ok⟩ := @Rule.exists_answers input steps { s with depth := s.depth + 1 }
      rw [if_neg full, Rule.runFrom_map, ok] at run
      cases run
    · intro full
      rw [if_pos full]
      exact ⟨_, _, rfl⟩
  · intro α rule s staged within
    exact Rule.runFrom_nested_of_staged staged within

/-- In a level a scope is refused at a number; the expression after it opens a second level. -/
theorem depth_restored_inside :
    let input : Input := ⟨#[.detached .number "1"], 2⟩
    let steps : List Session.Step := [.nested [.read .scope, .read .expression]]
    ∃ u, Rule.Moment input (Session.answers steps) {} 2 u ∧ u.depth = 2 ∧ u.depth ≤ 2 := by
  intro input steps
  let within : State := ⟨0, 0, 1, []⟩
  let failed : State := ⟨0, 0, 1, [.entered .scope (.detached .number "1")]⟩
  have scope := (Rule.step_staged (.read .scope)).answering
  have refused : (Session.answering (Session.Step.rule (.read .scope))).runFrom input within =
      (.ok ⟨.error (.fault ⟨.unexpectedFor "1" "expected `\x7b` to open a scope", .null⟩), failed,
        .number⟩, failed) := rfl
  obtain ⟨u, opened⟩ : ∃ u, Rule.Moment input Rule.expression failed 1 u :=
    ⟨_, .bounded (.later (.built (.enter .expression)) rfl (.nested (by decide) .before))⟩
  have inner : Rule.Moment input (Session.answers [.read .scope, .read .expression]) within 1 u :=
    .later scope refused (.first (.first (.answering (opened.map _))))
  have moment : Rule.Moment input (Session.answers steps) {} 2 u :=
    .first (.answering (.nested (by decide) (inner.map _)))
  obtain ⟨depth, bound⟩ := (depth_restored input).1 steps {} 2 u moment
  exact ⟨u, moment, depth, bound (by decide)⟩

end LinkedScopes
