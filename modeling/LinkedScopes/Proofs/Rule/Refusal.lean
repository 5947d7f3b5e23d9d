import LinkedScopes.Proofs.Grammar.Lexeme
import LinkedScopes.Proofs.Rule.Step

/-! Where numbers are refused. Only an operand is ever refused as a number, before it is passed,
and only if it is one whose text denotes none. However far around the operand a rule reaches, it
ends there, so the token that it ends at is to blame. -/
namespace LinkedScopes.Rule

variable {α β : Type}

/-- The rule refuses a number only at a token that cannot be read as one. -/
def Discerns (rule : Rule α) : Prop :=
  ∀ input s t text position,
    rule.runFrom input s = (.error (.fault ⟨.malformedNumber text, position⟩), t) →
    ¬ (input.token t.cursor).lexeme.Readable

namespace Discerns

theorem of_ok {rule : Rule α} (ok : ∀ input s, ∃ a t, rule.runFrom input s = (.ok a, t)) :
    Discerns rule := by
  intro input s t text position run
  obtain ⟨a, u, succeeds⟩ := ok input s
  rw [succeeds] at run
  cases run

theorem pure (a : α) : Discerns (pure a) := of_ok fun _ _ => ⟨_, _, rfl⟩

theorem current : Discerns current := of_ok fun _ _ => ⟨_, _, rfl⟩

theorem kind : Discerns kind := of_ok fun _ _ => ⟨_, _, rfl⟩

theorem position : Discerns position := of_ok fun _ _ => ⟨_, _, rfl⟩

theorem advance : Discerns advance := of_ok fun _ _ => ⟨_, _, rfl⟩

theorem emit (event : Event) : Discerns (emit event) := of_ok fun _ _ => ⟨_, _, rfl⟩

theorem enter (rule : RuleName) : Discerns (enter rule) := of_ok fun _ _ => ⟨_, _, rfl⟩

theorem takeDebt : Discerns takeDebt := of_ok fun _ _ => ⟨_, _, rfl⟩

theorem owe : Discerns owe := of_ok fun _ _ => ⟨_, _, rfl⟩

theorem get : Discerns (get : Rule State) := of_ok fun _ _ => ⟨_, _, rfl⟩

theorem fail {fault : Fault} (other : ∀ text, fault ≠ .malformedNumber text)
    (position : Position) : Discerns (fail fault position : Rule α) := by
  rintro input s t text position' ⟨⟩
  exact absurd rfl (other text)

theorem exhausted : Discerns (exhausted : Rule α) := by
  rintro input s t text position ⟨⟩

theorem bind {rule : Rule α} {next : α → Rule β} (first : Discerns rule)
    (later : ∀ a, Discerns (next a)) : Discerns (rule >>= next) := by
  intro input s t text position run
  rcases runFrom_bind_error_iff.mp run with fails | ⟨a, u, -, fails⟩
  · exact first input s t text position fails
  · exact later a input u t text position fails

theorem ite {c : Prop} [Decidable c] {yes no : Rule α} (first : Discerns yes)
    (second : Discerns no) : Discerns (if c then yes else no) := by
  by_cases holds : c
  · rw [if_pos holds]
    exact first
  · rw [if_neg holds]
    exact second

theorem ite_emit {c : Prop} [Decidable c] {event : Event} {next : Unit → Rule α}
    (later : Discerns (next ())) : Discerns (if c then Rule.emit event >>= next else next ()) :=
  .ite (.bind (.emit _) fun _ => later) later

theorem unexpected (message : String) : Discerns (unexpected message : Rule α) :=
  .bind .current fun _ => .fail (by simp) _

theorem expect (expected : Kind) : Discerns (expect expected) :=
  .bind .current fun _ => .ite .advance (.fail (by simp) _)

theorem expectFor (expected : Kind) (message : String) : Discerns (expectFor expected message) :=
  .bind .kind fun _ => .ite .advance (.unexpected _)

/-- A level is left at the token where its rule ends. -/
theorem nested {rule : Rule α} (inner : Discerns rule) : Discerns (nested rule) := by
  intro input s t text position run
  rw [runFrom_nested] at run
  split at run
  · cases run
  · rw [runFrom_deeper] at run
    obtain ⟨fails, rfl⟩ := Prod.mk.inj run
    exact inner input { s with depth := s.depth + 1 } (rule.runFrom input _).2 text position
      (Prod.ext fails rfl)

theorem bounded {rule : Nat → Rule α} (each : ∀ bound, Discerns (rule bound)) :
    Discerns (bounded rule) := by
  intro input s t text position run
  rw [runFrom_bounded] at run
  exact each _ input s t text position run

theorem itemsWithin {item : Rule α} (discerns : Discerns item) (bound : Nat) (seen : List α) :
    Discerns (itemsWithin item bound seen) := by
  induction bound generalizing seen with
  | zero => exact .exhausted
  | succ bound ih => exact .bind .kind fun _ => .ite (.pure _) (.bind discerns fun _ => ih _)

theorem braced {item : Rule α} (discerns : Discerns item) : Discerns (braced item) := by
  refine .bind discerns fun _ => .bind (.bounded fun bound => discerns.itemsWithin bound _) ?_
  exact fun _ => .bind .advance fun _ => .pure _

theorem joinsWithin (ops : List Operator) {operand : Rule Node} (discerns : Discerns operand)
    (bound : Nat) (left : Node) : Discerns (joinsWithin ops operand bound left) := by
  induction bound generalizing left with
  | zero => exact .exhausted
  | succ bound ih =>
    refine .bind .kind fun kind => ?_
    cases kind.operatorAmong ops with
    | none => exact .pure _
    | some op =>
      exact .bind (.emit _) fun _ => .bind .advance fun _ => .bind discerns fun _ => ih _

theorem level (ops : List Operator) {operand : Rule Node} (discerns : Discerns operand) :
    Discerns (level ops operand) :=
  .bind discerns fun _ => .bounded fun bound => joinsWithin ops discerns bound _

theorem referenceOf {expression : Rule Node} (discerns : Discerns expression) :
    Discerns (referenceOf expression) := by
  refine .bind (.enter _) fun _ => .bind .current fun token => ?_
  cases token.kind with
  | identifier => exact .bind .advance fun _ => .pure _
  | keyword =>
    refine .bind .advance fun _ => .ite (.pure _) (.bind .kind fun _ => .ite ?_ ?_)
    · exact .bind .position fun _ => .fail (by simp) _
    · exact .bind .advance fun _ => .bind discerns fun _ => .bind (.expectFor _ _) fun _ => .pure _
  | _ => exact .fail (by simp) _

/-- The one place where a number is refused. -/
theorem primaryOf {expression : Rule Node} (discerns : Discerns expression) :
    Discerns (primaryOf expression) := by
  intro input s t text position run
  simp only [Rule.primaryOf, runFrom_enter_bind, runFrom_current_bind] at run
  split at run
  · have group : Discerns (Rule.advance >>= fun _ => expression >>= fun inner =>
        Rule.expectFor .closeParen "expected `)` to close the group" >>= fun _ =>
          Pure.pure inner) :=
      .bind .advance fun _ => .bind discerns fun _ => .bind (.expectFor _ _) fun _ => .pure _
    exact group input _ t text position run
  · next number =>
    split at run
    · next unreadable =>
      -- The number has not been passed, so it is where the rule ends.
      obtain ⟨-, rfl⟩ := Prod.mk.inj run
      intro readable
      rw [Token.lexeme_eq_spelled number rfl] at readable
      have reads := readable rfl
      rw [unreadable] at reads
      cases reads
    · cases run
  · have word : Discerns (Rule.referenceOf expression >>= fun reference =>
        Pure.pure reference.node) := .bind discerns.referenceOf fun _ => .pure _
    exact word input _ t text position run

theorem powerOf {expression : Rule Node} (discerns : Discerns expression) :
    Discerns (powerOf expression) := discerns.primaryOf.level _

theorem termOf {expression : Rule Node} (discerns : Discerns expression) :
    Discerns (termOf expression) := discerns.powerOf.level _

theorem expressionWithin (bound : Nat) : Discerns (expressionWithin bound) := by
  induction bound with
  | zero => exact .exhausted
  | succ bound ih => exact .bind (.enter _) fun _ => .nested (ih.termOf.level _)

theorem expression : Discerns expression := .bounded expressionWithin

theorem assignment : Discerns assignment := by
  refine .bind (.enter _) fun _ => .bind .kind fun _ => .ite (.unexpected _) ?_
  refine .bind .advance fun _ => .bind .current fun _ => .ite (.unexpected _) ?_
  exact .bind .advance fun _ => .bind .expression fun _ => .pure _

theorem headWord : Discerns headWord := by
  refine .bind .position fun _ => .bind Discerns.expression.referenceOf fun reference => ?_
  cases reference with
  | head => exact .pure _
  | _ => exact .fail (by simp) _

theorem bodyOf {command : Rule Chain} (discerns : Discerns command) : Discerns (bodyOf command) :=
  .bind .kind fun _ =>
    .ite (.bind .advance fun _ => .bind discerns.braced fun _ => .pure _) discerns

theorem conditionalOf {command : Rule Chain} (discerns : Discerns command) :
    Discerns (conditionalOf command) := by
  refine .nested (.bind (.enter _) fun _ => .bind .headWord fun _ => ?_)
  refine .bind (.expectFor _ _) fun _ => .bind .expression fun _ => ?_
  exact .bind (.expectFor _ _) fun _ => .bind discerns.bodyOf fun _ => .pure _

theorem commandOf {conditional : Rule Node} (discerns : Discerns conditional) :
    Discerns (commandOf conditional) := by
  have settle (owed : Nat) (node : Node) : Discerns (do
      if 0 < owed then Rule.emit (.paying owed)
      return Chain.settle owed node) := .ite_emit (.pure _)
  refine .bind (.enter _) fun _ => .bind .takeDebt fun owed => .bind .kind fun _ => .ite ?_ ?_
  · exact .bind discerns fun node => settle owed node
  · refine .bind .assignment fun node => .bind (.expect _) fun _ => ?_
    exact .bind (.pure _) fun node => settle owed node

theorem commandWithin (bound : Nat) : Discerns (commandWithin bound) := by
  induction bound with
  | zero => exact .exhausted
  | succ bound ih => exact ih.conditionalOf.commandOf

theorem command : Discerns command := .bounded commandWithin

theorem scopeOf {element : Rule Chain} (discerns : Discerns element) :
    Discerns (scopeOf element) := by
  refine .nested (.bind (.enter _) fun _ => .bind (.expectFor _ _) fun _ => ?_)
  refine .bind .takeDebt fun _ => .ite_emit (.bind discerns.braced fun _ => .bind .owe fun _ => ?_)
  exact .bind .get fun _ => .bind (.emit _) fun _ => .ite_emit (.pure _)

theorem elementWithin (bound : Nat) : Discerns (elementWithin bound) := by
  induction bound with
  | zero => exact .exhausted
  | succ bound ih => exact .bind .kind fun _ => .ite ih.scopeOf .command

theorem element : Discerns element := .bounded elementWithin

theorem program : Discerns program := by
  refine .bind (.enter _) fun _ => .bind .element fun _ => .bind .kind fun _ => ?_
  exact .ite (.unexpected _) (.bind .takeDebt fun _ => .ite_emit (.pure _))

end Discerns
end LinkedScopes.Rule
