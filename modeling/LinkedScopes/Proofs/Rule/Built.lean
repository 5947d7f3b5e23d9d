import LinkedScopes.Proofs.Rule.Step

/-! What rules are made of. Every rule of the grammar is put together from a few steps, so
what holds of the steps and is kept by putting them together holds of every rule. Those of
expressions and assignments do without the two steps that change what is owed, and they announce
nothing but where they are. -/
namespace LinkedScopes.Rule

/-- Put together from steps that neither read nor change what is owed, nor tell of it. -/
inductive DebtFree : {α : Type} → Rule α → Prop
  | pure {α : Type} (a : α) : DebtFree (pure a)
  | bind {α β : Type} {rule : Rule α} {next : α → Rule β} (first : DebtFree rule)
    (later : ∀ a, DebtFree (next a)) : DebtFree (rule >>= next)
  | current : DebtFree current
  | advance : DebtFree advance
  | emit (event : Event) (traced : event.level = .trace) : DebtFree (emit event)
  | fail {α : Type} (fault : Fault) (position : Position) :
    DebtFree (fail fault position : Rule α)
  | exhausted {α : Type} : DebtFree (exhausted : Rule α)
  | nested {α : Type} {rule : Rule α} (inner : DebtFree rule) : DebtFree (nested rule)
  | bounded {α : Type} {rule : Nat → Rule α} (each : ∀ bound, DebtFree (rule bound)) :
    DebtFree (bounded rule)

/-- Put together from steps. The limit is only read to enter a level, and of the state no
more than the current token and what is owed. -/
inductive Built : {α : Type} → Rule α → Prop
  | pure {α : Type} (a : α) : Built (pure a)
  | bind {α β : Type} {rule : Rule α} {next : α → Rule β} (first : Built rule)
    (later : ∀ a, Built (next a)) : Built (rule >>= next)
  | current : Built current
  | advance : Built advance
  | emit (event : Event) : Built (emit event)
  | fail {α : Type} (fault : Fault) (position : Position) : Built (fail fault position : Rule α)
  | exhausted {α : Type} : Built (exhausted : Rule α)
  | takeDebt : Built takeDebt
  | owe : Built owe
  | debt {α : Type} {next : State → Rule α} (later : ∀ s, Built (next s))
    (only : ∀ s t, s.debt = t.debt → next s = next t) : Built (get >>= next)
  | nested {α : Type} {rule : Rule α} (inner : Built rule) : Built (nested rule)
  | bounded {α : Type} {rule : Nat → Rule α} (each : ∀ bound, Built (rule bound)) :
    Built (bounded rule)

namespace DebtFree

variable {α : Type}

theorem kind : DebtFree kind := .bind .current fun _ => .pure _

theorem position : DebtFree position := .bind .current fun _ => .pure _

theorem enter (rule : RuleName) : DebtFree (enter rule) := .bind .current fun _ => .emit _ rfl

theorem ite {c : Prop} [Decidable c] {yes no : Rule α} (first : DebtFree yes)
    (second : DebtFree no) : DebtFree (if c then yes else no) := by
  by_cases holds : c
  · rw [if_pos holds]
    exact first
  · rw [if_neg holds]
    exact second

theorem unexpected (message : String) : DebtFree (unexpected message : Rule α) :=
  .bind .current fun _ => .fail _ _

theorem expect (expected : Kind) : DebtFree (expect expected) :=
  .bind .current fun _ => .ite .advance (.fail _ _)

theorem expectFor (expected : Kind) (message : String) : DebtFree (expectFor expected message) :=
  .bind .kind fun _ => .ite .advance (.unexpected _)

theorem joinsWithin (ops : List Operator) {operand : Rule Node} (free : DebtFree operand)
    (bound : Nat) (left : Node) : DebtFree (joinsWithin ops operand bound left) := by
  induction bound generalizing left with
  | zero => exact .exhausted
  | succ bound ih =>
    refine .bind .kind fun kind => ?_
    cases kind.operatorAmong ops with
    | none => exact .pure _
    | some op =>
      exact .bind (.emit _ rfl) fun _ => .bind .advance fun _ => .bind free fun _ => ih _

theorem level (ops : List Operator) {operand : Rule Node} (free : DebtFree operand) :
    DebtFree (level ops operand) :=
  .bind free fun _ => .bounded fun bound => joinsWithin ops free bound _

theorem referenceOf {expression : Rule Node} (free : DebtFree expression) :
    DebtFree (referenceOf expression) := by
  refine .bind (.enter _) fun _ => .bind .current fun token => ?_
  cases token.kind with
  | identifier => exact .bind .advance fun _ => .pure _
  | keyword =>
    refine .bind .advance fun _ => .ite (.pure _) (.bind .kind fun _ => .ite ?_ ?_)
    · exact .bind .position fun _ => .fail _ _
    · refine .bind .advance fun _ => .bind free fun _ => .bind (.expectFor _ _) fun _ => .pure _
  | _ => exact .fail _ _

theorem primaryOf {expression : Rule Node} (free : DebtFree expression) :
    DebtFree (primaryOf expression) := by
  refine .bind (.enter _) fun _ => .bind .current fun token => ?_
  cases token.kind with
  | openParen =>
    exact .bind .advance fun _ => .bind free fun _ => .bind (.expectFor _ _) fun _ => .pure _
  | number =>
    simp only
    cases Binary64.ofText? token.text with
    | none => exact .fail _ _
    | some value => exact .bind .advance fun _ => .pure _
  | _ => exact .bind free.referenceOf fun _ => .pure _

theorem powerOf {expression : Rule Node} (free : DebtFree expression) :
    DebtFree (powerOf expression) := free.primaryOf.level _

theorem termOf {expression : Rule Node} (free : DebtFree expression) :
    DebtFree (termOf expression) := free.powerOf.level _

theorem expressionWithin (bound : Nat) : DebtFree (expressionWithin bound) := by
  induction bound with
  | zero => exact .exhausted
  | succ bound ih => exact .bind (.enter _) fun _ => .nested (ih.termOf.level _)

theorem expression : DebtFree expression := .bounded expressionWithin

theorem identifier : DebtFree identifier :=
  .bind DebtFree.expression.referenceOf fun _ => .pure _

theorem assignment : DebtFree assignment := by
  refine .bind (.enter _) fun _ => .bind .kind fun _ => .ite (.unexpected _) ?_
  refine .bind .advance fun _ => .bind .current fun _ => .ite (.unexpected _) ?_
  exact .bind .advance fun _ => .bind .expression fun _ => .pure _

theorem headWord : DebtFree headWord := by
  refine .bind .position fun _ => .bind DebtFree.expression.referenceOf fun reference => ?_
  cases reference with
  | head => exact .pure _
  | _ => exact .fail _ _

theorem built {rule : Rule α} (free : DebtFree rule) : Built rule := by
  induction free with
  | pure a => exact .pure a
  | bind first later ih ihs => exact .bind ih ihs
  | current => exact .current
  | advance => exact .advance
  | emit event => exact .emit event
  | fail fault position => exact .fail fault position
  | exhausted => exact .exhausted
  | nested inner ih => exact .nested ih
  | bounded each ihs => exact .bounded ihs

theorem debt_eq {rule : Rule α} (free : DebtFree rule) (input : Input) (s : State) :
    (rule.runFrom input s).2.debt = s.debt := by
  induction free generalizing s with
  | pure | current | advance | emit | fail | exhausted => rfl
  | bind first later ih ihs =>
    have here := ih s
    rw [runFrom_bind]
    split
    · next a t run =>
      rw [run] at here
      exact (ihs a t).trans here
    · next halt t run =>
      rw [run] at here
      exact here
  | nested inner ih =>
    rw [runFrom_nested]
    split
    · rfl
    · exact ih { s with depth := s.depth + 1 }
  | bounded each ihs => exact ihs _ s

end DebtFree

namespace Built

variable {α : Type}

theorem kind : Built kind := DebtFree.kind.built

theorem enter (rule : RuleName) : Built (enter rule) := (DebtFree.enter rule).built

theorem unexpected (message : String) : Built (unexpected message : Rule α) :=
  (DebtFree.unexpected message).built

theorem expect (expected : Kind) : Built (expect expected) := (DebtFree.expect expected).built

theorem expectFor (expected : Kind) (message : String) : Built (expectFor expected message) :=
  (DebtFree.expectFor expected message).built

theorem ite {c : Prop} [Decidable c] {yes no : Rule α} (first : Built yes) (second : Built no) :
    Built (if c then yes else no) := by
  by_cases holds : c
  · rw [if_pos holds]
    exact first
  · rw [if_neg holds]
    exact second

theorem itemsWithin {item : Rule α} (built : Built item) (bound : Nat) (seen : List α) :
    Built (itemsWithin item bound seen) := by
  induction bound generalizing seen with
  | zero => exact .exhausted
  | succ bound ih => exact .bind .kind fun _ => .ite (.pure _) (.bind built fun _ => ih _)

theorem braced {item : Rule α} (built : Built item) : Built (braced item) := by
  refine .bind built fun _ => .bind (.bounded fun bound => built.itemsWithin bound _) fun _ => ?_
  exact .bind .advance fun _ => .pure _

theorem bodyOf {command : Rule Chain} (built : Built command) : Built (bodyOf command) :=
  .bind .kind fun _ => .ite (.bind .advance fun _ => .bind built.braced fun _ => .pure _) built

theorem conditionalOf {command : Rule Chain} (built : Built command) :
    Built (conditionalOf command) := by
  refine .nested (.bind (.enter _) fun _ => .bind DebtFree.headWord.built fun _ => ?_)
  refine .bind (.expectFor _ _) fun _ => .bind DebtFree.expression.built fun _ => ?_
  exact .bind (.expectFor _ _) fun _ => .bind built.bodyOf fun _ => .pure _

theorem ite_emit {c : Prop} [Decidable c] {event : Event} {next : Unit → Rule α}
    (later : Built (next ())) : Built (if c then Rule.emit event >>= next else next ()) :=
  .ite (.bind (.emit _) fun _ => later) later

theorem commandOf {conditional : Rule Node} (built : Built conditional) :
    Built (commandOf conditional) := by
  have settle (owed : Nat) (node : Node) : Built (do
      if 0 < owed then Rule.emit (.paying owed)
      return Chain.settle owed node) := .ite_emit (.pure _)
  refine .bind (.enter _) fun _ => .bind .takeDebt fun owed => .bind .kind fun _ => .ite ?_ ?_
  · exact .bind built fun node => settle owed node
  · refine .bind DebtFree.assignment.built fun node => .bind (.expect _) fun _ => ?_
    exact .bind (.pure _) fun node => settle owed node

theorem commandWithin (bound : Nat) : Built (commandWithin bound) := by
  induction bound with
  | zero => exact .exhausted
  | succ bound ih => exact ih.conditionalOf.commandOf

theorem command : Built command := .bounded commandWithin

theorem scopeOf {element : Rule Chain} (built : Built element) : Built (scopeOf element) := by
  refine .nested (.bind (.enter _) fun _ => .bind (.expectFor _ _) fun _ => ?_)
  refine .bind .takeDebt fun inherited => .ite_emit (.bind built.braced fun _ => .bind .owe ?_)
  refine fun _ => .debt (fun s => .bind (.emit _) fun _ => .ite_emit (.pure _)) ?_
  intro s t same
  simp only [same]

theorem elementWithin (bound : Nat) : Built (elementWithin bound) := by
  induction bound with
  | zero => exact .exhausted
  | succ bound ih => exact .bind .kind fun _ => .ite ih.scopeOf .command

theorem element : Built element := .bounded elementWithin

theorem program : Built program := by
  refine .bind (.enter _) fun _ => .bind .element fun _ => .bind .kind fun _ => ?_
  exact .ite (.unexpected _) (.bind .takeDebt fun _ => .ite_emit (.pure _))

end Built
end LinkedScopes.Rule
