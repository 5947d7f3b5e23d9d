import LinkedScopes.Proofs.Grammar.Phrase

/-! What phrases stand for. Values and conditions are expressions, commands are assignments
or conditionals, bodies are rows of plain statements, and no scope is empty. -/
namespace LinkedScopes

/-- A number that some text denotes, a variable, operands joined by an operator, or a
keyword with an argument unless it is a conditional word. -/
inductive IsExpression : Node → Prop
  | number {text : String} {value : Binary64} (denotes : Binary64.ofText? text = some value) :
    IsExpression (.number value)
  | var (name : String) : IsExpression (.var name)
  | operation {op : Operator} {left right : Node} (joins : op ≠ .assign)
    (first : IsExpression left) (second : IsExpression right) :
    IsExpression (.operation op left right)
  | head {word : String} (conditional : isConditionalWord word = true) : IsExpression (.head word)
  | call {word : String} {argument : Node} (operation : isConditionalWord word = false)
    (inner : IsExpression argument) : IsExpression (.call word argument)

def Link.plain (command : Node) : Link := ⟨.statement, some command⟩

/-- An assignment, or a conditional with a body of at least one command. -/
inductive IsCommand : Node → Prop
  | assignment (target : String) {value : Node} (expression : IsExpression value) :
    IsCommand (.assignment target value)
  | conditional {word : String} {condition : Node} {body : List Node}
    (conditional : isConditionalWord word = true) (expression : IsExpression condition)
    (some : body ≠ []) (each : ∀ command ∈ body, IsCommand command) :
    IsCommand (.conditional word condition (body.map .plain))

/-- Scopes with something in them, and commands of this kind. -/
inductive Item.Formed (valid : Node → Prop) : Item → Prop
  | command {c : Node} (is : valid c) : Formed valid (.command c)
  | scope {items : List Item} (some : items ≠ []) (each : ∀ item ∈ items, Formed valid item) :
    Formed valid (.scope items)

theorem bodyChain_zero (commands : List Node) : bodyChain 0 commands = commands.map .plain := by
  induction commands with
  | nil => rfl
  | cons first others ih =>
    rw [List.map_cons, ← ih]
    rfl

/-- What the value of a phrase has to be. A conditional is one if nothing is owed. -/
def Category.Valid : (c : Category) → c.Value → Prop
  | .primary, node | .operand _, node | .level _, node | .expression, node => IsExpression node
  | .one (.join _), (op, node) => op ≠ .assign ∧ IsExpression node
  | .many (.join _), joins => ∀ join ∈ joins, join.1 ≠ .assign ∧ IsExpression join.2
  | .assignment, node | .one .command, node => IsCommand node
  | .conditional, node => IsCommand (node 0)
  | .body, commands => commands ≠ [] ∧ ∀ command ∈ commands, IsCommand command
  | .many .command, commands => ∀ command ∈ commands, IsCommand command
  | .scope, item | .one .element, item => item.Formed IsCommand
  | .many .element, items => ∀ item ∈ items, item.Formed IsCommand

theorem IsExpression.joined {first : Node} {joins : List (Operator × Node)}
    (is : IsExpression first) (each : ∀ join ∈ joins, join.1 ≠ .assign ∧ IsExpression join.2) :
    IsExpression (Node.joined first joins) := by
  induction joins generalizing first with
  | nil => exact is
  | cons join joins ih =>
    obtain ⟨operator, right⟩ := each join List.mem_cons_self
    apply ih (.operation operator is right)
    intro other member
    exact each other (List.mem_cons_of_mem _ member)

theorem Precedence.ne_assign {rank : Precedence} {op : Operator} (member : op ∈ rank.operators) :
    op ≠ .assign := by
  rintro rfl
  cases rank <;> simp [operators] at member

/-- Some text denotes what a number stands for, even if its own text denotes none. -/
theorem isExpression_number (text : String) : IsExpression (Phrase.number text).value := by
  cases denotes : Binary64.ofText? text with
  | none =>
    have zero : Binary64.ofText? "0" = some ⟨0⟩ := by decide
    simpa [Phrase.value, denotes] using IsExpression.number zero
  | some v => simpa [Phrase.value, denotes] using IsExpression.number denotes

theorem Phrase.value_valid {c : Category} (p : Phrase c) : c.Valid p.value := by
  induction p with
  | number text => exact isExpression_number text
  | var name => exact .var name
  | head word conditional => exact .head conditional
  | call word operation argument ih => exact .call operation ih
  | group inner ih | product inner ih | power inner ih | primary inner ih
  | expression inner ih => exact ih
  | joined first joins ih ihs => exact ih.joined ihs
  | join op member right ih => exact ⟨Precedence.ne_assign member, ih⟩
  | assignment target value ih => exact .assignment target ih
  | conditional word conditional condition body ih ihs =>
    simp only [Category.Valid, Phrase.value, bodyChain_zero]
    exact .conditional conditional ih ihs.1 ihs.2
  | single inner ih => exact ⟨List.cons_ne_nil _ _, List.forall_mem_singleton.mpr ih⟩
  | block first others ih ihs =>
    exact ⟨List.cons_ne_nil _ _, List.forall_mem_cons.mpr ⟨ih, ihs⟩⟩
  | assigned inner ih => exact ih
  | conditioned inner ih => exact ih
  | scope first others ih ihs =>
    exact .scope (List.cons_ne_nil _ _) (List.forall_mem_cons.mpr ⟨ih, ihs⟩)
  | plain inner ih => exact .command ih
  | enclosed inner ih => exact ih
  | @none what => cases what <;> exact List.forall_mem_nil _
  | @more what first others ih ihs =>
    cases what with
    | join rank => exact List.forall_mem_cons.mpr ⟨ih, ihs⟩
    | command => exact List.forall_mem_cons.mpr ⟨ih, ihs⟩
    | element => exact List.forall_mem_cons.mpr ⟨ih, ihs⟩

/-- A chain that starts, and not by closing a scope. -/
def Chain.Opens (chain : Chain) : Prop :=
  ∃ link rest, chain = link :: rest ∧ link.marker ≠ .scopeClose

namespace Item

theorem opens_openScope {chain : Chain} (some : chain ≠ []) : chain.openScope.Opens := by
  obtain ⟨link, rest, rfl⟩ := List.exists_cons_of_ne_nil some
  rw [Chain.openScope]
  split
  · exact ⟨_, _, rfl, by simp⟩
  · exact ⟨_, _, rfl, by simp⟩

variable {valid : Node → Prop}

theorem valid_of_mem_commandsOf {items : List Item}
    (each : ∀ item ∈ items, ∀ c ∈ item.commands, valid c) : ∀ c ∈ commandsOf items, valid c := by
  induction items with
  | nil => exact List.forall_mem_nil _
  | cons first rest ih =>
    have others := ih fun item member => each item (List.mem_cons_of_mem _ member)
    exact List.forall_mem_append.mpr ⟨each first List.mem_cons_self, others⟩

theorem Formed.valid_of_mem_commands {item : Item} (formed : item.Formed valid) :
    ∀ c ∈ item.commands, valid c := by
  induction formed with
  | command is => exact List.forall_mem_singleton.mpr is
  | scope some each ih => exact valid_of_mem_commandsOf ih

theorem Formed.opens {item : Item} (formed : item.Formed valid) : (item.chain 0).Opens := by
  induction formed with
  | command is => exact ⟨_, _, rfl, by simp⟩
  | @scope items some each ih =>
    obtain ⟨first, rest, rfl⟩ := List.exists_cons_of_ne_nil some
    obtain ⟨link, links, starts, -⟩ := ih first List.mem_cons_self
    apply opens_openScope
    simp [chains, starts]

theorem opens_chains {items : List Item} (some : items ≠ [])
    (each : ∀ item ∈ items, item.Formed valid) : Chain.Opens (chains 0 items).flatten := by
  obtain ⟨first, rest, rfl⟩ := List.exists_cons_of_ne_nil some
  obtain ⟨link, links, starts, plain⟩ := (each first List.mem_cons_self).opens
  exact ⟨link, links ++ (chains first.debt rest).flatten, by simp [chains, starts], plain⟩

end Item
end LinkedScopes
