import LinkedScopes.Proofs.Chain.Nodes
import LinkedScopes.Proofs.Grammar.Soundness

/-! Where the parts of a tree come from. Nothing in it is made up: a number is what the text of
some token denotes, and a name, a word or an operator is a token's own. The closes that are
placed and the markers of scopes add nothing to that. -/
namespace LinkedScopes

theorem commands_bodyChain (owed : Nat) (commands : List Node) :
    (bodyChain owed commands).commands = commands := by
  have each : Item.commandsOf (commands.map .command) = commands := by
    induction commands with
    | nil => rfl
    | cons first others ih => exact congrArg (first :: ·) ih
  rw [bodyChain, Item.commands_flatten_chains fun item _ => item.commands_chain, each]

/-- What a node says by itself comes from these lexemes. -/
def Node.From (given : List Lexeme) : Node → Prop
  | .number value => ∃ text, ⟨.number, text⟩ ∈ given ∧ Binary64.ofText? text = some value
  | .var name | .assignment name _ => ⟨.identifier, name⟩ ∈ given
  | .operation op _ _ => .operator op ∈ given
  | .head word | .conditional word _ _ =>
    ⟨.keyword, word⟩ ∈ given ∧ isConditionalWord word = true
  | .call word _ => ⟨.keyword, word⟩ ∈ given ∧ isConditionalWord word = false

/-- A node and all that it is made of come from these lexemes. -/
def Node.AllFrom (given : List Lexeme) (node : Node) : Prop :=
  ∀ inner ∈ node.nodes, inner.From given

variable {given : List Lexeme}

namespace Node.AllFrom

theorem operation {op : Operator} {left right : Node} (sign : .operator op ∈ given)
    (first : left.AllFrom given) (second : right.AllFrom given) :
    (Node.operation op left right).AllFrom given :=
  List.forall_mem_cons.mpr ⟨sign, List.forall_mem_append.mpr ⟨first, second⟩⟩

theorem joined {first : Node} {joins : List (Operator × Node)} (start : first.AllFrom given)
    (each : ∀ join ∈ joins, .operator join.1 ∈ given ∧ join.2.AllFrom given) :
    (Node.joined first joins).AllFrom given := by
  induction joins generalizing first with
  | nil => exact start
  | cons join joins ih =>
    obtain ⟨⟨sign, right⟩, others⟩ := List.forall_mem_cons.mp each
    exact ih (.operation sign start right) others

/-- What is owed adds nothing to a body. -/
theorem conditional {word : String} {condition : Node} {body : List Node}
    (head : ⟨.keyword, word⟩ ∈ given) (conditional : isConditionalWord word = true)
    (first : condition.AllFrom given) (each : ∀ command ∈ body, command.AllFrom given)
    (owed : Nat) : (Node.conditional word condition (bodyChain owed body)).AllFrom given := by
  refine List.forall_mem_cons.mpr ⟨⟨head, conditional⟩, List.forall_mem_append.mpr ⟨first, ?_⟩⟩
  intro inner among
  obtain ⟨command, member, inside⟩ := Chain.mem_nodes_iff.mp among
  rw [commands_bodyChain] at member
  exact each command member inner inside

end Node.AllFrom

/-- What the value of a phrase is made of comes from these lexemes. -/
def Category.From (given : List Lexeme) : (c : Category) → c.Value → Prop
  | .primary, node | .operand _, node | .level _, node | .expression, node
  | .assignment, node | .one .command, node => node.AllFrom given
  | .one (.join _), (op, node) => .operator op ∈ given ∧ node.AllFrom given
  | .many (.join _), joins =>
    ∀ join ∈ joins, .operator join.1 ∈ given ∧ join.2.AllFrom given
  | .conditional, node => ∀ owed, (node owed).AllFrom given
  | .body, commands | .many .command, commands => ∀ command ∈ commands, command.AllFrom given
  | .scope, item | .one .element, item => ∀ command ∈ item.commands, command.AllFrom given
  | .many .element, items => ∀ command ∈ Item.commandsOf items, command.AllFrom given

theorem Phrase.value_from {c : Category} (p : Phrase c) (within : p.lexemes ⊆ given)
    (readable : ∀ lexeme ∈ given, lexeme.Readable) : c.From given p.value := by
  induction p with
  | number text =>
    -- The text can be read, so the number is not the one that stands in for it otherwise.
    have member := within List.mem_cons_self
    obtain ⟨value, denotes⟩ := Option.isSome_iff_exists.mp (readable _ member rfl)
    refine List.forall_mem_singleton.mpr ⟨text, member, ?_⟩
    rw [denotes, Option.getD_some]
  | var name => exact List.forall_mem_singleton.mpr (within List.mem_cons_self)
  | head word conditional =>
    exact List.forall_mem_singleton.mpr ⟨within List.mem_cons_self, conditional⟩
  | call word operation argument ih =>
    simp only [lexemes, List.cons_subset, List.append_subset] at within
    obtain ⟨head, -, inside, -⟩ := within
    exact List.forall_mem_cons.mpr ⟨⟨head, operation⟩, ih inside⟩
  | group inner ih =>
    simp only [lexemes, List.cons_subset, List.append_subset] at within
    exact ih within.2.1
  | product inner ih | power inner ih | primary inner ih | expression inner ih
  | enclosed inner ih => exact ih within
  | joined first joins ih ihs =>
    obtain ⟨inside, behind⟩ := List.append_subset.mp within
    exact (ih inside).joined (ihs behind)
  | join op member right ih =>
    obtain ⟨sign, inside⟩ := List.cons_subset.mp within
    exact ⟨sign, ih inside⟩
  | assignment target value ih =>
    simp only [lexemes, List.cons_subset] at within
    exact List.forall_mem_cons.mpr ⟨within.1, ih within.2.2⟩
  | conditional word conditional condition body ih ihs =>
    simp only [lexemes, List.cons_subset, List.append_subset] at within
    obtain ⟨head, -, inside, -, behind⟩ := within
    exact .conditional head conditional (ih inside) (ihs behind)
  | conditioned inner ih => exact ih within 0
  | single inner ih | plain inner ih => exact List.forall_mem_singleton.mpr (ih within)
  | assigned inner ih => exact ih (List.append_subset.mp within).1
  | block first others ih ihs =>
    simp only [lexemes, List.cons_subset, List.append_subset] at within
    obtain ⟨-, ⟨inside, behind⟩, -⟩ := within
    exact List.forall_mem_cons.mpr ⟨ih inside, ihs behind⟩
  | scope first others ih ihs =>
    simp only [lexemes, List.cons_subset, List.append_subset] at within
    obtain ⟨-, ⟨inside, behind⟩, -⟩ := within
    exact List.forall_mem_append.mpr ⟨ih inside, ihs behind⟩
  | @none what => cases what <;> exact List.forall_mem_nil _
  | @more what first others ih ihs =>
    obtain ⟨inside, behind⟩ := List.append_subset.mp within
    cases what with
    | join rank => exact List.forall_mem_cons.mpr ⟨ih inside, ihs behind⟩
    | command => exact List.forall_mem_cons.mpr ⟨ih inside, ihs behind⟩
    | element => exact List.forall_mem_append.mpr ⟨ih inside, ihs behind⟩

/-- Everything in the tree of a program comes from its tokens. -/
theorem parse_from {tokens : List Token} {limit : Nat} {chain : Chain} {t : State}
    (run : parse tokens limit = (.ok chain, t)) :
    ∀ node ∈ chain.nodes, node.From (lexemes tokens) := by
  obtain ⟨p, all, readable, -, rfl, -⟩ := parse_accepts run
  have each := p.value_from (List.Subset.refl _) readable
  intro node among
  obtain ⟨command, member, inside⟩ := Chain.mem_nodes_iff.mp among
  rw [Item.commands_program] at member
  rw [all]
  exact each command member node inside

end LinkedScopes
