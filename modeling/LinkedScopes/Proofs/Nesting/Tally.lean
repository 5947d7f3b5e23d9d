import LinkedScopes.Proofs.Nesting.Count

/-! How often a marker stands in a tree, the bodies of conditionals included. Commands hold
no marker of a scope, so in the chain of an item those of the bodies add nothing: it opens as
many scopes as the item has, and closes what is owed before it and those that end before the
item does. -/
namespace LinkedScopes

mutual

/-- The links with a marker in a tree. -/
def Node.tally (marker : Marker) : Node → Nat
  | .number _ | .var _ | .head _ => 0
  | .operation _ left right => left.tally marker + right.tally marker
  | .call _ argument => argument.tally marker
  | .conditional _ condition body => condition.tally marker + chainTally marker body
  | .assignment _ value => value.tally marker

def commandTally (marker : Marker) : Option Node → Nat
  | none => 0
  | some command => command.tally marker

def Link.tally (marker : Marker) : Link → Nat
  | ⟨own, command⟩ => (if own = marker then 1 else 0) + commandTally marker command

def chainTally (marker : Marker) : List Link → Nat
  | [] => 0
  | link :: rest => link.tally marker + chainTally marker rest

end

namespace Chain

def tally (marker : Marker) (chain : Chain) : Nat := chainTally marker chain

variable {marker : Marker}

@[simp] theorem tally_nil : tally marker [] = 0 := rfl

@[simp] theorem tally_cons (link : Link) (rest : Chain) :
    tally marker (link :: rest) = link.tally marker + tally marker rest := rfl

@[simp] theorem tally_append (a b : Chain) :
    tally marker (a ++ b) = a.tally marker + b.tally marker := by
  induction a with
  | nil => exact (Nat.zero_add _).symm
  | cons link rest ih => rw [List.cons_append, tally_cons, ih, tally_cons, Nat.add_assoc]

theorem tally_closes (count : Nat) :
    tally marker (closes count) = if marker = .scopeClose then count else 0 := by
  induction count with
  | zero => simp [closes]
  | succ count ih =>
    rw [closes, List.replicate_succ, tally_cons]
    change _ + tally marker (closes count) = _
    rw [ih]
    cases marker <;> simp [Link.tally, commandTally, Nat.add_comm]

theorem tally_settle (bracket : marker ≠ .statement) (owed : Nat) (command : Node) :
    tally marker (settle owed command) =
      (if marker = .scopeClose then owed else 0) + command.tally marker := by
  cases owed with
  | zero => cases marker <;> simp_all [settle, Link.tally, commandTally]
  | succ owed =>
    rw [settle, tally_append, tally_closes]
    cases marker <;> simp_all [Link.tally, commandTally, Nat.add_assoc]

theorem tally_wrap (count : Nat) (chain : Chain) :
    tally marker (wrap count chain) =
      (if marker = .scopeClose then count else 0) + chain.tally marker := by
  rw [wrap, tally_append, tally_closes]

theorem tally_openScope (bracket : marker ≠ .statement) {chain : Chain} (opens : chain.Opens) :
    chain.openScope.tally marker =
      (if marker = .scopeOpen then 1 else 0) + chain.tally marker := by
  obtain ⟨⟨own, command⟩, rest, rfl, plain⟩ := opens
  cases own with
  | statement => cases marker <;> simp_all [openScope, Link.tally, Nat.add_assoc]
  | scopeOpen => cases marker <;> simp_all [openScope, Link.tally, commandTally]
  | scopeClose => exact absurd rfl plain

end Chain

variable {marker : Marker}

theorem IsExpression.tally_eq_zero {node : Node} (is : IsExpression node) :
    node.tally marker = 0 := by
  induction is with
  | number | var | head => rfl
  | operation _ _ _ first second => simp [Node.tally, first, second]
  | call _ _ inner => simpa [Node.tally] using inner

theorem tally_map_plain (bracket : marker ≠ .statement) {commands : List Node}
    (each : ∀ command ∈ commands, command.tally marker = 0) :
    Chain.tally marker (commands.map .plain) = 0 := by
  induction commands with
  | nil => rfl
  | cons first rest ih =>
    have here := each first List.mem_cons_self
    have there := ih fun command member => each command (List.mem_cons_of_mem _ member)
    rw [List.map_cons, Chain.tally_cons, there, Link.plain, Link.tally, commandTally, here,
      if_neg bracket.symm]

/-- No scope opens or closes inside a command. -/
theorem IsCommand.tally_eq_zero (bracket : marker ≠ .statement) {node : Node}
    (is : IsCommand node) : node.tally marker = 0 := by
  induction is with
  | assignment target value => exact value.tally_eq_zero
  | conditional _ condition _ each ih =>
    rw [Node.tally, condition.tally_eq_zero, Nat.zero_add]
    exact tally_map_plain bracket ih

/-- The body of a conditional closes what is owed before it. -/
theorem tally_conditional (bracket : marker ≠ .statement) (word : String) {condition : Node}
    (is : IsExpression condition) {commands : List Node} (some : commands ≠ [])
    (each : ∀ command ∈ commands, IsCommand command) (owed : Nat) :
    (Node.conditional word condition (bodyChain owed commands)).tally marker =
      if marker = .scopeClose then owed else 0 := by
  obtain ⟨first, rest, rfl⟩ := List.exists_cons_of_ne_nil some
  have here := (each first List.mem_cons_self).tally_eq_zero bracket
  have there : Chain.tally marker (rest.map .plain) = 0 := by
    apply tally_map_plain bracket
    intro command member
    exact (each command (List.mem_cons_of_mem _ member)).tally_eq_zero bracket
  rw [Node.tally, is.tally_eq_zero, Nat.zero_add]
  change Chain.tally marker (Chain.settle owed first ++ bodyChain 0 rest) = _
  rw [Chain.tally_append, Chain.tally_settle bracket, here, bodyChain_zero, there]
  rfl

namespace Item

mutual

def scopes : Item → Nat
  | .command _ => 0
  | .scope items => scopesOf items + 1

def scopesOf : List Item → Nat
  | [] => 0
  | item :: items => item.scopes + scopesOf items

end

mutual

/-- The scopes that end where an item ends: none at a command, and at a scope one more than at
its last element. -/
def ending : Item → Nat
  | .command _ => 0
  | .scope items => endingOf items + 1

def endingOf : List Item → Nat
  | [] => 0
  | [last] => last.ending
  | _ :: next :: rest => endingOf (next :: rest)

end

theorem debts_eq_endingOf {items : List Item} (some : items ≠ [])
    (each : ∀ item ∈ items, item.debt = item.ending) (owed : Nat) :
    debts owed items = endingOf items := by
  induction items generalizing owed with
  | nil => exact absurd rfl some
  | cons first rest ih =>
    cases rest with
    | nil => exact each first List.mem_cons_self
    | cons next rest =>
      exact ih (List.cons_ne_nil _ _) (fun item member => each item (List.mem_cons_of_mem _ member))
        first.debt

variable {valid : Node → Prop}

/-- An item leaves owed the scopes that end with it. -/
theorem Formed.debt_eq_ending {item : Item} (formed : item.Formed valid) :
    item.debt = item.ending := by
  induction formed with
  | command => rfl
  | scope some each ih => rw [debt, ending, debts_eq_endingOf some ih]

/-- The chain of an item opens its scopes. What it closes and leaves owed is what was owed before
it and what it opens. -/
def Tallied (item : Item) : Prop :=
  ∀ owed, (item.chain owed).tally .scopeOpen = item.scopes ∧
    (item.chain owed).tally .scopeClose + item.debt = owed + item.scopes

theorem tally_flatten_chains {items : List Item} (each : ∀ item ∈ items, item.Tallied)
    (owed : Nat) :
    Chain.tally .scopeOpen (chains owed items).flatten = scopesOf items ∧
      Chain.tally .scopeClose (chains owed items).flatten + debts owed items =
        owed + scopesOf items := by
  induction items generalizing owed with
  | nil => exact ⟨rfl, Nat.zero_add _⟩
  | cons first rest ih =>
    obtain ⟨opens, closes⟩ := each first List.mem_cons_self owed
    obtain ⟨opens', closes'⟩ :=
      ih (fun item member => each item (List.mem_cons_of_mem _ member)) first.debt
    simp only [chains, List.flatten_cons, Chain.tally_append, debts, scopesOf]
    omega

theorem Formed.tallied {item : Item} (formed : item.Formed IsCommand) : item.Tallied := by
  induction formed with
  | command is =>
    intro owed
    simp [chain, debt, scopes, Chain.tally_settle, is.tally_eq_zero]
  | @scope items some each ih =>
    intro owed
    have opens : Chain.Opens (chains 0 items).flatten := opens_chains some each
    obtain ⟨opened, closed⟩ := tally_flatten_chains ih 0
    simp only [chain, debt, scopes, Chain.tally_wrap, ne_eq, reduceCtorEq, not_false_eq_true,
      Chain.tally_openScope _ opens, if_true, if_false]
    omega

/-- The end of the input closes the outermost scope, all others are closed by links. -/
theorem tally_program_scope {items : List Item} (formed : (scope items).Formed IsCommand) :
    (scope items).program.tally .scopeOpen = (scope items).program.tally .scopeClose + 1 := by
  obtain ⟨opens, closes⟩ := formed.tallied 0
  have owed : (scope items).debt = debts 0 items + 1 := rfl
  simp only [program, Chain.tally_wrap, reduceCtorEq, if_true, if_false]
  omega

theorem tally_program_command {c : Node} (is : IsCommand c) {marker : Marker}
    (bracket : marker ≠ .statement) : (command c).program.tally marker = 0 := by
  change Chain.tally marker (Chain.settle 0 c) = 0
  rw [Chain.tally_settle bracket, is.tally_eq_zero bracket]
  simp

end Item
end LinkedScopes
