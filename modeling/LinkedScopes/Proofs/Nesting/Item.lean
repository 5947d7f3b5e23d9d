import LinkedScopes.Chain.Builder

/-! Programs as nested as they are written: commands, and scopes with what stands in
them. Flattening an item leaves closes owed, which the next item places; those of the last
item stay owed after all of them. -/
namespace LinkedScopes

inductive Item where
  | command (command : Node)
  | scope (items : List Item)

namespace Item

/-- What holds of commands, and of scopes if it holds of what stands in them, holds. -/
@[elab_as_elim, induction_eliminator]
theorem induct {motive : Item → Prop} (command : ∀ c, motive (.command c))
    (scope : ∀ items, (∀ item ∈ items, motive item) → motive (.scope items)) (item : Item) :
    motive item :=
  @Item.rec motive (fun items => ∀ item ∈ items, motive item) command scope
    (fun _ member => absurd member List.not_mem_nil)
    (fun _ _ first rest _ member => (List.mem_cons.mp member).elim (· ▸ first) (rest _)) item

mutual

/-- The closes owed after an item. What was owed before it has been placed by then. -/
def debt : Item → Nat
  | .command _ => 0
  | .scope items => debts 0 items + 1

def debts (owed : Nat) : List Item → Nat
  | [] => owed
  | item :: items => debts item.debt items

end

mutual

/-- The links of an item with so many closes owed before it. -/
def chain (owed : Nat) : Item → Chain
  | .command c => Chain.settle owed c
  | .scope items => (Chain.openScope (chains 0 items).flatten).wrap owed

def chains (owed : Nat) : List Item → List Chain
  | [] => []
  | item :: items => item.chain owed :: chains item.debt items

end

/-- The chain of a whole program: the closes owed at its end stand ahead of everything, one
less than there are, since the end of the input closes the outermost scope. -/
def program (item : Item) : Chain := (item.chain 0).wrap (item.debt - 1)

mutual

def commands : Item → List Node
  | .command c => [c]
  | .scope items => commandsOf items

def commandsOf : List Item → List Node
  | [] => []
  | item :: items => item.commands ++ commandsOf items

end

theorem commands_flatten_chains {items : List Item}
    (each : ∀ item ∈ items, ∀ owed, (item.chain owed).commands = item.commands) (owed : Nat) :
    Chain.commands (chains owed items).flatten = commandsOf items := by
  induction items generalizing owed with
  | nil => rfl
  | cons first rest ih =>
    rw [chains, List.flatten_cons, Chain.commands_append, commandsOf,
      each first List.mem_cons_self,
      ih fun item member => each item (List.mem_cons_of_mem _ member)]

theorem commands_chain (item : Item) (owed : Nat) :
    (item.chain owed).commands = item.commands := by
  induction item generalizing owed with
  | command c => simp [chain, commands]
  | scope items ih =>
    rw [chain, Chain.commands_wrap, Chain.commands_openScope, commands,
      commands_flatten_chains ih]

@[simp] theorem commands_program (item : Item) : item.program.commands = item.commands := by
  rw [program, Chain.commands_wrap, commands_chain]

theorem debts_command (first : Node) (others : List Node) (owed : Nat) :
    debts owed ((first :: others).map .command) = 0 := by
  induction others generalizing first owed with
  | nil => rfl
  | cons second others ih => exact ih second 0

end Item

/-- The links of the commands of a body, the first of which places what is owed. -/
def bodyChain (owed : Nat) (commands : List Node) : Chain :=
  (Item.chains owed (commands.map .command)).flatten

end LinkedScopes
