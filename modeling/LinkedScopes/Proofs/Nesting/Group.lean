import LinkedScopes.Proofs.Nesting.Count

/-! Which chains are programs. A chain falls into groups with one command each, at their end:
a command after some closes, or the scopes that open around a command after some closes. A
scope can be extended by any group that leaves it open, by putting an item at the end of one
of the scopes that its last link leaves open; from group to group, every chain that counts
right is the chain of an item. -/
namespace LinkedScopes

namespace Chain

def opening (others : Nat) (command : Node) : Chain :=
  List.replicate others ⟨.scopeOpen, none⟩ ++ [⟨.scopeOpen, some command⟩]

/-- What stands between two commands, with the second of them. -/
inductive Group : Chain → Prop
  | statement (command : Node) : Group [⟨.statement, some command⟩]
  | closing (others : Nat) (command : Node) :
    Group (closes others ++ [⟨.scopeClose, some command⟩])
  | opening (owed others : Nat) (command : Node) : Group (closes owed ++ opening others command)

/-- One command by itself, or a scope: the closes owed at its end, then the group of its first
command and any others. From the first group on the scopes that are open are at least one,
and in the end one more than the closes in front. -/
def WellFormed (chain : Chain) : Prop :=
  (∀ command ∈ chain.commands, IsCommand command) ∧
    ((∃ command, chain = [⟨.statement, some command⟩]) ∨
      ∃ trailing others command groups,
        chain = closes trailing ++ (opening others command ++ List.flatten groups) ∧
        (∀ group ∈ groups, Group group) ∧
        Above 1 0 (opening others command ++ List.flatten groups) ∧
        level (opening others command ++ List.flatten groups) = trailing + 1)

theorem openScope_opening (others : Nat) (command : Node) :
    openScope (opening others command) = opening (others + 1) command := by
  cases others <;> rfl

theorem openScope_append {a b : Chain} (some : a ≠ []) : openScope (a ++ b) = openScope a ++ b := by
  obtain ⟨link, rest, rfl⟩ := List.exists_cons_of_ne_nil some
  rw [List.cons_append, openScope, openScope]
  split <;> rfl

theorem wrap_append (count : Nat) (a b : Chain) : wrap count (a ++ b) = wrap count a ++ b :=
  (List.append_assoc _ _ _).symm

end Chain

namespace Item

variable {valid : Node → Prop}

/-- A command in so many scopes with nothing else in them. -/
def nest : Nat → Node → Item
  | 0, c => .command c
  | depth + 1, c => .scope [nest depth c]

theorem nest_formed {c : Node} (is : valid c) (depth : Nat) : (nest depth c).Formed valid := by
  induction depth with
  | zero => exact .command is
  | succ depth ih => exact .scope (List.cons_ne_nil _ _) (List.forall_mem_singleton.mpr ih)

@[simp] theorem debt_nest (depth : Nat) (c : Node) : (nest depth c).debt = depth := by
  induction depth with
  | zero => rfl
  | succ depth ih => simp [nest, debt, debts, ih]

theorem mem_commands_nest (depth : Nat) (c : Node) : c ∈ (nest depth c).commands := by
  induction depth with
  | zero => exact List.mem_singleton.mpr rfl
  | succ depth ih => exact List.mem_append_left [] ih

theorem chain_nest_succ (owed others : Nat) (c : Node) :
    (nest (others + 1) c).chain owed = Chain.closes owed ++ Chain.opening others c := by
  induction others generalizing owed with
  | zero => rfl
  | succ others ih =>
    have inner : (nest (others + 1) c).chain 0 = Chain.opening others c := ih 0
    have only : (chains 0 [nest (others + 1) c]).flatten = Chain.opening others c := by
      rw [← inner]
      exact List.append_nil _
    rw [nest, chain, only, Chain.openScope_opening, Chain.wrap]

/-- The groups are the chains of nested commands. -/
theorem group_iff {group : Chain} :
    Chain.Group group ↔ ∃ owed depth c, group = (nest depth c).chain owed := by
  constructor
  · rintro (c | ⟨others, c⟩ | ⟨owed, others, c⟩)
    · exact ⟨0, 0, c, rfl⟩
    · exact ⟨others + 1, 0, c, rfl⟩
    · exact ⟨owed, others + 1, c, (chain_nest_succ owed others c).symm⟩
  · rintro ⟨owed, depth, c, rfl⟩
    cases depth with
    | zero =>
      cases owed with
      | zero => exact .statement c
      | succ owed => exact .closing owed c
    | succ others =>
      rw [chain_nest_succ]
      exact .opening owed others c

/-- The links of an item are those of a nested command, whatever is owed, and more groups. -/
def Leads (item : Item) (depth : Nat) : Prop :=
  ∃ c groups, (∀ group ∈ groups, Chain.Group group) ∧
    ∀ owed, item.chain owed = (nest depth c).chain owed ++ List.flatten groups

theorem Leads.groups {item : Item} {depth : Nat} (leads : item.Leads depth) (owed : Nat) :
    ∃ groups, (∀ group ∈ groups, Chain.Group group) ∧ item.chain owed = List.flatten groups := by
  obtain ⟨c, groups, each, chain⟩ := leads
  refine ⟨(nest depth c).chain owed :: groups, ?_, chain owed⟩
  exact List.forall_mem_cons.mpr ⟨group_iff.mpr ⟨owed, depth, c, rfl⟩, each⟩

theorem groups_of_chains {items : List Item} (each : ∀ item ∈ items, ∃ depth, item.Leads depth)
    (owed : Nat) : ∃ groups, (∀ group ∈ groups, Chain.Group group) ∧
      (chains owed items).flatten = List.flatten groups := by
  induction items generalizing owed with
  | nil => exact ⟨[], List.forall_mem_nil _, rfl⟩
  | cons first rest ih =>
    obtain ⟨depth, leads⟩ := each first List.mem_cons_self
    obtain ⟨groups, are, here⟩ := leads.groups owed
    obtain ⟨groups', are', there⟩ :=
      ih (fun item member => each item (List.mem_cons_of_mem _ member)) first.debt
    refine ⟨groups ++ groups', ?_, ?_⟩
    · exact List.forall_mem_append.mpr ⟨are, are'⟩
    · rw [chains, List.flatten_cons, here, there, List.flatten_append]

theorem leads_scope {items : List Item} (some : items ≠ [])
    (each : ∀ item ∈ items, ∃ depth, item.Leads depth) :
    ∃ others, (Item.scope items).Leads (others + 1) := by
  obtain ⟨first, rest, rfl⟩ := List.exists_cons_of_ne_nil some
  obtain ⟨depth, c, groups, are, chain⟩ := each first List.mem_cons_self
  obtain ⟨groups', are', there⟩ :=
    groups_of_chains (fun item member => each item (List.mem_cons_of_mem _ member)) first.debt
  refine ⟨depth, c, groups ++ groups', List.forall_mem_append.mpr ⟨are, are'⟩, ?_⟩
  intro owed
  have full : (nest depth c).chain 0 ≠ [] := by
    have formed : (nest depth c).Formed fun _ => True := nest_formed trivial depth
    obtain ⟨link, links, starts, -⟩ := formed.opens
    simp [starts]
  have inner : (nest (depth + 1) c).chain owed =
      Chain.wrap owed (Chain.openScope ((nest depth c).chain 0)) := by
    rw [nest, Item.chain, chains, List.flatten_cons]
    exact congrArg (fun links => Chain.wrap owed (Chain.openScope links)) (List.append_nil _)
  rw [Item.chain, chains, List.flatten_cons, chain, there, List.append_assoc,
    Chain.openScope_append full, Chain.wrap_append, inner, List.flatten_append]

theorem Formed.leads {item : Item} (formed : item.Formed valid) : ∃ depth, item.Leads depth := by
  induction formed with
  | @command c is => exact ⟨0, c, [], List.forall_mem_nil _, fun owed => (List.append_nil _).symm⟩
  | scope some each ih =>
    obtain ⟨others, leads⟩ := leads_scope some ih
    exact ⟨others + 1, leads⟩

/-! Putting items into a scope. -/

theorem chains_append (a b : List Item) (owed : Nat) :
    chains owed (a ++ b) = chains owed a ++ chains (debts owed a) b := by
  induction a generalizing owed with
  | nil => rfl
  | cons first rest ih => simp [chains, debts, ih]

theorem debts_append (a b : List Item) (owed : Nat) :
    debts owed (a ++ b) = debts (debts owed a) b := by
  induction a generalizing owed with
  | nil => rfl
  | cons first rest ih => simp [debts, ih]

theorem flatten_chains_concat (init : List Item) (last : Item) :
    (chains 0 (init ++ [last])).flatten =
      (chains 0 init).flatten ++ last.chain (debts 0 init) := by
  simp [chains_append, chains]

theorem debt_scope_concat (init : List Item) (last : Item) :
    (Item.scope (init ++ [last])).debt = last.debt + 1 := by
  simp [debt, debts_append, debts]

theorem chain_scope_append {items : List Item} {last : Chain} (full : (chains 0 items).flatten ≠ [])
    (owed : Nat) :
    Chain.wrap owed (Chain.openScope ((chains 0 items).flatten ++ last)) =
      (Item.scope items).chain owed ++ last := by
  rw [chain, Chain.openScope_append full, Chain.wrap_append]

theorem flatten_chains_ne_nil {items : List Item} (some : items ≠ [])
    (each : ∀ item ∈ items, item.Formed valid) : (chains 0 items).flatten ≠ [] := by
  obtain ⟨link, rest, starts, -⟩ := opens_chains some each
  simp [starts]

/-- An item can be put at the end of any scope that is open after the last link of another. -/
theorem Formed.exists_insert {item e : Item} (formed : item.Formed valid)
    (inserted : e.Formed valid) (level : Nat) (inside : 1 ≤ level) (deep : level ≤ item.debt) :
    ∃ item' : Item, item'.Formed valid ∧ item'.debt = level + e.debt ∧
      ∀ owed, item'.chain owed = item.chain owed ++ e.chain (item.debt - level) := by
  induction formed generalizing level with
  | command is =>
    rw [debt] at deep
    omega
  | @scope items some each ih =>
    have full := flatten_chains_ne_nil some each
    by_cases outermost : level = 1
    · subst outermost
      refine ⟨.scope (items ++ [e]), .scope (by simp) ?_, ?_, ?_⟩
      · exact List.forall_mem_append.mpr ⟨each, List.forall_mem_singleton.mpr inserted⟩
      · rw [debt_scope_concat, Nat.add_comm]
      · intro owed
        rw [← chain_scope_append full owed, chain, flatten_chains_concat, debt]
        rfl
    · rcases List.eq_nil_or_concat items with rfl | ⟨init, last, rfl⟩
      · exact absurd rfl some
      rw [List.concat_eq_append] at some each ih full deep ⊢
      rw [debt_scope_concat] at deep ⊢
      have member : last ∈ init ++ [last] := List.mem_append_right _ List.mem_cons_self
      obtain ⟨last', formed', debt', chain'⟩ :=
        ih last member (level - 1) (by omega) (by omega)
      have others := fun item inside => each item (List.mem_append_left [last] inside)
      refine ⟨.scope (init ++ [last']), .scope (by simp) ?_, ?_, ?_⟩
      · exact List.forall_mem_append.mpr ⟨others, List.forall_mem_singleton.mpr formed'⟩
      · rw [debt_scope_concat, debt']
        omega
      · intro owed
        have same : last.debt - (level - 1) = last.debt + 1 - level := by omega
        rw [← chain_scope_append full owed, chain, flatten_chains_concat, flatten_chains_concat,
          chain', same, List.append_assoc]

theorem lt_of_above_chain {item : Item} {start : Int} {owed : Nat} (high : 1 ≤ start)
    (above : Chain.Above 1 start (item.chain owed)) : 1 ≤ start - owed := by
  cases item with
  | command c => exact (Chain.above_settle_iff owed c high).mp above
  | scope items =>
    rw [chain, Chain.wrap, Chain.above_append] at above
    exact (Chain.above_closes_iff owed high).mp above.1

/-- A program can be extended by groups as long as its outermost scope stays open. -/
theorem Formed.exists_extend {item : Item} (formed : item.Formed valid) (scope : 1 ≤ item.debt)
    {groups : List Chain} (are : ∀ group ∈ groups, Chain.Group group)
    (valids : ∀ c ∈ Chain.commands (List.flatten groups), valid c)
    (above : Chain.Above 1 item.debt (List.flatten groups)) :
    ∃ item' : Item, item'.Formed valid ∧ 1 ≤ item'.debt ∧
      item'.chain 0 = item.chain 0 ++ List.flatten groups := by
  induction groups generalizing item with
  | nil => exact ⟨item, formed, scope, (List.append_nil _).symm⟩
  | cons group groups ih =>
    obtain ⟨is, others⟩ := List.forall_mem_cons.mp are
    obtain ⟨owed, depth, c, rfl⟩ := group_iff.mp is
    rw [List.flatten_cons, Chain.commands_append, commands_chain, List.forall_mem_append] at valids
    rw [List.flatten_cons, Chain.above_append] at above
    have inserted : (nest depth c).Formed valid :=
      nest_formed (valids.1 c (mem_commands_nest depth c)) depth
    have stays := lt_of_above_chain (by omega) above.1
    obtain ⟨item', formed', debt', chain'⟩ :=
      formed.exists_insert inserted (item.debt - owed) (by omega) (by omega)
    have level := inserted.level_chain owed
    have count : (item'.debt : Int) = item.debt + Chain.level ((nest depth c).chain owed) := by
      omega
    rw [← count] at above
    obtain ⟨item'', formed'', scope'', chain''⟩ := ih formed' (by omega) others valids.2 above.2
    refine ⟨item'', formed'', scope'', ?_⟩
    have same : item.debt - (item.debt - owed) = owed := by omega
    rw [chain'', chain', same, List.append_assoc, List.flatten_cons]

end Item

namespace Chain

open Item

theorem level_opening (others : Nat) (c : Node) : level (opening others c) = others + 1 := by
  have formed : (nest (others + 1) c).Formed fun _ => True := nest_formed trivial _
  have level := formed.level_chain 0
  rw [chain_nest_succ, debt_nest, level_append, level_closes] at level
  simpa using level

theorem WellFormed.exists_item {chain : Chain} (formed : chain.WellFormed) :
    ∃ item : Item, item.Formed IsCommand ∧ chain = item.program := by
  obtain ⟨commands, ⟨c, rfl⟩ | ⟨trailing, others, c, groups, rfl, are, above, level⟩⟩ := formed
  · exact ⟨.command c, .command (commands c (by simp [Chain.commands])), rfl⟩
  · have first : (nest (others + 1) c).Formed IsCommand := by
      apply nest_formed
      exact commands c (by simp [opening, Chain.commands])
    have start : (nest (others + 1) c).chain 0 = opening others c := chain_nest_succ 0 others c
    rw [above_append, level_opening] at above
    obtain ⟨item, formed, scope, links⟩ := first.exists_extend (by simp) are
      (fun c member => commands c (by simp [member])) (by simpa using above.2)
    have count := formed.level_chain 0
    rw [links, start, level] at count
    have owed : item.debt - 1 = trailing := by omega
    refine ⟨item, formed, ?_⟩
    rw [Item.program, Chain.wrap, owed, links, start]

end Chain

namespace Item

theorem Formed.wellFormed_program {item : Item} (formed : item.Formed IsCommand) :
    item.program.WellFormed := by
  refine ⟨by simpa using formed.valid_of_mem_commands, ?_⟩
  cases formed with
  | @command c is => exact .inl ⟨c, rfl⟩
  | @scope items some each =>
    right
    have formed : (Item.scope items).Formed IsCommand := .scope some each
    obtain ⟨others, c, groups, are, chain⟩ := leads_scope some fun item member =>
      (each item member).leads
    have links : (Item.scope items).chain 0 = Chain.opening others c ++ List.flatten groups := by
      rw [chain, chain_nest_succ]
      rfl
    have above := above_chain_scope formed
    have level := formed.level_chain 0
    rw [links] at above level
    refine ⟨debts 0 items, others, c, groups, ?_, are, above, ?_⟩
    · rw [program, links]
      rfl
    · rw [level, debt]
      omega

end Item

theorem Chain.wellFormed_iff {chain : Chain} :
    chain.WellFormed ↔ ∃ item : Item, item.Formed IsCommand ∧ chain = item.program := by
  constructor
  · exact WellFormed.exists_item
  · rintro ⟨item, formed, rfl⟩
    exact formed.wellFormed_program

end LinkedScopes
