import LinkedScopes.Chain.Builder
import LinkedScopes.Chain.Equality

/-! Everything in a tree. The nodes of a chain are those of its commands, wherever its scopes
open and close, and the body of a conditional belongs to it. A tree equals itself unless there is
something among its nodes that is not a number. -/
namespace LinkedScopes

mutual

def Node.nodes : Node → List Node
  | .number value => [.number value]
  | .var name => [.var name]
  | .operation op left right => .operation op left right :: (left.nodes ++ right.nodes)
  | .head word => [.head word]
  | .call word argument => .call word argument :: argument.nodes
  | .conditional word condition body =>
    .conditional word condition body :: (condition.nodes ++ chainNodes body)
  | .assignment target value => .assignment target value :: value.nodes

def commandNodes : Option Node → List Node
  | none => []
  | some command => command.nodes

def Link.nodes : Link → List Node
  | ⟨_, command⟩ => commandNodes command

def chainNodes : List Link → List Node
  | [] => []
  | link :: rest => link.nodes ++ chainNodes rest

end

/-- The nodes of all commands, those of bodies included. -/
def Chain.nodes (chain : Chain) : List Node := chainNodes chain

theorem Chain.nodes_eq (chain : Chain) : chain.nodes = chain.commands.flatMap Node.nodes := by
  induction chain with
  | nil => rfl
  | cons link rest ih =>
    obtain ⟨marker, command⟩ := link
    change commandNodes command ++ nodes rest = _
    rw [ih]
    cases command <;> rfl

theorem Chain.mem_nodes_iff {chain : Chain} {node : Node} :
    node ∈ chain.nodes ↔ ∃ command ∈ chain.commands, node ∈ command.nodes := by
  rw [nodes_eq, List.mem_flatMap]

/-- What holds of a conditional if it holds of its condition and of the commands of its body, and
of other nodes if it holds of what they are made of, holds. -/
@[elab_as_elim]
theorem Node.induct {motive : Node → Prop} (number : ∀ value, motive (.number value))
    (var : ∀ name, motive (.var name))
    (operation : ∀ op left right, motive left → motive right → motive (.operation op left right))
    (head : ∀ word, motive (.head word))
    (call : ∀ word argument, motive argument → motive (.call word argument))
    (conditional : ∀ word condition body, motive condition →
      (∀ command ∈ Chain.commands body, motive command) →
      motive (.conditional word condition body))
    (assignment : ∀ target value, motive value → motive (.assignment target value))
    (node : Node) : motive node :=
  @Node.rec motive (fun link => ∀ command ∈ link.command, motive command)
    (fun body => ∀ command ∈ Chain.commands body, motive command)
    (fun command => ∀ node ∈ command, motive node)
    number var operation head call conditional assignment (fun _ _ each => each)
    (fun _ member => absurd member List.not_mem_nil)
    (fun link rest first others => by
      intro command member
      obtain ⟨other, among, is⟩ := List.mem_filterMap.mp member
      rcases List.mem_cons.mp among with rfl | later
      · exact first command is
      · exact others command (List.mem_filterMap.mpr ⟨other, later, is⟩))
    (fun _ member => absurd member (Option.not_mem_none _))
    (fun node is _ member => Option.some.inj member ▸ is) node

/-! Equality with itself. -/

theorem Binary64.same_self (x : Binary64) : x.same x = !x.isNaN := by
  simp [same]

def Node.Numeric (node : Node) : Prop :=
  ∀ value, .number value ∈ node.nodes → value.isNaN = false

namespace Chain

theorem same_self_iff_commands {chain : Chain} :
    chain.same chain = true ↔ ∀ command ∈ chain.commands, command.same command = true := by
  induction chain with
  | nil => simp [same, sameChain, commands]
  | cons link rest ih =>
    obtain ⟨marker, command⟩ := link
    have parts : same (⟨marker, command⟩ :: rest) (⟨marker, command⟩ :: rest) =
        (sameCommand command command && same rest rest) := by
      simp [same, sameChain, Link.same]
    rw [parts, Bool.and_eq_true, ih]
    cases command <;> simp [sameCommand, commands]

theorem same_self_iff_of_commands {chain : Chain}
    (each : ∀ command ∈ chain.commands, command.same command = true ↔ command.Numeric) :
    chain.same chain = true ↔ ∀ value, .number value ∈ chain.nodes → value.isNaN = false := by
  rw [same_self_iff_commands]
  constructor
  · intro same value among
    obtain ⟨command, member, inside⟩ := mem_nodes_iff.mp among
    exact (each command member).mp (same command member) value inside
  · intro numbers command member
    refine (each command member).mpr fun value inside => ?_
    exact numbers value (mem_nodes_iff.mpr ⟨command, member, inside⟩)

end Chain

theorem Node.same_self_iff (node : Node) : node.same node = true ↔ node.Numeric := by
  induction node using Node.induct with
  | number value => simp [same, Numeric, nodes, Binary64.same_self]
  | var | head => simp [same, Numeric, nodes]
  | operation op left right first second =>
    simp [same, Numeric, nodes, first, second, or_imp, forall_and]
  | call word argument ih => simp [same, Numeric, nodes, ih]
  | assignment target value ih => simp [same, Numeric, nodes, ih]
  | conditional word condition body first each =>
    have inside := Chain.same_self_iff_of_commands each
    rw [Chain.same, Chain.nodes] at inside
    simp [same, Numeric, nodes, first, inside, or_imp, forall_and]

theorem Chain.same_self_iff (chain : Chain) :
    chain.same chain = true ↔ ∀ value, .number value ∈ chain.nodes → value.isNaN = false :=
  same_self_iff_of_commands fun command _ => command.same_self_iff

end LinkedScopes
