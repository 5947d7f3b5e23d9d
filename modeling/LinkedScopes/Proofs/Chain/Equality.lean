import LinkedScopes.Proofs.Binary64.Value
import LinkedScopes.Proofs.Chain.Nodes
import Mathlib.Data.List.Forall2

/-! What makes two trees equal. A tree is its shape, which is all of it but the numbers, and the
numbers in order. Equal trees have one shape and in it equal numbers, so that equality of trees has
the laws that equality of numbers has, and fails only where that fails. -/
namespace LinkedScopes

open List (Forall₂)

mutual

/-- A tree with other numbers in the places of its own. -/
def Node.mapNumbers (f : Binary64 → Binary64) : Node → Node
  | .number value => .number (f value)
  | .var name => .var name
  | .operation op left right => .operation op (left.mapNumbers f) (right.mapNumbers f)
  | .head word => .head word
  | .call word argument => .call word (argument.mapNumbers f)
  | .conditional word condition body =>
    .conditional word (condition.mapNumbers f) (mapChainNumbers f body)
  | .assignment target value => .assignment target (value.mapNumbers f)

def mapCommandNumbers (f : Binary64 → Binary64) : Option Node → Option Node
  | none => none
  | some command => some (command.mapNumbers f)

def Link.mapNumbers (f : Binary64 → Binary64) : Link → Link
  | ⟨marker, command⟩ => ⟨marker, mapCommandNumbers f command⟩

def mapChainNumbers (f : Binary64 → Binary64) : List Link → List Link
  | [] => []
  | link :: rest => link.mapNumbers f :: mapChainNumbers f rest

end

attribute [local simp] Node.mapNumbers mapCommandNumbers Link.mapNumbers mapChainNumbers

def Node.number? : Node → Option Binary64
  | .number value => some value
  | _ => none

def Node.numbers (node : Node) : List Binary64 := node.nodes.filterMap Node.number?

/-- A node but for its numbers. -/
def Node.shape (node : Node) : Node := node.mapNumbers fun _ => ⟨0⟩

/-- Nodes of one shape with equal numbers in the same places. -/
def Node.Matches (a b : Node) : Prop :=
  a.shape = b.shape ∧ Forall₂ Binary64.Equal a.numbers b.numbers

namespace Chain

def numbers (chain : Chain) : List Binary64 := chain.nodes.filterMap Node.number?

def shape (chain : Chain) : Chain := mapChainNumbers (fun _ => ⟨0⟩) chain

/-- A tree made anew from the parts of another. -/
def copy (chain : Chain) : Chain := mapChainNumbers id chain

def Matches (a b : Chain) : Prop :=
  a.shape = b.shape ∧ Forall₂ Binary64.Equal a.numbers b.numbers

theorem numbers_cons (marker : Marker) (command : Option Node) (rest : Chain) :
    numbers (⟨marker, command⟩ :: rest) = command.elim [] Node.numbers ++ numbers rest := by
  cases command <;> exact List.filterMap_append

end Chain

namespace Node

theorem numbers_number (value : Binary64) : (number value).numbers = [value] := rfl

theorem numbers_var (name : String) : (var name).numbers = [] := rfl

theorem numbers_operation (op : Operator) (left right : Node) :
    (operation op left right).numbers = left.numbers ++ right.numbers :=
  List.filterMap_append

theorem numbers_head (word : String) : (head word).numbers = [] := rfl

theorem numbers_call (word : String) (argument : Node) :
    (call word argument).numbers = argument.numbers := rfl

theorem numbers_conditional (word : String) (condition : Node) (body : Chain) :
    (conditional word condition body).numbers = condition.numbers ++ body.numbers :=
  List.filterMap_append

theorem numbers_assignment (target : String) (value : Node) :
    (assignment target value).numbers = value.numbers := rfl

end Node

/-- Something holds of every command of a chain. Links are gone through as in comparing. -/
inductive Chain.Each (P : Node → Prop) : Chain → Prop
  | nil : Each P []
  | without {marker : Marker} {rest : Chain} : Each P rest → Each P (⟨marker, none⟩ :: rest)
  | within {marker : Marker} {command : Node} {rest : Chain} : P command → Each P rest →
    Each P (⟨marker, some command⟩ :: rest)

theorem Chain.each_of_commands {P : Node → Prop} {chain : Chain}
    (all : ∀ command ∈ chain.commands, P command) : chain.Each P := by
  induction chain with
  | nil => exact .nil
  | cons link rest ih =>
    obtain ⟨marker, command⟩ := link
    cases command with
    | none => exact .without (ih all)
    | some command =>
      obtain ⟨here, there⟩ := List.forall_mem_cons.mp all
      exact .within here (ih there)

/-! Other numbers in a tree are as many as its own, so the places of numbers are those of the
shape. -/

theorem Chain.numbers_map_of_each {f : Binary64 → Binary64} {chain : Chain}
    (each : chain.Each fun command => (command.mapNumbers f).numbers = command.numbers.map f) :
    numbers (mapChainNumbers f chain) = chain.numbers.map f := by
  induction each with
  | nil => rfl
  | without _ ih =>
    rw [mapChainNumbers, Link.mapNumbers, mapCommandNumbers, numbers_cons, numbers_cons, ih]
    rfl
  | within here _ ih =>
    rw [mapChainNumbers, Link.mapNumbers, mapCommandNumbers, numbers_cons, numbers_cons,
      List.map_append, Option.elim_some, Option.elim_some, here, ih]

theorem Node.numbers_map (f : Binary64 → Binary64) (node : Node) :
    (node.mapNumbers f).numbers = node.numbers.map f := by
  induction node using Node.induct with
  | number | var | head => rfl
  | operation op left right first second =>
    rw [mapNumbers, numbers_operation, numbers_operation, List.map_append, first, second]
  | call word argument ih => exact ih
  | assignment target value ih => exact ih
  | conditional word condition body first each =>
    rw [mapNumbers, numbers_conditional, numbers_conditional, List.map_append, first,
      Chain.numbers_map_of_each (Chain.each_of_commands each)]

theorem Chain.map_id_of_each {chain : Chain}
    (each : chain.Each fun command => command.mapNumbers id = command) :
    mapChainNumbers id chain = chain := by
  induction each with
  | nil => rfl
  | without _ ih => rw [mapChainNumbers, Link.mapNumbers, mapCommandNumbers, ih]
  | within here _ ih => rw [mapChainNumbers, Link.mapNumbers, mapCommandNumbers, here, ih]

theorem Node.map_id (node : Node) : node.mapNumbers id = node := by
  induction node using Node.induct with
  | number | var | head => rfl
  | operation op left right first second => rw [mapNumbers, first, second]
  | call word argument ih => rw [mapNumbers, ih]
  | assignment target value ih => rw [mapNumbers, ih]
  | conditional word condition body first each =>
    rw [mapNumbers, first, Chain.map_id_of_each (Chain.each_of_commands each)]

theorem Node.length_numbers {a b : Node} (same : a.shape = b.shape) :
    a.numbers.length = b.numbers.length := by
  have images := congrArg (fun node => node.numbers.length) same
  simpa only [shape, numbers_map, List.length_map] using images

/-- Of two trees that start with nodes of one shape, the numbers of these are compared first. -/
theorem Node.matches_before {a b : Node} {Rest : Prop} {xs ys : List Binary64} :
    (a.shape = b.shape ∧ Rest) ∧ Forall₂ Binary64.Equal (a.numbers ++ xs) (b.numbers ++ ys) ↔
      a.Matches b ∧ Rest ∧ Forall₂ Binary64.Equal xs ys := by
  constructor
  · rintro ⟨⟨shape, rest⟩, all⟩
    have length := length_numbers shape
    have first := List.forall₂_take a.numbers.length all
    have second := List.forall₂_drop a.numbers.length all
    rw [List.take_left, length, List.take_left] at first
    rw [List.drop_left, length, List.drop_left] at second
    exact ⟨⟨shape, first⟩, rest, second⟩
  · rintro ⟨⟨shape, first⟩, rest, second⟩
    exact ⟨⟨shape, rest⟩, List.rel_append first second⟩

namespace Node

variable {a b c d : Node}

theorem matches_number {x y : Binary64} : (number x).Matches (number y) ↔ x.Equal y := by
  simp [Matches, shape, numbers_number]

theorem matches_operation {f g : Operator} :
    (operation f a b).Matches (operation g c d) ↔ f = g ∧ a.Matches c ∧ b.Matches d := by
  have shapes : (operation f a b).shape = (operation g c d).shape ↔
      f = g ∧ a.shape = c.shape ∧ b.shape = d.shape := by
    simp [shape]
  rw [Matches, shapes, numbers_operation, numbers_operation, and_assoc, matches_before]
  rfl

theorem matches_call {f g : String} : (call f a).Matches (call g b) ↔ f = g ∧ a.Matches b := by
  simp [Matches, shape, numbers_call, and_assoc]

theorem matches_conditional {f g : String} {body body' : Chain} :
    (conditional f a body).Matches (conditional g b body') ↔
      f = g ∧ a.Matches b ∧ body.Matches body' := by
  have shapes : (conditional f a body).shape = (conditional g b body').shape ↔
      f = g ∧ a.shape = b.shape ∧ body.shape = body'.shape := by
    simp [shape, Chain.shape]
  rw [Matches, shapes, numbers_conditional, numbers_conditional, and_assoc, matches_before]
  rfl

theorem matches_assignment {f g : String} :
    (assignment f a).Matches (assignment g b) ↔ f = g ∧ a.Matches b := by
  simp [Matches, shape, numbers_assignment, and_assoc]

end Node

namespace Chain

theorem matches_cons {m n : Marker} {a b : Option Node} {c d : Chain} :
    Matches (⟨m, a⟩ :: c) (⟨n, b⟩ :: d) ↔
      m = n ∧ Option.Rel Node.Matches a b ∧ c.Matches d := by
  have shapes : shape (⟨m, a⟩ :: c) = shape (⟨n, b⟩ :: d) ↔
      m = n ∧ a.map Node.shape = b.map Node.shape ∧ c.shape = d.shape := by
    cases a <;> cases b <;>
      simp [shape, Node.shape, and_assoc]
  rw [Matches, shapes, numbers_cons, numbers_cons, and_assoc]
  cases a <;> cases b
  · simp [Matches]
  · simp
  · simp
  · simp [Node.matches_before, Matches]

theorem same_cons (m n : Marker) (a b : Option Node) (c d : Chain) :
    same (⟨m, a⟩ :: c) (⟨n, b⟩ :: d) = (m == n && sameCommand a b && c.same d) := by
  simp [same, sameChain, Link.same]

theorem same_iff_of_each {a : Chain}
    (each : a.Each fun command => ∀ node, command.same node = true ↔ command.Matches node)
    (b : Chain) : a.same b = true ↔ a.Matches b := by
  induction each generalizing b with
  | nil =>
    cases b with
    | nil => exact iff_of_true rfl ⟨rfl, .nil⟩
    | cons link' rest' => simp [same, sameChain, Matches, shape]
  | without _ ih =>
    cases b with
    | nil => simp [same, sameChain, Matches, shape]
    | cons link' rest' =>
      obtain ⟨marker', command'⟩ := link'
      rw [same_cons, matches_cons]
      cases command' <;> simp [sameCommand, ih]
  | within here _ ih =>
    cases b with
    | nil => simp [same, sameChain, Matches, shape]
    | cons link' rest' =>
      obtain ⟨marker', command'⟩ := link'
      rw [same_cons, matches_cons]
      cases command' <;> simp [sameCommand, here, ih, and_assoc]

end Chain

theorem Node.same_iff (a b : Node) : a.same b = true ↔ a.Matches b := by
  induction a using Node.induct generalizing b with
  | number value =>
    cases b with
    | number value' => rw [same, matches_number, Binary64.same_iff_equal]
    | _ => simp [same, Matches, shape]
  | var name => cases b <;> simp [same, Matches, shape, numbers_var]
  | operation op left right first second =>
    cases b with
    | operation op' left' right' => simp [same, matches_operation, first, second, and_assoc]
    | _ => simp [same, Matches, shape]
  | head word => cases b <;> simp [same, Matches, shape, numbers_head]
  | call word argument ih =>
    cases b with
    | call word' argument' => simp [same, matches_call, ih]
    | _ => simp [same, Matches, shape]
  | conditional word condition body first each =>
    cases b with
    | conditional word' condition' body' =>
      have inside := Chain.same_iff_of_each (Chain.each_of_commands each) body'
      rw [Chain.same] at inside
      simp [same, matches_conditional, first, inside, and_assoc]
    | _ => simp [same, Matches, shape]
  | assignment target value ih =>
    cases b with
    | assignment target' value' => simp [same, matches_assignment, ih]
    | _ => simp [same, Matches, shape]

theorem Binary64.forall₂_equal_trans {xs ys zs : List Binary64} (first : Forall₂ Equal xs ys)
    (second : Forall₂ Equal ys zs) : Forall₂ Equal xs zs := by
  induction first generalizing zs with
  | nil => exact second
  | cons here _ ih =>
    cases second with
    | cons here' there' => exact .cons (here.trans here') (ih there')

namespace Chain

theorem same_iff (a b : Chain) : a.same b = true ↔ a.Matches b :=
  same_iff_of_each (each_of_commands fun command _ => command.same_iff) b

variable {a b c : Chain}

theorem Matches.symm (ab : a.Matches b) : b.Matches a :=
  ⟨ab.1.symm, (ab.2.imp fun _ _ => Binary64.Equal.symm).flip⟩

theorem Matches.trans (ab : a.Matches b) (bc : b.Matches c) : a.Matches c :=
  ⟨ab.1.trans bc.1, Binary64.forall₂_equal_trans ab.2 bc.2⟩

theorem matches_self_iff : a.Matches a ↔ ∀ x ∈ a.numbers, x.isNaN = false := by
  simp only [Matches, true_and, List.forall₂_same, Binary64.equal_self_iff]

theorem copy_eq (chain : Chain) : chain.copy = chain :=
  map_id_of_each (each_of_commands fun command _ => command.map_id)

end Chain

/-- Equality of trees is symmetric and transitive, and a tree equals itself, or its copy, unless
there is something among its numbers that is no number. Trees are equal exactly if they have the
same markers, commands and links, names, operators and words, which is their shape, and at
corresponding leaves numbers of one value. -/
theorem tree_equality_laws :
    (∀ a b : Chain, a.same b = true → b.same a = true) ∧
    (∀ a b c : Chain, a.same b = true → b.same c = true → a.same c = true) ∧
    (∀ a : Chain, (a.same a = true ↔ ∀ x ∈ a.numbers, x.isNaN = false) ∧
      (a.copy.same a = true ↔ ∀ x ∈ a.numbers, x.isNaN = false)) ∧
    ∀ a b : Chain, a.same b = true ↔
      a.shape = b.shape ∧ Forall₂ Binary64.Equal a.numbers b.numbers := by
  have itself (a : Chain) : a.same a = true ↔ ∀ x ∈ a.numbers, x.isNaN = false := by
    rw [Chain.same_iff, Chain.matches_self_iff]
  refine ⟨fun a b ab => ?_, fun a b c ab bc => ?_, fun a => ⟨itself a, ?_⟩, Chain.same_iff⟩
  · rw [Chain.same_iff] at ab ⊢
    exact ab.symm
  · rw [Chain.same_iff] at ab bc ⊢
    exact ab.trans bc
  · rw [Chain.copy_eq]
    exact itself a

/-- The two zeros make no difference, not even in a body. -/
theorem tree_equality_laws_zeros :
    let tree (x : Binary64) : Chain := [⟨.scopeOpen, some (.conditional "if" (.var "a")
      [⟨.statement, some (.assignment "b" (.call "ln" (.number x)))⟩])⟩]
    (tree ⟨0⟩).same (tree ⟨0x8000000000000000⟩) = true ∧
      (tree ⟨0x8000000000000000⟩).same (tree ⟨0⟩) = true :=
  have same : Chain.same
      [⟨.scopeOpen, some (.conditional "if" (.var "a")
        [⟨.statement, some (.assignment "b" (.call "ln" (.number ⟨0⟩)))⟩])⟩]
      [⟨.scopeOpen, some (.conditional "if" (.var "a")
        [⟨.statement, some (.assignment "b" (.call "ln" (.number ⟨0x8000000000000000⟩)))⟩])⟩] =
        true := by decide
  ⟨same, tree_equality_laws.1 _ _ same⟩

end LinkedScopes
