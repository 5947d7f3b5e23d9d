import LinkedScopes.Chain.Builder
import Mathlib.Data.List.ReduceOption

/-! Chains built step by step. Whoever builds a chain holds one of its slots, usually the one after
the last link, and what is attached there takes the place of all that followed. A slot parts the
links into those before it and those in it, so for each step it can be said which command every
link was given and where the slot is, without counting links. So the commands of a chain are those
that were given, in order. -/
namespace LinkedScopes

inductive Build where
  | start (chain : Chain)
  | settle (owed : Nat) (command : Node)
  | wrap (count : Nat) (build : Build)
  | append (build rest : Build)
  | attach (build rest : Build)
  /-- Takes hold of a slot somewhere in the chain. -/
  | seek (slot : Nat) (build : Build)

namespace Chain

def held (chain : Chain) : Chain × Nat := (chain, chain.tail)

theorem map_command_settle (owed : Nat) (command : Node) :
    (settle owed command).map Link.command =
      List.replicate (owed - 1) none ++ [some command] := by
  cases owed with
  | zero => rfl
  | succ owed => simp [settle, closes]

theorem map_command_wrap (count : Nat) (chain : Chain) :
    (chain.wrap count).map Link.command =
      List.replicate count none ++ chain.map Link.command := by
  simp [wrap, closes]

theorem attachAll_eq (chain : Chain) (rests : List Chain) :
    chain.attachAll rests = held (chain ++ rests.flatten) := by
  rw [attachAll]
  change rests.foldl _ (held chain) = _
  induction rests generalizing chain with
  | nil => rw [List.foldl_nil, List.flatten_nil, List.append_nil]
  | cons rest rests ih =>
    have first : (held chain).1.attach (held chain).2 rest = held (chain ++ rest) :=
      attach_tail chain rest
    rw [List.foldl_cons, first, ih, List.flatten_cons, List.append_assoc]

theorem foldl_append (chain : Chain) (rests : List Chain) :
    rests.foldl append chain = chain ++ rests.flatten := by
  induction rests generalizing chain with
  | nil => exact (List.append_nil chain).symm
  | cons rest rests ih =>
    rw [List.foldl_cons, append_eq, ih, List.flatten_cons, List.append_assoc]

theorem commands_eq (chain : Chain) : chain.commands = (chain.map Link.command).reduceOption := by
  rw [commands, List.reduceOption, List.filterMap_map]
  rfl

end Chain

namespace Build

/-- The chain that is built, and the slot that is held then. -/
def run : Build → Chain × Nat
  | start chain => chain.held
  | settle owed command => (Chain.settle owed command).held
  | wrap count build => (build.run.1.wrap count).held
  | append build rest => (Chain.append build.run.1 rest.run.1).held
  | attach build rest => build.run.1.attach build.run.2 rest.run.1
  | seek slot build => (build.run.1, min slot build.run.1.tail)

/-- The commands that the links before the slot were given, and those that the links in it were. -/
def given : Build → List (Option Node) × List (Option Node)
  | start chain => (chain.map Link.command, [])
  | settle owed command => (List.replicate (owed - 1) none ++ [some command], [])
  | wrap count build => (List.replicate count none ++ (build.given.1 ++ build.given.2), [])
  | append build rest => (build.given.1 ++ build.given.2 ++ (rest.given.1 ++ rest.given.2), [])
  | attach build rest => (build.given.1 ++ (rest.given.1 ++ rest.given.2), [])
  | seek slot build => (build.given.1 ++ build.given.2).splitAt slot

/-- Nothing is attached but at the end. -/
def Extends : Build → Prop
  | start _ | settle _ _ => True
  | wrap _ build => build.Extends
  | append build rest | attach build rest => build.Extends ∧ rest.Extends
  | seek _ _ => False

def supplied : Build → List Node
  | start chain => chain.commands
  | settle _ command => [command]
  | wrap _ build => build.supplied
  | append build rest | attach build rest => build.supplied ++ rest.supplied
  | seek _ build => build.supplied

/-- The slot that is held parts the links as it should. -/
structure Parted (built : Chain × Nat) (before after : List (Option Node)) : Prop where
  links : built.1.map Link.command = before ++ after
  slot : built.2 = before.length

theorem parted_held {chain : Chain} {commands : List (Option Node)}
    (links : chain.map Link.command = commands) : Parted chain.held commands [] where
  links := by rw [List.append_nil]; exact links
  slot := by rw [← links, List.length_map]; exact chain.tail_eq

theorem parted_attach {built : Chain × Nat} {before after commands : List (Option Node)}
    (parted : Parted built before after) {rest : Chain}
    (links : rest.map Link.command = commands) :
    Parted (built.1.attach built.2 rest) (before ++ commands) [] where
  links := by
    simp [Chain.attach, parted.slot, List.map_take, parted.links, links]
  slot := by
    rw [Chain.attach, Chain.walk_eq, parted.slot, List.length_append, ← links, List.length_map]

/-- The zipper of what was given follows the slot through every step. -/
theorem run_parted (build : Build) : Parted build.run build.given.1 build.given.2 := by
  induction build with
  | start chain => exact parted_held rfl
  | settle owed command => exact parted_held (Chain.map_command_settle owed command)
  | wrap count build ih =>
    refine parted_held ?_
    rw [Chain.map_command_wrap, ih.links]
    rfl
  | append build rest ih more =>
    refine parted_held ?_
    rw [Chain.append_eq, List.map_append, ih.links, more.links]
    rfl
  | attach build rest ih more => exact parted_attach ih more.links
  | seek slot build ih =>
    have length : build.run.1.tail = (build.given.1 ++ build.given.2).length := by
      rw [Chain.tail_eq, ← ih.links, List.length_map]
    simp only [run, given, List.splitAt_eq]
    constructor
    · rw [ih.links, List.take_append_drop]
    · rw [length, List.length_take]

/-- Where nothing is attached but at the end, nothing that was given is lost. -/
theorem given_of_extends {build : Build} (only : build.Extends) :
    build.given.2 = [] ∧ build.given.1.reduceOption = build.supplied := by
  induction build with
  | start chain => exact ⟨rfl, (Chain.commands_eq chain).symm⟩
  | settle owed command =>
    refine ⟨rfl, ?_⟩
    simp [given, supplied, List.reduceOption_append, List.reduceOption_replicate_none]
  | wrap count build ih =>
    obtain ⟨last, all⟩ := ih only
    refine ⟨rfl, ?_⟩
    simp [given, supplied, List.reduceOption_append, List.reduceOption_replicate_none, last, all]
  | append build rest ih more =>
    obtain ⟨last, all⟩ := ih only.1
    obtain ⟨restLast, restAll⟩ := more only.2
    refine ⟨rfl, ?_⟩
    simp [given, supplied, List.reduceOption_append, last, all, restLast, restAll]
  | attach build rest ih more =>
    obtain ⟨-, all⟩ := ih only.1
    obtain ⟨restLast, restAll⟩ := more only.2
    refine ⟨rfl, ?_⟩
    simp [given, supplied, List.reduceOption_append, all, restLast, restAll]
  | seek => cases only

end Build

/-- Whoever keeps the slot at the end builds what appending builds, and a slot elsewhere keeps what
stands before it. The commands of a chain are those that were given and have not been replaced, in
the order of the links. -/
theorem slots_build_in_order :
    (∀ (chain : Chain) (rests : List Chain), let built := chain.attachAll rests
      built.1 = rests.foldl Chain.append chain ∧ built.1 = chain ++ rests.flatten ∧
        built.2 = built.1.length ∧ built.1.drop built.2 = []) ∧
    (∀ before after rest : Chain, Chain.attach (before ++ after) before.length rest =
      (before ++ rest, Chain.tail (before ++ rest))) ∧
    (∀ command, Chain.settle 0 command = [⟨.statement, some command⟩]) ∧
    (∀ owed command, Chain.settle (owed + 1) command =
      List.replicate owed ⟨.scopeClose, none⟩ ++ [⟨.scopeClose, some command⟩]) ∧
    (∀ count (chain : Chain), chain.wrap count =
      List.replicate count ⟨.scopeClose, none⟩ ++ chain) ∧
    ∀ build : Build,
      build.run.1.map Link.command = build.given.1 ++ build.given.2 ∧
        build.run.1.commands = (build.given.1 ++ build.given.2).reduceOption ∧
        (build.Extends → build.run.1.commands = build.supplied) := by
  refine ⟨fun chain rests => ?_, Chain.attach_append, fun _ => rfl, fun _ _ => rfl, fun _ _ => rfl,
    fun build => ?_⟩
  · intro built
    have is : built = Chain.held (chain ++ rests.flatten) := Chain.attachAll_eq chain rests
    have slot : built.2 = built.1.length := by
      rw [is]
      exact Chain.tail_eq _
    refine ⟨?_, ?_, slot, ?_⟩
    · rw [is, Chain.foldl_append]
      rfl
    · rw [is]
      rfl
    · rw [slot, List.drop_length]
  · have links := build.run_parted.links
    refine ⟨links, ?_, fun only => ?_⟩
    · rw [Chain.commands_eq, links]
    · obtain ⟨none, all⟩ := Build.given_of_extends only
      rw [Chain.commands_eq, links, none, List.append_nil, all]

end LinkedScopes
