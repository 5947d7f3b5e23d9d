import LinkedScopes.Chain.Basic

/-! Building chains. A slot of a chain is a place after some of its links, named by
their number; whatever is attached there takes the place of the links that followed. -/
namespace LinkedScopes.Chain

def closes (count : Nat) : Chain := List.replicate count ⟨.scopeClose, none⟩

/-- A command after so many scopes have closed. The last close carries the command; with
none it is a plain statement. -/
def settle (owed : Nat) (command : Node) : Chain :=
  match owed with
  | 0 => [⟨.statement, some command⟩]
  | owed + 1 => closes owed ++ [⟨.scopeClose, some command⟩]

def wrap (count : Nat) (chain : Chain) : Chain := closes count ++ chain

/-- Marks a chain as the content of a scope. A first link that already opens a scope
belongs to the scope nested there, so this one gets a link of its own. -/
def openScope : Chain → Chain
  | [] => []
  | link :: rest =>
    if link.marker = .scopeOpen then ⟨.scopeOpen, none⟩ :: link :: rest
    else { link with marker := .scopeOpen } :: rest

/-- Walks from a slot over the links in it to the empty slot after them. -/
def walk (slot : Nat) : Chain → Nat
  | [] => slot
  | _ :: rest => walk (slot + 1) rest

def tail (chain : Chain) : Nat := chain.walk 0

/-- Puts a chain into a slot, and names the slot at its end. -/
def attach (chain : Chain) (slot : Nat) (rest : Chain) : Chain × Nat :=
  (chain.take slot ++ rest, rest.walk slot)

def append (chain rest : Chain) : Chain := (chain.attach chain.tail rest).1

/-- Puts chains one after the other, each into the slot at the end of the one before. -/
def attachAll (chain : Chain) (rests : List Chain) : Chain × Nat :=
  rests.foldl (fun built rest => built.1.attach built.2 rest) (chain, chain.tail)

@[simp] theorem commands_append (a b : Chain) :
    Chain.commands (a ++ b) = Chain.commands a ++ Chain.commands b :=
  List.filterMap_append

@[simp] theorem commands_closes (count : Nat) : (closes count).commands = [] := by
  simp [closes, commands]

@[simp] theorem commands_settle (owed : Nat) (command : Node) :
    (settle owed command).commands = [command] := by
  cases owed with
  | zero => rfl
  | succ owed => rw [settle, commands_append, commands_closes]; rfl

@[simp] theorem commands_wrap (count : Nat) (chain : Chain) :
    (chain.wrap count).commands = chain.commands := by
  simp [wrap]

@[simp] theorem commands_openScope (chain : Chain) :
    chain.openScope.commands = chain.commands := by
  cases chain with
  | nil => rfl
  | cons link rest =>
    rw [openScope]
    split <;> rfl

theorem walk_eq (chain : Chain) (slot : Nat) : chain.walk slot = slot + chain.length := by
  induction chain generalizing slot with
  | nil => rfl
  | cons link rest ih =>
    rw [walk, ih, List.length_cons]
    omega

@[simp] theorem tail_eq (chain : Chain) : chain.tail = chain.length := by
  rw [tail, walk_eq, Nat.zero_add]

/-- What stands before a slot is kept, and what is attached there is all that follows. -/
theorem attach_append (before after rest : Chain) :
    (before ++ after).attach before.length rest = (before ++ rest, (before ++ rest).tail) := by
  rw [attach, List.take_left, walk_eq, tail_eq, List.length_append]

theorem attach_tail (chain rest : Chain) :
    chain.attach chain.tail rest = (chain ++ rest, Chain.tail (chain ++ rest)) := by
  rw [tail_eq]
  simpa using attach_append chain [] rest

theorem append_eq (chain rest : Chain) : chain.append rest = chain ++ rest := by
  rw [append, attach_tail]

end LinkedScopes.Chain
