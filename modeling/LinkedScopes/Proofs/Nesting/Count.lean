import LinkedScopes.Proofs.Nesting.Shape

/-! Counting the scopes of a chain. Each link that opens one counts up and each that closes
one counts down. The count runs ahead of the scopes that are still open by what is owed: an
item puts it up by what it leaves owed and down by what it found owed, and never below where
the closes it found owed lead. -/
namespace LinkedScopes

def Marker.weight : Marker → Int
  | .statement => 0
  | .scopeOpen => 1
  | .scopeClose => -1

namespace Chain

/-- The scopes opened, less those closed. -/
def level : Chain → Int
  | [] => 0
  | link :: rest => link.marker.weight + level rest

/-- The count after each link. -/
def counts (start : Int) : Chain → List Int
  | [] => []
  | link :: rest => (start + link.marker.weight) :: counts (start + link.marker.weight) rest

def Above (floor start : Int) (chain : Chain) : Prop := ∀ count ∈ chain.counts start, floor ≤ count

variable {floor start : Int}

@[simp] theorem level_nil : level [] = 0 := rfl

@[simp] theorem level_cons (link : Link) (rest : Chain) :
    level (link :: rest) = link.marker.weight + rest.level := rfl

@[simp] theorem level_append (a b : Chain) : level (a ++ b) = a.level + b.level := by
  induction a with
  | nil => exact (Int.zero_add _).symm
  | cons link rest ih => rw [List.cons_append, level_cons, ih, level_cons, Int.add_assoc]

theorem above_nil : Above floor start [] := List.forall_mem_nil _

@[simp] theorem above_cons (link : Link) (rest : Chain) :
    Above floor start (link :: rest) ↔
      floor ≤ start + link.marker.weight ∧ Above floor (start + link.marker.weight) rest := by
  simp [Above, counts]

@[simp] theorem above_append (a b : Chain) :
    Above floor start (a ++ b) ↔ Above floor start a ∧ Above floor (start + a.level) b := by
  induction a generalizing start with
  | nil => simp [above_nil]
  | cons link rest ih =>
    rw [List.cons_append, above_cons, above_cons, ih, level_cons, Int.add_assoc, and_assoc]

theorem Above.lower {chain : Chain} {lower : Int} (above : Above floor start chain)
    (less : lower ≤ floor) : Above lower start chain := by
  intro count member
  exact Int.le_trans less (above count member)

@[simp] theorem level_closes (count : Nat) : level (closes count) = -count := by
  induction count with
  | zero => rfl
  | succ count ih =>
    rw [closes, List.replicate_succ, level_cons]
    change -1 + level (closes count) = _
    rw [ih]
    omega

theorem above_closes_iff (count : Nat) (high : floor ≤ start) :
    Above floor start (closes count) ↔ floor ≤ start - count := by
  induction count generalizing start with
  | zero => simpa [closes, above_nil] using high
  | succ count ih =>
    rw [closes, List.replicate_succ, above_cons]
    change floor ≤ start - 1 ∧ Above floor (start - 1) (closes count) ↔ _
    constructor
    · rintro ⟨first, rest⟩
      have last := (ih first).mp rest
      omega
    · intro last
      have first : floor ≤ start - 1 := by omega
      exact ⟨first, (ih first).mpr (by omega)⟩

@[simp] theorem level_settle (owed : Nat) (command : Node) :
    level (settle owed command) = -owed := by
  cases owed with
  | zero => rfl
  | succ owed =>
    rw [settle, level_append, level_closes]
    simp [Marker.weight]
    omega

theorem above_settle_iff (owed : Nat) (command : Node) (high : floor ≤ start) :
    Above floor start (settle owed command) ↔ floor ≤ start - owed := by
  cases owed with
  | zero => simp [settle, Marker.weight, above_nil]
  | succ owed =>
    rw [settle, above_append, above_closes_iff owed high, level_closes, above_cons]
    simp only [Marker.weight, above_nil, and_true]
    omega

theorem above_succ_iff (chain : Chain) :
    Above (floor + 1) (start + 1) chain ↔ Above floor start chain := by
  induction chain generalizing start with
  | nil => simp [above_nil]
  | cons link rest ih =>
    rw [above_cons, above_cons, Int.add_right_comm, ih, Int.add_le_add_iff_right]

theorem level_openScope {chain : Chain} (opens : chain.Opens) :
    chain.openScope.level = chain.level + 1 := by
  obtain ⟨⟨marker, command⟩, rest, rfl, plain⟩ := opens
  cases marker with
  | statement => simp [openScope, Marker.weight, Int.add_comm]
  | scopeOpen => simp [openScope, Marker.weight, Int.add_comm]
  | scopeClose => exact absurd rfl plain

theorem above_openScope_iff {chain : Chain} (opens : chain.Opens) (high : floor ≤ start) :
    Above (floor + 1) start chain.openScope ↔ Above floor start chain := by
  obtain ⟨⟨marker, command⟩, rest, rfl, plain⟩ := opens
  cases marker with
  | statement => simp [openScope, Marker.weight, above_succ_iff]
  | scopeOpen =>
    have up : floor + 1 ≤ start + 1 := Int.add_le_add_right high 1
    rw [openScope, if_pos rfl, above_cons]
    exact (and_iff_right up).trans (above_succ_iff _)
  | scopeClose => exact absurd rfl plain

end Chain

namespace Item

variable {valid : Node → Prop}

theorem level_flatten_chains {items : List Item}
    (each : ∀ item ∈ items, ∀ owed, (item.chain owed).level = item.debt - owed) (owed : Nat) :
    Chain.level (chains owed items).flatten = debts owed items - owed := by
  induction items generalizing owed with
  | nil => simp [chains, debts]
  | cons first rest ih =>
    have here := each first List.mem_cons_self owed
    have there := ih (fun item member => each item (List.mem_cons_of_mem _ member)) first.debt
    rw [chains, List.flatten_cons, Chain.level_append, here, there, debts]
    omega

/-- An item puts the count up by what it leaves owed, and down by what it finds owed. -/
theorem Formed.level_chain {item : Item} (formed : item.Formed valid) (owed : Nat) :
    (item.chain owed).level = item.debt - owed := by
  induction formed generalizing owed with
  | command is => simp [chain, debt]
  | @scope items some each ih =>
    have inside := level_flatten_chains ih 0
    rw [chain, Chain.wrap, Chain.level_append, Chain.level_closes,
      Chain.level_openScope (opens_chains some each), inside, debt]
    omega

theorem above_flatten_chains {items : List Item} (formed : ∀ item ∈ items, item.Formed valid)
    (each : ∀ item ∈ items, ∀ (floor start : Int) (owed : Nat), floor ≤ start - owed →
      Chain.Above floor start (item.chain owed)) (floor start : Int) (owed : Nat)
    (high : floor ≤ start - owed) : Chain.Above floor start (chains owed items).flatten := by
  induction items generalizing start owed with
  | nil => exact Chain.above_nil
  | cons first rest ih =>
    have level := (formed first List.mem_cons_self).level_chain owed
    rw [chains, List.flatten_cons, Chain.above_append]
    refine ⟨each first List.mem_cons_self floor start owed high, ?_⟩
    apply ih (fun item member => formed item (List.mem_cons_of_mem _ member))
      fun item member => each item (List.mem_cons_of_mem _ member)
    omega

/-- An item does not count below where the closes owed lead. -/
theorem Formed.above_chain {item : Item} (formed : item.Formed valid) (floor start : Int)
    (owed : Nat) (high : floor ≤ start - owed) : Chain.Above floor start (item.chain owed) := by
  induction formed generalizing floor start owed with
  | command is => exact (Chain.above_settle_iff owed _ (by omega)).mpr high
  | @scope items some each ih =>
    have opens := opens_chains some each
    have inside := above_flatten_chains each ih floor (start - owed) 0 (by simpa using high)
    have raised := (Chain.above_openScope_iff opens high).mpr inside
    rw [chain, Chain.wrap, Chain.above_append, Chain.level_closes]
    exact ⟨(Chain.above_closes_iff owed (by omega)).mpr high, raised.lower (by omega)⟩

/-- The first link of a program's outermost scope counts to one, and no later one to less. -/
theorem above_chain_scope {items : List Item} (formed : (Item.scope items).Formed valid) :
    Chain.Above 1 0 ((Item.scope items).chain 0) := by
  cases formed with
  | scope some each =>
    have inside := above_flatten_chains each (fun item member => (each item member).above_chain)
      0 0 0 (Int.le_refl 0)
    exact (Chain.above_openScope_iff (opens_chains some each) (Int.le_refl 0)).mpr inside

end Item
end LinkedScopes
