import LinkedScopes.Proofs.Grammar.Phrase
import LinkedScopes.Proofs.Grammar.Reading
import LinkedScopes.Proofs.Rule.Step

/-! What rules do not miss. Where a phrase stands, and what follows it cannot be taken for
more of it, the rule of its category succeeds, stops right after it, and returns what it
stands for. A bound on repetition that is no less than the phrase is long is enough. -/
namespace LinkedScopes

/-- The rule succeeds with this result at this place, and this much is owed there. -/
abbrev Rule.Returns {α : Type} (rule : Rule α) (input : Input) (s : State) (a : α)
    (place : Place) (debt : Nat) : Prop :=
  ∃ events, rule.runFrom input s = (.ok a, ⟨place.cursor, debt, place.depth, events⟩)

namespace Rule

variable {α β : Type} {input : Input} {s : State} {u v : Place} {debt debt' : Nat}

theorem Returns.bind {rule : Rule α} {next : α → Rule β} {a : α} {b : β}
    (first : rule.Returns input s a u debt)
    (later : ∀ events, (next a).Returns input ⟨u.cursor, debt, u.depth, events⟩ b v debt') :
    (rule >>= next).Returns input s b v debt' := by
  obtain ⟨events, run⟩ := first
  obtain ⟨events', run'⟩ := later events
  exact ⟨events', by rw [runFrom_bind_of_ok run, run']⟩

theorem returns_pure (a : α) : (pure a : Rule α).Returns input s a ⟨s.cursor, s.depth⟩ s.debt :=
  ⟨s.events, rfl⟩

/-- A level is entered where something stands that nests at least once, and left as deep
as it was entered. -/
theorem Returns.nested {rule : Rule α} {a : α} {passed : List Lexeme} {n : Nat}
    (reading : Reading input ⟨s.cursor, s.depth⟩ u passed (n + 1))
    (inner : Reading input ⟨s.cursor, s.depth + 1⟩ ⟨u.cursor, s.depth + 1⟩ passed n →
      rule.Returns input { s with depth := s.depth + 1 } a ⟨u.cursor, s.depth + 1⟩ debt) :
    (nested rule).Returns input s a u debt := by
  obtain ⟨allowed, inside⟩ := reading.of_deeper
  obtain ⟨events, run⟩ := inner inside
  have depth : u.depth = s.depth := reading.depth
  rw [Returns, depth]
  exact ⟨events, runFrom_nested_ok_iff.mpr ⟨allowed, _, run, rfl⟩⟩

theorem returns_expect {kind : Kind} (is : (input.token s.cursor).kind = kind) :
    (expect kind).Returns input s (input.token s.cursor) ⟨s.cursor + 1, s.depth⟩ s.debt :=
  ⟨s.events, runFrom_expect_ok_iff.mpr ⟨is, rfl, rfl⟩⟩

theorem returns_expectFor {kind : Kind} {message : String}
    (is : (input.token s.cursor).kind = kind) :
    (expectFor kind message).Returns input s (input.token s.cursor) ⟨s.cursor + 1, s.depth⟩
      s.debt :=
  ⟨s.events, runFrom_expectFor_ok_iff.mpr ⟨is, rfl, rfl⟩⟩

def operandOf (expression : Rule Node) : Precedence → Rule Node
  | .sum => termOf expression
  | .product => powerOf expression
  | .power => primaryOf expression

end Rule

namespace Phrase

open Rule

variable {α : Type} {c : Category} {input : Input}

/-- Where a phrase stands, its category starts. -/
theorem kind_mem_starts {p : Phrase c} {cursor depth n : Nat} {u : Place}
    (reading : Reading input ⟨cursor, depth⟩ u p.lexemes n)
    (solid : ∀ what, c ≠ .many what) : (input.token cursor).kind ∈ c.starts := by
  obtain ⟨first, others, spelled, start⟩ := p.exists_cons solid
  rw [spelled] at reading
  have is : (input.token cursor).kind = first.kind := congrArg Lexeme.kind reading.of_cons.1
  rw [is]
  exact start

theorem kind_ne {p : Phrase c} {cursor depth n : Nat} {u : Place} {kind : Kind}
    (reading : Reading input ⟨cursor, depth⟩ u p.lexemes n) (apart : kind ∉ c.starts)
    (solid : ∀ what, c ≠ .many what) : (input.token cursor).kind ≠ kind := by
  rintro rfl
  exact apart (kind_mem_starts reading solid)

/-- If the phrase stands here and ends there, the rule reads it, returns this result and
leaves this much owed. -/
def ReadFrom (p : Phrase c) (input : Input) (s : State) (rule : Rule α) (result : α)
    (debt : Nat) : Prop :=
  ∀ u, Reading input ⟨s.cursor, s.depth⟩ u p.lexemes p.nesting → c.Ends (input.rest u.cursor) →
    rule.Returns input s result u debt

/-- The rule reads the phrase wherever it stands. The result and what is owed afterwards may
depend on what was owed before. -/
def ReadBy (p : Phrase c) (input : Input) (rule : Nat → Rule α) (result : Nat → α)
    (owed : Nat → Nat) : Prop :=
  ∀ s bound, p.lexemes.length ≤ bound →
    p.ReadFrom input s (rule bound) (result s.debt) (owed s.debt)

theorem ReadBy.bounded {p : Phrase c} {rule : Nat → Rule α} {result : Nat → α} {owed : Nat → Nat}
    (reads : p.ReadBy input (fun bound => rule (bound + 1)) result owed) (s : State) :
    p.ReadFrom input s (Rule.bounded rule) (result s.debt) (owed s.debt) := by
  intro u reading ends
  have enough : p.lexemes.length ≤ input.remaining s.cursor := reading.length_le
  rw [Returns, runFrom_bounded]
  exact reads s _ enough u reading ends

def ItemFollows {what : Repeated} (p : Phrase (.one what)) (input : Input)
    (item : what.Value → Item) (rule : Nat → Rule Chain) : Prop :=
  p.ReadBy input rule (fun owed => (item p.value).chain owed) fun _ => (item p.value).debt

/-- A loop of the rule reads a row of items, with any count that the row cannot use up. -/
def RowFollows {what : Repeated} (p : Phrase (.many what)) (input : Input)
    (item : what.Value → Item) (rule : Nat → Rule Chain) : Prop :=
  ∀ count seen, p.lexemes.length < count → p.ReadBy input
    (fun bound => itemsWithin (rule bound) count seen)
    (fun owed => seen.reverse ++ Item.chains owed (p.value.map item))
    fun owed => Item.debts owed (p.value.map item)

/-- The rule of a phrase's category reads it. -/
def Follows (input : Input) : {c : Category} → Phrase c → Prop
  | .primary, p => p.ReadBy input (fun bound => primaryOf (expressionWithin bound))
    (fun _ => p.value) id
  | .operand rank, p => p.ReadBy input (fun bound => operandOf (expressionWithin bound) rank)
    (fun _ => p.value) id
  | .level rank, p => p.ReadBy input
    (fun bound => level rank.operators (operandOf (expressionWithin bound) rank))
    (fun _ => p.value) id
  | .expression, p => p.ReadBy input (fun bound => expressionWithin (bound + 1))
    (fun _ => p.value) id
  | .assignment, p => p.ReadBy input (fun _ => Rule.assignment) (fun _ => p.value) id
  | .conditional, p => p.ReadBy input (fun bound => conditionalOf (commandWithin bound))
    p.value fun _ => 0
  | .body, p => p.ReadBy input (fun bound => bodyOf (commandWithin (bound + 1)))
    (fun owed => bodyChain owed p.value) fun _ => 0
  | .scope, p => p.ReadBy input (fun bound => scopeOf (elementWithin bound))
    (fun owed => p.value.chain owed) fun _ => p.value.debt
  | .one (.join rank), p => ∀ (s : State) u bound, p.lexemes.length ≤ bound →
    Reading input ⟨s.cursor, s.depth⟩ u p.lexemes p.nesting →
    Category.Ends (.operand rank) (input.rest u.cursor) →
    (input.token s.cursor).kind.operatorAmong rank.operators = some p.value.1 ∧
      ∀ events, (operandOf (expressionWithin bound) rank).Returns input
        ⟨s.cursor + 1, s.debt, s.depth, events⟩ p.value.2 u s.debt
  | .one .command, p => p.ItemFollows input .command fun bound => commandWithin (bound + 1)
  | .one .element, p => p.ItemFollows input id fun bound => elementWithin (bound + 1)
  | .many (.join rank), p => ∀ count left, p.lexemes.length < count → p.ReadBy input
    (fun bound => joinsWithin rank.operators (operandOf (expressionWithin bound) rank) count left)
    (fun _ => Node.joined left p.value) id
  | .many .command, p => p.RowFollows input .command fun bound => commandWithin (bound + 1)
  | .many .element, p => p.RowFollows input id fun bound => elementWithin (bound + 1)

section Expressions

variable {rank : Precedence}

theorem follows_number (text : String) : (number text).Follows input := by
  intro s bound _ u reading _
  obtain ⟨first, readable, rest⟩ := reading.of_cons
  obtain ⟨kind, spells⟩ := Token.of_lexeme_eq first rfl
  obtain ⟨v, denotes⟩ := Option.isSome_iff_exists.mp (readable rfl)
  obtain rfl := rest.eq_of_nil
  simp only [Returns, primaryOf, runFrom_enter_bind, runFrom_current_bind, kind, spells, denotes,
    runFrom_advance_bind, value, Option.getD_some]
  exact returns_pure _

theorem primaryOf_of_word (reference : Reference) {expression : Rule Node} {s : State} {u : Place}
    {debt : Nat} {kind : Kind} (is : (input.token s.cursor).kind = kind)
    (word : kind = .identifier ∨ kind = .keyword)
    (returns : ∀ events,
      (referenceOf expression).Returns input { s with events := events } reference u debt) :
    (primaryOf expression).Returns input s reference.node u debt := by
  rcases word with rfl | rfl <;>
    simp only [Returns, primaryOf, runFrom_enter_bind, runFrom_current_bind, is] <;>
    exact (returns _).bind fun _ => returns_pure _

theorem follows_var (name : String) : (var name).Follows input := by
  intro s bound _ u reading _
  obtain ⟨first, -, rest⟩ := reading.of_cons
  obtain ⟨kind, spells⟩ := Token.of_lexeme_eq first rfl
  obtain rfl := rest.eq_of_nil
  apply primaryOf_of_word (.var name) kind (.inl rfl)
  intro events
  simp only [Returns, referenceOf, runFrom_enter_bind, runFrom_current_bind, kind, spells,
    runFrom_advance_bind]
  exact returns_pure _

theorem referenceOf_head {expression : Rule Node} (s : State) {word : String}
    (first : (input.token s.cursor).lexeme = ⟨.keyword, word⟩)
    (conditional : isConditionalWord word = true) :
    (referenceOf expression).Returns input s (.head word) ⟨s.cursor + 1, s.depth⟩ s.debt := by
  obtain ⟨kind, spells⟩ := Token.of_lexeme_eq first rfl
  simp only [Returns, referenceOf, runFrom_enter_bind, runFrom_current_bind, kind, spells,
    runFrom_advance_bind, conditional, if_true]
  exact returns_pure _

theorem follows_head (word : String) (conditional : isConditionalWord word = true) :
    (head word conditional).Follows input := by
  intro s bound _ u reading _
  obtain ⟨first, -, rest⟩ := reading.of_cons
  obtain rfl := rest.eq_of_nil
  exact primaryOf_of_word (.head word) (Token.of_lexeme_eq first rfl).1 (.inr rfl)
    fun events => referenceOf_head ⟨s.cursor, s.debt, s.depth, events⟩ first conditional

theorem returns_closing {inner : Phrase .expression} {s : State} {rule : Rule Node}
    {message : String} {next : Node → Rule α} {a : α} {u : Place} {debt n : Nat}
    {more : List Lexeme} (returns : inner.ReadFrom input s rule inner.value s.debt)
    (reading : Reading input ⟨s.cursor, s.depth⟩ u
      (inner.lexemes ++ .bare .closeParen :: more) n) (fits : inner.nesting ≤ n)
    (later : ∀ cursor depth events, Reading input ⟨cursor, depth⟩ u more n →
      (next inner.value).Returns input ⟨cursor, s.debt, depth, events⟩ a u debt) :
    (do
      let node ← rule
      _ ← expectFor .closeParen message
      next node).Returns input s a u debt := by
  obtain ⟨v, first, rest⟩ := reading.of_append fits (Nat.le_refl n)
  have ends : Category.Ends .expression (input.rest v.cursor) := by
    rw [rest.rest]
    exact Category.ends_closing
  apply (returns v first ends).bind
  intro events
  obtain ⟨closes, -, rest⟩ := rest.of_cons
  refine Returns.bind (returns_expectFor ?_) fun events => later _ _ _ rest
  exact congrArg Lexeme.kind closes

theorem follows_call (word : String) (operation : isConditionalWord word = false)
    {argument : Phrase .expression} (ih : argument.Follows input) :
    (call word operation argument).Follows input := by
  intro s bound enough u reading _
  obtain ⟨first, -, rest⟩ := reading.of_cons
  obtain ⟨kind, spells⟩ := Token.of_lexeme_eq first rfl
  obtain ⟨opens, -, rest⟩ := rest.of_cons
  have opening : (input.token (s.cursor + 1)).kind = .openParen := congrArg Lexeme.kind opens
  simp only [lexemes, List.length_cons, List.length_append] at enough
  obtain ⟨bound, rfl⟩ := Nat.exists_eq_add_one_of_ne_zero (by omega : bound ≠ 0)
  apply primaryOf_of_word (.call word argument.value) kind (.inr rfl)
  intro events
  simp only [Returns, referenceOf, runFrom_enter_bind, runFrom_current_bind, kind, spells,
    runFrom_advance_bind, operation, Bool.false_eq_true, if_false, runFrom_kind_bind, opening,
    ne_eq, not_true_eq_false]
  apply returns_closing (ih _ bound (by omega)) rest (Nat.le_refl _)
  intro cursor depth events rest
  obtain rfl := rest.eq_of_nil
  exact returns_pure _

theorem follows_group {inner : Phrase .expression} (ih : inner.Follows input) :
    (group inner).Follows input := by
  intro s bound enough u reading _
  obtain ⟨opens, -, rest⟩ := reading.of_cons
  have opening : (input.token s.cursor).kind = .openParen := congrArg Lexeme.kind opens
  simp only [lexemes, List.length_cons, List.length_append] at enough
  obtain ⟨bound, rfl⟩ := Nat.exists_eq_add_one_of_ne_zero (by omega : bound ≠ 0)
  simp only [Returns, primaryOf, runFrom_enter_bind, runFrom_current_bind, opening,
    runFrom_advance_bind]
  apply returns_closing (ih _ bound (by omega)) rest (Nat.le_refl _)
  intro cursor depth events rest
  obtain rfl := rest.eq_of_nil
  exact returns_pure _

theorem follows_join (op : Operator) (member : op ∈ rank.operators)
    {right : Phrase (.operand rank)} (ih : right.Follows input) :
    (join op member right).Follows input := by
  intro s u bound enough reading ends
  obtain ⟨sign, -, rest⟩ := reading.of_cons
  have kind : (input.token s.cursor).kind = .operator op := congrArg Lexeme.kind sign
  refine ⟨Kind.operatorAmong_eq_some_iff.mpr ⟨kind, member⟩, ?_⟩
  intro events
  exact ih _ bound (Nat.le_of_succ_le enough) u rest ends

theorem follows_no_joins : (none : Phrase (.many (.join rank))).Follows input := by
  intro count left enough s bound _ u reading ends
  obtain rfl := reading.eq_of_nil
  obtain ⟨count, rfl⟩ := Nat.exists_eq_add_one_of_ne_zero (by omega : count ≠ 0)
  have stops : (input.token s.cursor).kind.operatorAmong rank.operators = Option.none := by
    apply Option.eq_none_iff_forall_ne_some.mpr
    intro op among
    obtain ⟨kind, member⟩ := Kind.operatorAmong_eq_some_iff.mp among
    exact ends op (Precedence.mem_binding_iff.mpr (.inl member))
      (Input.head_rest kind rfl (by simp))
  simp only [Returns, joinsWithin, runFrom_kind_bind, stops]
  exact returns_pure _

theorem follows_more_joins {first : Phrase (.one (.join rank))}
    {others : Phrase (.many (.join rank))} (ih : first.Follows input)
    (ihs : others.Follows input) : (more first others).Follows input := by
  intro count left enough s bound short u reading ends
  obtain ⟨v, reading, rest⟩ :=
    reading.of_append (Nat.le_max_left _ others.nesting) (Nat.le_max_right first.nesting _)
  have apart : Category.Ends (.operand rank) (input.rest v.cursor) := by
    rw [rest.rest]
    exact Category.ends_operand others ends
  simp only [lexemes, List.length_append] at enough short
  obtain ⟨count, rfl⟩ := Nat.exists_eq_add_one_of_ne_zero (by omega : count ≠ 0)
  obtain ⟨sign, returns⟩ := ih s v bound (by omega) reading apart
  simp only [Returns, joinsWithin, runFrom_kind_bind, sign, runFrom_emit_bind,
    runFrom_advance_bind]
  apply (returns _).bind
  intro events
  have passed := first.length_pos (by simp)
  exact ihs count _ (by omega) _ bound (by omega) u rest ends

theorem follows_joined {first : Phrase (.operand rank)} {joins : Phrase (.many (.join rank))}
    (ih : first.Follows input) (ihs : joins.Follows input) :
    (joined first joins).Follows input := by
  intro s bound enough u reading ends
  obtain ⟨v, reading, rest⟩ :=
    reading.of_append (Nat.le_max_left _ joins.nesting) (Nat.le_max_right first.nesting _)
  have apart : Category.Ends (.operand rank) (input.rest v.cursor) := by
    rw [rest.rest]
    exact Category.ends_operand joins ends
  simp only [lexemes, List.length_append] at enough
  apply (ih s bound (by omega) v reading apart).bind
  intro events
  apply ihs (input.remaining v.cursor + 1) _ _ _ bound (by omega) u rest ends
  exact Nat.lt_succ_of_le rest.length_le

theorem follows_expression {inner : Phrase (.level .sum)} (ih : inner.Follows input) :
    (expression inner).Follows input := by
  intro s bound enough u reading ends
  simp only [Returns, expressionWithin, runFrom_enter_bind]
  refine Returns.nested ?_ fun inside => ih _ bound enough _ inside ends
  exact reading

end Expressions

theorem Follows.expression {p : Phrase .expression} (follows : p.Follows input) (s : State) :
    p.ReadFrom input s Rule.expression p.value s.debt := by
  have reads : p.ReadBy input (fun bound => expressionWithin (bound + 1)) (fun _ => p.value) id :=
    follows
  exact reads.bounded s

theorem follows_assignment (target : String) {value : Phrase .expression}
    (ih : value.Follows input) : (assignment target value).Follows input := by
  intro s bound _ u reading ends
  obtain ⟨first, -, rest⟩ := reading.of_cons
  obtain ⟨kind, spells⟩ := Token.of_lexeme_eq first rfl
  obtain ⟨sign, -, rest⟩ := rest.of_cons
  have assign : (input.token (s.cursor + 1)).kind = .operator .assign := congrArg Lexeme.kind sign
  simp only [Returns, Rule.assignment, runFrom_enter_bind, runFrom_kind_bind, kind, ne_eq,
    not_true_eq_false, if_false, runFrom_advance_bind, runFrom_current_bind, spells,
    Token.isOperator, assign, beq_self_eq_true, Bool.not_true, Bool.false_eq_true]
  refine Returns.bind (ih.expression _ u rest ends) fun events => returns_pure _

section Rows

variable {what : Repeated} {item : what.Value → Item} {rule : Nat → Rule Chain}
  (free : ∀ more, (Category.one what).Ends more)
  (closed : ∀ more, (Category.many what).Ends more ↔ more.head? = some (.bare .closeCurly))

include closed in
theorem none_rowFollows : (none : Phrase (.many what)).RowFollows input item rule := by
  intro count seen enough s bound _ u reading ends
  obtain rfl := reading.eq_of_nil
  obtain ⟨count, rfl⟩ := Nat.exists_eq_add_one_of_ne_zero (by omega : count ≠ 0)
  have close : (input.token s.cursor).kind = .closeCurly :=
    Input.kind_of_head_rest ((closed _).mp ends)
  simp only [Returns, itemsWithin, runFrom_kind_bind, close, if_true, map_value_none,
    Item.chains, List.append_nil]
  exact returns_pure _

include free in
theorem more_rowFollows {first : Phrase (.one what)} {others : Phrase (.many what)}
    (apart : .closeCurly ∉ (Category.one what).starts) (ih : first.ItemFollows input item rule)
    (ihs : others.RowFollows input item rule) :
    (more first others).RowFollows input item rule := by
  intro count seen enough s bound short u reading ends
  have passed := first.length_pos (by simp)
  simp only [lexemes, List.length_append] at enough short
  obtain ⟨count, rfl⟩ := Nat.exists_eq_add_one_of_ne_zero (by omega : count ≠ 0)
  obtain ⟨v, reading, rest⟩ :=
    reading.of_append (Nat.le_max_left _ others.nesting) (Nat.le_max_right first.nesting _)
  have goes : (input.token s.cursor).kind ≠ .closeCurly := kind_ne reading apart (by simp)
  simp only [Returns, itemsWithin, runFrom_kind_bind, goes, if_false]
  refine Returns.bind (ih s bound (by omega) v reading (free _)) fun events => ?_
  simpa [Item.chains, Item.debts] using ihs count (Item.chain s.debt (item first.value) :: seen)
    (by omega) ⟨v.cursor, (item first.value).debt, v.depth, events⟩ bound (by omega) u rest ends

include free closed in
theorem returns_braced (first : Phrase (.one what)) (others : Phrase (.many what))
    (ih : first.ItemFollows input item rule) (ihs : others.RowFollows input item rule)
    (s : State) {u : Place} {bound n : Nat}
    (enough : first.lexemes.length + others.lexemes.length ≤ bound)
    (reading : Reading input ⟨s.cursor, s.depth⟩ u
      (first.lexemes ++ (others.lexemes ++ [.bare .closeCurly])) n)
    (fits : max first.nesting others.nesting ≤ n) :
    (braced (rule bound)).Returns input s
      (Item.chains s.debt (item first.value :: others.value.map item)) u
      (Item.debts s.debt (item first.value :: others.value.map item)) := by
  obtain ⟨v, reading, rest⟩ := reading.of_append (Nat.le_trans (Nat.le_max_left _ _) fits)
    (Nat.le_refl n)
  obtain ⟨w, row, rest⟩ := rest.of_append (Nat.le_trans (Nat.le_max_right _ _) fits)
    (Nat.le_refl n)
  have ends : (Category.many what).Ends (input.rest w.cursor) := by
    rw [rest.rest]
    exact (closed _).mpr rfl
  refine Returns.bind (ih s bound (by omega) v reading (free _)) fun events => ?_
  have loop : (bounded fun count => itemsWithin (rule bound) count
      [(item first.value).chain s.debt]).Returns input
      ⟨v.cursor, (item first.value).debt, v.depth, events⟩
      (Item.chains s.debt (item first.value :: others.value.map item)) w
      (Item.debts s.debt (item first.value :: others.value.map item)) := by
    have count : others.lexemes.length < input.remaining v.cursor + 1 :=
      Nat.lt_succ_of_le row.length_le
    exact ihs _ [(item first.value).chain s.debt] count _ bound (by omega) w row ends
  refine loop.bind fun events => ?_
  obtain ⟨close, -, rest⟩ := rest.of_cons
  obtain rfl := rest.eq_of_nil
  simp only [Returns, runFrom_advance_bind]
  exact returns_pure _

end Rows
section Commands

theorem returns_headWord (s : State) {word : String}
    (first : (input.token s.cursor).lexeme = ⟨.keyword, word⟩)
    (conditional : isConditionalWord word = true) :
    headWord.Returns input s word ⟨s.cursor + 1, s.depth⟩ s.debt := by
  simp only [Returns, headWord, runFrom_position_bind]
  refine Returns.bind (v := ⟨s.cursor + 1, s.depth⟩) (referenceOf_head s first conditional)
    fun events => ?_
  exact returns_pure _

theorem follows_conditional (word : String) (conditional : isConditionalWord word = true)
    {condition : Phrase .expression} {body : Phrase .body} (ih : condition.Follows input)
    (ihs : body.Follows input) :
    (Phrase.conditional word conditional condition body).Follows input := by
  intro s bound enough u reading ends
  simp only [lexemes, List.length_cons, List.length_append] at enough
  obtain ⟨bound, rfl⟩ := Nat.exists_eq_add_one_of_ne_zero (by omega : bound ≠ 0)
  refine Returns.nested reading fun inside => ?_
  obtain ⟨first, -, rest⟩ := inside.of_cons
  obtain ⟨opens, -, rest⟩ := rest.of_cons
  simp only [Returns, runFrom_enter_bind]
  refine Returns.bind (v := ⟨u.cursor, s.depth + 1⟩)
    (returns_headWord ⟨s.cursor, s.debt, s.depth + 1, _⟩ first conditional) fun events => ?_
  refine Returns.bind (returns_expectFor ?_) fun events => ?_
  · exact congrArg Lexeme.kind opens
  refine returns_closing (ih.expression _) rest (Nat.le_max_left _ _) ?_
  intro cursor depth events rest
  have last := rest.mono (Nat.le_max_right condition.nesting body.nesting)
  exact Returns.bind (ihs _ bound (by omega) _ last trivial) fun events => returns_pure _

theorem follows_single {inner : Phrase (.one .command)} (ih : inner.Follows input) :
    (single inner).Follows input := by
  intro s bound enough u reading ends
  have brace : (input.token s.cursor).kind ≠ .openCurly :=
    kind_ne (p := inner) reading (by decide) (by simp)
  have links : bodyChain s.debt [inner.value] = Chain.settle s.debt inner.value :=
    List.append_nil _
  simp only [Returns, bodyOf, runFrom_kind_bind, brace, if_false, value, links]
  exact ih s bound enough u reading ends

theorem follows_block {first : Phrase (.one .command)} {others : Phrase (.many .command)}
    (ih : first.Follows input) (ihs : others.Follows input) :
    (block first others).Follows input := by
  intro s bound enough u reading ends
  obtain ⟨opens, -, rest⟩ := reading.of_cons
  have opening : (input.token s.cursor).kind = .openCurly := congrArg Lexeme.kind opens
  simp only [lexemes, List.length_cons, List.length_append] at enough
  rw [List.append_assoc] at rest
  have short : first.lexemes.length + others.lexemes.length ≤ bound := by omega
  simp only [Returns, bodyOf, runFrom_kind_bind, opening, if_true, runFrom_advance_bind]
  have settled : Item.debts s.debt (Item.command first.value :: others.value.map .command) = 0 :=
    Item.debts_command first.value others.value s.debt
  have inside := returns_braced Category.ends_command Category.ends_commands_iff first others
    ih ihs { s with cursor := s.cursor + 1 } short rest (Nat.le_refl _)
  rw [settled] at inside
  refine Returns.bind inside fun events => ?_
  exact returns_pure _

theorem follows_assigned {inner : Phrase .assignment} (ih : inner.Follows input) :
    (assigned inner).Follows input := by
  intro s bound enough u reading _
  obtain ⟨v, first, rest⟩ := reading.of_append (Nat.le_refl _) (Nat.zero_le _)
  have ends : Category.Ends .assignment (input.rest v.cursor) := by
    rw [rest.rest]
    exact Category.ends_semicolon
  obtain ⟨semicolon, -, rest⟩ := rest.of_cons
  have word : (input.token s.cursor).kind ≠ .keyword := kind_ne first (by decide) (by simp)
  simp only [Returns, commandWithin, commandOf, runFrom_enter_bind, runFrom_takeDebt_bind,
    runFrom_kind_bind, word, if_false]
  simp only [lexemes, List.length_append] at enough
  refine Returns.bind (ih ⟨s.cursor, 0, s.depth, _⟩ bound (by omega) v first ends) fun events => ?_
  refine Returns.bind (returns_expect ?_) fun events => ?_
  · exact congrArg Lexeme.kind semicolon
  obtain rfl := rest.eq_of_nil
  simp only [Returns, pure_bind, runFrom_ite_emit_bind]
  exact returns_pure _

theorem follows_conditioned {inner : Phrase .conditional} (ih : inner.Follows input) :
    (conditioned inner).Follows input := by
  intro s bound enough u reading ends
  have word : (input.token s.cursor).kind = .keyword :=
    List.mem_singleton.mp (kind_mem_starts (p := inner) reading (by simp))
  simp only [Returns, commandWithin, commandOf, runFrom_enter_bind, runFrom_takeDebt_bind,
    runFrom_kind_bind, word, if_true]
  refine Returns.bind (ih ⟨s.cursor, 0, s.depth, _⟩ bound enough u reading ends) fun events => ?_
  simp only [Returns, runFrom_ite_emit_bind]
  exact returns_pure _

end Commands

theorem Follows.command {p : Phrase (.one .command)} (follows : p.Follows input) (s : State) :
    p.ReadFrom input s Rule.command (Chain.settle s.debt p.value) 0 := by
  have reads : p.ItemFollows input .command fun bound => commandWithin (bound + 1) := follows
  exact ReadBy.bounded reads s

section Scopes

theorem follows_scope {first : Phrase (.one .element)} {others : Phrase (.many .element)}
    (ih : first.Follows input) (ihs : others.Follows input) :
    (scope first others).Follows input := by
  intro s bound enough u reading _
  simp only [lexemes, List.length_cons, List.length_append] at enough
  obtain ⟨bound, rfl⟩ := Nat.exists_eq_add_one_of_ne_zero (by omega : bound ≠ 0)
  refine Returns.nested reading fun inside => ?_
  obtain ⟨opens, -, rest⟩ := inside.of_cons
  rw [List.append_assoc] at rest
  have short : first.lexemes.length + others.lexemes.length ≤ bound := by omega
  simp only [Returns, runFrom_enter_bind]
  refine Returns.bind (v := ⟨u.cursor, s.depth + 1⟩) (returns_expectFor ?_) fun events => ?_
  · exact congrArg Lexeme.kind opens
  simp only [Returns, runFrom_takeDebt_bind, runFrom_ite_emit_bind]
  refine Returns.bind (v := ⟨u.cursor, s.depth + 1⟩) (returns_braced Category.ends_element
    Category.ends_elements_iff first others ih ihs _ short rest (Nat.le_refl _)) fun events => ?_
  simp only [Returns, runFrom_owe_bind, runFrom_get_bind, runFrom_emit_bind,
    runFrom_ite_emit_bind, id_eq, List.map_id]
  exact returns_pure _

theorem follows_plain {inner : Phrase (.one .command)} (ih : inner.Follows input) :
    (plain inner).Follows input := by
  intro s bound enough u reading ends
  have brace : (input.token s.cursor).kind ≠ .openCurly :=
    kind_ne (p := inner) reading (by decide) (by simp)
  simp only [Returns, elementWithin, runFrom_kind_bind, brace, if_false]
  exact ih.command s u reading ends

theorem follows_enclosed {inner : Phrase .scope} (ih : inner.Follows input) :
    (enclosed inner).Follows input := by
  intro s bound enough u reading ends
  have brace : (input.token s.cursor).kind = .openCurly :=
    List.mem_singleton.mp (kind_mem_starts (p := inner) reading (by simp))
  simp only [Returns, elementWithin, runFrom_kind_bind, brace, if_true]
  exact ih s bound enough u reading ends

end Scopes

/-- Every phrase is read by the rule of its category. -/
theorem follows {c : Category} (p : Phrase c) : p.Follows input := by
  induction p with
  | number text => exact follows_number text
  | var name => exact follows_var name
  | head word conditional => exact follows_head word conditional
  | call word operation argument ih => exact follows_call word operation ih
  | group inner ih => exact follows_group ih
  | product inner ih => exact ih
  | power inner ih => exact ih
  | primary inner ih => exact fun s bound enough u reading _ => ih s bound enough u reading trivial
  | joined first joins ih ihs => exact follows_joined ih ihs
  | join op member right ih => exact follows_join op member ih
  | expression inner ih => exact follows_expression ih
  | assignment target value ih => exact follows_assignment target ih
  | conditional word conditional condition body ih ihs =>
    exact follows_conditional word conditional ih ihs
  | single inner ih => exact follows_single ih
  | block first others ih ihs => exact follows_block ih ihs
  | assigned inner ih => exact follows_assigned ih
  | conditioned inner ih => exact follows_conditioned ih
  | scope first others ih ihs => exact follows_scope ih ihs
  | plain inner ih => exact follows_plain ih
  | enclosed inner ih => exact follows_enclosed ih
  | @none what =>
    cases what with
    | join rank => exact follows_no_joins
    | command => exact none_rowFollows Category.ends_commands_iff
    | element => exact none_rowFollows Category.ends_elements_iff
  | @more what first others ih ihs =>
    cases what with
    | join rank => exact follows_more_joins ih ihs
    | command => exact more_rowFollows Category.ends_command (by decide) ih ihs
    | element => exact more_rowFollows Category.ends_element (by decide) ih ihs

theorem element_readFrom (p : Phrase (.one .element)) (s : State) :
    p.ReadFrom input s Rule.element (p.value.chain s.debt) p.value.debt := by
  have reads : p.ItemFollows input id fun bound => elementWithin (bound + 1) := p.follows
  exact ReadBy.bounded reads s

end Phrase

/-- A program that can be read and nests no deeper than allowed is accepted. -/
theorem parse_returns {tokens : List Token} {limit : Nat} (p : Phrase (.one .element))
    (derives : p.lexemes = lexemes tokens) (readable : ∀ lexeme ∈ p.lexemes, lexeme.Readable)
    (fits : p.nesting ≤ limit) :
    ∃ events, parse tokens limit =
      (.ok (Item.program p.value), ⟨p.lexemes.length, 0, 0, events⟩) := by
  have start : (Input.mk tokens.toArray limit).rest 0 = p.lexemes ++ [] := by
    rw [derives, List.append_nil]
    rfl
  have ending : (Input.mk tokens.toArray limit).rest p.lexemes.length = [] := by
    have := Input.rest_add start
    rwa [Nat.zero_add] at this
  have reading : Reading ⟨tokens.toArray, limit⟩ ⟨0, 0⟩ ⟨p.lexemes.length, 0⟩ p.lexemes p.nesting :=
    ⟨by rw [start, ending], (Nat.zero_add _).symm, rfl, fits, readable⟩
  have last := Input.rest_eq_nil_iff.mp ending
  simp only [parse, Rule.program, Rule.runFrom_enter_bind]
  obtain ⟨events, run⟩ := p.element_readFrom ⟨0, 0, 0, _⟩ _ reading trivial
  rw [Rule.runFrom_bind_of_ok run]
  simp only [Rule.runFrom_kind_bind, last, ne_eq, not_true_eq_false, if_false,
    Rule.runFrom_takeDebt_bind, Rule.runFrom_ite_emit_bind]
  exact ⟨_, rfl⟩

end LinkedScopes
