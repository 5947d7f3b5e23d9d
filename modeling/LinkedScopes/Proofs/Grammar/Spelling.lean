import LinkedScopes.Proofs.Nesting.Shape

/-! Everything of the right shape can be written. An operation is written in parentheses, so
that it stands wherever an operand may; a row of commands is a body in braces. The tokens of
a phrase are its lexemes without a place in any text. -/
namespace LinkedScopes

namespace Phrase

def Readable {c : Category} (p : Phrase c) : Prop := ∀ lexeme ∈ p.lexemes, lexeme.Readable

/-- A primary as an operand of any level. -/
def lift : (rank : Precedence) → Phrase .primary → Phrase (.operand rank)
  | .power, p => .primary p
  | .product, p => .power (.joined (.primary p) .none)
  | .sum, p => .product (.joined (.power (.joined (.primary p) .none)) .none)

def raise : (rank : Precedence) → Phrase (.level rank) → Phrase .expression
  | .sum, p => .expression p
  | .product, p => .expression (.joined (.product p) .none)
  | .power, p => .expression (.joined (.product (.joined (.power p) .none)) .none)

def alone (p : Phrase .primary) : Phrase .expression := raise .sum (.joined (lift .sum p) .none)

/-- Two operands and the operator between them, in parentheses. -/
def operation {rank : Precedence} (op : Operator) (member : op ∈ rank.operators)
    (left right : Phrase .primary) : Phrase .primary :=
  .group (raise rank (.joined (lift rank left) (.more (.join op member (lift rank right)) .none)))

variable {rank : Precedence}

@[simp] theorem lexemes_lift (p : Phrase .primary) : (lift rank p).lexemes = p.lexemes := by
  cases rank <;> simp [lift, lexemes]

@[simp] theorem value_lift (p : Phrase .primary) : (lift rank p).value = p.value := by
  cases rank <;> rfl

@[simp] theorem lexemes_raise (p : Phrase (.level rank)) : (raise rank p).lexemes = p.lexemes := by
  cases rank <;> simp [raise, lexemes]

@[simp] theorem value_raise (p : Phrase (.level rank)) : (raise rank p).value = p.value := by
  cases rank <;> rfl

@[simp] theorem value_alone (p : Phrase .primary) : (alone p).value = p.value := by
  rw [alone, value_raise]
  exact value_lift p

theorem value_operation (op : Operator) (member : op ∈ rank.operators)
    (left right : Phrase .primary) :
    (operation op member left right).value = Node.operation op left.value right.value := by
  have joined : (operation op member left right).value =
      Node.operation op (lift rank left).value (lift rank right).value := value_raise _
  rw [joined]
  exact congr (congrArg (Node.operation op) (value_lift left)) (value_lift right)

theorem readable_operation_iff {op : Operator} {member : op ∈ rank.operators}
    {left right : Phrase .primary} :
    (operation op member left right).Readable ↔ left.Readable ∧ right.Readable := by
  simp [Readable, operation, lexemes, or_imp, forall_and, Lexeme.Readable]

theorem readable_alone_iff {p : Phrase .primary} : p.alone.Readable ↔ p.Readable := by
  simp [Readable, alone, lexemes]

theorem readable_call_iff {word : String} {operation : isConditionalWord word = false}
    {argument : Phrase .expression} :
    (call word operation argument).Readable ↔ argument.Readable := by
  simp [Readable, lexemes, or_imp, forall_and, Lexeme.Readable]

theorem readable_assigned_iff {target : String} {value : Phrase .expression} :
    (assigned (.assignment target value)).Readable ↔ value.Readable := by
  simp [Readable, lexemes, or_imp, forall_and, Lexeme.Readable]

theorem readable_conditioned_iff {word : String} {conditional : isConditionalWord word = true}
    {condition : Phrase .expression} {first : Phrase (.one .command)}
    {others : Phrase (.many .command)} :
    (conditioned (.conditional word conditional condition (.block first others))).Readable ↔
      condition.Readable ∧ first.Readable ∧ others.Readable := by
  simp [Readable, lexemes, or_imp, forall_and, Lexeme.Readable]

theorem readable_enclosed_iff {first : Phrase (.one .element)}
    {others : Phrase (.many .element)} :
    (enclosed (.scope first others)).Readable ↔ first.Readable ∧ others.Readable := by
  simp [Readable, lexemes, or_imp, forall_and, Lexeme.Readable]

end Phrase

theorem Operator.exists_rank {op : Operator} (joins : op ≠ .assign) :
    ∃ rank : Precedence, op ∈ rank.operators := by
  cases op with
  | add | sub => exact ⟨.sum, by decide⟩
  | mul | div => exact ⟨.product, by decide⟩
  | pow => exact ⟨.power, by decide⟩
  | assign => exact absurd rfl joins

theorem IsExpression.exists_phrase {node : Node} (is : IsExpression node) :
    ∃ p : Phrase .primary, p.Readable ∧ p.value = node := by
  induction is with
  | @number text v denotes =>
    refine ⟨.number text, ?_, by simp [Phrase.value, denotes]⟩
    exact List.forall_mem_singleton.mpr fun _ => by simp [denotes]
  | var name => exact ⟨.var name, List.forall_mem_singleton.mpr (by rintro ⟨⟩), rfl⟩
  | operation joins _ _ ih ih' =>
    obtain ⟨rank, member⟩ := Operator.exists_rank joins
    obtain ⟨left, first, rfl⟩ := ih
    obtain ⟨right, second, rfl⟩ := ih'
    exact ⟨.operation _ member left right, Phrase.readable_operation_iff.mpr ⟨first, second⟩,
      Phrase.value_operation ..⟩
  | head conditional =>
    exact ⟨.head _ conditional, List.forall_mem_singleton.mpr (by rintro ⟨⟩), rfl⟩
  | call operation _ ih =>
    obtain ⟨argument, inner, rfl⟩ := ih
    refine ⟨.call _ operation argument.alone, ?_, ?_⟩
    · exact Phrase.readable_call_iff.mpr (Phrase.readable_alone_iff.mpr inner)
    · exact congrArg (Node.call _) (Phrase.value_alone argument)

theorem exists_row (what : Repeated) {values : List what.Value}
    (each : ∀ value ∈ values, ∃ p : Phrase (.one what), p.Readable ∧ p.value = value) :
    ∃ p : Phrase (.many what), p.Readable ∧ p.value = values := by
  induction values with
  | nil => exact ⟨.none, List.forall_mem_nil _, rfl⟩
  | cons first rest ih =>
    obtain ⟨p, readable, rfl⟩ := each first List.mem_cons_self
    obtain ⟨others, are, rfl⟩ := ih fun value member => each value (List.mem_cons_of_mem _ member)
    exact ⟨.more p others, List.forall_mem_append.mpr ⟨readable, are⟩, rfl⟩

theorem IsCommand.exists_phrase {command : Node} (is : IsCommand command) :
    ∃ p : Phrase (.one .command), p.Readable ∧ p.value = command := by
  induction is with
  | assignment target expression =>
    obtain ⟨p, readable, rfl⟩ := expression.exists_phrase
    refine ⟨.assigned (.assignment target p.alone), ?_, ?_⟩
    · exact Phrase.readable_assigned_iff.mpr (Phrase.readable_alone_iff.mpr readable)
    · exact congrArg (Node.assignment target) (Phrase.value_alone p)
  | conditional conditional expression some each ih =>
    obtain ⟨p, readable, rfl⟩ := expression.exists_phrase
    obtain ⟨first, rest, rfl⟩ := List.exists_cons_of_ne_nil some
    obtain ⟨one, first_readable, rfl⟩ := ih _ List.mem_cons_self
    obtain ⟨many, rest_readable, rfl⟩ := exists_row .command fun value member =>
      ih value (List.mem_cons_of_mem _ member)
    refine ⟨.conditioned (.conditional _ conditional p.alone (.block one many)), ?_, ?_⟩
    · exact Phrase.readable_conditioned_iff.mpr
        ⟨Phrase.readable_alone_iff.mpr readable, first_readable, rest_readable⟩
    · rw [← bodyChain_zero]
      exact congrArg (fun node => Node.conditional _ node (bodyChain 0 (one.value :: many.value)))
        (Phrase.value_alone p)

theorem Item.Formed.exists_phrase {item : Item} (formed : item.Formed IsCommand) :
    ∃ p : Phrase (.one .element), p.Readable ∧ p.value = item := by
  induction formed with
  | command is =>
    obtain ⟨p, readable, rfl⟩ := is.exists_phrase
    exact ⟨.plain p, readable, rfl⟩
  | scope some each ih =>
    obtain ⟨first, rest, rfl⟩ := List.exists_cons_of_ne_nil some
    obtain ⟨one, first_readable, rfl⟩ := ih _ List.mem_cons_self
    obtain ⟨many, rest_readable, rfl⟩ := exists_row .element fun value member =>
      ih value (List.mem_cons_of_mem _ member)
    refine ⟨.enclosed (.scope one many), ?_, rfl⟩
    exact Phrase.readable_enclosed_iff.mpr ⟨first_readable, rest_readable⟩

def Lexeme.Spelled (lexeme : Lexeme) : Prop :=
  lexeme.kind ≠ .endOfInput ∧ (Token.detached lexeme.kind lexeme.text).lexeme = lexeme

theorem Phrase.spelled {c : Category} (p : Phrase c) : ∀ lexeme ∈ p.lexemes, lexeme.Spelled := by
  induction p <;>
    simp_all [lexemes, or_imp, forall_and, Lexeme.Spelled, Token.lexeme, Token.detached,
      Lexeme.bare, Lexeme.operator, Kind.spelled]

theorem lexemes_detached {all : List Lexeme} (each : ∀ lexeme ∈ all, lexeme.Spelled) :
    lexemes (all.map fun lexeme => .detached lexeme.kind lexeme.text) = all := by
  induction all with
  | nil => rfl
  | cons first rest ih =>
    obtain ⟨⟨proper, same⟩, others⟩ := List.forall_mem_cons.mp each
    rw [List.map_cons, lexemes_cons proper, same, ih others]

end LinkedScopes
