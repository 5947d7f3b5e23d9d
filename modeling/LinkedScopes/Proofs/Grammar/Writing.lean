import LinkedScopes.Proofs.Grammar.Completeness
import LinkedScopes.Proofs.Grammar.Spelling

/-! Expressions written down. Parentheses stand around an operand that binds more loosely than its
operator, and around a right operand that binds no tighter; there may be more of them, or only
these. What is written is read back as the tree it was written from, whatever follows it but an
operator. -/
namespace LinkedScopes

/-- How tightly an operator binds, the tightest most. An assignment joins no operands. -/
def Operator.strength : Operator → Nat
  | assign => 0
  | add | sub => 1
  | mul | div => 2
  | pow => 3

def Precedence.strength : Precedence → Nat
  | sum => 1
  | product => 2
  | power => 3

theorem Precedence.strength_eq {rank : Precedence} {op : Operator} (member : op ∈ rank.operators) :
    rank.strength = op.strength := by
  cases rank <;> cases op <;> revert member <;> decide

/-- How tightly a tree holds together. Only an operation can be torn apart by its neighbours. -/
def Node.strength : Node → Nat
  | operation op _ _ => op.strength
  | _ => 4

/-- A text writes a tree where at least so much strength is asked for. Operators fold to the
left, so the right operand has to be stronger than its operator and the left one as strong.
Parentheses stand around what is too weak for its place, and if spare ones are allowed around
anything. -/
inductive WrittenAs (spare : Bool) : Nat → Node → List Lexeme → Prop
  | number {least : Nat} {text : String} {value : Binary64}
    (denotes : Binary64.ofText? text = some value) :
    WrittenAs spare least (.number value) [⟨.number, text⟩]
  | var {least : Nat} (name : String) : WrittenAs spare least (.var name) [⟨.identifier, name⟩]
  | head {least : Nat} {word : String} (conditional : isConditionalWord word = true) :
    WrittenAs spare least (.head word) [⟨.keyword, word⟩]
  | call {least : Nat} {word : String} {argument : Node} {text : List Lexeme}
    (operation : isConditionalWord word = false) (inner : WrittenAs spare 0 argument text) :
    WrittenAs spare least (.call word argument)
      (⟨.keyword, word⟩ :: .bare .openParen :: (text ++ [.bare .closeParen]))
  | operation {least : Nat} {op : Operator} {left right : Node} {first second : List Lexeme}
    (joins : op ≠ .assign) (strong : least ≤ op.strength)
    (before : WrittenAs spare op.strength left first)
    (behind : WrittenAs spare (op.strength + 1) right second) :
    WrittenAs spare least (.operation op left right) (first ++ .operator op :: second)
  | group {least : Nat} {node : Node} {text : List Lexeme}
    (needed : spare = true ∨ node.strength < least) (inner : WrittenAs spare 0 node text) :
    WrittenAs spare least node (.bare .openParen :: (text ++ [.bare .closeParen]))

/-- The most parentheses that are open at once in a text, with so many open before it. -/
def openMost (opened : Nat) : List Lexeme → Nat
  | [] => opened
  | lexeme :: rest =>
    max opened <| openMost
      (match lexeme.kind with
        | .openParen => opened + 1
        | .closeParen => opened - 1
        | _ => opened) rest

theorem le_openMost (opened : Nat) (text : List Lexeme) : opened ≤ openMost opened text := by
  cases text with
  | nil => exact Nat.le_refl _
  | cons => exact Nat.le_max_left _ _

theorem openMost_group {opened deep : Nat} {text more : List Lexeme}
    (inside : openMost (opened + 1) (text ++ .bare .closeParen :: more) =
      max (opened + 1 + deep) (openMost (opened + 1) (.bare .closeParen :: more))) :
    openMost opened (.bare .openParen :: (text ++ .bare .closeParen :: more)) =
      max (opened + (deep + 1)) (openMost opened more) := by
  have least := le_openMost opened more
  simp only [openMost, Lexeme.kind_bare] at inside ⊢
  rw [inside]
  simp only [Nat.add_sub_cancel]
  omega

theorem Node.joined_concat (first : Node) (joins : List (Operator × Node)) (op : Operator)
    (right : Node) :
    Node.joined first (joins ++ [(op, right)]) = .operation op (Node.joined first joins) right := by
  simp [Node.joined]

namespace Phrase

def row {what : Repeated} : List (Phrase (.one what)) → Phrase (.many what)
  | [] => none
  | first :: others => more first (row others)

section

variable {what : Repeated} (phrases : List (Phrase (.one what))) (last : Phrase (.one what))

theorem lexemes_row_concat :
    (row (phrases ++ [last])).lexemes = (row phrases).lexemes ++ last.lexemes := by
  induction phrases with
  | nil => exact List.append_nil _
  | cons first others ih =>
    rw [List.cons_append, row, lexemes, ih, row, lexemes, List.append_assoc]

theorem nesting_row_concat :
    (row (phrases ++ [last])).nesting = max (row phrases).nesting last.nesting := by
  induction phrases with
  | nil => exact Nat.max_comm _ _
  | cons first others ih => rw [List.cons_append, row, nesting, ih, row, nesting, Nat.max_assoc]

theorem value_row_concat :
    (row (phrases ++ [last])).value = (row phrases).value ++ [last.value] := by
  induction phrases with
  | nil => rfl
  | cons first others ih => exact congrArg (List.cons first.value) ih

end

/-- A phrase is what a text writes: it derives the text, it stands for the tree, its numbers can be
read, and it nests as deep as the text has parentheses open. -/
structure Writes {c : Category} (p : Phrase c) (value : c.Value) (text : List Lexeme) : Prop where
  lexemes : p.lexemes = text
  value : p.value = value
  readable : ∀ lexeme ∈ text, lexeme.Readable
  opens : ∀ opened more,
    openMost opened (text ++ more) = max (opened + p.nesting) (openMost opened more)

variable {rank : Precedence} {node left right : Node} {text first second : List Lexeme}

/-- A text that writes operands of a level and the operators between them. -/
def Joins (rank : Precedence) (node : Node) (text : List Lexeme) : Prop :=
  ∃ (first : Phrase (.operand rank)) (joins : List (Phrase (.one (.join rank)))),
    (joined first (row joins)).Writes node text

theorem Writes.joins {operand : Phrase (.operand rank)} (writes : operand.Writes node text) :
    Joins rank node text := by
  refine ⟨operand, [], ?_, writes.value, writes.readable, ?_⟩
  · exact (List.append_nil _).trans writes.lexemes
  · intro opened more
    rw [writes.opens]
    exact congrArg (fun deep => max (opened + deep) _) (Nat.max_zero _).symm

theorem Joins.operation {op : Operator} (before : Joins rank left first)
    (member : op ∈ rank.operators) {operand : Phrase (.operand rank)}
    (behind : operand.Writes right second) :
    Joins rank (.operation op left right) (first ++ .operator op :: second) := by
  obtain ⟨start, joins, writes⟩ := before
  refine ⟨start, joins ++ [.join op member operand], ?_, ?_, ?_, ?_⟩
  · have lexemes := writes.lexemes
    rw [Phrase.lexemes] at lexemes ⊢
    rw [lexemes_row_concat, ← List.append_assoc, lexemes, Phrase.lexemes, behind.lexemes]
  · have value : Node.joined start.value (row joins).value = left := writes.value
    have last : (Phrase.join op member operand).value = (op, right) :=
      congrArg (Prod.mk op) behind.value
    change Node.joined start.value (row (joins ++ [.join op member operand])).value = _
    rw [value_row_concat, last, Node.joined_concat, value]
  · refine List.forall_mem_append.mpr ⟨writes.readable, ?_⟩
    exact List.forall_mem_cons.mpr ⟨by rintro ⟨⟩, behind.readable⟩
  · intro opened more
    have least := le_openMost opened more
    have inside := writes.opens opened (.operator op :: (second ++ more))
    simp only [openMost, Lexeme.kind_operator, behind.opens, nesting, nesting_row_concat]
      at inside ⊢
    rw [List.append_assoc, List.cons_append, inside]
    omega

/-- What a text writes where so much strength is asked for derives from a production as strong. -/
def Derives (node : Node) (text : List Lexeme) : Nat → Prop
  | 0 | 1 => Joins .sum node text
  | 2 => Joins .product node text
  | 3 => Joins .power node text
  | _ => ∃ p : Phrase .primary, p.Writes node text

namespace Derives

theorem strength_iff : Derives node text rank.strength ↔ Joins rank node text := by
  cases rank <;> rfl

theorem exists_operand (derives : Derives node text (rank.strength + 1)) :
    ∃ operand : Phrase (.operand rank), operand.Writes node text := by
  cases rank with
  | sum =>
    obtain ⟨first, joins, writes⟩ := derives
    exact ⟨.product (joined first (row joins)), writes.1, writes.2, writes.3, writes.4⟩
  | product =>
    obtain ⟨first, joins, writes⟩ := derives
    exact ⟨.power (joined first (row joins)), writes.1, writes.2, writes.3, writes.4⟩
  | power =>
    obtain ⟨p, writes⟩ := derives
    exact ⟨.primary p, writes.1, writes.2, writes.3, writes.4⟩

theorem level (rank : Precedence) (derives : Derives node text (rank.strength + 1)) :
    Derives node text rank.strength := by
  obtain ⟨operand, writes⟩ := exists_operand derives
  exact strength_iff.mpr writes.joins

theorem lower {least : Nat} (derives : Derives node text (least + 1)) :
    Derives node text least := by
  match least with
  | 0 => exact derives
  | 1 => exact level .sum derives
  | 2 => exact level .product derives
  | 3 => exact level .power derives
  | _ + 4 => exact derives

theorem mono {least strength : Nat} (derives : Derives node text strength)
    (le : least ≤ strength) : Derives node text least := by
  induction le with
  | refl => exact derives
  | step _ ih => exact ih derives.lower

theorem of_primary {p : Phrase .primary} (writes : p.Writes node text) (least : Nat) :
    Derives node text least := by
  have strongest : Derives node text (least + 4) := ⟨p, writes⟩
  exact strongest.mono (Nat.le_add_right _ _)

end Derives

theorem Writes.of_lexeme {p : Phrase .primary} {lexeme : Lexeme} (lexemes : p.lexemes = [lexeme])
    (value : p.value = node) (readable : lexeme.Readable) (flat : p.nesting = 0)
    (opens : ∀ opened more, openMost opened (lexeme :: more) = max opened (openMost opened more)) :
    p.Writes node [lexeme] where
  lexemes := lexemes
  value := value
  readable := List.forall_mem_singleton.mpr readable
  opens := by
    intro opened more
    rw [flat]
    exact opens opened more

section

variable {inner : Phrase (.level .sum)} (writes : inner.Writes node text)

include writes

theorem Writes.opens_group (opened : Nat) (more : List Lexeme) :
    openMost opened (.bare .openParen :: (text ++ [.bare .closeParen] ++ more)) =
      max (opened + (inner.nesting + 1)) (openMost opened more) := by
  rw [List.append_assoc]
  exact openMost_group (writes.opens (opened + 1) (.bare .closeParen :: more))

theorem Writes.readable_group :
    ∀ lexeme ∈ .bare .openParen :: (text ++ [.bare .closeParen]), lexeme.Readable := by
  refine List.forall_mem_cons.mpr ⟨by rintro ⟨⟩, List.forall_mem_append.mpr ⟨writes.readable, ?_⟩⟩
  exact List.forall_mem_singleton.mpr (by rintro ⟨⟩)

theorem Writes.group : (Phrase.group (.expression inner)).Writes node
    (.bare .openParen :: (text ++ [.bare .closeParen])) where
  lexemes := by simp only [Phrase.lexemes, writes.lexemes]
  value := writes.value
  readable := writes.readable_group
  opens := writes.opens_group

theorem Writes.call {word : String} (operation : isConditionalWord word = false) :
    (Phrase.call word operation (.expression inner)).Writes (.call word node)
      (⟨.keyword, word⟩ :: .bare .openParen :: (text ++ [.bare .closeParen])) where
  lexemes := by simp only [Phrase.lexemes, writes.lexemes]
  value := congrArg (Node.call word) writes.value
  readable := List.forall_mem_cons.mpr ⟨by rintro ⟨⟩, writes.readable_group⟩
  opens := by
    intro opened more
    have inside := writes.opens_group opened more
    rw [List.cons_append, openMost]
    simp only [List.cons_append, inside, nesting]
    omega

end

/-- What is written derives from the grammar. -/
theorem derives_of_written {spare : Bool} {least : Nat}
    (written : WrittenAs spare least node text) : Derives node text least := by
  induction written with
  | @number least text value denotes =>
    refine .of_primary (p := .number text) (.of_lexeme rfl ?_ ?_ rfl fun _ _ => rfl) least
    · simp [Phrase.value, denotes]
    · exact fun _ => by simp [denotes]
  | var name =>
    exact .of_primary (p := .var name) (.of_lexeme rfl rfl (by rintro ⟨⟩) rfl fun _ _ => rfl) _
  | head conditional =>
    exact .of_primary (p := .head _ conditional)
      (.of_lexeme rfl rfl (by rintro ⟨⟩) rfl fun _ _ => rfl) _
  | call operation inner ih =>
    obtain ⟨first, joins, writes⟩ := ih
    exact .of_primary (writes.call operation) _
  | @operation least op left right first second joins strong before behind ih ih' =>
    obtain ⟨rank, member⟩ := Operator.exists_rank joins
    have same := Precedence.strength_eq member
    rw [← same] at ih ih' strong
    obtain ⟨operand, writes⟩ := ih'.exists_operand
    have all := (Derives.strength_iff.mp ih).operation member writes
    exact (Derives.strength_iff.mpr all).mono strong
  | group needed inner ih =>
    obtain ⟨first, joins, writes⟩ := ih
    exact .of_primary writes.group _

end Phrase

/-- Every expression can be written with no more parentheses than it needs. -/
theorem IsExpression.exists_written {node : Node} (is : IsExpression node) (least : Nat)
    (low : least ≤ 4) : ∃ text, WrittenAs false least node text := by
  induction is generalizing least with
  | number denotes => exact ⟨_, .number denotes⟩
  | var name => exact ⟨_, .var name⟩
  | head conditional => exact ⟨_, .head conditional⟩
  | call operation inner ih =>
    obtain ⟨text, written⟩ := ih 0 (Nat.zero_le _)
    exact ⟨_, .call operation written⟩
  | @operation op left right joins _ _ ih ih' =>
    have bound : op.strength + 1 ≤ 4 := by cases op <;> decide
    obtain ⟨first, before⟩ := ih op.strength (Nat.le_of_succ_le bound)
    obtain ⟨second, behind⟩ := ih' (op.strength + 1) bound
    by_cases strong : least ≤ op.strength
    · exact ⟨_, .operation joins strong before behind⟩
    · have weak : (Node.operation op left right).strength < least := Nat.lt_of_not_le strong
      exact ⟨_, .group (.inr weak) (.operation joins (Nat.zero_le _) before behind)⟩

theorem Category.ends_of_tokens {after : List Token}
    (apart : ∀ token ∈ after.head?, ∀ op ≠ .assign, token.kind ≠ .operator op) :
    Category.Ends .expression (lexemes after) := by
  intro op member same
  cases after with
  | nil => cases same
  | cons token rest =>
    have joins : op ≠ .assign := by
      rintro rfl
      exact absurd member (by decide)
    by_cases ends : token.kind = .endOfInput
    · simp [lexemes, ends] at same
    · rw [lexemes_cons ends] at same
      refine apart token rfl op joins ?_
      exact congrArg Lexeme.kind (Option.some.inj same)

theorem Input.rest_length (before more : List Token) (limit : Nat) :
    Input.rest ⟨(before ++ more).toArray, limit⟩ before.length = lexemes more := by
  simp [rest]

/-- Every expression can be written with no more parentheses than it needs. However it is
written, so or with spare ones, the tokens of it are read back as the tree, wherever they stand
and whatever follows but an operator, if there is a level of nesting for it and for each
parenthesis that is open at once. What is owed and the depth are as before. -/
theorem expression_of_written :
    (∀ node, IsExpression node → ∃ text, WrittenAs false 0 node text) ∧
    ∀ (spare : Bool) (node : Node) (before written after : List Token) (limit : Nat) (s : State),
      WrittenAs spare 0 node (written.map Token.lexeme) → s.cursor = before.length →
      openMost 1 (written.map Token.lexeme) ≤ limit - s.depth →
      (∀ token ∈ after.head?, ∀ op ≠ .assign, token.kind ≠ .operator op) →
      ∃ events, Rule.expression.runFrom ⟨(before ++ written ++ after).toArray, limit⟩ s =
        (.ok node, { s with cursor := s.cursor + written.length, events := events }) := by
  refine ⟨fun node is => is.exists_written 0 (Nat.zero_le _), ?_⟩
  intro spare node before written after limit s writes start room apart
  obtain ⟨first, joins, derives⟩ := Phrase.derives_of_written writes
  let p : Phrase .expression := .expression (.joined first (Phrase.row joins))
  have text : p.lexemes = written.map Token.lexeme := derives.lexemes
  have deep : p.nesting = openMost 1 (written.map Token.lexeme) := by
    have opens := derives.opens 1 []
    rw [List.append_nil] at opens
    rw [opens, Nat.add_comm]
    exact (Nat.max_eq_left (Nat.le_add_left 1 _)).symm
  have proper : ∀ token ∈ written, token.kind ≠ .endOfInput := by
    intro token member
    have inside : token.lexeme ∈ p.lexemes := by
      rw [text]
      exact List.mem_map_of_mem member
    exact (p.spelled _ inside).1
  have here : Input.rest ⟨(before ++ written ++ after).toArray, limit⟩ s.cursor =
      p.lexemes ++ lexemes after := by
    rw [start, List.append_assoc, Input.rest_length, lexemes_append proper, text]
  have there : Input.rest ⟨(before ++ written ++ after).toArray, limit⟩
      (s.cursor + written.length) = lexemes after := by
    rw [start, ← List.length_append, Input.rest_length]
  have reading : Reading ⟨(before ++ written ++ after).toArray, limit⟩ ⟨s.cursor, s.depth⟩
      ⟨s.cursor + written.length, s.depth⟩ p.lexemes p.nesting := by
    refine ⟨by rw [here, there], by rw [text, List.length_map], rfl, ?_, ?_⟩
    · rw [deep]
      exact room
    · rw [text]
      exact derives.readable
  have ends : Category.Ends .expression (Input.rest ⟨(before ++ written ++ after).toArray, limit⟩
      (s.cursor + written.length)) := by
    rw [there]
    exact Category.ends_of_tokens apart
  obtain ⟨events, run⟩ := p.follows.expression s _ reading ends
  have value : p.value = node := derives.value
  rw [value] at run
  exact ⟨events, run⟩

/-- A product in front of a difference in parentheses, between a sign and a semicolon. -/
theorem expression_of_written_product :
    let before : List Token := [.detached (.operator .assign) "="]
    let written : List Token := [.detached .identifier "x", .detached (.operator .mul) "*",
      .detached .openParen "(", .detached .number "1", .detached (.operator .sub) "-",
      .detached .identifier "y", .detached .closeParen ")"]
    let after : List Token := [.detached .semicolon ";"]
    let tree : Node := .operation .mul (.var "x")
      (.operation .sub (.number ⟨0x3FF0000000000000⟩) (.var "y"))
    WrittenAs false 0 tree (written.map Token.lexeme) ∧
      openMost 1 (written.map Token.lexeme) ≤ 4 - 2 ∧
      ∃ events, Rule.expression.runFrom ⟨(before ++ written ++ after).toArray, 4⟩ ⟨1, 3, 2, []⟩ =
        (.ok tree, ⟨8, 3, 2, events⟩) := by
  intro before written after tree
  have one : Binary64.ofText? "1" = some ⟨0x3FF0000000000000⟩ := by decide +kernel
  have difference :
      WrittenAs false 0 (.operation .sub (.number ⟨0x3FF0000000000000⟩) (.var "y")) _ :=
    .operation (by decide) (by decide) (.number one) (.var "y")
  have writes : WrittenAs false 0 tree (written.map Token.lexeme) :=
    .operation (by decide) (by decide) (.var "x") (.group (.inr (by decide)) difference)
  have room : openMost 1 (written.map Token.lexeme) ≤ 4 - 2 := by decide
  have apart : ∀ token ∈ after.head?, ∀ op ≠ .assign, token.kind ≠ .operator op := by
    rintro token ⟨⟩ op -
    simp [Token.detached]
  exact ⟨writes, room,
    expression_of_written.2 false tree before written after 4 ⟨1, 3, 2, []⟩ writes rfl room apart⟩

end LinkedScopes
