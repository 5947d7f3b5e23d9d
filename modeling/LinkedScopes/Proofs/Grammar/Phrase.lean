import LinkedScopes.Proofs.Grammar.Lexeme
import LinkedScopes.Proofs.Nesting.Item

/-! The grammar. A phrase is a derivation: its type names the category that is derived,
each constructor is one production, and the lexemes of a phrase are what it derives. A
phrase also says what it stands for in a program and how deep it nests, without a word on
how it is found by reading.

Operators bind in three levels, and a phrase of a level joins operands of the next
tighter one. Groups, arguments, conditions and assigned values are whole expressions. -/
namespace LinkedScopes

/-- The levels of operators, the loosest first. -/
inductive Precedence where
  | sum | product | power
deriving DecidableEq

namespace Precedence

def operators : Precedence → List Operator
  | sum => [.add, .sub]
  | product => [.mul, .div]
  | power => [.pow]

/-- The operators of this level and of all tighter ones. -/
def binding : Precedence → List Operator
  | sum => [.add, .sub, .mul, .div, .pow]
  | product => [.mul, .div, .pow]
  | power => [.pow]

/-- The operators of the tighter levels, which an operand may contain. -/
def tighter : Precedence → List Operator
  | sum => product.binding
  | product => power.binding
  | power => []

theorem mem_binding_iff {p : Precedence} {op : Operator} :
    op ∈ p.binding ↔ op ∈ p.operators ∨ op ∈ p.tighter := by
  cases p <;> cases op <;> decide

theorem not_mem_tighter {p : Precedence} {op : Operator} (member : op ∈ p.operators) :
    op ∉ p.tighter := by
  cases p <;> cases op <;> revert member <;> decide

end Precedence

/-- What may stand any number of times in a row. -/
inductive Repeated where
  | join (level : Precedence)
  | command
  | element

inductive Category where
  | primary
  | operand (level : Precedence)
  | level (level : Precedence)
  | expression
  | assignment
  | conditional
  | body
  | scope
  | one (what : Repeated)
  | many (what : Repeated)

inductive Phrase : Category → Type where
  | number (text : String) : Phrase .primary
  | var (name : String) : Phrase .primary
  | head (word : String) (conditional : isConditionalWord word = true) : Phrase .primary
  | call (word : String) (operation : isConditionalWord word = false)
      (argument : Phrase .expression) : Phrase .primary
  | group (inner : Phrase .expression) : Phrase .primary
  | product (inner : Phrase (.level .product)) : Phrase (.operand .sum)
  | power (inner : Phrase (.level .power)) : Phrase (.operand .product)
  | primary (inner : Phrase .primary) : Phrase (.operand .power)
  | joined {level : Precedence} (first : Phrase (.operand level))
      (joins : Phrase (.many (.join level))) : Phrase (.level level)
  | join {level : Precedence} (op : Operator) (member : op ∈ level.operators)
      (right : Phrase (.operand level)) : Phrase (.one (.join level))
  | expression (inner : Phrase (.level .sum)) : Phrase .expression
  | assignment (target : String) (value : Phrase .expression) : Phrase .assignment
  | conditional (word : String) (conditional : isConditionalWord word = true)
      (condition : Phrase .expression) (body : Phrase .body) : Phrase .conditional
  | single (inner : Phrase (.one .command)) : Phrase .body
  | block (first : Phrase (.one .command)) (others : Phrase (.many .command)) : Phrase .body
  | assigned (inner : Phrase .assignment) : Phrase (.one .command)
  | conditioned (inner : Phrase .conditional) : Phrase (.one .command)
  | scope (first : Phrase (.one .element)) (others : Phrase (.many .element)) : Phrase .scope
  | plain (inner : Phrase (.one .command)) : Phrase (.one .element)
  | enclosed (inner : Phrase .scope) : Phrase (.one .element)
  | none {what : Repeated} : Phrase (.many what)
  | more {what : Repeated} (first : Phrase (.one what)) (others : Phrase (.many what)) :
      Phrase (.many what)

namespace Phrase

def copy (target source : String) : Phrase (.one .command) :=
  .assigned (.assignment target (.expression (.joined (.product (.joined (.power
    (.joined (.primary (.var source)) .none)) .none)) .none)))

/-- What a phrase derives. -/
def lexemes : {c : Category} → Phrase c → List Lexeme
  | _, number text => [⟨.number, text⟩]
  | _, var name => [⟨.identifier, name⟩]
  | _, head word _ => [⟨.keyword, word⟩]
  | _, call word _ argument =>
    ⟨.keyword, word⟩ :: .bare .openParen :: (argument.lexemes ++ [.bare .closeParen])
  | _, group inner => .bare .openParen :: (inner.lexemes ++ [.bare .closeParen])
  | _, product inner | _, power inner | _, primary inner => inner.lexemes
  | _, joined first joins => first.lexemes ++ joins.lexemes
  | _, join op _ right => .operator op :: right.lexemes
  | _, expression inner => inner.lexemes
  | _, assignment target value => ⟨.identifier, target⟩ :: .operator .assign :: value.lexemes
  | _, conditional word _ condition body =>
    ⟨.keyword, word⟩ :: .bare .openParen ::
      (condition.lexemes ++ .bare .closeParen :: body.lexemes)
  | _, single inner => inner.lexemes
  | _, block first others =>
    .bare .openCurly :: (first.lexemes ++ others.lexemes ++ [.bare .closeCurly])
  | _, assigned inner => inner.lexemes ++ [.bare .semicolon]
  | _, conditioned inner => inner.lexemes
  | _, scope first others =>
    .bare .openCurly :: (first.lexemes ++ others.lexemes ++ [.bare .closeCurly])
  | _, plain inner | _, enclosed inner => inner.lexemes
  | _, none => []
  | _, more first others => first.lexemes ++ others.lexemes

/-- How many levels are open at once at the deepest place. Expressions, conditionals and
scopes count; chains of operators and rows of commands do not. -/
def nesting : {c : Category} → Phrase c → Nat
  | _, number _ | _, var _ | _, head _ _ => 0
  | _, call _ _ argument => argument.nesting
  | _, group inner => inner.nesting
  | _, product inner | _, power inner | _, primary inner => inner.nesting
  | _, joined first joins => max first.nesting joins.nesting
  | _, join _ _ right => right.nesting
  | _, expression inner => inner.nesting + 1
  | _, assignment _ value => value.nesting
  | _, conditional _ _ condition body => max condition.nesting body.nesting + 1
  | _, single inner => inner.nesting
  | _, block first others => max first.nesting others.nesting
  | _, assigned inner => inner.nesting
  | _, conditioned inner => inner.nesting
  | _, scope first others => max first.nesting others.nesting + 1
  | _, plain inner | _, enclosed inner => inner.nesting
  | _, none => 0
  | _, more first others => max first.nesting others.nesting

end Phrase

def Category.starts : Category → List Kind
  | .primary | .operand _ | .level _ | .expression => [.number, .identifier, .keyword, .openParen]
  | .assignment => [.identifier]
  | .conditional => [.keyword]
  | .scope => [.openCurly]
  | .one .command | .many .command => [.identifier, .keyword]
  | .body | .one .element | .many .element => [.identifier, .keyword, .openCurly]
  | .one (.join rank) | .many (.join rank) => rank.operators.map .operator

/-- A phrase starts as its category does, unless it is an empty row. -/
def Phrase.Started (c : Category) (lexemes : List Lexeme) : Prop :=
  match lexemes with
  | [] => ∃ what, c = .many what
  | first :: _ => first.kind ∈ c.starts

theorem Phrase.Started.append {c d : Category} {lexemes more : List Lexeme}
    (h : Started c lexemes) (wider : c.starts ⊆ d.starts)
    (solid : ∀ what, c ≠ .many what) : Started d (lexemes ++ more) := by
  cases lexemes with
  | nil =>
    obtain ⟨what, row⟩ := h
    exact absurd row (solid what)
  | cons first others => exact wider h

theorem Phrase.started {c : Category} (p : Phrase c) : Started c p.lexemes := by
  induction p with
  | number | var | head | call | group | block | scope | assignment | conditional =>
    simp [lexemes, Started, Category.starts]
  | join op member => simp [lexemes, Started, Category.starts, member]
  | none => exact ⟨_, rfl⟩
  | product _ ih | power _ ih | primary _ ih | expression _ ih | single _ ih | conditioned _ ih
  | plain _ ih | enclosed _ ih =>
    rw [lexemes, ← List.append_nil (lexemes _)]
    exact ih.append (by simp [Category.starts]) (by simp)
  | joined _ _ ih | assigned _ ih =>
    exact ih.append (by simp [Category.starts]) (by simp)
  | @more what _ _ ih =>
    exact ih.append (by cases what <;> simp [Category.starts]) (by simp)

theorem Phrase.exists_cons {c : Category} (p : Phrase c)
    (solid : ∀ what, c ≠ .many what) :
    ∃ first others, p.lexemes = first :: others ∧ first.kind ∈ c.starts := by
  have started := p.started
  cases spelled : p.lexemes with
  | nil =>
    rw [spelled] at started
    obtain ⟨what, row⟩ := started
    exact absurd row (solid what)
  | cons first others =>
    rw [spelled] at started
    exact ⟨first, others, rfl, started⟩

theorem Phrase.length_pos {c : Category} (p : Phrase c)
    (solid : ∀ what, c ≠ .many what) : 0 < p.lexemes.length := by
  obtain ⟨first, others, spelled, -⟩ := p.exists_cons solid
  rw [spelled]
  exact Nat.succ_pos _

/-- What may follow a phrase of a category: no operator that a rule would take for one of
its own, and the closing brace after a row of commands or elements. -/
def Category.Ends (c : Category) (more : List Lexeme) : Prop :=
  match c with
  | .operand rank | .one (.join rank) => ∀ op ∈ rank.tighter, more.head? ≠ some (.operator op)
  | .level rank | .many (.join rank) => ∀ op ∈ rank.binding, more.head? ≠ some (.operator op)
  | .expression | .assignment =>
    ∀ op ∈ Precedence.sum.binding, more.head? ≠ some (.operator op)
  | .many .command | .many .element => more.head? = some (.bare .closeCurly)
  | _ => True

namespace Category

variable {more : List Lexeme} {rank : Precedence}

theorem ends_expression {kind : Kind} (plain : ∀ op, kind ≠ .operator op) :
    Ends .expression (.bare kind :: more) := by
  intro op _ same
  exact plain op (congrArg Lexeme.kind (Option.some.inj same))

theorem ends_closing : Ends .expression (.bare .closeParen :: more) := ends_expression (by simp)

theorem ends_semicolon : Ends .assignment (.bare .semicolon :: more) := by
  intro op _ same
  cases same

theorem ends_commands : Ends (.many .command) (.bare .closeCurly :: more) := rfl

theorem ends_elements : Ends (.many .element) (.bare .closeCurly :: more) := rfl

theorem ends_command (more : List Lexeme) : Ends (.one .command) more := trivial

theorem ends_element (more : List Lexeme) : Ends (.one .element) more := trivial

theorem ends_commands_iff (more : List Lexeme) :
    Ends (.many .command) more ↔ more.head? = some (.bare .closeCurly) := Iff.rfl

theorem ends_elements_iff (more : List Lexeme) :
    Ends (.many .element) more ↔ more.head? = some (.bare .closeCurly) := Iff.rfl

theorem ends_operand (joins : Phrase (.many (.join rank))) (h : Ends (.level rank) more) :
    Ends (.operand rank) (joins.lexemes ++ more) := by
  intro op tighter same
  have started := joins.started
  cases joined : joins.lexemes with
  | nil =>
    rw [joined] at same
    exact h op (Precedence.mem_binding_iff.mpr (.inr tighter)) same
  | cons first others =>
    rw [joined] at same started
    obtain rfl : first = .operator op := Option.some.inj same
    obtain ⟨own, member, is⟩ := List.mem_map.mp started
    cases is
    exact Precedence.not_mem_tighter member tighter

end Category

def Node.joined (first : Node) (joins : List (Operator × Node)) : Node :=
  joins.foldl (fun left (op, right) => .operation op left right) first

abbrev Repeated.Value : Repeated → Type
  | .join _ => Operator × Node
  | .command => Node
  | .element => Item

/-- What a phrase stands for. A conditional by itself depends on the closes owed before it,
which the first command of its body places. -/
abbrev Category.Value : Category → Type
  | .primary | .operand _ | .level _ | .expression | .assignment => Node
  | .conditional => Nat → Node
  | .body => List Node
  | .scope => Item
  | .one what => what.Value
  | .many what => List what.Value

namespace Phrase

/-- The meaning of a phrase. A number whose text denotes none counts as zero. -/
def value : {c : Category} → Phrase c → c.Value
  | _, number text => Node.number ((Binary64.ofText? text).getD ⟨0⟩)
  | _, var name => Node.var name
  | _, head word _ => Node.head word
  | _, call word _ argument => Node.call word argument.value
  | _, group inner => inner.value
  | _, product inner => inner.value
  | _, power inner => inner.value
  | _, primary inner => inner.value
  | _, joined first joins => Node.joined first.value joins.value
  | _, join op _ right => (op, right.value)
  | _, expression inner => inner.value
  | _, assignment target value => Node.assignment target value.value
  | _, conditional word _ condition body => fun owed =>
    Node.conditional word condition.value (bodyChain owed body.value)
  | _, single inner => [inner.value]
  | _, block first others => List.cons first.value others.value
  | _, assigned inner => inner.value
  | _, conditioned inner => inner.value 0
  | _, scope first others => Item.scope (first.value :: others.value)
  | _, plain inner => Item.command inner.value
  | _, enclosed inner => inner.value
  | _, none => []
  | _, more first others => List.cons first.value others.value

section

variable {what : Repeated} {α : Type} (item : what.Value → α)

@[simp] theorem map_value_none : List.map item (none : Phrase (.many what)).value = [] := rfl

@[simp] theorem map_value_more (first : Phrase (.one what)) (others : Phrase (.many what)) :
    List.map item (more first others).value =
      item first.value :: List.map item others.value := rfl

end

end Phrase
end LinkedScopes
