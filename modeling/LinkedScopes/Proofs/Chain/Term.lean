import LinkedScopes.Chain.Term
import LinkedScopes.Proofs.Binary64.Numeral
import LinkedScopes.Proofs.Nesting.Shape
import LinkedScopes.Proofs.Text.Quoted

/-! What the terms of expressions tell. A term names everything there is to an expression
but the numbers, which it gives by their written form; so two expressions have one term
exactly if they differ at most in numbers that are written alike. -/
namespace LinkedScopes

open Text

mutual

/-- The same tree, if numbers that are written alike are taken for the same. -/
def Node.Alike : Node → Node → Prop
  | .number x, .number y => x.term = y.term
  | .var a, .var b => a = b
  | .operation f a b, .operation g c d => f = g ∧ a.Alike c ∧ b.Alike d
  | .head a, .head b => a = b
  | .call f a, .call g b => f = g ∧ a.Alike b
  | .conditional f a c, .conditional g b d => f = g ∧ a.Alike b ∧ chainAlike c d
  | .assignment a x, .assignment b y => a = b ∧ x.Alike y
  | _, _ => False
termination_by structural a => a

def commandAlike : Option Node → Option Node → Prop
  | none, none => True
  | some a, some b => a.Alike b
  | _, _ => False
termination_by structural a => a

def Link.Alike : Link → Link → Prop
  | ⟨m, a⟩, ⟨n, b⟩ => m = n ∧ commandAlike a b
termination_by structural a => a

def chainAlike : List Link → List Link → Prop
  | [], [] => True
  | a :: as, b :: bs => a.Alike b ∧ chainAlike as bs
  | _, _ => False
termination_by structural a => a

end

def Chain.Alike (a b : Chain) : Prop := chainAlike a b

theorem Operator.told_term (f g : Operator) : Told (f = g) f.term g.term := by
  intro r s equal
  cases f <;> cases g <;> simp [Operator.term] at equal ⊢ <;> exact equal

theorem Operator.flat_term (op : Operator) : Flat op.term := by
  cases op <;> decide

theorem Marker.told_term (m n : Marker) : Told (m = n) m.term n.term := by
  intro r s equal
  cases m <;> cases n <;> simp [Marker.term, Marker.tag, Tag.term] at equal ⊢ <;> exact equal

theorem Marker.flat_term (m : Marker) : Flat m.term := by
  cases m <;> decide

theorem Binary64.told_number (x y : Binary64) :
    Told (x.term = y.term) (applied "Number" [x.term]) (applied "Number" [y.term]) := by
  have unclosed (z : Binary64) : ')' ∉ z.term.toList :=
    fun member => absurd (z.numerals_term ')' member) (by decide)
  exact told_applied (unclosed x) (unclosed y) "Number"

theorem Binary64.flat_term (x : Binary64) : Flat x.term :=
  fun member => absurd (x.numerals_term '\n' member) (by decide)

def Node.initial : Node → Char
  | .number _ => 'N'
  | .var _ => 'V'
  | .operation _ _ _ => 'O'
  | .head _ => 'K'
  | .call _ _ | .conditional _ _ _ => 'C'
  | .assignment _ _ => 'A'

theorem Node.head?_term (node : Node) : node.term.toList.head? = some node.initial := by
  cases node <;> simp [Node.term, Node.initial, applied, labelled]

theorem Node.told_of_initial_ne {P : Prop} {a b : Node} (differ : a.initial ≠ b.initial) :
    Told P a.term b.term :=
  told_of_head_ne a.head?_term b.head?_term differ

theorem IsExpression.told_term {a b : Node} (is : IsExpression a) (is' : IsExpression b) :
    Told (a.Alike b) a.term b.term := by
  induction is generalizing b with
  | @number _ x denotes =>
    cases is' with
    | @number _ y denotes' => exact Binary64.told_number x y
    | _ => exact Node.told_of_initial_ne (by simp [Node.initial])
  | var name =>
    cases is' with
    | var name' => exact (told_quoted name name').applied "Variable"
    | _ => exact Node.told_of_initial_ne (by simp [Node.initial])
  | @operation op left right joins first second ih ih' =>
    cases is' with
    | @operation op' left' right' joins' first' second' =>
      exact ((op.told_term op').fields "op"
        ((ih first').fields "lhs" ((ih' second').field "rhs"))).labelled "Operator"
    | _ => exact Node.told_of_initial_ne (by simp [Node.initial])
  | @head word conditional =>
    cases is' with
    | @head word' conditional' => exact (told_quoted word word').applied "Keyword"
    | _ => exact Node.told_of_initial_ne (by simp [Node.initial])
  | @call word argument operation inner ih =>
    cases is' with
    | @call word' argument' operation' inner' =>
      exact ((told_quoted word word').fields "keyword" ((ih inner').field "arg")).labelled "Call"
    | _ => exact Node.told_of_initial_ne (by simp [Node.initial])

theorem IsExpression.term_eq {a b : Node} (is : IsExpression a) (alike : a.Alike b) :
    a.term = b.term := by
  induction is generalizing b with
  | number denotes =>
    cases b with
    | number y => rw [Node.term, Node.term, show _ = _ from alike]
    | _ => exact alike.elim
  | var name =>
    cases b with
    | var name' => rw [show name = name' from alike]
    | _ => exact alike.elim
  | operation joins first second ih ih' =>
    cases b with
    | operation op left right =>
      obtain ⟨rfl, l, r⟩ := alike
      rw [Node.term, Node.term, ih l, ih' r]
    | _ => exact alike.elim
  | head conditional =>
    cases b with
    | head word => rw [show _ = word from alike]
    | _ => exact alike.elim
  | call operation inner ih =>
    cases b with
    | call word argument =>
      obtain ⟨rfl, same⟩ := alike
      rw [Node.term, Node.term, ih same]
    | _ => exact alike.elim

theorem IsExpression.flat_term {a : Node} (is : IsExpression a) : Flat a.term := by
  induction is with
  | @number _ x denotes => exact x.flat_term.applied "Number" (by decide)
  | var name => exact (flat_quoted name).applied "Variable" (by decide)
  | @operation op left right joins first second ih ih' =>
    exact (op.flat_term.fields "op" (by decide) (ih.fields "lhs" (by decide)
      (ih'.field "rhs" (by decide)))).labelled "Operator" (by decide)
  | @head word conditional => exact (flat_quoted word).applied "Keyword" (by decide)
  | @call word argument operation inner ih =>
    exact ((flat_quoted word).fields "keyword" (by decide)
      (ih.field "arg" (by decide))).labelled "Call" (by decide)

end LinkedScopes
