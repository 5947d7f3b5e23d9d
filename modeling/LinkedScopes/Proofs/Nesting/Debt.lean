import LinkedScopes.Proofs.Grammar.Completeness
import LinkedScopes.Proofs.Grammar.Soundness
import LinkedScopes.Proofs.Grammar.Uniqueness
import LinkedScopes.Proofs.Nesting.Tally
import LinkedScopes.Proofs.Rule.Built

/-! Debt is conserved. Whatever state a rule starts from, the closes it places and those it
leaves owed are those it found owed and one for each scope it has read. -/
namespace LinkedScopes

/-- The scopes of a phrase. The braces of a body are none. -/
def Phrase.scopes : {c : Category} → Phrase c → Nat
  | _, number _ | _, var _ | _, head _ _ => 0
  | _, call _ _ argument => argument.scopes
  | _, group inner => inner.scopes
  | _, product inner | _, power inner | _, primary inner => inner.scopes
  | _, joined first joins => first.scopes + joins.scopes
  | _, join _ _ right => right.scopes
  | _, expression inner => inner.scopes
  | _, assignment _ value => value.scopes
  | _, conditional _ _ condition body => condition.scopes + body.scopes
  | _, single inner => inner.scopes
  | _, block first others => first.scopes + others.scopes
  | _, assigned inner => inner.scopes
  | _, conditioned inner => inner.scopes
  | _, scope first others => first.scopes + others.scopes + 1
  | _, plain inner | _, enclosed inner => inner.scopes
  | _, none => 0
  | _, more first others => first.scopes + others.scopes

def Category.scopes : (c : Category) → c.Value → Nat
  | .scope, item | .one .element, item => item.scopes
  | .many .element, items => Item.scopesOf items
  | _, _ => 0

theorem Phrase.scopes_eq {c : Category} (p : Phrase c) : p.scopes = c.scopes p.value := by
  induction p with
  | number | var | head => rfl
  | call _ _ _ ih | group _ ih | product _ ih | power _ ih | primary _ ih | join _ _ _ ih
  | expression _ ih | assignment _ _ ih | single _ ih | assigned _ ih | conditioned _ ih
  | plain _ ih | enclosed _ ih => exact ih
  | joined _ _ ih ihs | conditional _ _ _ _ ih ihs | block _ _ ih ihs =>
    rw [scopes, ih, ihs]
    rfl
  | scope _ _ ih ihs =>
    rw [scopes, ih, ihs]
    rfl
  | @none what => cases what <;> rfl
  | @more what _ _ ih ihs =>
    rw [scopes, ih, ihs]
    cases what <;> rfl

/-- A rule has read a phrase from one state to another, and nothing else can be read there. It
has opened a scope for each that it has read. The closes it has placed in the tree and left owed
are those it found owed and one for each scope it has opened. -/
structure Conserved {c : Category} (input : Input) (s t : State) (tally : Marker → Nat)
    (p : Phrase c) : Prop where
  reading : Reading input s.place t.place p.lexemes p.nesting
  only : ∀ q : Phrase c, q.lexemes = p.lexemes → q = p
  opens : tally .scopeOpen = p.scopes
  closes : tally .scopeClose + t.debt = s.debt + tally .scopeOpen

namespace Rule

variable {input : Input}

theorem AcceptsItem.conserved {rule : Rule Chain} {c : Category} {item : Phrase c → Item}
    (accepts : AcceptsItem input rule c item) (ends : c.Ends [])
    (formed : ∀ p, (item p).Formed IsCommand) (scopes : ∀ p, (item p).scopes = p.scopes)
    {s t : State} {chain : Chain} (run : rule.runFrom input s = (.ok chain, t)) :
    ∃ p : Phrase c, Conserved input s t (Chain.tally · chain) p ∧ t.debt = (item p).ending := by
  obtain ⟨p, reading, rfl, debt⟩ := accepts _ _ _ run
  obtain ⟨opens, closes⟩ := (formed p).tallied s.debt
  refine ⟨p, ⟨reading, ?_, ?_, ?_⟩, debt.trans (formed p).debt_eq_ending⟩
  · intro q same
    exact Phrase.eq_of_lexemes_eq same ends
  · rw [opens, scopes]
  · rw [debt, opens, closes]

theorem command_conserved {s t : State} {chain : Chain}
    (run : command.runFrom input s = (.ok chain, t)) :
    ∃ p : Phrase (.one .command), Conserved input s t (Chain.tally · chain) p ∧ t.debt = 0 :=
  command_accepts.conserved trivial (fun p => .command p.value_valid) (fun p => p.scopes_eq.symm)
    run

theorem scope_conserved {s t : State} {chain : Chain}
    (run : scope.runFrom input s = (.ok chain, t)) :
    ∃ p : Phrase .scope, Conserved input s t (Chain.tally · chain) p ∧
      t.debt = p.value.ending :=
  (scopeOf_accepts element_accepts).conserved trivial (fun p => p.value_valid)
    (fun p => p.scopes_eq.symm) run

theorem element_conserved {s t : State} {chain : Chain}
    (run : element.runFrom input s = (.ok chain, t)) :
    ∃ p : Phrase (.one .element), Conserved input s t (Chain.tally · chain) p ∧
      t.debt = p.value.ending :=
  element_accepts.conserved trivial (fun p => p.value_valid) (fun p => p.scopes_eq.symm) run

/-- The closes owed before a conditional by itself are placed in its body. -/
theorem conditional_conserved {s t : State} {node : Node}
    (run : conditional.runFrom input s = (.ok node, t)) :
    ∃ p : Phrase .conditional, Conserved input s t (Node.tally · node) p ∧ t.debt = 0 := by
  obtain ⟨p, reading, rfl, debt⟩ := conditionalOf_accepts command_accepts _ _ _ run
  have only : ∀ q : Phrase .conditional, q.lexemes = p.lexemes → q = p :=
    fun q same => Phrase.eq_of_lexemes_eq same
  have none : p.scopes = 0 := p.scopes_eq
  cases p with
  | conditional word conditional condition body =>
    have is : IsExpression condition.value := condition.value_valid
    obtain ⟨some, each⟩ := body.value_valid
    have opens := tally_conditional (show Marker.scopeOpen ≠ .statement by simp) word is some each
      s.debt
    have closes := tally_conditional (show Marker.scopeClose ≠ .statement by simp) word is some
      each s.debt
    refine ⟨_, ⟨reading, only, ?_, ?_⟩, debt⟩
    · rw [none]
      exact opens
    · rw [debt]
      exact closes.trans (congrArg (s.debt + ·) opens).symm

end Rule

def debtFreeRules : List (Rule Node) :=
  [Rule.expression, Rule.term, Rule.power, Rule.primary, Rule.identifier, Rule.assignment]

theorem debtFree_of_mem {rule : Rule Node} (member : rule ∈ debtFreeRules) : rule.DebtFree := by
  have expression := Rule.DebtFree.expression
  simp only [debtFreeRules, List.mem_cons, List.not_mem_nil, or_false] at member
  rcases member with rfl | rfl | rfl | rfl | rfl | rfl
  · exact expression
  · exact expression.termOf
  · exact expression.powerOf
  · exact expression.primaryOf
  · exact .identifier
  · exact .assignment

/-- Debt is conserved by every rule from every state. A command and a conditional leave none, a
scope leaves what ends with it, and expressions and assignments leave it as it was, however they
end. A program leaves none, and its chain opens one scope more than it closes if it is a scope,
and opens and closes none if it is a command. -/
theorem debt_conserved (input : Input) :
    (∀ s chain t, Rule.command.runFrom input s = (.ok chain, t) →
      ∃ p : Phrase (.one .command), Conserved input s t (Chain.tally · chain) p ∧ t.debt = 0) ∧
    (∀ s chain t, Rule.element.runFrom input s = (.ok chain, t) →
      ∃ p : Phrase (.one .element), Conserved input s t (Chain.tally · chain) p) ∧
    (∀ s chain t, Rule.scope.runFrom input s = (.ok chain, t) →
      ∃ p : Phrase .scope, Conserved input s t (Chain.tally · chain) p ∧
        t.debt = p.value.ending) ∧
    (∀ s node t, Rule.conditional.runFrom input s = (.ok node, t) →
      ∃ p : Phrase .conditional, Conserved input s t (Node.tally · node) p ∧ t.debt = 0) ∧
    (∀ rule ∈ debtFreeRules, ∀ s, (rule.runFrom input s).2.debt = s.debt) ∧
    ∀ tokens limit chain t, parse tokens limit = (.ok chain, t) → t.debt = 0 ∧
      ∃ p : Phrase (.one .element), p.lexemes = lexemes tokens ∧
        (∀ q : Phrase (.one .element), q.lexemes = lexemes tokens → q = p) ∧
        (∀ inner, p = .enclosed inner →
          chain.tally .scopeOpen = chain.tally .scopeClose + 1) ∧
        ∀ inner, p = .plain inner →
          chain.tally .scopeOpen = 0 ∧ chain.tally .scopeClose = 0 := by
  refine ⟨?_, ?_, ?_, ?_, ?_, ?_⟩
  · intro s chain t run
    exact Rule.command_conserved run
  · intro s chain t run
    obtain ⟨p, conserved, -⟩ := Rule.element_conserved run
    exact ⟨p, conserved⟩
  · intro s chain t run
    exact Rule.scope_conserved run
  · intro s node t run
    exact Rule.conditional_conserved run
  · intro rule member s
    exact (debtFree_of_mem member).debt_eq input s
  · intro tokens limit chain t run
    obtain ⟨p, derives, -, -, rfl, -, debt⟩ := parse_accepts run
    refine ⟨debt, p, derives.symm, ?_, ?_, ?_⟩
    · intro q same
      exact Phrase.eq_of_lexemes_eq (same.trans derives)
    · rintro inner rfl
      cases inner with
      | scope first others => exact Item.tally_program_scope (Phrase.scope first others).value_valid
    · rintro inner rfl
      have is : IsCommand inner.value := inner.value_valid
      constructor
      · exact Item.tally_program_command is (by simp)
      · exact Item.tally_program_command is (by simp)

/-- A scope that finds two closes owed places them and leaves its own. -/
theorem debt_conserved_inherited :
    let input : Input := ⟨#[.detached .openCurly "\x7b", .detached .identifier "x",
      .detached (.operator .assign) "=", .detached .identifier "y", .detached .semicolon ";",
      .detached .closeCurly "\x7d"], 2⟩
    ∃ chain t, Rule.element.runFrom input ⟨0, 2, 0, []⟩ = (.ok chain, t) ∧ t.debt = 1 ∧
      chain.tally .scopeClose + 1 = 2 + chain.tally .scopeOpen := by
  intro input
  let program : Phrase (.one .element) := .enclosed (.scope (.plain (.copy "x" "y")) .none)
  have reading : Reading input ⟨0, 0⟩ ⟨6, 0⟩ program.lexemes program.nesting :=
    ⟨by decide, rfl, rfl, by decide, by decide⟩
  obtain ⟨events, run⟩ := program.element_readFrom ⟨0, 2, 0, []⟩ _ reading trivial
  obtain ⟨-, element, -⟩ := debt_conserved input
  obtain ⟨p, conserved⟩ := element _ _ _ run
  exact ⟨_, _, run, rfl, conserved.closes⟩

end LinkedScopes
