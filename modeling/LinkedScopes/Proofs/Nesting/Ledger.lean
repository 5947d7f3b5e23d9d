import LinkedScopes.Proofs.Journal.Amount
import LinkedScopes.Proofs.Nesting.Debt
import Mathlib.Algebra.GroupWithZero.Nat

/-! The journal as a ledger of closes. Closes are placed where an event tells of them, by a
command, by a scope or at the end, and each scope tells when it ends. A scope also tells what it
keeps aside, and then places just that. So what is told of in a run that succeeds is what stands
in the tree, bodies of conditionals included, whatever was owed or told of before. -/
namespace LinkedScopes

namespace Move

def total (move : Move) (events : List Event) : Nat := (events.filterMap (·.amount? move)).sum

/-- How often there was a move. -/
def times (move : Move) (events : List Event) : Nat := (events.filterMap (·.amount? move)).length

variable {move : Move} {event : Event} {events : List Event}

@[simp] theorem total_cons : move.total (event :: events) =
    (event.amount? move).getD 0 + move.total events := by
  cases amount : event.amount? move <;> simp [total, amount]

@[simp] theorem times_cons : move.times (event :: events) =
    (event.amount? move).toList.length + move.times events := by
  cases amount : event.amount? move <;> simp [times, amount, Nat.add_comm]

@[simp] theorem total_ite {c : Prop} [Decidable c] :
    move.total (if c then event :: events else events) =
      (if c then (event.amount? move).getD 0 else 0) + move.total events := by
  split
  · exact total_cons
  · exact (Nat.zero_add _).symm

@[simp] theorem times_ite {c : Prop} [Decidable c] :
    move.times (if c then event :: events else events) =
      (if c then (event.amount? move).toList.length else 0) + move.times events := by
  split
  · exact times_cons
  · exact (Nat.zero_add _).symm

/-- That nothing is moved need not be told. -/
@[simp] theorem ite_pos_self (closes : Nat) : (if 0 < closes then closes else 0) = closes := by
  split
  · rfl
  · omega

end Move

/-- What events tell has been placed. -/
def placed (events : List Event) : Nat :=
  Move.paying.total events + Move.payingInherited.total events + Move.placing.total events

/-- Between two moments of a run, as many closes have been placed and as many scopes have ended as
said, and what scopes kept aside they have placed. -/
structure Accounted (before after : List Event) (opens closes : Nat) : Prop where
  closes : placed after = placed before + closes
  opens : Move.closed.times after = Move.closed.times before + opens
  kept : Move.holding.total after + Move.payingInherited.total before =
    Move.holding.total before + Move.payingInherited.total after

namespace Accounted

variable {before between after : List Event} {opens closes opens' closes' : Nat}

theorem trans (first : Accounted before between opens closes)
    (second : Accounted between after opens' closes') :
    Accounted before after (opens + opens') (closes + closes') where
  closes := by rw [second.closes, first.closes, Nat.add_assoc]
  opens := by rw [second.opens, first.opens, Nat.add_assoc]
  kept := by
    have before := first.kept
    have behind := second.kept
    omega

theorem behind (first : Accounted before between 0 0)
    (second : Accounted between after opens closes) : Accounted before after opens closes := by
  simpa using first.trans second

theorem of_quiet
    (quiet : ∀ move : Move, after.filterMap (·.amount? move) = before.filterMap (·.amount? move)) :
    Accounted before after 0 0 := by
  constructor <;> simp only [placed, Move.total, Move.times, quiet, Nat.add_zero]

theorem entered (name : RuleName) (token : Token) (events : List Event) :
    Accounted events (.entered name token :: events) 0 0 :=
  of_quiet fun _ => rfl

theorem paying (owed : Nat) (events : List Event) :
    Accounted events (if 0 < owed then .paying owed :: events else events) 0 owed := by
  constructor <;> simp [placed, Event.amount?]
  omega

theorem settle {node : Node} (owed : Nat)
    (told : Accounted before after (node.tally .scopeOpen) (node.tally .scopeClose)) :
    Accounted before (if 0 < owed then .paying owed :: after else after)
      (Chain.tally .scopeOpen (Chain.settle owed node))
      (Chain.tally .scopeClose (Chain.settle owed node)) := by
  simpa [Chain.tally_settle, Nat.add_comm owed] using told.trans (paying owed after)

theorem placing (trailing : Nat) (events : List Event) :
    Accounted events (if 0 < trailing then .placing trailing :: events else events) 0 trailing := by
  constructor <;> simp [placed, Event.amount?]
  omega

/-- A scope tells that it ends, and places what it has kept aside. -/
theorem scope {inherited : Nat} {events : List Event} (owed : Nat)
    (inner : Accounted (if 0 < inherited then .holding inherited :: events else events) after
      opens closes) :
    Accounted events
      (if 0 < inherited then .payingInherited inherited :: .closed owed :: after
        else .closed owed :: after) (opens + 1) (inherited + closes) := by
  obtain ⟨paid, ended, kept⟩ := inner
  simp [placed, Event.amount?] at paid ended kept
  constructor <;> simp [placed, Event.amount?] <;> omega

end Accounted

namespace Rule

variable {α β : Type} {input : Input}

/-- Where nothing is said of what is owed, no move is told of. -/
theorem DebtFree.quiet {rule : Rule α} (free : DebtFree rule) (input : Input) (s : State)
    (move : Move) :
    (rule.runFrom input s).2.events.filterMap (·.amount? move) =
      s.events.filterMap (·.amount? move) := by
  induction free generalizing s with
  | pure | current | advance | fail | exhausted => rfl
  | emit event traced =>
    rw [runFrom_emit, List.filterMap_cons, Event.amount?_of_trace traced]
  | bind first later ih ihs =>
    have here := ih s
    rw [runFrom_bind]
    split
    · next a t run =>
      rw [run] at here
      exact (ihs a t).trans here
    · next halt t run =>
      rw [run] at here
      exact here
  | nested inner ih =>
    rw [runFrom_nested]
    split
    · rfl
    · exact ih { s with depth := s.depth + 1 }
  | bounded each ihs => exact ihs _ s

theorem DebtFree.accounted {rule : Rule α} (free : DebtFree rule) {next : α → Rule β} {s t : State}
    {b : β} (run : (rule >>= next).runFrom input s = (.ok b, t)) :
    ∃ a u, rule.runFrom input s = (.ok a, u) ∧ Accounted s.events u.events 0 0 ∧
      (next a).runFrom input u = (.ok b, t) := by
  obtain ⟨a, u, first, later⟩ := runFrom_bind_ok_iff.mp run
  refine ⟨a, u, first, .of_quiet fun move => ?_, later⟩
  rw [← free.quiet input s move, first]

def Accounts (input : Input) (rule : Rule α) (tally : Marker → α → Nat) : Prop :=
  ∀ s a t, rule.runFrom input s = (.ok a, t) →
    Accounted s.events t.events (tally .scopeOpen a) (tally .scopeClose a)

theorem itemsWithin_accounts {item : Rule Chain} (accounts : Accounts input item Chain.tally)
    (bound : Nat) (seen : List Chain) :
    ∀ s a t, (itemsWithin item bound seen).runFrom input s = (.ok a, t) →
      ∃ found : List Chain, a = seen.reverse ++ found ∧
        Accounted s.events t.events (Chain.tally .scopeOpen found.flatten)
          (Chain.tally .scopeClose found.flatten) := by
  induction bound generalizing seen with
  | zero =>
    intro s a t run
    cases run
  | succ bound ih =>
    intro s a t run
    rw [itemsWithin, runFrom_kind_bind] at run
    split at run
    · obtain ⟨rfl, rfl⟩ := runFrom_pure_ok_iff.mp run
      exact ⟨[], (List.append_nil _).symm, .of_quiet fun _ => rfl⟩
    · obtain ⟨links, u, first, later⟩ := runFrom_bind_ok_iff.mp run
      obtain ⟨found, rfl, rest⟩ := ih _ _ _ _ later
      refine ⟨links :: found, by simp, ?_⟩
      rw [List.flatten_cons, Chain.tally_append, Chain.tally_append]
      exact (accounts _ _ _ first).trans rest

theorem braced_accounts {item : Rule Chain} (accounts : Accounts input item Chain.tally) :
    Accounts input (braced item) fun marker links => Chain.tally marker links.flatten := by
  intro s a t run
  obtain ⟨links, u, first, later⟩ := runFrom_bind_ok_iff.mp run
  obtain ⟨all, v, items, last⟩ := runFrom_bind_ok_iff.mp later
  rw [runFrom_bounded] at items
  obtain ⟨found, rfl, rest⟩ := itemsWithin_accounts accounts _ _ _ _ _ items
  rw [runFrom_advance_bind] at last
  obtain ⟨rfl, rfl⟩ := runFrom_pure_ok_iff.mp last
  have together := (accounts _ _ _ first).trans rest
  rwa [← Chain.tally_append, ← Chain.tally_append] at together

theorem bodyOf_accounts {command : Rule Chain} (accounts : Accounts input command Chain.tally) :
    Accounts input (bodyOf command) Chain.tally := by
  intro s a t run
  rw [bodyOf, runFrom_kind_bind] at run
  split at run
  · rw [runFrom_advance_bind] at run
    obtain ⟨links, u, inner, last⟩ := runFrom_bind_ok_iff.mp run
    obtain ⟨rfl, rfl⟩ := runFrom_pure_ok_iff.mp last
    exact braced_accounts accounts { s with cursor := s.cursor + 1 } _ _ inner
  · exact accounts _ _ _ run

theorem conditionalOf_accounts {command : Rule Chain}
    (accounts : Accounts input command Chain.tally) :
    Accounts input (conditionalOf command) fun marker node => node.tally marker := by
  intro s a t run
  obtain ⟨-, u, within, rfl⟩ := runFrom_nested_ok_iff.mp run
  rw [runFrom_enter_bind] at within
  obtain ⟨word, v, -, first, within⟩ := DebtFree.headWord.accounted within
  obtain ⟨_, w, -, second, within⟩ := (DebtFree.expectFor _ _).accounted within
  obtain ⟨condition, x, inner, third, within⟩ := DebtFree.expression.accounted within
  obtain ⟨_, y, -, fourth, within⟩ := (DebtFree.expectFor _ _).accounted within
  obtain ⟨body, z, outer, last⟩ := runFrom_bind_ok_iff.mp within
  obtain ⟨rfl, rfl⟩ := runFrom_pure_ok_iff.mp last
  obtain ⟨p, -, rfl, -⟩ := expression_accepts _ _ _ inner
  have is : IsExpression p.value := p.value_valid
  simp only [Node.tally, is.tally_eq_zero, Nat.zero_add]
  have told := bodyOf_accounts accounts _ _ _ outer
  exact (Accounted.entered _ _ _).behind <| first.behind <| second.behind <| third.behind <|
    fourth.behind told

theorem commandOf_accounts {conditional : Rule Node}
    (accounts : Accounts input conditional fun marker node => node.tally marker) :
    Accounts input (commandOf conditional) Chain.tally := by
  intro s a t run
  simp only [commandOf, runFrom_enter_bind, runFrom_takeDebt_bind, runFrom_kind_bind] at run
  have start := Accounted.entered .command (input.token s.cursor) s.events
  split at run
  · obtain ⟨node, u, first, last⟩ := runFrom_bind_ok_iff.mp run
    simp only [runFrom_ite_emit_bind, runFrom_pure_ok_iff] at last
    obtain ⟨rfl, rfl⟩ := last
    exact start.behind ((accounts _ _ _ first).settle s.debt)
  · obtain ⟨node, u, first, told, later⟩ := DebtFree.assignment.accounted run
    obtain ⟨_, v, -, ends, last⟩ := (DebtFree.expect _).accounted later
    simp only [pure_bind, runFrom_ite_emit_bind, runFrom_pure_ok_iff] at last
    obtain ⟨rfl, rfl⟩ := last
    obtain ⟨p, -, rfl, -⟩ := assignment_accepts _ _ _ first
    have is : IsCommand p.value := p.value_valid
    have none : Accounted s.events v.events (p.value.tally .scopeOpen)
        (p.value.tally .scopeClose) := by
      rw [is.tally_eq_zero (by simp), is.tally_eq_zero (by simp)]
      exact start.behind (told.behind ends)
    exact none.settle s.debt

theorem commandWithin_accounts (bound : Nat) :
    Accounts input (commandWithin bound) Chain.tally := by
  refine within_ok rfl ?_ bound
  intro bound ih
  exact commandOf_accounts (conditionalOf_accounts ih)

theorem command_accounts : Accounts input command Chain.tally := by
  intro s a t run
  rw [command, runFrom_bounded] at run
  exact commandWithin_accounts _ s a t run

theorem opens_of_braced {element : Rule Chain}
    (accepts : AcceptsItem input element (.one .element) Phrase.value) {s t : State}
    {links : List Chain} (run : (braced element).runFrom input s = (.ok links, t))
    (none : s.debt = 0) : Chain.Opens links.flatten := by
  obtain ⟨first, others, -, rfl, -⟩ := braced_accepts .element id accepts _ _ _ run
  have formed : (Item.scope (first.value :: others.value)).Formed IsCommand :=
    (Phrase.scope first others).value_valid
  cases formed with
  | scope some each =>
    rw [none, List.map_id]
    exact Item.opens_chains some each

theorem scopeOf_accounts {element : Rule Chain} (accounts : Accounts input element Chain.tally)
    (accepts : AcceptsItem input element (.one .element) Phrase.value) :
    Accounts input (scopeOf element) Chain.tally := by
  intro s a t run
  obtain ⟨-, u, within, rfl⟩ := runFrom_nested_ok_iff.mp run
  rw [runFrom_enter_bind] at within
  obtain ⟨_, v, -, start, within⟩ := (DebtFree.expectFor _ _).accounted within
  simp only [runFrom_takeDebt_bind, runFrom_ite_emit_bind] at within
  obtain ⟨links, w, inner, last⟩ := runFrom_bind_ok_iff.mp within
  have opens := opens_of_braced accepts inner rfl
  have told := braced_accounts accounts _ _ _ inner
  simp only [runFrom_owe_bind, runFrom_get_bind, runFrom_emit_bind, runFrom_ite_emit_bind,
    runFrom_pure_ok_iff] at last
  obtain ⟨rfl, rfl⟩ := last
  rw [Chain.tally_wrap, Chain.tally_wrap, Chain.tally_openScope (by simp) opens,
    Chain.tally_openScope (by simp) opens]
  simp only [reduceCtorEq, if_true, if_false, Nat.zero_add]
  rw [Nat.add_comm 1]
  exact (Accounted.entered _ _ _).behind <| start.behind <| told.scope _

theorem elementWithin_accounts (bound : Nat) :
    Accounts input (elementWithin bound) Chain.tally := by
  induction bound with
  | zero =>
    intro s a t run
    cases run
  | succ bound ih =>
    intro s a t run
    rw [elementWithin, runFrom_kind_bind] at run
    split at run
    · exact scopeOf_accounts ih (elementWithin_accepts bound) _ _ _ run
    · exact command_accounts _ _ _ run

theorem element_accounts : Accounts input element Chain.tally := by
  intro s a t run
  rw [element, runFrom_bounded] at run
  exact elementWithin_accounts _ s a t run

theorem program_accounts : Accounts input program Chain.tally := by
  intro s a t run
  rw [program, runFrom_enter_bind] at run
  obtain ⟨root, u, first, later⟩ := runFrom_bind_ok_iff.mp run
  rw [runFrom_kind_bind] at later
  split at later
  · cases later
  · simp only [runFrom_takeDebt_bind, runFrom_ite_emit_bind, runFrom_pure_ok_iff] at later
    obtain ⟨rfl, rfl⟩ := later
    have told := (Accounted.entered _ _ _).behind (element_accounts _ _ _ first)
    simpa [Chain.tally_wrap, Nat.add_comm (u.debt - 1)] using
      told.trans (.placing (u.debt - 1) u.events)

end Rule

/-- What the records of a program that is accepted tell of closes is in its tree. The closes that
commands and scopes and the end of the program have paid, taken together, are its links that close
a scope; a scope is told of as closed for each link that opens one; and scopes have paid what they
were holding. -/
theorem journal_accounts (tokens : List Token) (limit : Nat) {chain : Chain} {t : State}
    (reads : parse tokens limit = (.ok chain, t)) :
    let records := t.events.map Event.record
    (Move.paying.amounts records).sum + (Move.payingInherited.amounts records).sum +
        (Move.placing.amounts records).sum = chain.tally .scopeClose ∧
      (Move.closed.amounts records).length = chain.tally .scopeOpen ∧
      (Move.holding.amounts records).sum = (Move.payingInherited.amounts records).sum := by
  intro records
  obtain ⟨closes, opens, kept⟩ := Rule.program_accounts _ _ _ reads
  simp only [records, Event.amounts_map_record]
  refine ⟨?_, ?_, ?_⟩
  · exact closes.trans (Nat.zero_add _)
  · exact opens.trans (Nat.zero_add _)
  · exact kept.trans (Nat.zero_add _)

/-- A scope keeps aside what the one before it has left. -/
theorem journal_accounts_inherited :
    let scope : List Token := [.detached .openCurly "\x7b", .detached .identifier "x",
      .detached (.operator .assign) "=", .detached .identifier "y", .detached .semicolon ";",
      .detached .closeCurly "\x7d"]
    let tokens : List Token :=
      .detached .openCurly "\x7b" :: scope ++ scope ++ [.detached .closeCurly "\x7d"]
    ∃ chain t, parse tokens 3 = (.ok chain, t) ∧
      (Move.paying.amounts (t.events.map Event.record)).sum +
        (Move.payingInherited.amounts (t.events.map Event.record)).sum +
        (Move.placing.amounts (t.events.map Event.record)).sum = 2 ∧
      (Move.closed.amounts (t.events.map Event.record)).length = 3 ∧
      (Move.payingInherited.amounts (t.events.map Event.record)).sum = 1 := by
  intro scope tokens
  have tree : (parse tokens 3).1.toOption.map (fun chain =>
      (chain.tally .scopeClose, chain.tally .scopeOpen)) = some (2, 3) := by decide +kernel
  have kept : Move.holding.total (parse tokens 3).2.events = 1 := by decide +kernel
  rcases reads : parse tokens 3 with ⟨halt | chain, t⟩
  · rw [reads] at tree
    cases tree
  · rw [reads] at tree kept
    obtain ⟨closes, opens⟩ := Prod.mk.inj (Option.some.inj tree)
    obtain ⟨paid, ended, same⟩ := journal_accounts tokens 3 reads
    refine ⟨chain, t, rfl, paid.trans closes, ended.trans opens, same.symm.trans ?_⟩
    rw [Event.amounts_map_record]
    exact kept

end LinkedScopes
