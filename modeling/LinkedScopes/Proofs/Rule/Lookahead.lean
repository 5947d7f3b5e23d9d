import LinkedScopes.Proofs.Rule.Bounds
import LinkedScopes.Proofs.Rule.Echo
import LinkedScopes.Session

/-! One token of lookahead. What a rule comes to is settled by the tokens up to the one it ends at,
which it has looked at and not passed. Any input that starts with these gives the same result or
the same diagnostic, and the state is the same after it: no rule waits for what comes later, and
none asks how much of it there is.

The runs may differ in their bounds, which count the tokens that are left; but no bound is
reached on either input. -/
namespace LinkedScopes

variable {tokens tokens' : List Token} {limit last : Nat}

theorem Input.token_eq_of_isPrefix (inside : last < tokens.length)
    (starts : tokens.take (last + 1) <+: tokens') {index : Nat} (le : index ≤ last) :
    (Input.mk tokens'.toArray limit).token index = (Input.mk tokens.toArray limit).token index := by
  have here : index < tokens.length := Nat.lt_of_le_of_lt le inside
  have among : index < (tokens.take (last + 1)).length := by
    rw [List.length_take]
    omega
  obtain ⟨more, rfl⟩ := starts
  have same : (tokens.take (last + 1) ++ more)[index]? = some tokens[index] := by
    rw [List.getElem?_append_left among, List.getElem?_take_of_lt (Nat.lt_succ_of_le le),
      List.getElem?_eq_getElem here]
  simp only [Input.token, List.getElem?_toArray, same, List.getElem?_eq_getElem here,
    Option.getD_some]

theorem Complaint.diagnostic_eq {input input' : Input} (limit : input'.limit = input.limit)
    (same : ∀ index ≤ last, input'.token index = input.token index) (complaint : Complaint)
    (seen : complaint.index ≤ last) : complaint.diagnostic input' = complaint.diagnostic input := by
  cases complaint with
  | unopened index =>
    simp only [diagnostic, fault, same _ seen, same index (Nat.le_of_succ_le seen)]
  | unexpected index | unexpectedFor index | misplaced index | malformedExpression index
  | malformedNumber index | nestingTooDeep index =>
    have here := same index seen
    simp only [diagnostic, fault, Complaint.index, here, limit]

namespace Rule

variable {α : Type}

/-- What a rule comes to on some tokens, it comes to on any others that start with those it
passed and the one after them. Only what was announced in the meantime may differ. -/
def SeesOneAhead (rule : Rule α) : Prop :=
  ∀ (limit : Nat) (tokens tokens' : List Token) (s : State) (result : Except Halt α) (t : State),
    rule.runFrom ⟨tokens.toArray, limit⟩ s = (result, t) → t.cursor < tokens.length →
    tokens.take (t.cursor + 1) <+: tokens' →
    ∃ events, rule.runFrom ⟨tokens'.toArray, limit⟩ s = (result, { t with events := events })

/-- A rule that goes by what it sees, and reaches no bound. -/
theorem seesOneAhead_of_echoing {rule : Rule α}
    (echoing : ∀ {input input' last}, input.Resembles input' last →
      Echoing input input' last rule rule)
    (inside : ∀ input s, (rule.runFrom input s).1 ≠ .error .exhausted) : rule.SeesOneAhead := by
  intro limit tokens tokens' s result t run passed starts
  have same : ∀ index ≤ t.cursor, (Input.mk tokens'.toArray limit).token index =
      (Input.mk tokens.toArray limit).token index :=
    fun index le => Input.token_eq_of_isPrefix passed starts le
  have like : Input.Resembles ⟨tokens.toArray, limit⟩ ⟨tokens'.toArray, limit⟩ t.cursor :=
    ⟨rfl, fun index le => by rw [same index le], fun index le => by rw [same index le]⟩
  have echo := (echoing like s).echo
  rw [run] at echo
  have echo := echo (Nat.le_refl _) s.events
  have ends := inside ⟨tokens.toArray, limit⟩ s
  have ends' := inside ⟨tokens'.toArray, limit⟩ s
  rw [run] at ends
  rcases run' : rule.runFrom ⟨tokens'.toArray, limit⟩ s with ⟨result', t'⟩
  rw [run'] at echo ends'
  cases echo with
  | ok events => exact ⟨events, rfl⟩
  | fault complaint fits seen events =>
    rw [Complaint.diagnostic_eq like.limit same complaint seen]
    exact ⟨events, rfl⟩
  | exhausted => exact absurd rfl ends
  | exhausted' => exact absurd rfl ends'

theorem SeesOneAhead.map {β : Type} {rule : Rule α} (sees : rule.SeesOneAhead) (f : α → β) :
    (f <$> rule).SeesOneAhead := by
  intro limit tokens tokens' s result t run passed starts
  rw [runFrom_map] at run
  obtain ⟨rfl, rfl⟩ := Prod.mk.inj run
  obtain ⟨events, again⟩ := sees limit tokens tokens' s _ _ rfl passed starts
  exact ⟨events, by rw [runFrom_map, again]; rfl⟩

theorem Guarded.seesOneAhead {β : Type} {around : Rule α → Rule β} (guarded : Guarded around)
    {inner : Rule α} (alike : ∀ {input} s, Alike input 1 inner inner s)
    (echoing : ∀ {input input' last}, input.Resembles input' last →
      Echoing input input' last (around inner) (around inner)) :
    (around inner).SeesOneAhead :=
  seesOneAhead_of_echoing echoing (guarded.inside alike)

theorem reference_seesOneAhead : reference.SeesOneAhead :=
  referenceOf_guarded.seesOneAhead expression_alike fun like =>
    referenceOf_echoing like (expression_echoing like)

theorem program_seesOneAhead : program.SeesOneAhead :=
  seesOneAhead_of_echoing program_echoing fun _ s => (program_alike s).inside

theorem reading_seesOneAhead (what : Session.Reading) : what.rule.SeesOneAhead := by
  cases what with
  | expression =>
    exact (seesOneAhead_of_echoing expression_echoing fun _ s => (expression_alike s).inside).map _
  | term =>
    exact (termOf_guarded.seesOneAhead expression_alike fun like =>
      termOf_echoing like (expression_echoing like)).map _
  | power =>
    exact (powerOf_guarded.seesOneAhead expression_alike fun like =>
      powerOf_echoing like (expression_echoing like)).map _
  | primary =>
    exact (primaryOf_guarded.seesOneAhead expression_alike fun like =>
      primaryOf_echoing like (expression_echoing like)).map _
  | identifier =>
    have node := reference_seesOneAhead.map Reference.node
    rw [map_eq_pure_bind] at node
    exact node.map _
  | assignment =>
    exact (seesOneAhead_of_echoing assignment_echoing fun _ s => (assignment_alike s).inside).map _
  | conditional =>
    exact (conditionalOf_guarded.seesOneAhead command_alike fun like =>
      conditionalOf_echoing like (command_echoing like)).map _
  | command =>
    exact (seesOneAhead_of_echoing command_echoing fun _ s => (command_alike s).inside).map _
  | element =>
    exact (seesOneAhead_of_echoing element_echoing fun _ s => (element_alike s).inside).map _
  | scope =>
    exact (scopeOf_guarded.seesOneAhead element_alike fun like =>
      scopeOf_echoing like (element_echoing like)).map _

end Rule

/-- Every rule, and the reading of a whole program, sees one token ahead of what it passes. Runs on
tokens that agree up to there have the same tree or the same diagnostic, and leave the same
cursor, debt and depth. -/
theorem one_token_ahead :
    (∀ what : Session.Reading, what.rule.SeesOneAhead) ∧
    ∀ (limit : Nat) (tokens tokens' : List Token) (result : Except Halt Chain) (t : State),
      parse tokens limit = (result, t) → t.cursor < tokens.length →
      tokens.take (t.cursor + 1) <+: tokens' →
      ∃ events, parse tokens' limit = (result, { t with events := events }) := by
  constructor
  · exact Rule.reading_seesOneAhead
  · intro limit tokens tokens' result t
    exact Rule.program_seesOneAhead limit tokens tokens' {} result t

/-- A keyword is refused at the token behind it, and what follows that does not matter. -/
theorem one_token_ahead_refused :
    let front : List Token := [.detached .keyword "print", .detached .semicolon ";"]
    let refused : Except Halt Chain :=
      .error (.fault ⟨.keywordMisused "print" "must be followed by `(`", .null⟩)
    let run := parse front 3
    run.1 = refused ∧ run.2.cursor = 1 ∧
      ∃ events, parse (front ++ [.detached .closeCurly "\x7d"]) 3 =
        (refused, { run.2 with events := events }) := by
  intro front refused run
  have fails : run.1 = refused := rfl
  have ends : run.2.cursor = 1 := rfl
  refine ⟨fails, ends, ?_⟩
  refine one_token_ahead.2 3 front _ refused run.2 (Prod.ext fails rfl) ?_ ?_
  · rw [ends]
    decide
  · rw [ends]
    exact ⟨[.detached .closeCurly "\x7d"], rfl⟩

end LinkedScopes
