import LinkedScopes.Proofs.Nesting.Debt
import LinkedScopes.Proofs.Rule.Bounds

/-! Inherited debt. No rule reads what has happened, and only a command and a scope read what is
owed. They take it over before anything inside of them can see it, and place it ahead of what they
return. So a run that inherits debt ends as the one that inherits none, with a prefix of closes. -/
namespace LinkedScopes

namespace Rule

variable {α β : Type} {input : Input} {s : State}

/-- A rule does the same whatever has happened, and adds the same to it. -/
theorem Built.announces {rule : Rule α} (built : Built rule) (input : Input) (s : State) :
    ∃ (result : Except Halt α) (t : State) (added : List Event), ∀ events,
      rule.runFrom input { s with events := events } =
        (result, { t with events := added ++ events }) := by
  induction built generalizing s with
  | pure a => exact ⟨.ok a, s, [], fun _ => rfl⟩
  | current => exact ⟨.ok (input.token s.cursor), s, [], fun _ => rfl⟩
  | advance =>
    exact ⟨.ok (input.token s.cursor), { s with cursor := s.cursor + 1 }, [], fun _ => rfl⟩
  | emit event => exact ⟨_, s, [event], fun _ => rfl⟩
  | fail fault position => exact ⟨_, s, [], fun _ => rfl⟩
  | exhausted => exact ⟨_, s, [], fun _ => rfl⟩
  | takeDebt => exact ⟨.ok s.debt, { s with debt := 0 }, [], fun _ => rfl⟩
  | owe => exact ⟨_, { s with debt := s.debt + 1 }, [], fun _ => rfl⟩
  | bind first later ih ihs =>
    obtain ⟨halt | a, t, added, run⟩ := ih s
    · exact ⟨_, t, added, fun events => runFrom_bind_of_error (run events)⟩
    · obtain ⟨result, u, added', run'⟩ := ihs a t
      refine ⟨result, u, added' ++ added, fun events => ?_⟩
      rw [runFrom_bind_of_ok (run events), run', List.append_assoc]
  | debt later only ihs =>
    obtain ⟨result, t, added, run⟩ := ihs s s
    refine ⟨result, t, added, fun events => ?_⟩
    rw [runFrom_get_bind, only { s with events := events } s rfl, run]
  | nested inner ih =>
    by_cases full : input.limit ≤ s.depth
    · let refused : Diagnostic := ⟨.nestingTooDeep input.limit, (input.token s.cursor).span.start⟩
      refine ⟨.error (.fault refused), s, [], fun events => ?_⟩
      rw [runFrom_nested, if_pos full]
      rfl
    · obtain ⟨result, t, added, run⟩ := ih { s with depth := s.depth + 1 }
      refine ⟨result, { t with depth := t.depth - 1 }, added, fun events => ?_⟩
      rw [runFrom_nested, if_neg full, runFrom_deeper, run]
  | bounded each ihs => exact ihs (input.remaining s.cursor + 1) s

/-- A rule that neither reads nor changes what is owed does the same whatever that is. -/
theorem DebtFree.unread {rule : Rule α} (free : DebtFree rule) (input : Input) (s : State) :
    ∃ (result : Except Halt α) (t : State), ∀ owed,
      rule.runFrom input { s with debt := owed } = (result, { t with debt := owed }) := by
  induction free generalizing s with
  | pure a => exact ⟨.ok a, s, fun _ => rfl⟩
  | current => exact ⟨.ok (input.token s.cursor), s, fun _ => rfl⟩
  | advance => exact ⟨.ok (input.token s.cursor), { s with cursor := s.cursor + 1 }, fun _ => rfl⟩
  | emit event => exact ⟨_, { s with events := event :: s.events }, fun _ => rfl⟩
  | fail fault position => exact ⟨_, s, fun _ => rfl⟩
  | exhausted => exact ⟨_, s, fun _ => rfl⟩
  | bind first later ih ihs =>
    obtain ⟨halt | a, t, run⟩ := ih s
    · exact ⟨_, t, fun owed => runFrom_bind_of_error (run owed)⟩
    · obtain ⟨result, u, run'⟩ := ihs a t
      exact ⟨result, u, fun owed => (runFrom_bind_of_ok (run owed)).trans (run' owed)⟩
  | nested inner ih =>
    by_cases full : input.limit ≤ s.depth
    · let refused : Diagnostic := ⟨.nestingTooDeep input.limit, (input.token s.cursor).span.start⟩
      refine ⟨.error (.fault refused), s, fun owed => ?_⟩
      rw [runFrom_nested, if_pos full]
    · obtain ⟨result, t, run⟩ := ih { s with depth := s.depth + 1 }
      refine ⟨result, { t with depth := t.depth - 1 }, fun owed => ?_⟩
      rw [runFrom_nested, if_neg full, runFrom_deeper, run]
  | bounded each ihs => exact ihs (input.remaining s.cursor + 1) s

/-- Two runs end alike: both succeed, with related results and in the same state, or both halt
for the same reason at the same place. What has happened may differ, and after a failure what is
owed. -/
inductive EndsAlike (related : α → α → Prop) :
    Except Halt α × State → Except Halt α × State → Prop
  | ok {a b : α} {t : State} (events : List Event) (results : related a b) :
    EndsAlike related (.ok a, t) (.ok b, { t with events := events })
  | error {halt : Halt} {t u : State} (cursor : u.cursor = t.cursor) (depth : u.depth = t.depth) :
    EndsAlike related (.error halt, t) (.error halt, u)

namespace EndsAlike

variable {related : α → α → Prop} {related' : β → β → Prop}

theorem of_events {rule : Rule α} (built : Built rule) (s : State) (events : List Event) :
    EndsAlike Eq (rule.runFrom input s) (rule.runFrom input { s with events := events }) := by
  obtain ⟨halt | a, t, added, run⟩ := built.announces input s
  · rw [run events, run s.events]
    exact .error rfl rfl
  · rw [run events, run s.events]
    exact .ok (t := { t with events := added ++ s.events }) (added ++ events) rfl

theorem refl (run : Except Halt α × State) : EndsAlike Eq run run := by
  rcases run with ⟨halt | a, t⟩
  · exact .error rfl rfl
  · exact .ok t.events rfl

theorem bind {rule rule' : Rule α} {next next' : α → Rule β} {u : State}
    (first : EndsAlike related (rule.runFrom input s) (rule'.runFrom input u))
    (later : ∀ a b t events, related a b → EndsAlike related' ((next a).runFrom input t)
      ((next' b).runFrom input { t with events := events })) :
    EndsAlike related' ((rule >>= next).runFrom input s) ((rule' >>= next').runFrom input u) := by
  rw [runFrom_bind, runFrom_bind]
  generalize rule.runFrom input s = run at first ⊢
  generalize rule'.runFrom input u = run' at first ⊢
  cases first with
  | ok events results => exact later _ _ _ events results
  | error cursor depth => exact .error cursor depth

theorem mono {related' : α → α → Prop} {run run' : Except Halt α × State}
    (ends : EndsAlike related run run') (results : ∀ a b, related a b → related' a b) :
    EndsAlike related' run run' := by
  cases ends with
  | ok events same => exact .ok events (results _ _ same)
  | error cursor depth => exact .error cursor depth

theorem map {rule rule' : Rule α} {f g : α → β} {u : State}
    (ends : EndsAlike related (rule.runFrom input s) (rule'.runFrom input u))
    (results : ∀ a b, related a b → related' (f a) (g b)) :
    EndsAlike related' ((f <$> rule).runFrom input s) ((g <$> rule').runFrom input u) := by
  rw [map_eq_pure_bind, map_eq_pure_bind]
  refine ends.bind ?_
  intro a b t events same
  exact .ok events (results a b same)

theorem nested {rule rule' : Rule α} {u : State} (same : u.depth = s.depth)
    (place : u.cursor = s.cursor)
    (inner : EndsAlike related (rule.runFrom input { s with depth := s.depth + 1 })
      (rule'.runFrom input { u with depth := u.depth + 1 })) :
    EndsAlike related ((Rule.nested rule).runFrom input s)
      ((Rule.nested rule').runFrom input u) := by
  rw [runFrom_nested, runFrom_nested, same, place]
  split
  · exact .error place same
  · rw [runFrom_deeper, runFrom_deeper]
    generalize rule.runFrom input { s with depth := s.depth + 1 } = run at inner ⊢
    generalize rule'.runFrom input { u with depth := u.depth + 1 } = run' at inner ⊢
    cases inner with
    | @ok a b t events results =>
      exact .ok (t := { t with depth := t.depth - 1 }) events results
    | error cursor depth => exact .error cursor (congrArg (· - 1) depth)

/-- Until the closes are taken over, the runs pass the same tokens and come to the same results. -/
theorem bind_of_debtFree {rule : Rule α} (free : DebtFree rule) {next next' : α → Rule β}
    {owed owed' : Nat}
    (later : ∀ a (t : State), EndsAlike related' ((next a).runFrom input { t with debt := owed })
      ((next' a).runFrom input { t with debt := owed' })) :
    EndsAlike related' ((rule >>= next).runFrom input { s with debt := owed })
      ((rule >>= next').runFrom input { s with debt := owed' }) := by
  obtain ⟨halt | a, t, run⟩ := free.unread input s
  · rw [runFrom_bind_of_error (run owed), runFrom_bind_of_error (run owed')]
    exact .error rfl rfl
  · rw [runFrom_bind_of_ok (run owed), runFrom_bind_of_ok (run owed')]
    exact later a t

end EndsAlike

theorem itemsWithin_eq_map (item : Rule α) (bound : Nat) (seen : List α) :
    itemsWithin item bound seen = (seen.reverse ++ ·) <$> itemsWithin item bound [] := by
  induction bound generalizing seen with
  | zero => rfl
  | succ bound ih =>
    have found (a : α) : itemsWithin item bound (a :: seen) =
        (seen.reverse ++ ·) <$> itemsWithin item bound [a] := by
      rw [ih (a :: seen), ih [a], Functor.map_map]
      simp
    simp only [itemsWithin, map_bind, apply_ite ((seen.reverse ++ ·) <$> ·), map_pure,
      List.reverse_nil, List.append_nil, found]

/-- A command by itself, and the same one behind so many closes. -/
def Settled (owed : Nat) (chain chain' : Chain) : Prop :=
  ∃ c, chain = [.plain c] ∧ chain' = Chain.settle owed c

/-- A chain that starts with a command, and the same one with so many closes ahead of it. -/
def Led (owed : Nat) (chain chain' : Chain) : Prop :=
  ∃ c rest, chain = .plain c :: rest ∧ chain' = Chain.settle owed c ++ rest

/-- A conditional, and the same one with so many closes ahead of the first command in its body. -/
def Inherited (owed : Nat) (node node' : Node) : Prop :=
  ∃ word condition body body', Led owed body body' ∧
    node = .conditional word condition body ∧ node' = .conditional word condition body'

section

variable (s) (owed : Nat)

theorem command_endsAlike :
    EndsAlike (Settled owed) (command.runFrom input { s with debt := 0 })
      (command.runFrom input { s with debt := owed }) := by
  have settles (t : State) (events : List Event) (c : Node) : EndsAlike (Settled owed)
      ((do if 0 < 0 then emit (.paying 0)
           return Chain.settle 0 c : Rule Chain).runFrom input t)
      ((do if 0 < owed then emit (.paying owed)
           return Chain.settle owed c : Rule Chain).runFrom input { t with events := events }) := by
    simp only [runFrom_ite_emit_bind]
    exact .ok (t := t) _ ⟨c, rfl, rfl⟩
  rw [command_eq, commandOf]
  simp only [runFrom_enter_bind, runFrom_takeDebt_bind, runFrom_kind_bind]
  by_cases keyword : (input.token s.cursor).kind = .keyword
  · rw [if_pos keyword, if_pos keyword]
    refine (EndsAlike.refl _).bind ?_
    rintro c _ t events rfl
    exact settles t events c
  · rw [if_neg keyword, if_neg keyword]
    refine (EndsAlike.refl _).bind ?_
    rintro c _ t events rfl
    refine (EndsAlike.of_events (.expect _) t events).bind ?_
    rintro _ _ t events rfl
    rw [pure_bind, pure_bind]
    exact settles t events c

theorem braced_endsAlike :
    EndsAlike (fun links links' => ∃ first first' rest, Settled owed first first' ∧
        links = first :: rest ∧ links' = first' :: rest)
      ((braced command).runFrom input { s with debt := 0 })
      ((braced command).runFrom input { s with debt := owed }) := by
  refine (command_endsAlike s owed).bind ?_
  intro first first' t events settled
  have loop : EndsAlike
      (fun links links' => ∃ rest, links = first :: rest ∧ links' = first' :: rest)
      ((bounded fun bound => itemsWithin command bound [first]).runFrom input t)
      ((bounded fun bound => itemsWithin command bound [first']).runFrom input
        { t with events := events }) := by
    rw [runFrom_bounded, runFrom_bounded, itemsWithin_eq_map, itemsWithin_eq_map _ _ [first']]
    refine (EndsAlike.of_events (Built.command.itemsWithin _ []) t events).map ?_
    rintro rest _ rfl
    exact ⟨rest, rfl, rfl⟩
  refine loop.bind ?_
  rintro _ _ t events ⟨rest, rfl, rfl⟩
  rw [runFrom_advance_bind, runFrom_advance_bind]
  exact .ok (t := { t with cursor := t.cursor + 1 }) events ⟨first, first', rest, settled, rfl, rfl⟩

theorem bodyOf_endsAlike :
    EndsAlike (Led owed) ((bodyOf command).runFrom input { s with debt := 0 })
      ((bodyOf command).runFrom input { s with debt := owed }) := by
  rw [bodyOf, runFrom_kind_bind, runFrom_kind_bind]
  by_cases opens : (input.token s.cursor).kind = .openCurly
  · rw [if_pos opens, runFrom_advance_bind, runFrom_advance_bind]
    refine (braced_endsAlike { s with cursor := s.cursor + 1 } owed).bind ?_
    rintro _ _ t events ⟨_, _, rest, ⟨c, rfl, rfl⟩, rfl, rfl⟩
    exact .ok events ⟨c, rest.flatten, rfl, rfl⟩
  · rw [if_neg opens]
    refine (command_endsAlike s owed).mono ?_
    rintro _ _ ⟨c, rfl, rfl⟩
    exact ⟨c, [], rfl, (List.append_nil _).symm⟩

theorem conditional_endsAlike :
    EndsAlike (Inherited owed) (conditional.runFrom input { s with debt := 0 })
      (conditional.runFrom input { s with debt := owed }) := by
  refine .nested rfl rfl ?_
  refine .bind_of_debtFree (s := { s with depth := s.depth + 1 }) (.enter _) fun _ t => ?_
  refine .bind_of_debtFree .headWord fun word t => ?_
  refine .bind_of_debtFree (.expectFor _ _) fun _ t => ?_
  refine .bind_of_debtFree .expression fun condition t => ?_
  refine .bind_of_debtFree (.expectFor _ _) fun _ t => ?_
  refine (bodyOf_endsAlike t owed).bind ?_
  intro body body' t events led
  exact .ok events ⟨word, condition, body, body', led, rfl, rfl⟩

theorem scope_endsAlike :
    EndsAlike (fun chain chain' => chain' = chain.wrap owed)
      (scope.runFrom input { s with debt := 0 }) (scope.runFrom input { s with debt := owed }) := by
  refine .nested rfl rfl ?_
  refine .bind_of_debtFree (s := { s with depth := s.depth + 1 }) (.enter _) fun _ t => ?_
  refine .bind_of_debtFree (.expectFor _ _) fun _ t => ?_
  simp only [runFrom_takeDebt_bind, runFrom_ite_emit_bind]
  refine (EndsAlike.of_events Built.element.braced _ _).bind ?_
  rintro elements _ t events rfl
  simp only [runFrom_owe_bind, runFrom_get_bind, runFrom_emit_bind, runFrom_ite_emit_bind]
  exact .ok (t := { t with debt := t.debt + 1, events := _ }) _ rfl

end

end Rule

/-- A run that inherits debt ends as the one that inherits none. A scope succeeds in both or
halts in both with the same fault at the same place; its chain has the closes it inherits ahead
of it, and as much is owed afterwards. So it is with a command, which has them ahead of itself,
and with a conditional, which has them ahead of the first command of its body; both leave none
owed. -/
theorem inherited_closes_lead (input : Input) (s : State) (owed : Nat) :
    let free : State := { s with debt := 0 }
    let indebted : State := { s with debt := owed }
    (Rule.EndsAlike (fun chain chain' => chain' = chain.wrap owed)
        (Rule.scope.runFrom input free) (Rule.scope.runFrom input indebted) ∧
      (Rule.scope.runFrom input free).1 ≠ .error .exhausted) ∧
    (Rule.EndsAlike (fun chain chain' => ∃ c, chain = [.plain c] ∧ chain' = Chain.settle owed c)
        (Rule.command.runFrom input free) (Rule.command.runFrom input indebted) ∧
      (Rule.command.runFrom input free).1 ≠ .error .exhausted ∧
      ∀ chain t, Rule.command.runFrom input free = (.ok chain, t) → t.debt = 0) ∧
    Rule.EndsAlike (fun node node' => ∃ word condition c rest,
        node = .conditional word condition (.plain c :: rest) ∧
        node' = .conditional word condition (Chain.settle owed c ++ rest))
      (Rule.conditional.runFrom input free) (Rule.conditional.runFrom input indebted) ∧
    (Rule.conditional.runFrom input free).1 ≠ .error .exhausted ∧
    ∀ node t, Rule.conditional.runFrom input free = (.ok node, t) → t.debt = 0 := by
  intro free indebted
  refine ⟨⟨Rule.scope_endsAlike s owed, ?_⟩, ⟨Rule.command_endsAlike s owed, ?_, ?_⟩, ?_, ?_, ?_⟩
  · exact Rule.scopeOf_guarded.inside Rule.element_alike input free
  · exact (Rule.command_alike free).inside
  · intro chain t run
    obtain ⟨-, -, none⟩ := Rule.command_conserved run
    exact none
  · refine (Rule.conditional_endsAlike s owed).mono ?_
    rintro _ _ ⟨word, condition, _, _, ⟨c, rest, rfl, rfl⟩, rfl, rfl⟩
    exact ⟨word, condition, c, rest, rfl, rfl⟩
  · exact Rule.conditionalOf_guarded.inside Rule.command_alike input free
  · intro node t run
    obtain ⟨-, -, none⟩ := Rule.conditional_conserved run
    exact none

end LinkedScopes
