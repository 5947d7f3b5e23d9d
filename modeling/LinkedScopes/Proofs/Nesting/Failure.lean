import LinkedScopes.Proofs.Nesting.Debt
import LinkedScopes.Proofs.Rule.Bounds
import LinkedScopes.Proofs.Rule.Depth

/-! What is owed when reading fails. A command takes over all closes before anything in it can be
refused, and so does a scope, unless the scope itself is too deep. But closes are only owed behind
a scope, and where one scope was entered the next one is not too deep. So whatever is refused
inside of the root is refused with nothing owed, and only what stands behind a complete root meets
closes: those of the scopes that end with it. -/
namespace LinkedScopes

namespace Rule

variable {α β : Type} {input : Input} {s : State}

/-- If closes are owed, a scope that starts here is not too deep. -/
def Enterable (input : Input) (s : State) : Prop := 0 < s.debt → s.depth < input.limit

theorem enterable_of_none (none : s.debt = 0) : Enterable input s := by
  intro owed
  omega

/-- A run that succeeds leaves a state of this kind, and one that faults leaves nothing owed. -/
inductive Settles (after : State → Prop) : Except Halt α × State → Prop
  | ok {a : α} {t : State} (holds : after t) : Settles after (.ok a, t)
  | fault {d : Diagnostic} {t : State} (none : t.debt = 0) : Settles after (.error (.fault d), t)
  | exhausted {t : State} : Settles after (.error .exhausted, t)

namespace Settles

variable {rule : Rule α} {next : α → Rule β} {before after : State → Prop}

theorem bind (first : Settles before (rule.runFrom input s))
    (later : ∀ a t, before t → Settles after ((next a).runFrom input t)) :
    Settles after ((rule >>= next).runFrom input s) := by
  rw [runFrom_bind]
  generalize rule.runFrom input s = run at first
  cases first with
  | ok holds => exact later _ _ holds
  | fault none => exact .fault none
  | exhausted => exact .exhausted

theorem mono {run : Except Halt α × State} (settles : Settles before run)
    (weaker : ∀ t, before t → after t) : Settles after run := by
  cases settles with
  | ok holds => exact .ok (weaker _ holds)
  | fault none => exact .fault none
  | exhausted => exact .exhausted

theorem of_debtFree (free : DebtFree rule) (none : s.debt = 0) :
    Settles (·.debt = 0) (rule.runFrom input s) := by
  have kept := (free.debt_eq input s).trans none
  generalize rule.runFrom input s = run at kept
  rcases run with ⟨(d | _) | a, t⟩
  · exact .fault kept
  · exact .exhausted
  · exact .ok kept

theorem nested (refused : input.limit ≤ s.depth → s.debt = 0)
    (inner : s.depth < input.limit →
      Settles (fun t => after { t with depth := t.depth - 1 })
        (rule.runFrom input { s with depth := s.depth + 1 })) :
    Settles after ((Rule.nested rule).runFrom input s) := by
  rw [runFrom_nested]
  split
  · next full => exact .fault (refused full)
  · next free =>
    rw [runFrom_deeper]
    have settles := inner (Nat.lt_of_not_le free)
    generalize rule.runFrom input { s with depth := s.depth + 1 } = run at settles
    cases settles with
    | ok holds => exact .ok holds
    | fault none => exact .fault none
    | exhausted => exact .exhausted

theorem items (each : ∀ t, after t → Settles after (rule.runFrom input t)) (bound : Nat)
    (seen : List α) (holds : after s) :
    Settles after ((itemsWithin rule bound seen).runFrom input s) := by
  induction bound generalizing seen s with
  | zero => exact .exhausted
  | succ bound ih =>
    rw [itemsWithin, runFrom_kind_bind]
    split
    · exact .ok holds
    · exact (each s holds).bind fun a u holds => ih (a :: seen) holds

theorem braced (first : Settles after (rule.runFrom input s))
    (each : ∀ t, after t → Settles after (rule.runFrom input t))
    (moves : ∀ t, after t → after { t with cursor := t.cursor + 1 }) :
    Settles after ((Rule.braced rule).runFrom input s) := by
  refine first.bind fun a t holds => ?_
  have rest : Settles after ((bounded fun bound => itemsWithin rule bound [a]).runFrom input t) :=
    items each _ [a] holds
  exact rest.bind fun links u holds => .ok (moves u holds)

end Settles

/-! Commands. They take over what is owed, so they settle wherever they start. -/

theorem bodyOf_settles {command : Rule Chain}
    (inner : ∀ s, Settles (·.debt = 0) (command.runFrom input s)) (s : State) :
    Settles (·.debt = 0) ((bodyOf command).runFrom input s) := by
  rw [bodyOf, runFrom_kind_bind]
  split
  · rw [runFrom_advance_bind]
    refine .bind (.braced (inner _) (fun t _ => inner t) fun _ none => none) ?_
    exact fun _ _ none => .ok none
  · exact inner s

theorem conditionalOf_settles {command : Rule Chain}
    (inner : ∀ s, Settles (·.debt = 0) (command.runFrom input s)) (none : s.debt = 0) :
    Settles (·.debt = 0) ((conditionalOf command).runFrom input s) := by
  refine .nested (fun _ => none) fun _ => ?_
  rw [runFrom_enter_bind]
  refine .bind (.of_debtFree .headWord none) fun word t none => ?_
  refine .bind (.of_debtFree (.expectFor _ _) none) fun _ u none => ?_
  refine .bind (.of_debtFree .expression none) fun condition v none => ?_
  refine .bind (.of_debtFree (.expectFor _ _) none) fun _ w _ => ?_
  exact .bind (bodyOf_settles inner w) fun _ _ none => .ok none

theorem commandWithin_settles (bound : Nat) (s : State) :
    Settles (·.debt = 0) ((commandWithin bound).runFrom input s) := by
  induction bound generalizing s with
  | zero => exact .exhausted
  | succ bound ih =>
    simp only [commandWithin, commandOf, runFrom_enter_bind, runFrom_takeDebt_bind,
      runFrom_kind_bind]
    split
    · refine .bind (conditionalOf_settles ih rfl) fun node t none => ?_
      rw [runFrom_ite_emit_bind]
      exact .ok none
    · refine .bind (.of_debtFree .assignment rfl) fun node t none => ?_
      refine .bind (.of_debtFree (.expect _) none) fun _ u none => ?_
      rw [pure_bind, runFrom_ite_emit_bind]
      exact .ok none

theorem command_settles (s : State) : Settles (·.debt = 0) (command.runFrom input s) := by
  rw [command, runFrom_bounded]
  exact commandWithin_settles _ s

/-! Scopes. What follows a scope starts as deep as that scope did, which was not too deep. -/

theorem scopeOf_settles {element : Rule Chain} (built : Built element)
    (inner : ∀ s, Enterable input s → Settles (Enterable input) (element.runFrom input s))
    (opens : (input.token s.cursor).kind = .openCurly) (enterable : Enterable input s) :
    Settles (Enterable input) ((scopeOf element).runFrom input s) := by
  by_cases full : input.limit ≤ s.depth
  · rw [scopeOf, runFrom_nested, if_pos full]
    refine .fault (Nat.eq_zero_of_not_pos fun owed => ?_)
    exact Nat.not_le_of_lt (enterable owed) full
  · have settles : Settles (fun _ => True) ((scopeOf element).runFrom input s) := by
      refine .nested (fun too => absurd too full) fun _ => ?_
      let entered : List Event := .entered .scope (input.token s.cursor) :: s.events
      have passes : (expectFor .openCurly "expected `\x7b` to open a scope").runFrom input
          { s with depth := s.depth + 1, events := entered } =
          (.ok (input.token s.cursor), ⟨s.cursor + 1, s.debt, s.depth + 1, entered⟩) :=
        runFrom_expectFor_ok_iff.mpr ⟨opens, rfl, rfl⟩
      rw [runFrom_enter_bind, runFrom_bind_of_ok passes]
      simp only [runFrom_takeDebt_bind, runFrom_ite_emit_bind]
      refine .bind (.braced (inner _ (enterable_of_none rfl)) inner fun _ holds => holds) ?_
      intro links t _
      simp only [runFrom_owe_bind, runFrom_get_bind, runFrom_emit_bind, runFrom_ite_emit_bind]
      exact .ok trivial
    have depth := built.scopeOf.depth_eq input s
    generalize (scopeOf element).runFrom input s = run at settles depth
    cases settles with
    | ok => exact .ok fun _ => depth ▸ Nat.lt_of_not_le full
    | fault none => exact .fault none
    | exhausted => exact .exhausted

theorem elementWithin_settles (bound : Nat) (s : State) (enterable : Enterable input s) :
    Settles (Enterable input) ((elementWithin bound).runFrom input s) := by
  induction bound generalizing s with
  | zero => exact .exhausted
  | succ bound ih =>
    rw [elementWithin, runFrom_kind_bind]
    split
    · next opens => exact scopeOf_settles (.elementWithin bound) ih opens enterable
    · exact (command_settles s).mono fun _ => enterable_of_none

theorem element_settles (enterable : Enterable input s) :
    Settles (Enterable input) (element.runFrom input s) := by
  rw [element, runFrom_bounded]
  exact elementWithin_settles _ s enterable

end Rule

/-- The run of the root, the one element that a program is made of. -/
def rootRun (tokens : List Token) (limit : Nat) : Except Halt Chain × State :=
  let input : Input := ⟨tokens.toArray, limit⟩
  Rule.element.runFrom input { events := [.entered .program (input.token 0)] }

def Input.trailing (input : Input) (cursor : Nat) : Halt :=
  .fault ⟨.unexpectedFor (input.token cursor).text "expected end of input",
    (input.token cursor).span.start⟩

/-- Reading fails in the root, or right behind it. -/
theorem parse_error_cases {tokens : List Token} {limit : Nat} {halt : Halt} {t : State}
    (fails : parse tokens limit = (.error halt, t)) :
    rootRun tokens limit = (.error halt, t) ∨
      ∃ chain, rootRun tokens limit = (.ok chain, t) ∧
        (Input.token ⟨tokens.toArray, limit⟩ t.cursor).kind ≠ .endOfInput ∧
        halt = Input.trailing ⟨tokens.toArray, limit⟩ t.cursor := by
  rw [parse, Rule.program, Rule.runFrom_enter_bind] at fails
  rcases Rule.runFrom_bind_error_iff.mp fails with root | ⟨chain, u, root, last⟩
  · exact .inl root
  · right
    rw [Rule.runFrom_kind_bind] at last
    split at last
    · next more =>
      obtain ⟨refused, rfl⟩ := Prod.mk.inj last
      exact ⟨chain, root, more, (Except.error.inj refused).symm⟩
    · simp only [Rule.runFrom_takeDebt_bind, Rule.runFrom_ite_emit_bind] at last
      cases last

/-- When reading fails, it fails in the root with nothing owed, or the root has been read to its
end and what stands behind it is refused. Then owed are the scopes that end with the root, none
if it is a command. -/
theorem failure_leaves_root_debt (tokens : List Token) (limit : Nat) {halt : Halt} {t : State}
    (fails : parse tokens limit = (.error halt, t)) :
    (rootRun tokens limit = (.error halt, t) ∧ t.debt = 0) ∨
    ∃ (chain : Chain) (p : Phrase (.one .element)) (next : Lexeme) (rest : List Lexeme),
      rootRun tokens limit = (.ok chain, t) ∧
      lexemes tokens = p.lexemes ++ next :: rest ∧ t.cursor = p.lexemes.length ∧
      halt = Input.trailing ⟨tokens.toArray, limit⟩ t.cursor ∧
      t.debt = p.value.ending ∧ ∀ inner, p = .plain inner → t.debt = 0 := by
  rcases parse_error_cases fails with root | ⟨chain, root, more, refused⟩
  · left
    have inside := parse_ne_exhausted tokens limit
    have settles : Rule.Settles (Rule.Enterable ⟨tokens.toArray, limit⟩) (rootRun tokens limit) :=
      Rule.element_settles (Rule.enterable_of_none rfl)
    rw [fails] at inside
    rw [root] at settles
    cases settles with
    | fault none => exact ⟨root, none⟩
    | exhausted => exact absurd rfl inside
  · right
    obtain ⟨p, conserved, owed⟩ := Rule.element_conserved root
    have cursor := conserved.reading.cursor
    have all : lexemes tokens = p.lexemes ++ Input.rest ⟨tokens.toArray, limit⟩ t.cursor :=
      conserved.reading.rest
    rw [Input.rest_eq_cons more] at all
    refine ⟨chain, p, _, _, root, all, ?_, refused, owed, ?_⟩
    · simpa [State.place] using cursor
    · rintro inner rfl
      exact owed

/-- Two scopes end where a name stands behind the root. -/
theorem failure_leaves_root_debt_behind :
    let tokens : List Token := [.detached .openCurly "\x7b", .detached .openCurly "\x7b",
      .detached .identifier "x", .detached (.operator .assign) "=", .detached .identifier "y",
      .detached .semicolon ";", .detached .closeCurly "\x7d", .detached .closeCurly "\x7d",
      .detached .identifier "z"]
    ∃ halt t, parse tokens 3 = (.error halt, t) ∧ t.cursor = 8 ∧ t.debt = 2 := by
  intro tokens
  let inner : Phrase (.one .element) := .enclosed (.scope (.plain (.copy "x" "y")) .none)
  let root : Phrase (.one .element) := .enclosed (.scope inner .none)
  have reading : Reading ⟨tokens.toArray, 3⟩ ⟨0, 0⟩ ⟨8, 0⟩ root.lexemes root.nesting :=
    ⟨by decide, rfl, rfl, by decide, by decide⟩
  obtain ⟨events, run⟩ := root.element_readFrom
    { events := [.entered .program (.detached .openCurly "\x7b")] } _ reading trivial
  rcases fails : parse tokens 3 with ⟨halt | chain, t⟩
  · rcases failure_leaves_root_debt tokens 3 fails with ⟨stopped, -⟩ |
      ⟨-, p, next, rest, -, all, cursor, -, owed, -⟩
    · exact absurd (run.symm.trans stopped) (by simp)
    · obtain ⟨rfl, -⟩ := root.unique p [⟨.identifier, "z"⟩] _ trivial trivial all
      exact ⟨halt, t, rfl, cursor, owed⟩
  · obtain ⟨q, all, -⟩ := parse_accepts fails
    obtain ⟨-, none⟩ := root.unique q [⟨.identifier, "z"⟩] [] trivial trivial
      (by rw [List.append_nil]; exact all)
    cases none

end LinkedScopes
