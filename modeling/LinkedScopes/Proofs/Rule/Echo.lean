import LinkedScopes.Proofs.Rule.Step
import LinkedScopes.Rule.Scope

/-! What rules see. A rule sees the kinds and the texts of tokens up to where it ends, and
nothing else of its input: not where tokens stand, nor what comes later, nor how much of it
there is. So on two inputs that look alike up to there it does the same; and if it fails it
finds fault with the same token of each, wherever that one stands.

The bounds on repetition do depend on how much is left. They may differ here, so the two runs
are compared unless one of them reaches its bound. -/
namespace LinkedScopes

/-- Up to an index, two inputs have tokens of the same kinds and texts. -/
structure Input.Resembles (input input' : Input) (last : Nat) : Prop where
  limit : input'.limit = input.limit
  kind : ∀ index ≤ last, (input'.token index).kind = (input.token index).kind
  text : ∀ index ≤ last, (input'.token index).text = (input.token index).text

/-- What a rule can find fault with, by the index of a token. -/
inductive Complaint where
  | unexpected (index : Nat)
  | unexpectedFor (index : Nat) (message : String)
  /-- A reference stands where only a conditional may. -/
  | misplaced (index : Nat)
  /-- The token after a keyword does not open its argument. -/
  | unopened (index : Nat)
  | malformedExpression (index : Nat)
  | malformedNumber (index : Nat)
  | nestingTooDeep (index : Nat)

namespace Complaint

/-- The token that the complaint is about is the one it is placed at, or the one before. -/
def index : Complaint → Nat
  | unexpected index | unexpectedFor index _ | misplaced index | malformedExpression index
  | malformedNumber index | nestingTooDeep index => index
  | unopened index => index + 1

def fault (input : Input) : Complaint → Fault
  | unexpected index => .unexpected (input.token index).text
  | unexpectedFor index message => .unexpectedFor (input.token index).text message
  | misplaced index => .keywordMisused (input.token index).text
      "cannot start a command, only `if` and `while` can"
  | unopened index => .keywordMisused (input.token index).text "must be followed by `(`"
  | malformedExpression index => .malformedExpression (input.token index).text
  | malformedNumber index => .malformedNumber (input.token index).text
  | nestingTooDeep _ => .nestingTooDeep input.limit

def diagnostic (input : Input) (complaint : Complaint) : Diagnostic :=
  ⟨complaint.fault input, (input.token complaint.index).span.start⟩

/-- Only a word can be misused. -/
def Fits (input : Input) : Complaint → Prop
  | misplaced index | unopened index => (input.token index).kind ≠ .endOfInput
  | _ => True

end Complaint

namespace Rule

variable {α β : Type} {input input' : Input} {last : Nat}

/-- Two runs come to the same, unless one reaches its bound. What happened in them may
differ. -/
inductive Echo (input input' : Input) :
    Except Halt α × State → Except Halt α × State → Prop
  | ok {a : α} {t : State} (events : List Event) :
    Echo input input' (.ok a, t) (.ok a, { t with events := events })
  | fault {t : State} (complaint : Complaint) (fits : complaint.Fits input)
      (seen : complaint.index ≤ t.cursor) (events : List Event) :
    Echo input input' (.error (.fault (complaint.diagnostic input)), t)
      (.error (.fault (complaint.diagnostic input')), { t with events := events })
  | exhausted {t : State} {run' : Except Halt α × State} :
    Echo input input' (.error .exhausted, t) run'
  | exhausted' {run : Except Halt α × State} {t : State} :
    Echo input input' run (.error .exhausted, t)

/-- From one state a rule does not go back, and comes to the same as another rule does on
another input, if it ends no later than the inputs look alike. -/
structure Echoes (input input' : Input) (last : Nat) (rule rule' : Rule α) (s : State) :
    Prop where
  forward : s.cursor ≤ (rule.runFrom input s).2.cursor
  echo : (rule.runFrom input s).2.cursor ≤ last → ∀ events,
    Echo input input' (rule.runFrom input s) (rule'.runFrom input' { s with events := events })

/-- From every state two rules come to the same. -/
def Echoing (input input' : Input) (last : Nat) (rule rule' : Rule α) : Prop :=
  ∀ s, Echoes input input' last rule rule' s

variable {s : State}

theorem echoes_pure (a : α) : Echoes input input' last (pure a) (pure a) s :=
  ⟨Nat.le_refl _, fun _ events => .ok events⟩

theorem echoes_exhausted (rule' : Rule α) : Echoes input input' last exhausted rule' s :=
  ⟨Nat.le_refl _, fun _ _ => .exhausted⟩

/-- A rule with no bound left on the other input is no echo that could be wrong. -/
theorem Echoes.unbounded {rule rule' : Rule α} (echoes : Echoes input input' last rule rule' s) :
    Echoes input input' last rule exhausted s :=
  ⟨echoes.forward, fun _ _ => .exhausted'⟩

theorem echoes_fail {fault fault' : Fault} {position position' : Position}
    (complaint : Complaint) (fits : complaint.Fits input) (seen : complaint.index ≤ s.cursor)
    (here : ⟨fault, position⟩ = complaint.diagnostic input)
    (there : s.cursor ≤ last → ⟨fault', position'⟩ = complaint.diagnostic input') :
    Echoes input input' last (fail fault position : Rule α) (fail fault' position') s where
  forward := Nat.le_refl _
  echo := by
    intro within events
    rw [runFrom_fail, runFrom_fail, here, there within]
    exact .fault complaint fits seen events

theorem Echoes.bind {rule rule' : Rule α} {next next' : α → Rule β}
    (first : Echoes input input' last rule rule' s)
    (later : ∀ a t, rule.runFrom input s = (.ok a, t) → s.cursor ≤ t.cursor →
      Echoes input input' last (next a) (next' a) t) :
    Echoes input input' last (rule >>= next) (rule' >>= next') s := by
  have forward := first.forward
  have echo := first.echo
  rcases run : rule.runFrom input s with ⟨halt | a, t⟩
  · rw [run] at forward echo
    have ends : (rule >>= next).runFrom input s = (.error halt, t) := runFrom_bind_of_error run
    refine ⟨?_, ?_⟩
    · rw [ends]
      exact forward
    · intro within events
      rw [ends] at within ⊢
      have same := echo within events
      rw [runFrom_bind]
      rcases run' : rule'.runFrom input' { s with events := events } with ⟨halt' | a', t'⟩ <;>
        rw [run'] at same
      · cases same with
        | fault complaint fits seen events => exact .fault complaint fits seen events
        | exhausted => exact .exhausted
        | exhausted' => exact .exhausted'
      · cases same with
        | exhausted => exact .exhausted
  · rw [run] at forward echo
    have goes : (rule >>= next).runFrom input s = (next a).runFrom input t :=
      runFrom_bind_of_ok run
    have there := later a t run forward
    refine ⟨?_, ?_⟩
    · rw [goes]
      exact Nat.le_trans forward there.forward
    · intro within events
      rw [goes] at within ⊢
      have same := echo (Nat.le_trans there.forward within) events
      rw [runFrom_bind]
      rcases run' : rule'.runFrom input' { s with events := events } with ⟨halt' | a', t'⟩ <;>
        rw [run'] at same
      · cases same with
        | exhausted' => exact .exhausted'
      · cases same with
        | ok events => exact there.echo within events

theorem Echoes.ite {c : Prop} [Decidable c] {yes yes' no no' : Rule α}
    (first : Echoes input input' last yes yes' s) (second : Echoes input input' last no no' s) :
    Echoes input input' last (if c then yes else no) (if c then yes' else no') s := by
  by_cases holds : c
  · rw [if_pos holds, if_pos holds]
    exact first
  · rw [if_neg holds, if_neg holds]
    exact second

/-! What follows a step. -/

section

variable {next next' : Unit → Rule α}

theorem Echoes.emit {event event' : Event}
    (later : Echoes input input' last (next ()) (next' ())
      { s with events := event :: s.events }) :
    Echoes input input' last (emit event >>= next) (emit event' >>= next') s :=
  ⟨later.forward, fun within _ => later.echo within _⟩

theorem Echoes.enter {name : RuleName}
    (later : Echoes input input' last (next ()) (next' ())
      { s with events := .entered name (input.token s.cursor) :: s.events }) :
    Echoes input input' last (enter name >>= next) (enter name >>= next') s :=
  ⟨later.forward, fun within _ => later.echo within _⟩

theorem Echoes.owe
    (later : Echoes input input' last (next ()) (next' ()) { s with debt := s.debt + 1 }) :
    Echoes input input' last (owe >>= next) (owe >>= next') s :=
  ⟨later.forward, fun within _ => later.echo within _⟩

theorem Echoes.ite_emit {c : Prop} [Decidable c] {event : Event}
    (later : ∀ events, Echoes input input' last (next ()) (next' ())
      { s with events := events }) :
    Echoes input input' last (if c then Rule.emit event >>= next else next ())
      (if c then Rule.emit event >>= next' else next' ()) s := by
  by_cases holds : c
  · rw [if_pos holds, if_pos holds]
    exact .emit (later _)
  · rw [if_neg holds, if_neg holds]
    exact later s.events

end

theorem Echoes.takeDebt {next next' : Nat → Rule α}
    (later : Echoes input input' last (next s.debt) (next' s.debt) { s with debt := 0 }) :
    Echoes input input' last (takeDebt >>= next) (takeDebt >>= next') s :=
  ⟨later.forward, fun within _ => later.echo within _⟩

theorem Echoes.get {next next' : State → Rule α}
    (later : ∀ events,
      Echoes input input' last (next s) (next' { s with events := events }) s) :
    Echoes input input' last (get >>= next) (get >>= next') s :=
  ⟨(later s.events).forward, fun within events => (later events).echo within events⟩

theorem Echoes.position {next next' : Position → Rule α}
    (later : Echoes input input' last (next (input.token s.cursor).span.start)
      (next' (input'.token s.cursor).span.start) s) :
    Echoes input input' last (position >>= next) (position >>= next') s :=
  ⟨later.forward, fun within events => later.echo within events⟩

theorem Echoes.bounded {rule rule' : Nat → Rule α}
    (each : ∀ bound bound', Echoes input input' last (rule bound) (rule' bound') s) :
    Echoes input input' last (bounded rule) (bounded rule') s :=
  ⟨(each _ 0).forward, fun within events => (each _ _).echo within events⟩

section

variable (like : input.Resembles input' last)

include like

theorem Echoes.kind {next next' : Kind → Rule α}
    (later : Echoes input input' last (next (input.token s.cursor).kind)
      (next' (input.token s.cursor).kind) s) :
    Echoes input input' last (kind >>= next) (kind >>= next') s where
  forward := later.forward
  echo := by
    intro within events
    rw [runFrom_kind_bind, runFrom_kind_bind, like.kind _ (Nat.le_trans later.forward within)]
    exact later.echo within events

/-- The current token has one kind and one text on both inputs. Where it stands is left to what
complains about it. -/
theorem Echoes.current {next next' : Token → Rule α}
    (later : ∀ token', token'.kind = (input.token s.cursor).kind →
      token'.text = (input.token s.cursor).text →
      (s.cursor ≤ last → token' = input'.token s.cursor) →
      Echoes input input' last (next (input.token s.cursor)) (next' token') s) :
    Echoes input input' last (current >>= next) (current >>= next') s := by
  by_cases within : s.cursor ≤ last
  · have there := later _ (like.kind _ within) (like.text _ within) fun _ => rfl
    exact ⟨there.forward, fun within events => there.echo within events⟩
  · -- The rule ends too late to be compared.
    have there := later _ rfl rfl fun within' => absurd within' within
    refine ⟨there.forward, fun within' => absurd ?_ within⟩
    exact Nat.le_trans there.forward within'

theorem Echoes.advance {next next' : Token → Rule α}
    (later : ∀ token', token'.text = (input.token s.cursor).text →
      Echoes input input' last (next (input.token s.cursor)) (next' token')
        { s with cursor := s.cursor + 1 }) :
    Echoes input input' last (advance >>= next) (advance >>= next') s := by
  have forward : s.cursor ≤ ((Rule.advance >>= next).runFrom input s).2.cursor :=
    Nat.le_trans (Nat.le_succ _) (later _ rfl).forward
  refine ⟨forward, ?_⟩
  intro within events
  exact (later _ (like.text _ (Nat.le_trans forward within))).echo within events

theorem echoes_unexpected (message : String) :
    Echoes input input' last (unexpected message : Rule α) (unexpected message) s := by
  apply Echoes.current like
  intro token' _ text there
  refine echoes_fail (.unexpectedFor s.cursor message) trivial (Nat.le_refl _) rfl ?_
  intro within
  rw [there within]
  rfl

theorem Echoes.expectFor {kind : Kind} {message : String} {next next' : Rule α}
    (later : Echoes input input' last next next' { s with cursor := s.cursor + 1 }) :
    Echoes input input' last (expectFor kind message >>= fun _ => next)
      (expectFor kind message >>= fun _ => next') s := by
  rw [Rule.expectFor, bind_assoc, bind_assoc]
  apply Echoes.kind like
  by_cases is : (input.token s.cursor).kind = kind
  · rw [if_pos is]
    exact .advance like fun _ _ => later
  · rw [if_neg is]
    exact (echoes_unexpected like message).bind fun _ _ run => by cases run

theorem Echoes.expect {kind : Kind} {next next' : Rule α}
    (later : Echoes input input' last next next' { s with cursor := s.cursor + 1 }) :
    Echoes input input' last (expect kind >>= fun _ => next)
      (expect kind >>= fun _ => next') s := by
  rw [Rule.expect, bind_assoc, bind_assoc]
  apply Echoes.current like
  intro token' is text there
  rw [is]
  by_cases is : (input.token s.cursor).kind = kind
  · rw [if_pos is, if_pos is]
    exact .advance like fun _ _ => later
  · rw [if_neg is, if_neg is]
    have complains : Echoes input input' last
        (fail (.unexpected (input.token s.cursor).text) (input.token s.cursor).span.start)
        (fail (.unexpected token'.text) token'.span.start : Rule Token) s := by
      refine echoes_fail (.unexpected s.cursor) trivial (Nat.le_refl _) rfl ?_
      intro within
      rw [there within]
      rfl
    exact complains.bind fun _ _ run => by cases run

theorem Echoes.nested {rule rule' : Rule α}
    (inner : Echoes input input' last rule rule' { s with depth := s.depth + 1 }) :
    Echoes input input' last (nested rule) (nested rule') s := by
  have forward := inner.forward
  have echo := inner.echo
  by_cases full : input.limit ≤ s.depth
  · have run : (Rule.nested rule).runFrom input s = (.error (.fault
        ((Complaint.nestingTooDeep s.cursor).diagnostic input)), s) := by
      rw [runFrom_nested, if_pos full]
      rfl
    refine ⟨?_, ?_⟩
    · exact Nat.le_of_eq (by rw [run])
    · intro within events
      rw [run, runFrom_nested, like.limit, if_pos full, ← like.limit]
      exact .fault (.nestingTooDeep s.cursor) trivial (Nat.le_refl _) events
  · refine ⟨?_, ?_⟩
    · rw [runFrom_nested, if_neg full]
      exact forward
    · intro within events
      rw [runFrom_nested, if_neg full] at within
      rw [runFrom_nested, runFrom_nested, like.limit, if_neg full, if_neg full, runFrom_deeper,
        runFrom_deeper]
      have same := echo within events
      rcases run : rule.runFrom input { s with depth := s.depth + 1 } with ⟨result, t⟩
      rcases run' : rule'.runFrom input' { s with depth := s.depth + 1, events := events }
        with ⟨result', t'⟩
      rw [run, run'] at same
      cases same with
      | ok events => exact .ok (t := { t with depth := t.depth - 1 }) events
      | fault complaint fits seen events =>
        exact .fault (t := { t with depth := t.depth - 1 }) complaint fits seen events
      | exhausted => exact .exhausted
      | exhausted' => exact .exhausted'

/-! Loops, and rules that contain themselves. Two bounds are compared level by level, and where one
is reached the comparison ends. -/

theorem joinsWithin_echoing (ops : List Operator) {operand operand' : Rule Node}
    (operands : Echoing input input' last operand operand') (bound bound' : Nat) (left : Node) :
    Echoing input input' last (joinsWithin ops operand bound left)
      (joinsWithin ops operand' bound' left) := by
  intro s
  induction bound generalizing bound' left s with
  | zero => exact echoes_exhausted _
  | succ bound ih =>
    have step (bound' : Nat) : Echoes input input' last (joinsWithin ops operand (bound + 1) left)
        (joinsWithin ops operand' (bound' + 1) left) s := by
      rw [joinsWithin, joinsWithin]
      apply Echoes.kind like
      cases (input.token s.cursor).kind.operatorAmong ops with
      | none => exact echoes_pure _
      | some op =>
        refine .emit (.advance like fun _ _ => (operands _).bind fun right t _ _ => ?_)
        exact ih bound' (.operation op left right) t
    cases bound' with
    | zero => exact (step 0).unbounded
    | succ bound' => exact step bound'

theorem level_echoing (ops : List Operator) {operand operand' : Rule Node}
    (operands : Echoing input input' last operand operand') :
    Echoing input input' last (level ops operand) (level ops operand') := by
  intro s
  refine (operands s).bind fun first t _ _ => .bounded fun bound bound' => ?_
  exact joinsWithin_echoing like ops operands bound bound' first t

theorem itemsWithin_echoing {item item' : Rule α}
    (items : Echoing input input' last item item') (bound bound' : Nat) (seen : List α) :
    Echoing input input' last (itemsWithin item bound seen) (itemsWithin item' bound' seen) := by
  intro s
  induction bound generalizing bound' seen s with
  | zero => exact echoes_exhausted _
  | succ bound ih =>
    have step (bound' : Nat) : Echoes input input' last (itemsWithin item (bound + 1) seen)
        (itemsWithin item' (bound' + 1) seen) s := by
      rw [itemsWithin, itemsWithin]
      apply Echoes.kind like
      exact .ite (echoes_pure _) ((items s).bind fun a t _ _ => ih bound' (a :: seen) t)
    cases bound' with
    | zero => exact (step 0).unbounded
    | succ bound' => exact step bound'

theorem braced_echoing {item item' : Rule α} (items : Echoing input input' last item item') :
    Echoing input input' last (braced item) (braced item') := by
  intro s
  refine (items s).bind fun first t _ _ => ?_
  have loop : Echoes input input' last (bounded fun bound => itemsWithin item bound [first])
      (bounded fun bound => itemsWithin item' bound [first]) t :=
    .bounded fun bound bound' => itemsWithin_echoing like items bound bound' [first] t
  exact loop.bind fun all u _ _ => .advance like fun _ _ => echoes_pure all

omit like in
/-- Rules around rules that echo each other do so, and so do rules that contain themselves. -/
theorem echoing_within (around : Rule α → Rule α) (family : Nat → Rule α)
    (zero : family 0 = exhausted) (succ : ∀ bound, family (bound + 1) = around (family bound))
    (keeps : ∀ rule rule', Echoing input input' last rule rule' →
      Echoing input input' last (around rule) (around rule')) (bound bound' : Nat) :
    Echoing input input' last (family bound) (family bound') := by
  induction bound generalizing bound' with
  | zero =>
    rw [zero]
    exact fun s => echoes_exhausted _
  | succ bound ih =>
    intro s
    have step (bound' : Nat) :
        Echoes input input' last (family (bound + 1)) (family (bound' + 1)) s := by
      rw [succ, succ]
      exact keeps _ _ (ih bound') s
    cases bound' with
    | zero =>
      rw [zero]
      exact (step 0).unbounded
    | succ bound' => exact step bound'

/-! Expressions. -/

section

variable {expression expression' : Rule Node}
  (inner : Echoing input input' last expression expression')

include inner

theorem closing_echoing {message : String} (result : Node → α) :
    Echoing input input' last
      (do
        let node ← expression
        _ ← expectFor .closeParen message
        return result node)
      (do
        let node ← expression'
        _ ← expectFor .closeParen message
        return result node) :=
  fun s => (inner s).bind fun _ _ _ _ => .expectFor like (echoes_pure _)

theorem referenceOf_echoing :
    Echoing input input' last (referenceOf expression) (referenceOf expression') := by
  intro s
  apply Echoes.enter
  apply Echoes.current like
  intro token' is text there
  simp only at is text there ⊢
  have complains : Echoes input input' last
      (fail (.malformedExpression (input.token s.cursor).text)
        (input.token s.cursor).span.start : Rule Reference)
      (fail (.malformedExpression (input.token s.cursor).text) token'.span.start)
      { s with events := .entered .identifier (input.token s.cursor) :: s.events } := by
    refine echoes_fail (.malformedExpression s.cursor) trivial (Nat.le_refl _) rfl ?_
    intro within
    rw [← text, there within]
    rfl
  rw [is, text]
  cases word : (input.token s.cursor).kind with
  | identifier => exact .advance like fun _ _ => echoes_pure _
  | keyword =>
    refine .advance like fun _ _ => .ite (echoes_pure _) (.kind like (.ite ?_ ?_))
    · apply Echoes.position
      have fits : Complaint.Fits input (.unopened s.cursor) := by simp [Complaint.Fits, word]
      refine echoes_fail (.unopened s.cursor) fits (Nat.le_refl _) rfl ?_
      intro within
      rw [← like.text _ (Nat.le_of_succ_le within)]
      rfl
    · exact .advance like fun _ _ => closing_echoing like inner _ _
  | _ => exact complains

theorem primaryOf_echoing :
    Echoing input input' last (primaryOf expression) (primaryOf expression') := by
  intro s
  apply Echoes.enter
  apply Echoes.current like
  intro token' is text there
  simp only at is text there ⊢
  have complains : Echoes input input' last
      (fail (.malformedNumber (input.token s.cursor).text)
        (input.token s.cursor).span.start : Rule Node)
      (fail (.malformedNumber (input.token s.cursor).text) token'.span.start)
      { s with events := .entered .primary (input.token s.cursor) :: s.events } := by
    refine echoes_fail (.malformedNumber s.cursor) trivial (Nat.le_refl _) rfl ?_
    intro within
    rw [← text, there within]
    rfl
  have refers := (referenceOf_echoing like inner
    { s with events := .entered .primary (input.token s.cursor) :: s.events }).bind
      fun reference t _ _ => echoes_pure reference.node
  rw [is, text]
  cases (input.token s.cursor).kind with
  | openParen => exact .advance like fun _ _ => closing_echoing like inner id _
  | number =>
    cases Binary64.ofText? (input.token s.cursor).text with
    | none => exact complains
    | some value => exact .advance like fun _ _ => echoes_pure _
  | _ => exact refers

theorem powerOf_echoing :
    Echoing input input' last (powerOf expression) (powerOf expression') :=
  level_echoing like _ (primaryOf_echoing like inner)

theorem termOf_echoing :
    Echoing input input' last (termOf expression) (termOf expression') :=
  level_echoing like _ (powerOf_echoing like inner)

end

theorem expression_echoing : Echoing input input' last expression expression := by
  have within := echoing_within
    (fun inner => enter .expression >>= fun _ => nested (level [.add, .sub] (termOf inner)))
    expressionWithin rfl (fun _ => rfl) fun rule rule' inner s =>
      .enter (.nested like (level_echoing like _ (termOf_echoing like inner) _))
  exact fun s => .bounded fun bound bound' => within bound bound' s

/-! Commands and scopes. -/

theorem assignment_echoing : Echoing input input' last assignment assignment := by
  intro s
  refine .enter (.kind like (.ite (echoes_unexpected like _) ?_))
  refine .advance like fun token' text => .current like fun sign' is _ _ => ?_
  simp only [text, Token.isOperator, is]
  refine .ite (echoes_unexpected like _) (.advance like fun _ _ => ?_)
  exact (expression_echoing like _).bind fun value t _ _ => echoes_pure _

omit like in
theorem word_of_reference {expression : Rule Node} {reference : Reference} {t : State}
    (run : (referenceOf expression).runFrom input s = (.ok reference, t)) :
    reference.word = (input.token s.cursor).text ∧
      (input.token s.cursor).kind ≠ .endOfInput := by
  simp only [referenceOf, runFrom_enter_bind, runFrom_current_bind] at run
  split at run
  · next is =>
    rw [runFrom_advance_bind] at run
    obtain ⟨rfl, -⟩ := runFrom_pure_ok_iff.mp run
    exact ⟨rfl, by simp [is]⟩
  · next is =>
    refine ⟨?_, by simp [is]⟩
    rw [runFrom_advance_bind] at run
    split at run
    · obtain ⟨rfl, -⟩ := runFrom_pure_ok_iff.mp run
      rfl
    · rw [runFrom_kind_bind] at run
      split at run
      · cases run
      · rw [runFrom_advance_bind] at run
        obtain ⟨argument, u, -, run⟩ := runFrom_bind_ok_iff.mp run
        obtain ⟨_, v, -, run⟩ := runFrom_bind_ok_iff.mp run
        obtain ⟨rfl, -⟩ := runFrom_pure_ok_iff.mp run
        rfl
  · cases run

/-- What is refused as the start of a conditional is reported where it starts, after all of it has
been read. -/
theorem headWord_echoing : Echoing input input' last headWord headWord := by
  intro s
  apply Echoes.position
  refine (referenceOf_echoing like (expression_echoing like) s).bind
    fun reference t run passed => ?_
  obtain ⟨word, fits⟩ := word_of_reference run
  have refused : Echoes input input' last
      (fail (.keywordMisused reference.word "cannot start a command, only `if` and `while` can")
        (input.token s.cursor).span.start : Rule String)
      (fail (.keywordMisused reference.word "cannot start a command, only `if` and `while` can")
        (input'.token s.cursor).span.start) t := by
    rw [word]
    refine echoes_fail (.misplaced s.cursor) fits passed rfl ?_
    intro within
    rw [← like.text _ (Nat.le_trans passed within)]
    rfl
  cases reference with
  | head => exact echoes_pure _
  | _ => exact refused

theorem bodyOf_echoing {command command' : Rule Chain}
    (inner : Echoing input input' last command command') :
    Echoing input input' last (bodyOf command) (bodyOf command') := by
  intro s
  refine .kind like (.ite (.advance like fun _ _ => ?_) (inner s))
  exact (braced_echoing like inner _).bind fun links t _ _ => echoes_pure _

theorem conditionalOf_echoing {command command' : Rule Chain}
    (inner : Echoing input input' last command command') :
    Echoing input input' last (conditionalOf command) (conditionalOf command') := by
  intro s
  refine .nested like (.enter ((headWord_echoing like _).bind fun word t _ _ => ?_))
  refine .expectFor like ((expression_echoing like _).bind fun condition u _ _ => ?_)
  exact .expectFor like ((bodyOf_echoing like inner _).bind fun body v _ _ => echoes_pure _)

theorem commandOf_echoing {conditional conditional' : Rule Node}
    (inner : Echoing input input' last conditional conditional') :
    Echoing input input' last (commandOf conditional) (commandOf conditional') := by
  intro s
  refine .enter (.takeDebt (.kind like (.ite ?_ ?_)))
  · exact (inner _).bind fun node t _ _ => .ite_emit fun _ => echoes_pure _
  · refine (assignment_echoing like _).bind fun node t _ _ => .expect like ?_
    rw [pure_bind]
    exact .ite_emit fun _ => echoes_pure _

theorem command_echoing : Echoing input input' last command command := by
  have within := echoing_within (fun inner => commandOf (conditionalOf inner)) commandWithin rfl
    (fun _ => rfl) fun rule rule' inner => commandOf_echoing like (conditionalOf_echoing like inner)
  exact fun s => .bounded fun bound bound' => within bound bound' s

theorem scopeOf_echoing {element element' : Rule Chain}
    (inner : Echoing input input' last element element') :
    Echoing input input' last (scopeOf element) (scopeOf element') := by
  intro s
  refine .nested like (.enter (.expectFor like (.takeDebt (.ite_emit fun _ => ?_))))
  refine (braced_echoing like inner _).bind fun links t _ _ => .owe (.get fun _ => .emit ?_)
  exact .ite_emit fun _ => echoes_pure _

theorem element_echoing : Echoing input input' last element element := by
  have within := echoing_within
    (fun inner => kind >>= fun kind => if kind = .openCurly then scopeOf inner else command)
    elementWithin rfl (fun _ => rfl) fun rule rule' inner s =>
      .kind like (.ite (scopeOf_echoing like inner s) (command_echoing like s))
  exact fun s => .bounded fun bound bound' => within bound bound' s

theorem program_echoing : Echoing input input' last program program := by
  intro s
  refine .enter ((element_echoing like _).bind fun root t _ _ => .kind like (.ite ?_ ?_))
  · exact echoes_unexpected like _
  · exact .takeDebt (.ite_emit fun _ => echoes_pure _)

end

end Rule
end LinkedScopes
