import LinkedScopes.Proofs.Grammar.Completeness
import LinkedScopes.Proofs.Grammar.Soundness
import LinkedScopes.Proofs.Grammar.Uniqueness
import LinkedScopes.Proofs.Nesting.Shape

/-! Scopes are recovered from a chain by replaying it. A replay keeps what stands in the
innermost open scope apart from what stands in each scope around it; the links open and
close scopes and place their commands. Closing what an item leaves owed places the item where
the scopes were closed that it found owed. -/
namespace LinkedScopes

/-- What has been placed in the innermost open scope, and in the ones around it outwards. The
last of them is no scope but the top of the program. -/
structure Replay where
  inner : List Item := []
  outer : List (List Item) := []

namespace Replay

def place (item : Item) (r : Replay) : Replay := { r with inner := r.inner ++ [item] }

def enter (r : Replay) : Replay := ⟨[], r.inner :: r.outer⟩

def leave (r : Replay) : Replay :=
  match r.outer with
  | [] => r
  | above :: outer => ⟨above ++ [.scope r.inner], outer⟩

def mark (marker : Marker) (r : Replay) : Replay :=
  match marker with
  | .statement => r
  | .scopeOpen => r.enter
  | .scopeClose => r.leave

/-- A link marks first, then its command is placed. -/
def step (r : Replay) (link : Link) : Replay :=
  match link.command with
  | none => r.mark link.marker
  | some c => (r.mark link.marker).place (.command c)

def run (r : Replay) (chain : Chain) : Replay := chain.foldl step r

def leaveMany (count : Nat) (r : Replay) : Replay := Nat.repeat leave count r

def finish (r : Replay) : List Item := (r.leaveMany r.outer.length).inner

end Replay

/-- The forest of scopes that the replay of a chain builds. -/
def Chain.forest (chain : Chain) : List Item := (Replay.run {} chain).finish

namespace Replay

variable {r : Replay}

@[simp] theorem run_nil : r.run [] = r := rfl

@[simp] theorem run_cons (link : Link) (chain : Chain) :
    r.run (link :: chain) = (r.step link).run chain := rfl

@[simp] theorem run_append (a b : Chain) : r.run (a ++ b) = (r.run a).run b :=
  List.foldl_append

theorem leaveMany_succ (count : Nat) : r.leaveMany (count + 1) = (r.leaveMany count).leave := rfl

theorem leaveMany_leave (count : Nat) : r.leave.leaveMany count = (r.leaveMany count).leave := by
  induction count with
  | zero => rfl
  | succ count ih => rw [leaveMany_succ, ih, leaveMany_succ]

theorem run_closes (count : Nat) : r.run (Chain.closes count) = r.leaveMany count := by
  induction count generalizing r with
  | zero => rfl
  | succ count ih =>
    rw [Chain.closes, List.replicate_succ, run_cons]
    exact ih.trans (leaveMany_leave count)

theorem run_settle (owed : Nat) (c : Node) :
    r.run (Chain.settle owed c) = (r.leaveMany owed).place (.command c) := by
  cases owed with
  | zero => rfl
  | succ owed =>
    rw [Chain.settle, run_append, run_closes]
    rfl

theorem run_wrap (count : Nat) (chain : Chain) :
    r.run (chain.wrap count) = (r.leaveMany count).run chain := by
  rw [Chain.wrap, run_append, run_closes]

theorem run_openScope {chain : Chain} (opens : chain.Opens) :
    r.run chain.openScope = r.enter.run chain := by
  obtain ⟨⟨marker, command⟩, rest, rfl, plain⟩ := opens
  cases marker with
  | statement => cases command <;> rfl
  | scopeOpen => rfl
  | scopeClose => exact absurd rfl plain

theorem finish_leave (r : Replay) : r.leave.finish = r.finish := by
  obtain ⟨inner, outer⟩ := r
  cases outer with
  | nil => rfl
  | cons above outer =>
    have last : (leave ⟨inner, above :: outer⟩).outer.length = outer.length := rfl
    rw [finish, last, leaveMany_leave, ← leaveMany_succ]
    rfl

theorem finish_leaveMany (count : Nat) : (r.leaveMany count).finish = r.finish := by
  induction count with
  | zero => rfl
  | succ count ih => rw [leaveMany_succ, finish_leave, ih]

theorem leaveMany_of_outer_nil (count : Nat) (top : r.outer = []) : r.leaveMany count = r := by
  induction count with
  | zero => rfl
  | succ count ih =>
    rw [leaveMany_succ, ih, leave]
    simp only [top]

end Replay

namespace Item

variable {valid : Node → Prop}

/-- Replaying the links of an item and closing what it leaves owed is closing what was owed
before it and placing it. -/
def Replays (item : Item) : Prop :=
  ∀ (r : Replay) (owed : Nat),
    (r.run (item.chain owed)).leaveMany item.debt = (r.leaveMany owed).place item

theorem leaveMany_run_chains {items : List Item} (each : ∀ item ∈ items, item.Replays)
    (r : Replay) (owed : Nat) :
    (r.run (chains owed items).flatten).leaveMany (debts owed items) =
      { r.leaveMany owed with inner := (r.leaveMany owed).inner ++ items } := by
  induction items generalizing r owed with
  | nil => simp [chains, debts]
  | cons first rest ih =>
    have placed := each first List.mem_cons_self r owed
    rw [chains, List.flatten_cons, Replay.run_append, debts,
      ih (fun item member => each item (List.mem_cons_of_mem _ member)), placed]
    simp [Replay.place]

theorem Formed.replays {item : Item} (formed : item.Formed valid) : item.Replays := by
  induction formed with
  | command is =>
    intro r owed
    exact Replay.run_settle owed _
  | @scope items some each ih =>
    intro r owed
    have opens : Chain.Opens (chains 0 items).flatten := opens_chains some each
    rw [chain, Replay.run_wrap, Replay.run_openScope opens, debt, Replay.leaveMany_succ,
      leaveMany_run_chains ih]
    rfl

/-- The replay of a program's chain is the program. -/
theorem Formed.forest_program {item : Item} (formed : item.Formed valid) :
    item.program.forest = [item] := by
  have replayed := formed.replays {} 0
  rw [Chain.forest, program, Replay.run_wrap, Replay.leaveMany_of_outer_nil _ rfl,
    ← Replay.finish_leaveMany item.debt, replayed]
  rfl

end Item

/-- Scopes are recovered from the chain of an accepted program. The forest that the replay of
the chain builds is the one element that the tokens derive, with its scopes, its commands and
their order, so another list of tokens has the same chain only if it has the same scopes. The
braces of a body are part of a command and no scope. -/
theorem forest_of_parse {tokens : List Token} {limit : Nat} {chain : Chain} {t : State}
    (run : parse tokens limit = (.ok chain, t)) :
    ∃ p : Phrase (.one .element), p.lexemes = lexemes tokens ∧
      (∀ q : Phrase (.one .element), q.lexemes = lexemes tokens → q = p) ∧
      chain.forest = [p.value] ∧
      ∀ tokens' limit' t', parse tokens' limit' = (.ok chain, t') →
        ∀ q : Phrase (.one .element), q.lexemes = lexemes tokens' → q.value = p.value := by
  obtain ⟨p, derives, -, -, rfl, -⟩ := parse_accepts run
  have forest := p.value_valid.forest_program
  refine ⟨p, derives.symm, ?_, forest, ?_⟩
  · intro q same
    exact Phrase.eq_of_lexemes_eq (same.trans derives)
  · intro tokens' limit' t' run' q same
    obtain ⟨q', derives', -, -, chain, -⟩ := parse_accepts run'
    obtain rfl := Phrase.eq_of_lexemes_eq (same.trans derives')
    have forest' := q.value_valid.forest_program
    rw [← chain, forest] at forest'
    exact (List.singleton_inj.mp forest').symm

/-- A scope in a scope, and a command after it: both closes are placed away from where the
scopes end. -/
theorem forest_of_parse_inner :
    let tokens : List Token := [.detached .openCurly "\x7b", .detached .openCurly "\x7b",
      .detached .identifier "x", .detached (.operator .assign) "=", .detached .identifier "y",
      .detached .semicolon ";", .detached .closeCurly "\x7d", .detached .identifier "y",
      .detached (.operator .assign) "=", .detached .identifier "x", .detached .semicolon ";",
      .detached .closeCurly "\x7d"]
    ∃ chain t, parse tokens 3 = (.ok chain, t) ∧ chain.forest =
      [.scope [.scope [.command (.assignment "x" (.var "y"))],
        .command (.assignment "y" (.var "x"))]] := by
  intro tokens
  let program : Phrase (.one .element) := .enclosed (.scope
    (.enclosed (.scope (.plain (.copy "x" "y")) .none)) (.more (.plain (.copy "y" "x")) .none))
  have derives : program.lexemes = lexemes tokens := by decide
  have readable : ∀ lexeme ∈ program.lexemes, lexeme.Readable := by decide
  have fits : program.nesting ≤ 3 := by decide
  obtain ⟨events, run⟩ := parse_returns program derives readable fits
  obtain ⟨p, same, -, forest, -⟩ := forest_of_parse run
  obtain rfl : p = program := Phrase.eq_of_lexemes_eq (same.trans derives.symm)
  exact ⟨_, _, run, forest⟩

end LinkedScopes
