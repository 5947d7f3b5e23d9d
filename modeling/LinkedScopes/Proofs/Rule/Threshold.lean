import LinkedScopes.Proofs.Rule.Built

/-! The limit is a threshold. Below it a rule runs into the limit, the later the higher the
limit is; from it on the limit makes no difference. -/
namespace LinkedScopes.Rule

theorem Built.cursor_le {α : Type} {rule : Rule α} (built : Built rule) (input : Input)
    (s : State) : s.cursor ≤ (rule.runFrom input s).2.cursor := by
  induction built generalizing s with
  | pure | current | emit | fail | exhausted | takeDebt | owe => exact Nat.le_refl _
  | advance => exact Nat.le_succ _
  | bind first later ih ihs =>
    have here := ih s
    rw [runFrom_bind]
    split
    · next a t run =>
      rw [run] at here
      exact Nat.le_trans here (ihs a t)
    · next halt t run =>
      rw [run] at here
      exact here
  | debt later only ihs => exact ihs s s
  | nested inner ih =>
    rw [runFrom_nested]
    split
    · exact Nat.le_refl _
    · exact ih { s with depth := s.depth + 1 }
  | bounded each ihs => exact ihs _ s

def StopsAt {α : Type} (limit : Nat) (outcome : Except Halt α × State) : Prop :=
  ∃ position, outcome.1 = .error (.fault ⟨.nestingTooDeep limit, position⟩)

/-- Runs under every limit, all of one kind from a threshold on, and stopped at their limits
below it, none later than the runs under higher ones. -/
structure Threshold {α : Type} (run : Nat → Except Halt α × State) (threshold : Nat) : Prop where
  above : ∀ limit, threshold ≤ limit → run limit = run threshold
  below : ∀ limit, limit < threshold → StopsAt limit (run limit)
  forward : ∀ limit higher, limit ≤ higher → (run limit).2.cursor ≤ (run higher).2.cursor

/-- The runs of a rule have a threshold. -/
def Thresholded {α : Type} (rule : Rule α) : Prop :=
  ∀ tokens s, ∃ threshold, Threshold (fun limit => rule.runFrom ⟨tokens, limit⟩ s) threshold

section

variable {α β : Type}

theorem Threshold.of_const {run : Nat → Except Halt α × State}
    (same : ∀ limit, run limit = run 0) : Threshold run 0 where
  above limit _ := same limit
  below _ low := absurd low (Nat.not_lt_zero _)
  forward limit higher _ := Nat.le_of_eq (by rw [same limit, same higher])

/-- Runs that stop below one limit and from it on are as some others with a threshold have the
higher of the two as theirs. -/
theorem Threshold.extend {run run' : Nat → Except Halt α × State} {low high : Nat}
    (stops : ∀ limit, limit < low → StopsAt limit (run limit))
    (early : ∀ limit higher, limit < low → limit ≤ higher →
      (run limit).2.cursor ≤ (run higher).2.cursor)
    (goes : ∀ limit, low ≤ limit → run limit = run' limit) (there : Threshold run' high) :
    Threshold run (max low high) := by
  refine ⟨?_, ?_, ?_⟩
  · intro limit le
    rw [goes limit (by omega), goes (max low high) (by omega), there.above limit (by omega),
      there.above (max low high) (by omega)]
  · intro limit below
    by_cases first : limit < low
    · exact stops limit first
    · rw [goes limit (by omega)]
      exact there.below limit (by omega)
  · intro limit higher le
    by_cases below : limit < low
    · exact early limit higher below le
    · rw [goes limit (by omega), goes higher (by omega)]
      exact there.forward limit higher le

variable {rule : Rule α} {next : α → Rule β} {input : Input} {s : State}

theorem StopsAt.bind {limit : Nat} (stops : StopsAt limit (rule.runFrom input s)) :
    StopsAt limit ((rule >>= next).runFrom input s) ∧
      ((rule >>= next).runFrom input s).2 = (rule.runFrom input s).2 := by
  obtain ⟨position, halt⟩ := stops
  have run : rule.runFrom input s =
      (.error (.fault ⟨.nestingTooDeep limit, position⟩), (rule.runFrom input s).2) := by
    rw [← halt]
  rw [runFrom_bind_of_error run]
  exact ⟨⟨position, rfl⟩, rfl⟩

theorem cursor_le_bind (forward : ∀ a t, t.cursor ≤ ((next a).runFrom input t).2.cursor) :
    (rule.runFrom input s).2.cursor ≤ ((rule >>= next).runFrom input s).2.cursor := by
  rw [runFrom_bind]
  rcases rule.runFrom input s with ⟨halt | a, t⟩
  · exact Nat.le_refl _
  · exact forward a t

theorem thresholded_bind (first : Thresholded rule) (later : ∀ a, Thresholded (next a))
    (forward : ∀ a input t, t.cursor ≤ ((next a).runFrom input t).2.cursor) :
    Thresholded (rule >>= next) := by
  intro tokens s
  obtain ⟨low, here⟩ := first tokens s
  have stops : ∀ limit, limit < low →
      StopsAt limit ((rule >>= next).runFrom ⟨tokens, limit⟩ s) := by
    intro limit below
    exact (here.below limit below).bind.1
  -- A run that stops in the first part, against any run under a higher limit.
  have early : ∀ limit higher, limit < low → limit ≤ higher →
      ((rule >>= next).runFrom ⟨tokens, limit⟩ s).2.cursor ≤
        ((rule >>= next).runFrom ⟨tokens, higher⟩ s).2.cursor := by
    intro limit higher below le
    rw [(here.below limit below).bind.2]
    exact Nat.le_trans (here.forward limit higher le) (cursor_le_bind fun a => forward a _)
  rcases run : rule.runFrom ⟨tokens, low⟩ s with ⟨halt | a, t⟩
  · have ends : ∀ limit, low ≤ limit →
        (rule >>= next).runFrom ⟨tokens, limit⟩ s = (.error halt, t) := by
      intro limit le
      exact runFrom_bind_of_error ((here.above limit le).trans run)
    exact ⟨_, .extend stops early ends (.of_const fun _ => rfl)⟩
  · obtain ⟨high, there⟩ := later a tokens t
    have goes : ∀ limit, low ≤ limit →
        (rule >>= next).runFrom ⟨tokens, limit⟩ s = (next a).runFrom ⟨tokens, limit⟩ t := by
      intro limit le
      exact runFrom_bind_of_ok ((here.above limit le).trans run)
    exact ⟨_, .extend stops early goes there⟩

theorem Threshold.deeper {tokens : Array Token} {threshold : Nat}
    (inner : Threshold (fun limit =>
      rule.runFrom ⟨tokens, limit⟩ { s with depth := s.depth + 1 }) threshold) :
    Threshold (fun limit => (deeper rule).runFrom ⟨tokens, limit⟩ s) threshold where
  above limit le := by rw [runFrom_deeper, runFrom_deeper, inner.above limit le]
  below := inner.below
  forward := inner.forward

theorem thresholded_nested (inner : Thresholded rule)
    (forward : ∀ input t, t.cursor ≤ ((nested rule).runFrom input t).2.cursor) :
    Thresholded (nested rule) := by
  intro tokens s
  obtain ⟨high, there⟩ := inner tokens { s with depth := s.depth + 1 }
  have full : ∀ limit, limit < s.depth + 1 → (nested rule).runFrom ⟨tokens, limit⟩ s =
      (.error (.fault ⟨.nestingTooDeep limit, (Input.token ⟨tokens, limit⟩ s.cursor).span.start⟩),
        s) := by
    intro limit lt
    rw [runFrom_nested, if_pos (Nat.le_of_lt_succ lt)]
  have stops : ∀ limit, limit < s.depth + 1 →
      StopsAt limit ((nested rule).runFrom ⟨tokens, limit⟩ s) := by
    intro limit lt
    rw [full limit lt]
    exact ⟨_, rfl⟩
  have early : ∀ limit higher, limit < s.depth + 1 → limit ≤ higher →
      ((nested rule).runFrom ⟨tokens, limit⟩ s).2.cursor ≤
        ((nested rule).runFrom ⟨tokens, higher⟩ s).2.cursor := by
    intro limit higher lt _
    rw [full limit lt]
    exact forward ⟨tokens, higher⟩ s
  have enters : ∀ limit, s.depth + 1 ≤ limit → (nested rule).runFrom ⟨tokens, limit⟩ s =
      (Rule.deeper rule).runFrom ⟨tokens, limit⟩ s := by
    intro limit le
    rw [runFrom_nested, if_neg (Nat.not_le.mpr le)]
  exact ⟨_, .extend stops early enters there.deeper⟩

end

theorem Built.thresholded {α : Type} {rule : Rule α} (built : Built rule) : Thresholded rule := by
  induction built with
  | pure | current | advance | emit | fail | exhausted | takeDebt | owe =>
    exact fun tokens s => ⟨0, .of_const fun _ => rfl⟩
  | bind first later ih ihs =>
    exact thresholded_bind ih ihs fun a => (later a).cursor_le
  | debt later only ihs => exact fun tokens s => ihs s tokens s
  | nested inner ih => exact thresholded_nested ih inner.nested.cursor_le
  | bounded each ihs =>
    exact fun tokens s => ihs (Input.remaining ⟨tokens, 0⟩ s.cursor + 1) tokens s

end LinkedScopes.Rule
