import LinkedScopes.Proofs.Scan.Gap
import LinkedScopes.Token.Cursor

/-! The scanning loop. A scanner carries the text that is left beside its offset, and the two never
part: at the head of every iteration the text left is the source from that offset on. So a cursor
there reads it and cuts no character. An iteration that goes on passes a byte at least, and so
there are no more iterations than bytes. -/
namespace LinkedScopes

open Text

/-- The cursor that reads the source is where a scanner of it is. -/
structure Cursor.Beside (c : Cursor) (source : Source) (s : Scanner) : Prop where
  source : c.source = source
  offset : c.offset.toNat = s.offset

/-- A cursor moves on as long as its offset fits. -/
theorem Cursor.exists_advance? {c : Cursor} {bytes : Nat}
    (fits : c.offset.toNat + bytes < UInt64.size) :
    ∃ next, c.advance? bytes = some next ∧ next.source = c.source ∧
      next.offset.toNat = c.offset.toNat + bytes := by
  cases moved : c.offsetAfter? bytes with
  | none => exact absurd (offsetAfter?_eq_none_iff.mp moved) (Nat.not_le.mpr fits)
  | some offset =>
    refine ⟨{ c with offset }, by simp [advance?, moved], rfl, ?_⟩
    exact toNat_of_offsetAfter? moved

namespace Scanner

variable {source : Source} {file : String} {s next : Scanner} {n : Nat}

/-- The scanner at the head of the loop, after so many iterations that went on. -/
inductive Iterates (source : Source) : Nat → Scanner → Prop
  | start : Iterates source 0 (start source)
  | next {n : Nat} {s next : Scanner} (earlier : Iterates source n s) (goes : s.rest ≠ [])
    (step : s.step source.file = .ok next) : Iterates source (n + 1) next

/-- The text left is the source from the offset on, and no character is cut there. -/
def OnBoundary (source : Source) (s : Scanner) : Prop :=
  ∃ before, source.text.toList = before ++ s.rest ∧ s.offset = width before

theorem exists_lexeme_of_step (step : s.step file = .ok next) : ∃ lexeme, lexeme ≠ [] ∧
    s.rest = lexeme ++ next.rest ∧ next.offset = s.offset + width lexeme := by
  unfold Scanner.step at step
  split at step
  · cases step
  · next p found =>
    cases step
    have parts := List.prefix_iff_eq_append.mp (p.lexeme_isPrefix s.rest)
    exact ⟨p.lexeme s.rest, Pattern.lexeme_ne_nil found, parts.symm, rfl⟩

theorem offset_lt_of_step (step : s.step file = .ok next) : s.offset < next.offset := by
  obtain ⟨lexeme, nonempty, -, passed⟩ := exists_lexeme_of_step step
  have some := width_lt_append [] nonempty
  simp only [width_nil, List.nil_append] at some
  omega

namespace OnBoundary

theorem start (source : Source) : OnBoundary source (start source) := ⟨[], rfl, rfl⟩

theorem step (here : OnBoundary source s) (step : s.step file = .ok next) :
    OnBoundary source next := by
  obtain ⟨before, parts, place⟩ := here
  obtain ⟨lexeme, -, text, passed⟩ := exists_lexeme_of_step step
  refine ⟨before ++ lexeme, ?_, ?_⟩
  · rw [parts, text, List.append_assoc]
  · rw [passed, place, width_append]

theorem offset_add_width (here : OnBoundary source s) :
    s.offset + width s.rest = source.text.utf8ByteSize := by
  obtain ⟨before, parts, place⟩ := here
  rw [place, ← width_append, ← parts, width_ofList, String.ofList_toList]

theorem rest_eq_nil_iff (here : OnBoundary source s) :
    s.rest = [] ↔ source.text.utf8ByteSize ≤ s.offset := by
  rw [← here.offset_add_width]
  constructor
  · intro ended
    simp [ended]
  · intro ends
    by_contra goes
    have some := width_lt_append [] goes
    simp only [width_nil, List.nil_append] at some
    omega

theorem afterBytes?_eq (here : OnBoundary source s) :
    afterBytes? s.offset source.text.toList = some s.rest := by
  obtain ⟨before, parts, place⟩ := here
  rw [parts, place, afterBytes?_width]

end OnBoundary

theorem Iterates.onBoundary (iterates : Iterates source n s) : OnBoundary source s := by
  induction iterates with
  | start => exact .start source
  | next earlier goes step ih => exact ih.step step

/-- Each iteration so far has passed a byte. -/
theorem Iterates.le_offset (iterates : Iterates source n s) : n ≤ s.offset := by
  induction iterates with
  | start => exact Nat.zero_le _
  | next earlier goes step ih => exact Nat.lt_of_le_of_lt ih (offset_lt_of_step step)

theorem Iterates.tokens_eq (iterates : Iterates source n s) :
    source.tokens = s.outcome source.file := by
  induction iterates with
  | start => exact source.tokens_eq_outcome
  | next earlier goes step ih => rw [ih, outcome_of_step_ok goes step]

/-- What holds at the head of an iteration. -/
structure Safe (source : Source) (s : Scanner) : Prop where
  inside : s.offset ≤ source.text.utf8ByteSize
  boundary : OnBoundary source s
  /-- A cursor beside the scanner reads the text left, its first character, and whether there is
  one. -/
  reads : ∀ c : Cursor, c.Beside source s → c.remainder? = some (String.ofList s.rest) ∧
    c.current? = some (s.rest.head?.getD '\x00') ∧ (c.atEnd = true ↔ s.rest = [])
  /-- The iteration returns the diagnostic, or goes on further in the source, and then a cursor
  can follow. -/
  advances : s.rest ≠ [] →
    (∃ d, s.step source.file = .error d ∧ source.tokens = .error d) ∨
    ∃ next, s.step source.file = .ok next ∧ s.offset < next.offset ∧
      ∀ c : Cursor, c.Beside source s → source.text.utf8ByteSize < UInt64.size →
        ∃ c', c.advance? (next.offset - s.offset) = some c' ∧ c'.Beside source next

/-- The loop ends with so many iterations: at the end of the source, or by the last of them, which
returns a diagnostic. -/
inductive EndsAfter (source : Source) : Nat → Prop
  | ended {n : Nat} {s : Scanner} (iterates : Iterates source n s) (ended : s.rest = [])
    (returns : source.tokens =
      .ok (s.tokens.reverse ++ [.endOfInput (.ofBytes s.offset source.file)])) :
    EndsAfter source n
  | refused {n : Nat} {s : Scanner} {d : Diagnostic} (iterates : Iterates source n s)
    (goes : s.rest ≠ []) (step : s.step source.file = .error d)
    (returns : source.tokens = .error d) : EndsAfter source (n + 1)

theorem OnBoundary.inside (here : OnBoundary source s) :
    s.offset ≤ source.text.utf8ByteSize := by
  rw [← here.offset_add_width]
  exact Nat.le_add_right _ _

theorem OnBoundary.reads (here : OnBoundary source s) {c : Cursor} (beside : c.Beside source s) :
    c.remainder? = some (String.ofList s.rest) ∧
      c.current? = some (s.rest.head?.getD '\x00') ∧ (c.atEnd = true ↔ s.rest = []) := by
  have slice : afterBytes? c.offset.toNat c.source.text.toList = some s.rest := by
    rw [beside.source, beside.offset, here.afterBytes?_eq]
  refine ⟨by simp [Cursor.remainder?, slice], by simp [Cursor.current?, slice], ?_⟩
  simp only [Cursor.atEnd, decide_eq_true_eq, beside.source, beside.offset, width_ofList,
    String.ofList_toList]
  exact here.rest_eq_nil_iff.symm

/-- A cursor goes where an iteration does, unless the source is too long for its offset. -/
theorem OnBoundary.follows (here : OnBoundary source s) (step : s.step source.file = .ok next)
    {c : Cursor} (beside : c.Beside source s)
    (short : source.text.utf8ByteSize < UInt64.size) :
    ∃ c', c.advance? (next.offset - s.offset) = some c' ∧ c'.Beside source next := by
  have forward := offset_lt_of_step step
  have inside := (here.step step).inside
  have there : c.offset.toNat + (next.offset - s.offset) = next.offset := by
    rw [beside.offset]
    omega
  have fits : c.offset.toNat + (next.offset - s.offset) < UInt64.size := by omega
  obtain ⟨c', moved, source, offset⟩ := Cursor.exists_advance? fits
  exact ⟨c', moved, source.trans beside.source, offset.trans there⟩

theorem Iterates.safe (iterates : Iterates source n s) : Safe source s where
  inside := iterates.onBoundary.inside
  boundary := iterates.onBoundary
  reads := fun c => iterates.onBoundary.reads
  advances := by
    intro goes
    cases step : s.step source.file with
    | error d =>
      have returns := iterates.tokens_eq.trans (outcome_of_step_error goes step)
      exact .inl ⟨d, rfl, returns⟩
    | ok next =>
      exact .inr ⟨next, rfl, offset_lt_of_step step, fun c => iterates.onBoundary.follows step⟩

theorem Iterates.exists_endsAfter {n : Nat} {s : Scanner} (iterates : Iterates source n s) :
    ∃ m, EndsAfter source m := by
  by_cases ended : s.rest = []
  · exact ⟨n, .ended iterates ended (iterates.tokens_eq.trans (outcome_of_ended ended))⟩
  · rcases iterates.safe.advances ended with ⟨d, step, returns⟩ | ⟨next, step, -⟩
    · exact ⟨n + 1, .refused iterates ended step returns⟩
    · have shorter := step_shorter step
      exact (Iterates.next iterates ended step).exists_endsAfter
termination_by s.rest.length

theorem EndsAfter.le (ends : EndsAfter source n) : n ≤ source.text.utf8ByteSize := by
  cases ends with
  | ended iterates => exact Nat.le_trans iterates.le_offset iterates.onBoundary.inside
  | refused iterates goes =>
    have before := iterates.le_offset
    have left := iterates.onBoundary.rest_eq_nil_iff.not.mp goes
    omega

end Scanner

/-- At every iteration of scanning the offset is inside the source and cuts no character, so that
the source can be read there; and the iteration returns a diagnostic or passes a byte. The loop
ends, and with no more iterations than the source has bytes. -/
theorem scanning_advances (source : Source) :
    (∀ n s, Scanner.Iterates source n s → s.Safe source) ∧
    (∃ n, Scanner.EndsAfter source n) ∧
    ∀ n, Scanner.EndsAfter source n → n ≤ source.text.utf8ByteSize :=
  ⟨fun _ _ iterates => iterates.safe, Scanner.Iterates.start.exists_endsAfter,
    fun _ ends => ends.le⟩

/-- Behind a comment of wide characters a cursor reads on at the line feed. -/
theorem scanning_advances_commented :
    let source : Source := ⟨"//é\n1", "a"⟩
    let s : Scanner := ⟨4, ['\n', '1'], []⟩
    Scanner.Iterates source 1 s ∧ s.Safe source ∧ ∃ n, Scanner.EndsAfter source n ∧ n ≤ 6 ∧
      Cursor.remainder? ⟨source, 4⟩ = some "\n1" := by
  intro source s
  have text : source.text.toList = ['/', '/', 'é'] ++ ['\n', '1'] := String.toList_ofList
  have munch : Munch ['/', '/', 'é'] ['\n', '1'] none :=
    .comment (by decide) fun c head => (Option.some.inj head).symm
  have passes : (Scanner.start source).pass "a" ['/', '/', 'é'] none = s := by
    simp only [Scanner.start, Scanner.pass, text]
    rfl
  have comment : (Scanner.start source).step "a" = .ok s := by
    rw [Scanner.step_of_munch text munch, passes]
  have iterates : Scanner.Iterates source 1 s :=
    .next .start (by simp [Scanner.start, text]) comment
  obtain ⟨safe, ⟨n, ends⟩, bound⟩ := scanning_advances source
  obtain ⟨reads, -⟩ := (safe 1 s iterates).reads ⟨source, 4⟩ ⟨rfl, rfl⟩
  exact ⟨iterates, safe 1 s iterates, n, ends, bound n ends, reads⟩

end LinkedScopes
