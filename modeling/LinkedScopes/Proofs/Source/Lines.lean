import LinkedScopes.Source.Line
import Mathlib.Data.List.DropRight

/-! Lines of a text that is put together from parts. Only a line feed ends a line, so a text whose
front ends with one is cut into the lines of both parts, and otherwise the line that the front
leaves open goes on in the rest. That says which line holds a character, and where in it. -/
namespace LinkedScopes.Line

open Text

theorem prepend_feed (lines : List (List Char)) : prepend '\n' lines = ['\n'] :: lines := rfl

theorem prepend_plain {c : Char} (plain : c ≠ '\n') (lines : List (List Char)) :
    prepend c lines = (c :: lines.headD []) :: lines.tail := by
  cases lines <;> simp [prepend, plain]

theorem segments_cons (c : Char) (text : List Char) :
    segments (c :: text) = prepend c (segments text) := rfl

theorem exists_segments_cons (c : Char) (text : List Char) :
    ∃ more others, segments (c :: text) = (c :: more) :: others := by
  rw [segments_cons]
  by_cases feed : c = '\n'
  · subst feed
    exact ⟨[], _, prepend_feed _⟩
  · exact ⟨_, _, prepend_plain feed _⟩

/-- A line goes on up to the next line feed. -/
theorem segments_plain {line : List Char} (plain : '\n' ∉ line) {c : Char} {text more : List Char}
    {others : List (List Char)} (rest : segments (c :: text) = (c :: more) :: others) :
    segments (line ++ c :: text) = (line ++ c :: more) :: others := by
  induction line with
  | nil => exact rest
  | cons first line ih =>
    have other : first ≠ '\n' := fun feed => plain (feed ▸ List.mem_cons_self)
    have later := ih fun member => plain (List.mem_cons_of_mem _ member)
    rw [List.cons_append, segments_cons, later, prepend_plain other]
    rfl

theorem segments_append {before : List Char} (ends : ∀ c ∈ before.getLast?, c = '\n')
    (rest : List Char) : segments (before ++ rest) = segments before ++ segments rest := by
  induction before with
  | nil => rfl
  | cons c before ih =>
    cases before with
    | nil =>
      obtain rfl := ends c rfl
      rfl
    | cons d before =>
      obtain ⟨more, others, first⟩ := exists_segments_cons d before
      have later := ih (by simpa using ends)
      rw [List.cons_append, segments_cons, later, segments_cons c, first]
      by_cases feed : c = '\n'
      · subst feed
        rfl
      · rw [prepend_plain feed, prepend_plain feed]
        rfl

theorem exists_body {text line : List Char} (member : line ∈ segments text) :
    ∃ body, '\n' ∉ body ∧ (line = body ∨ line = body ++ ['\n']) := by
  induction text generalizing line with
  | nil => exact absurd member List.not_mem_nil
  | cons c text ih =>
    rw [segments_cons] at member
    by_cases feed : c = '\n'
    · subst feed
      rcases List.mem_cons.mp member with rfl | later
      · exact ⟨[], List.not_mem_nil, .inr rfl⟩
      · exact ih later
    · rw [prepend_plain feed] at member
      rcases List.mem_cons.mp member with rfl | later
      · have first : ∃ body, '\n' ∉ body ∧ ((segments text).headD [] = body ∨
            (segments text).headD [] = body ++ ['\n']) := by
          cases lines : segments text with
          | nil => exact ⟨[], List.not_mem_nil, .inl rfl⟩
          | cons first others =>
            apply ih
            rw [lines]
            exact List.mem_cons_self
        obtain ⟨body, plain, is⟩ := first
        refine ⟨c :: body, List.not_mem_cons_of_ne_of_not_mem (Ne.symm feed) plain, ?_⟩
        exact is.imp (congrArg (c :: ·)) (congrArg (c :: ·))
      · exact ih (List.mem_of_mem_tail later)

/-- An offset in a line, counted from the first of the lines before it. -/
theorem holding_append (number : Nat) (lines : List (List Char)) {line : List Char}
    (others : List (List Char)) {offset : Nat} (inside : offset < width line) :
    holding number (width lines.flatten + offset) (lines ++ line :: others) =
      some ⟨number + lines.length, line, offset⟩ := by
  induction lines generalizing number with
  | nil =>
    rw [List.flatten_nil, width_nil, Nat.zero_add, List.nil_append, holding, if_pos inside]
    rfl
  | cons first lines ih =>
    have past : ¬ width (first :: lines).flatten + offset < width first := by
      rw [List.flatten_cons, width_append]
      omega
    have left : width (first :: lines).flatten + offset - width first =
        width lines.flatten + offset := by
      rw [List.flatten_cons, width_append]
      omega
    rw [List.cons_append, holding, if_neg past, left, ih, List.length_cons]
    congr 2
    omega

/-- What stands between the start of a line and the end of a text. -/
def start (before : List Char) : List Char := before.rtakeWhile (· ≠ '\n')

theorem feed_not_mem_start (before : List Char) : '\n' ∉ start before := by
  intro member
  simpa using List.mem_rtakeWhile_imp member

/-- The line that holds a character of a text: what stands before it there, and what comes up to
the next line feed. -/
theorem at?_append (before : List Char) {c : Char} {rest more : List Char}
    {others : List (List Char)} (line : segments (c :: rest) = (c :: more) :: others) :
    ∃ number, at? (before ++ c :: rest) (width before) =
      some ⟨number, start before ++ c :: more, width (start before)⟩ := by
  let lines := before.rdropWhile (· ≠ '\n')
  have parts : lines ++ start before = before := List.rdropWhile_append_rtakeWhile
  have ends : ∀ d ∈ lines.getLast?, d = '\n' := by
    intro d last
    obtain ⟨nonempty, rfl⟩ := List.mem_getLast?_eq_getLast last
    simpa [lines] using List.rdropWhile_last_not _ _ nonempty
  have cut : segments (before ++ c :: rest) =
      segments lines ++ (start before ++ c :: more) :: others := by
    rw [← segments_plain (feed_not_mem_start before) line, ← segments_append ends,
      ← List.append_assoc, parts]
  have place : width before = width (segments lines).flatten + width (start before) := by
    rw [segments_flatten, ← width_append, parts]
  have inside : width (start before) < width (start before ++ c :: more) :=
    width_lt_append _ (List.cons_ne_nil _ _)
  have within : ¬ width (before ++ c :: rest) < width before :=
    Nat.not_lt.mpr (width_le_append _ _)
  refine ⟨1 + (segments lines).length, ?_⟩
  simp only [at?, if_neg within]
  rw [cut, place, holding_append 1 _ _ inside]
  rfl

end LinkedScopes.Line
