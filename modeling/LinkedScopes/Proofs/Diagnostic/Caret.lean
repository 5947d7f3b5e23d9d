import LinkedScopes.Proofs.Diagnostic.Place
import LinkedScopes.Proofs.Source.Lines

/-! Where the caret stands. A report shows the faulty line without the spaces and tabs that it
starts with, and then without any other blanks there. The caret is as many columns in as there are
bytes between these spaces and tabs and the fault, if it can be set there. So it stands under the
reported character only if what is left there starts with no blank and has characters of one byte;
otherwise it stands to the right of it, and the columns say how far. -/
namespace LinkedScopes

open Text

/-! Characters that do not stop a class. -/

section

variable {class? : Char → Bool} {c : Char}

theorem takeWhile_append_cons (other : class? c = false) (before rest : List Char) :
    (before ++ c :: rest).takeWhile class? = before.takeWhile class? := by
  induction before with
  | nil => simp [other]
  | cons d before ih =>
    rw [List.cons_append, List.takeWhile_cons, List.takeWhile_cons, ih]

theorem dropWhile_append_cons (other : class? c = false) (before rest : List Char) :
    (before ++ c :: rest).dropWhile class? = before.dropWhile class? ++ c :: rest := by
  induction before with
  | nil => simp [other]
  | cons d before ih =>
    rw [List.cons_append, List.dropWhile_cons, List.dropWhile_cons, ih]
    split <;> rfl

theorem trimBlanks_append_cons (other : isBlank c = false) (before rest : List Char) :
    trimBlanks (before ++ c :: rest) =
      before.dropWhile isBlank ++ c :: rest.rdropWhile isBlank := by
  have back : (before.dropWhile isBlank ++ c :: rest).reverse =
      rest.reverse ++ c :: (before.dropWhile isBlank).reverse := by simp
  rw [trimBlanks, dropWhile_append_cons other, back, dropWhile_append_cons other,
    List.reverse_append, List.reverse_cons, List.reverse_reverse, List.append_assoc]
  rfl

end

/-! Bytes and characters. -/

theorem length_le_width (text : List Char) : text.length ≤ width text := by
  induction text with
  | nil => exact Nat.le_refl _
  | cons c text ih =>
    have some := c.utf8Size_pos
    rw [List.length_cons, width_cons]
    omega

theorem width_eq_length_iff {text : List Char} :
    width text = text.length ↔ ∀ c ∈ text, c.utf8Size = 1 := by
  induction text with
  | nil => simp
  | cons c text ih =>
    have some := c.utf8Size_pos
    have least := length_le_width text
    rw [List.forall_mem_cons, ← ih, List.length_cons, width_cons]
    omega

theorem width_eq_length_dropWhile_iff {text : List Char} :
    width text = (text.dropWhile isBlank).length ↔
      (∀ c ∈ text.head?, isBlank c = false) ∧ ∀ c ∈ text, c.utf8Size = 1 := by
  have least := length_le_width text
  rw [← width_eq_length_iff]
  cases text with
  | nil => simp
  | cons c text =>
    cases blank : isBlank c with
    | false => simp [blank]
    | true =>
      have fewer := (List.dropWhile_sublist (p := isBlank) (l := text)).length_le
      rw [List.dropWhile_cons_of_pos blank]
      simp only [List.head?_cons, Option.mem_def, Option.some.injEq, forall_eq', blank]
      rw [List.length_cons] at least
      constructor
      · omega
      · rintro ⟨same, -⟩
        cases same

namespace Diagnostic

theorem isIndent_iff {c : Char} : isIndent c = true ↔ c = ' ' ∨ c = '\t' := by simp [isIndent]

theorem isIndent_eq_false {c : Char} (other : isBlank c = false) : isIndent c = false := by
  apply Bool.eq_false_iff.mpr
  intro indent
  rcases isIndent_iff.mp indent with rfl | rfl <;> exact absurd other (by decide)

/-- What a line has left of a place, without the spaces and tabs in front. -/
def lead (before : List Char) : List Char := (Line.start before).dropWhile isIndent

/-- The line of a report that shows the source, and the column of the caret in the line below. -/
def pointed? (report : String) : Option (List Char × Nat) :=
  match (Line.segments report.toList).reverse with
  | lower :: upper :: _ => some (upper.dropLast, lower.idxOf '^')
  | _ => none

theorem pointed?_of_lines {report : String} {above upper lower : List Char}
    (parts : report.toList = above ++ '\n' :: (upper ++ '\n' :: (lower ++ ['^', '\n'])))
    (plain : '\n' ∉ upper) (plain' : '\n' ∉ lower) (first : '^' ∉ lower) :
    pointed? report = some (upper, lower.length) := by
  have last : Line.segments (lower ++ ['^'] ++ ['\n']) = [lower ++ ['^'] ++ ['\n']] :=
    Line.segments_plain (by simp [plain']) rfl
  have both : Line.segments (upper ++ '\n' :: (lower ++ ['^'] ++ ['\n'])) =
      [upper ++ ['\n'], lower ++ ['^'] ++ ['\n']] := by
    apply Line.segments_plain plain
    rw [Line.segments_cons, last, Line.prepend_feed]
  have cut : Line.segments report.toList = Line.segments (above ++ ['\n']) ++
      [upper ++ ['\n'], lower ++ ['^'] ++ ['\n']] := by
    rw [← both, ← Line.segments_append (by simp), parts]
    simp
  rw [pointed?, cut, List.reverse_append]
  simp [List.idxOf_append_of_notMem first]

theorem feed_not_mem_toDigits (number : Nat) : '\n' ∉ Nat.toDigits 10 number := by
  intro member
  have digit := Nat.isDigit_of_mem_toDigits (by decide) (by decide) member
  exact absurd digit (by decide)

theorem feed_not_mem_trimmed {c : Char} {rest more : List Char} {others : List (List Char)}
    (line : Line.segments (c :: rest) = (c :: more) :: others) :
    '\n' ∉ more.rdropWhile isBlank := by
  have here : c :: more ∈ Line.segments (c :: rest) := by
    rw [line]
    exact List.mem_cons_self
  obtain ⟨body, plain, is | is⟩ := Line.exists_body here
  · intro member
    exact plain (is ▸ List.mem_cons_of_mem c ((more.rdropWhile_prefix isBlank).subset member))
  · cases body with
    | nil =>
      obtain ⟨-, rfl⟩ := List.cons.inj is
      exact List.not_mem_nil
    | cons d body =>
      -- The line feed that ends the line is trimmed with the blanks before it.
      obtain ⟨rfl, ends⟩ := List.cons.inj is
      have trimmed : more.rdropWhile isBlank = body.rdropWhile isBlank := by
        rw [ends]
        exact List.rdropWhile_concat_pos isBlank body '\n' (by decide)
      rw [trimmed]
      intro member
      exact plain (List.mem_cons_of_mem c ((body.rdropWhile_prefix isBlank).subset member))

/-- The spaces and tabs that a line starts with are a byte each. -/
theorem width_lead (before : List Char) :
    width (Line.start before) - ((Line.start before).takeWhile isIndent).length =
      width (lead before) := by
  have parts : (Line.start before).takeWhile isIndent ++ lead before = Line.start before :=
    List.takeWhile_append_dropWhile
  have single : width ((Line.start before).takeWhile isIndent) =
      ((Line.start before).takeWhile isIndent).length := by
    apply width_eq_length_iff.mpr
    intro c member
    rcases isIndent_iff.mp (List.mem_takeWhile_imp member) with rfl | rfl <;> decide
  have whole : width (Line.start before) =
      ((Line.start before).takeWhile isIndent).length + width (lead before) := by
    rw [← single, ← width_append, parts]
  omega

theorem trimBlanks_drop_indent {c : Char} (other : isBlank c = false) (before more : List Char) :
    trimBlanks ((Line.start before ++ c :: more).drop
        ((Line.start before).takeWhile isIndent).length) =
      (lead before).dropWhile isBlank ++ c :: more.rdropWhile isBlank := by
  have parts : (Line.start before).takeWhile isIndent ++ (lead before ++ c :: more) =
      Line.start before ++ c :: more := by
    rw [← List.append_assoc, lead, List.takeWhile_append_dropWhile]
  rw [← parts, List.drop_left, trimBlanks_append_cons other]

theorem takeWhile_start {c : Char} (other : isBlank c = false) (before more : List Char) :
    (Line.start before ++ c :: more).takeWhile isIndent = (Line.start before).takeWhile isIndent :=
  takeWhile_append_cons (isIndent_eq_false other) _ _

theorem column_of_line (number : Nat) (before more : List Char) {c : Char}
    (other : isBlank c = false) :
    column ⟨number, Line.start before ++ c :: more, width (Line.start before)⟩ =
      width (lead before) := by
  rw [column, takeWhile_start other, width_lead]

/-- How a line is shown, and where the caret is put below it. -/
theorem pointed?_of_line (heading : String) {number : Nat} {before : List Char} {c : Char}
    {rest more : List Char} {others : List (List Char)} (other : isBlank c = false)
    (line : Line.segments (c :: rest) = (c :: more) :: others) {excerpt : String}
    (shows : excerpt? ⟨number, Line.start before ++ c :: more, width (Line.start before)⟩ =
      some excerpt) :
    pointed? (heading ++ excerpt) =
      some ((toString number).toList ++ [' ', '|', ' '] ++ (lead before).dropWhile isBlank ++
          c :: more.rdropWhile isBlank,
        (toString number).length + 3 + width (lead before)) := by
  let margin := List.replicate ((toString number).length + 1) ' ' ++ ['|']
  let shown := (lead before).dropWhile isBlank ++ c :: more.rdropWhile isBlank
  let lower := margin ++ ' ' :: List.replicate (width (lead before)) '-'
  have plain : '\n' ∉ shown := by
    intro member
    rcases List.mem_append.mp member with left | right
    · have early := (List.dropWhile_sublist _).subset ((List.dropWhile_sublist _).subset left)
      exact Line.feed_not_mem_start before early
    · rcases List.mem_cons.mp right with rfl | late
      · exact absurd other (by decide)
      · exact feed_not_mem_trimmed line late
  have lines : (heading ++ excerpt).toList =
      heading.toList ++ margin ++ '\n' :: ((toString number).toList ++ [' ', '|', ' '] ++ shown ++
        '\n' :: (lower ++ ['^', '\n'])) := by
    rw [excerpt?, column_of_line number before more other] at shows
    obtain ⟨caret, set, rfl⟩ := Option.map_eq_some_iff.mp shows
    rw [eq_of_caret? set]
    simp only [takeWhile_start other, trimBlanks_drop_indent other]
    simp [margin, shown, lower]
  refine (pointed?_of_lines lines ?_ ?_ ?_).trans ?_
  · simp [feed_not_mem_toDigits, plain]
  · simp [lower, margin, List.mem_replicate]
  · simp [lower, margin, List.mem_replicate]
  · simp [margin, shown, lower]
    omega

end Diagnostic

/-! The character a diagnostic points at. -/

section

variable {file : String} {offset : Nat} {text : List Char}

theorem Munches.not_blank {tokens : List Token} (munches : Munches file offset text (.ok tokens)) :
    ∀ token ∈ tokens, ∀ c ∈ token.text.toList, isBlank c = false := by
  induction munches using Munches.ok_induct with
  | ended offset =>
    have plain : ("EOF".toList.all fun c => !isBlank c) = true := by decide
    have each : ∀ c ∈ "EOF".toList, isBlank c = false := by simpa using plain
    exact List.forall_mem_singleton.mpr each
  | passed munch later ih => exact ih
  | made munch later ih =>
    refine List.forall_mem_cons.mpr ⟨?_, ih⟩
    rw [Token.toList_placed]
    exact munch.shape.not_blank

theorem Stuck.not_blank {c : Char} {rest : List Char} (stuck : Stuck (c :: rest)) :
    isBlank c = false := by
  apply Bool.eq_false_iff.mpr
  intro blank
  have shape : Shape [c] none := .blanks (List.cons_ne_nil _ _) (by simpa using blank)
  exact stuck [c] none ⟨rest, rfl⟩ shape

end

/-- Inside a source, a diagnostic points at a character that is no blank. -/
theorem Source.Fails.exists_character {source : Source} {limit : Nat} {d : Diagnostic}
    (fails : source.Fails limit d) (short : source.text.utf8ByteSize < UInt32.size)
    (inside : d.offset < source.text.utf8ByteSize) : ∃ before c rest,
      source.text.toList = before ++ c :: rest ∧ d.offset = width before ∧ isBlank c = false := by
  cases fails with
  | scanning run =>
    obtain ⟨stop, munches, rfl⟩ := Source.munches_of_error run
    obtain ⟨before, rest, parts, stuck, place⟩ := Stop.exists_boundary short munches
    exact ⟨before, _, rest, parts, place, stuck.not_blank⟩
  | @reading tokens t run halts =>
    obtain ⟨complaint, -, rfl⟩ := exists_complaint halts
    have member := Source.token_mem run limit complaint.index
    by_cases ends : ((Input.mk tokens.toArray limit).token complaint.index).kind = .endOfInput
    · have place := (Source.ends_of_mem short run member ends).1
      exact absurd inside (Nat.not_lt.mpr (Nat.le_of_eq place.symm))
    · obtain ⟨some, rest, before, parts, start, stop⟩ :=
        Source.stands_of_mem short run member ends
      have plain := (Source.munches_of_ok run).not_blank _ member
      cases lexeme : ((Input.mk tokens.toArray limit).token complaint.index).text.toList with
      | nil =>
        rw [lexeme, List.append_nil] at stop
        omega
      | cons c more =>
        rw [lexeme] at parts plain
        exact ⟨before, c, more ++ rest, parts, start, plain c List.mem_cons_self⟩

theorem fails_wide (limit : Nat) :
    Source.Fails ⟨"\u3000@", "shell"⟩ limit ⟨.unrecognised "@", ⟨3, "shell"⟩⟩ := by
  have munch : Munch ['\u3000'] ['@'] none :=
    Pattern.munch_of_first (show Pattern.first? ['\u3000', '@'] = some .blanks by decide)
  have none : Stuck ['@'] := Pattern.first?_eq_none_iff.mp (by decide)
  have munches : Munches "shell" 0 "\u3000@".toList (.error ⟨3, '@'⟩) :=
    .passed munch (.stuck none)
  have run : Source.tokens ⟨"\u3000@", "shell"⟩ = _ := Source.tokens_of_munches munches
  exact .scanning run

theorem report?_wide : Diagnostic.report? ⟨.unrecognised "@", ⟨3, "shell"⟩⟩ "\u3000@" =
    some "Error: UnrecognisedToken\n-> shell\n  |\n1 | @\n  | ---^\n" := by decide

/-- A diagnostic inside a source is reported with its line, in which the character it points at
stands, and with a caret below, unless that would be past column 65535 of its field. Columns count
characters, and the caret is to the right of that character by as much as what the line has left of
it, without spaces and tabs in front, has more bytes than it has characters that are shown. It is
below that character only if no other blank is in front there, and each character left of it is one
byte. -/
theorem caret_column {source : Source} (short : source.text.utf8ByteSize < UInt32.size)
    {limit : Nat} {d : Diagnostic} (fails : source.Fails limit d)
    (inside : d.offset < source.text.utf8ByteSize) : ∃ before c rest,
      source.text.toList = before ++ c :: rest ∧ d.offset = width before ∧
      (d.report? source.text = none ↔ Diagnostic.widest ≤ width (Diagnostic.lead before)) ∧
      ∀ report, d.report? source.text = some report → ∃ shown caret column,
        Diagnostic.pointed? report = some (shown, caret) ∧
        shown[column]? = some c ∧
        caret + ((Diagnostic.lead before).dropWhile isBlank).length =
          column + width (Diagnostic.lead before) ∧
        (caret = column ↔ (∀ c ∈ (Diagnostic.lead before).head?, isBlank c = false) ∧
          ∀ c ∈ Diagnostic.lead before, c.utf8Size = 1) := by
  obtain ⟨before, c, rest, parts, place, other⟩ := fails.exists_character short inside
  obtain ⟨more, others, line⟩ := Line.exists_segments_cons c rest
  obtain ⟨number, found⟩ := Line.at?_append before line
  rw [← parts, ← place] at found
  have reported := Diagnostic.report?_of_line found
  refine ⟨before, c, rest, parts, place, ?_, ?_⟩
  · rw [reported, Option.map_eq_none_iff, Diagnostic.excerpt?_eq_none_iff,
      Diagnostic.column_of_line number before more other]
  intro report told
  rw [reported] at told
  obtain ⟨excerpt, shows, rfl⟩ := Option.map_eq_some_iff.mp told
  have pointed := Diagnostic.pointed?_of_line d.heading other line shows
  let kept := (Diagnostic.lead before).dropWhile isBlank
  have front : ((toString number).toList ++ [' ', '|', ' '] ++ kept).length =
      (toString number).length + 3 + kept.length := by
    rw [List.length_append, List.length_append, String.length_toList]
    rfl
  refine ⟨_, _, (toString number).length + 3 + kept.length, pointed, ?_, ?_, ?_⟩
  · rw [← front, List.getElem?_append_right (Nat.le_refl _), Nat.sub_self]
    rfl
  · exact Nat.add_right_comm _ _ _
  · rw [Nat.add_left_cancel_iff]
    exact width_eq_length_dropWhile_iff

/-- A wide blank is not shown, and its three bytes push the caret to the right. -/
theorem caret_column_wide :
    let source : Source := ⟨"\u3000@", "shell"⟩
    let d : Diagnostic := ⟨.unrecognised "@", ⟨3, "shell"⟩⟩
    source.text.utf8ByteSize < UInt32.size ∧ source.Fails 1 d ∧
      d.offset < source.text.utf8ByteSize ∧ ∃ report shown caret column,
        d.report? source.text = some report ∧
          Diagnostic.pointed? report = some (shown, caret) ∧
          shown[column]? = some '@' ∧ caret = column + 3 := by
  intro source d
  have short : source.text.utf8ByteSize < UInt32.size := by decide
  have inside : d.offset < source.text.utf8ByteSize := by decide
  have told : d.report? source.text = some _ := report?_wide
  refine ⟨short, fails_wide 1, inside, ?_⟩
  obtain ⟨before, c, rest, parts, place, -, each⟩ := caret_column short (fails_wide 1) inside
  obtain ⟨shown, caret, column, pointed, stands, apart, -⟩ := each _ told
  have cut : some (c :: rest) = some ['@'] := by
    rw [← afterBytes?_width before (c :: rest), ← parts, ← place]
    decide
  obtain ⟨rfl, rfl⟩ := List.cons.inj (Option.some.inj cut)
  have text : source.text.toList = ['\u3000'] ++ ['@'] := by decide
  obtain rfl : ['\u3000'] = before := List.append_cancel_right (text.symm.trans parts)
  exact ⟨_, shown, caret, column, told, pointed, stands, apart⟩

/-- Not every caret stands under the character that is reported, also where lines are short. -/
theorem caret_beside_character : ¬ ∀ (source : Source) (limit : Nat) (d : Diagnostic),
    source.text.utf8ByteSize < UInt32.size → source.Fails limit d →
      d.offset < source.text.utf8ByteSize → ∀ before c rest,
        source.text.toList = before ++ c :: rest → d.offset = width before →
          ∀ report shown caret, d.report? source.text = some report →
            Diagnostic.pointed? report = some (shown, caret) →
              caret ≤ 65535 → shown[caret]? = some c := by
  intro under
  have line : Diagnostic.pointed? "Error: UnrecognisedToken\n-> shell\n  |\n1 | @\n  | ---^\n" =
      some (['1', ' ', '|', ' ', '@'], 7) := rfl
  have stands := under ⟨"\u3000@", "shell"⟩ 1 _ (by decide) (fails_wide 1) (by decide)
    ['\u3000'] '@' [] (by decide) (by decide) _ _ _ report?_wide line (by decide)
  cases stands

end LinkedScopes
