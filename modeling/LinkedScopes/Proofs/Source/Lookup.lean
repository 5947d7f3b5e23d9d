import LinkedScopes.Proofs.Source.Lines

/-! The line at a byte, found by its bytes. A text can be cut into lines in one way only, and a
byte belongs to the line that starts with or before it and goes on behind it. No character but a
line feed is encoded with the byte of one, so the lines that end before a byte are the line feeds
there. The end of a text belongs to no line, and is shown at the end of the last. -/
namespace LinkedScopes.Line

open Text

def feed : UInt8 := 10

def bytes (text : List Char) : List UInt8 := text.flatMap String.utf8EncodeChar

/-- Lines of a text: each has a line feed at its end and nowhere else, and only the last may be
without. -/
inductive Cut : List Char → List (List Char) → Prop where
  | none : Cut [] []
  | last {body : List Char} (some : body ≠ []) (plain : '\n' ∉ body) : Cut body [body]
  | line {body rest : List Char} {lines : List (List Char)} (plain : '\n' ∉ body)
      (later : Cut rest lines) : Cut (body ++ '\n' :: rest) ((body ++ ['\n']) :: lines)

/-- A byte is in the line that has so many others before it. -/
def Holds (lines : List (List Char)) (index position : Nat) : Prop :=
  width (lines.take index).flatten ≤ position ∧ position < width (lines.take (index + 1)).flatten

/-- What is said of a byte of a text: which line it is in, and where. -/
structure AtByte (text : List Char) (lines : List (List Char)) (position : Nat) (found : Line) :
    Prop where
  number : found.number = 1 + ((bytes text).take position).count feed
  line : lines[found.number - 1]? = some found.text
  only : ∀ index, Holds lines index position ↔ index = found.number - 1
  offset : width (lines.take (found.number - 1)).flatten + found.offset = position
  byte : (bytes found.text)[found.offset]? = (bytes text)[position]?

/-- What is said of the end of a text: it is in the last line, before the line feed there. -/
structure AtEnd (lines : List (List Char)) (found : Line) : Prop where
  number : found.number = max lines.length 1
  line : found.text = lines.getLast?.getD []
  offset : ∃ body, '\n' ∉ body ∧ (found.text = body ∨ found.text = body ++ ['\n']) ∧
    found.offset = width body

theorem bytes_append (a b : List Char) : bytes (a ++ b) = bytes a ++ bytes b :=
  List.flatMap_append

@[simp] theorem length_bytes (text : List Char) : (bytes text).length = width text := by
  induction text with
  | nil => rfl
  | cons c text ih =>
    rw [← List.singleton_append, bytes_append, List.length_append, ih, width_append]
    simp [bytes]

theorem eq_of_feed_eq {n : Nat} (is : feed = UInt8.ofNat n) : n % 256 = 10 :=
  (congrArg UInt8.toNat is).symm

theorem eq_of_feed_mem {c : Char} (member : feed ∈ String.utf8EncodeChar c) : c = '\n' := by
  suffices same : c.val.toNat = 10 from Char.ext (UInt32.toNat_inj.mp same)
  simp only [String.utf8EncodeChar] at member
  split at member <;> [skip; split at member <;> [skip; split at member]]
  all_goals simp only [List.mem_cons, List.not_mem_nil, or_false] at member
  · have := eq_of_feed_eq member
    omega
  · rcases member with h | h <;> have := eq_of_feed_eq h <;> omega
  · rcases member with h | h | h <;> have := eq_of_feed_eq h <;> omega
  · rcases member with h | h | h | h <;> have := eq_of_feed_eq h <;> omega

theorem feed_not_mem_bytes {body : List Char} (plain : '\n' ∉ body) : feed ∉ bytes body := by
  intro member
  obtain ⟨c, among, encoded⟩ := List.mem_flatMap.mp member
  exact plain (eq_of_feed_mem encoded ▸ among)

theorem segments_of_plain {body : List Char} (some : body ≠ []) (plain : '\n' ∉ body) :
    segments body = [body] := by
  obtain ⟨front, c, rfl⟩ := (List.eq_nil_or_concat' body).resolve_left some
  obtain ⟨plain, last⟩ : '\n' ∉ front ∧ '\n' ≠ c := by simpa using plain
  exact segments_plain plain (prepend_plain last.symm [])

namespace Cut

variable {text line : List Char} {lines before after : List (List Char)} {offset : Nat}

theorem prepend (cut : Cut text lines) (c : Char) : Cut (c :: text) (Line.prepend c lines) := by
  by_cases ends : c = '\n'
  · subst ends
    exact .line List.not_mem_nil cut
  · have plain {body : List Char} (plain : '\n' ∉ body) : '\n' ∉ c :: body :=
      List.not_mem_cons_of_ne_of_not_mem (Ne.symm ends) plain
    rw [prepend_plain ends]
    cases cut with
    | none => exact .last (List.cons_ne_nil _ _) (plain List.not_mem_nil)
    | last _ body => exact .last (List.cons_ne_nil _ _) (plain body)
    | line body later => exact .line (plain body) later

theorem of_segments (text : List Char) : Cut text (segments text) := by
  induction text with
  | nil => exact .none
  | cons c text ih => exact ih.prepend c

theorem iff_segments : Cut text lines ↔ lines = segments text := by
  refine ⟨fun cut => ?_, fun same => same ▸ of_segments text⟩
  induction cut with
  | none => rfl
  | last some plain => exact (segments_of_plain some plain).symm
  | line plain _ ih => exact ih ▸ (segments_plain plain rfl).symm

/-- The first line is the whole text and has no line feed, or ends with the first one. -/
theorem cons_cases (cut : Cut text (line :: after)) : ∃ body, '\n' ∉ body ∧
    ((line = body ∧ text = body ∧ after = []) ∨
      ∃ rest, line = body ++ ['\n'] ∧ text = body ++ '\n' :: rest ∧ Cut rest after) := by
  cases cut with
  | last _ plain => exact ⟨_, plain, .inl ⟨rfl, rfl, rfl⟩⟩
  | line plain later => exact ⟨_, plain, .inr ⟨_, rfl, rfl, later⟩⟩

/-- Before a byte of a line are the line feeds of the lines before. -/
theorem count_feed (cut : Cut text (before ++ line :: after)) (inside : offset < width line) :
    ((bytes text).take (width before.flatten + offset)).count feed = before.length := by
  induction before generalizing text with
  | nil =>
    have none {body : List Char} (plain : '\n' ∉ body) :
        ((bytes body).take offset).count feed = 0 :=
      List.count_eq_zero.mpr fun member => feed_not_mem_bytes plain (List.mem_of_mem_take member)
    rw [List.flatten_nil, width_nil, Nat.zero_add]
    obtain ⟨body, plain, ⟨rfl, rfl, -⟩ | ⟨rest, rfl, rfl, -⟩⟩ := cut.cons_cases
    · exact none plain
    · have within : offset ≤ (bytes body).length := by
        rw [width_append] at inside
        rw [length_bytes]
        exact Nat.le_of_lt_succ inside
      rw [bytes_append, List.take_append_of_le_length within]
      exact none plain
  | cons first before ih =>
    obtain ⟨body, plain, ⟨-, -, none⟩ | ⟨rest, rfl, rfl, later⟩⟩ := cut.cons_cases
    · exact absurd none (by simp)
    · have front : bytes (body ++ '\n' :: rest) = bytes (body ++ ['\n']) ++ bytes rest := by
        rw [← bytes_append, List.append_assoc]
        rfl
      have one : (bytes (body ++ ['\n'])).count feed = 1 := by
        rw [bytes_append, List.count_append, List.count_eq_zero.mpr (feed_not_mem_bytes plain)]
        rfl
      rw [List.flatten_cons, width_append, Nat.add_assoc, front, ← length_bytes (body ++ ['\n']),
        List.take_length_add_append, List.count_append, one, ih later, List.length_cons,
        Nat.add_comm]

end Cut

theorem exists_split {lines : List (List Char)} {position : Nat}
    (inside : position < width lines.flatten) : ∃ before line after offset,
      lines = before ++ line :: after ∧ position = width before.flatten + offset ∧
        offset < width line := by
  induction lines generalizing position with
  | nil => exact absurd inside (Nat.not_lt_zero _)
  | cons line lines ih =>
    by_cases here : position < width line
    · exact ⟨[], line, lines, position, rfl, (Nat.zero_add _).symm, here⟩
    · rw [List.flatten_cons, width_append] at inside
      have left : position - width line < width lines.flatten := by omega
      obtain ⟨before, next, after, offset, rfl, place, within⟩ := ih left
      refine ⟨line :: before, next, after, offset, rfl, ?_, within⟩
      rw [List.flatten_cons, width_append]
      omega

theorem width_take_le (lines : List (List Char)) {few many : Nat} (le : few ≤ many) :
    width (lines.take few).flatten ≤ width (lines.take many).flatten := by
  obtain ⟨others, more⟩ := List.take_prefix_take_left (l := lines) le
  rw [← more, List.flatten_append]
  exact width_le_append _ _

theorem holds_iff {before after : List (List Char)} {line : List Char} {offset index : Nat}
    (inside : offset < width line) :
    Holds (before ++ line :: after) index (width before.flatten + offset) ↔
      index = before.length := by
  have front : (before ++ line :: after).take before.length = before := List.take_left
  have through : (before ++ line :: after).take (before.length + 1) = before ++ [line] := by
    rw [List.take_length_add_append]
    rfl
  constructor
  · rintro ⟨reached, left⟩
    rcases Nat.lt_trichotomy index before.length with early | same | late
    · have ends := width_take_le (before ++ line :: after) (Nat.lt_iff_add_one_le.mp early)
      rw [front] at ends
      exact absurd left (by omega)
    · exact same
    · have starts := width_take_le (before ++ line :: after) (Nat.lt_iff_add_one_le.mp late)
      rw [through, List.flatten_append, width_append, List.flatten_singleton] at starts
      omega
  · rintro rfl
    rw [Holds, front, through, List.flatten_append, width_append, List.flatten_singleton]
    omega

theorem getElem?_bytes {before after : List (List Char)} {line : List Char} {offset : Nat}
    (inside : offset < width line) :
    (bytes (before ++ line :: after).flatten)[width before.flatten + offset]? =
      (bytes line)[offset]? := by
  have within : offset < (bytes line).length := by rwa [length_bytes]
  rw [List.flatten_append, List.flatten_cons, bytes_append, bytes_append,
    ← length_bytes before.flatten, List.getElem?_append_right (Nat.le_add_right _ _),
    Nat.add_sub_cancel_left, List.getElem?_append_left within]

theorem holding_eq_none {lines : List (List Char)} {position : Nat}
    (behind : width lines.flatten ≤ position) (number : Nat) :
    holding number position lines = none := by
  induction lines generalizing position number with
  | nil => rfl
  | cons line lines ih =>
    rw [List.flatten_cons, width_append] at behind
    rw [holding, if_neg (by omega)]
    exact ih (by omega) _

theorem at?_of_lt {text : List Char} {position : Nat} (inside : position < width text) :
    ∃ found, at? text position = some found ∧ AtByte text (segments text) position found := by
  rw [← segments_flatten text] at inside
  obtain ⟨before, line, after, offset, lines, rfl, within⟩ := exists_split inside
  have cut : Cut text (before ++ line :: after) := lines ▸ Cut.of_segments text
  have ends : ¬ width text < width before.flatten + offset := by
    rw [segments_flatten] at inside
    omega
  refine ⟨⟨1 + before.length, line, offset⟩, ?_, ?_⟩
  · simp only [at?, if_neg ends]
    rw [lines, holding_append 1 _ _ within]
    rfl
  · have index : 1 + before.length - 1 = before.length := Nat.add_sub_cancel_left _ _
    rw [lines]
    constructor
    · rw [cut.count_feed within]
    · simp [index]
    · simp only [index]
      exact fun _ => holds_iff within
    · simp [index]
    · rw [← segments_flatten text, lines]
      exact (getElem?_bytes within).symm

theorem exists_last_body (text : List Char) : ∃ body, '\n' ∉ body ∧
    ((segments text).getLast?.getD [] = body ∨
      (segments text).getLast?.getD [] = body ++ ['\n']) := by
  cases last : (segments text).getLast? with
  | none => exact ⟨[], List.not_mem_nil, .inl rfl⟩
  | some line => exact exists_body (List.mem_of_getLast? last)

/-- What remains of the last line is what stands before its line feed. -/
theorem ending_atEnd (text : List Char) : AtEnd (segments text) (ending (segments text)) := by
  obtain ⟨body, plain, is⟩ := exists_last_body text
  have front : body.filter (· ≠ '\n') = body := by
    refine List.filter_eq_self.mpr fun c member => ?_
    simpa using fun ends : c = '\n' => plain (ends ▸ member)
  refine ⟨rfl, rfl, body, plain, is, ?_⟩
  rcases is with is | is <;> simp only [ending, is, List.filter_append, front]
  simp

theorem at?_width (text : List Char) : at? text (width text) = some (ending (segments text)) := by
  have none := holding_eq_none (Nat.le_of_eq (congrArg width (segments_flatten text))) 1
  simp only [at?, if_neg (Nat.lt_irrefl _), none, Option.none_or]

/-- The line that is looked up. A text can be cut into lines in one way, and past its end there is
no line. A byte of the text is found in the line that has it, and the end of the text in the last
line. -/
theorem line_lookup (text : List Char) (position : Nat) :
    ∃ lines, (∀ others, Cut text others ↔ others = lines) ∧
      (at? text position = none ↔ width text < position) ∧
      (position < width text →
        ∃ found, at? text position = some found ∧ AtByte text lines position found) ∧
      (position = width text →
        ∃ found, at? text position = some found ∧ AtEnd lines found) := by
  refine ⟨segments text, fun _ => Cut.iff_segments, ⟨fun none => ?_, fun past => ?_⟩, at?_of_lt, ?_⟩
  · rcases Nat.lt_trichotomy position (width text) with inside | rfl | past
    · obtain ⟨found, some, -⟩ := at?_of_lt inside
      simp [none] at some
    · simp [at?_width] at none
    · exact past
  · exact if_pos past
  · rintro rfl
    exact ⟨_, at?_width text, ending_atEnd text⟩

/-- No line starts behind the last line feed, so the end of the text is shown before it. -/
example : (at? ['a', '\n'] 2).map (fun found => (found.number, found.text, found.offset)) =
    some (1, ['a', '\n'], 1) := rfl

end LinkedScopes.Line
