import LinkedScopes.Proofs.Scan.Shape
import LinkedScopes.Token.Pattern
import Mathlib.Data.List.TakeWhile

/-! The table of patterns munches. Of two patterns that both take something of the front of a
text, the earlier one takes more, so the first that takes anything takes the most; and what the
patterns take between them are the lexemes of all shapes. -/
namespace LinkedScopes

open Text

namespace Pattern

theorem startsWord_iff {c : Char} : startsWord c = true ↔ Letter c := by
  have alpha : c.isAlpha = (c.isUpper || c.isLower) := rfl
  have upper : c.isUpper = decide ('A' ≤ c ∧ c ≤ 'Z') := rfl
  have lower : c.isLower = (decide ('a' ≤ c) && decide (c ≤ 'z')) := rfl
  simp [startsWord, alpha, upper, lower, Letter, or_assoc]

theorem isDigit_iff {c : Char} : c.isDigit = true ↔ Digit c := by
  simp [Char.isDigit, Digit, Char.le_def]

theorem continuesWord_iff {c : Char} : continuesWord c = true ↔ Letter c ∨ Digit c := by
  rw [← startsWord_iff, ← isDigit_iff]
  simp only [continuesWord, startsWord, Char.isAlphanum, Bool.or_eq_true]
  grind

theorem kind?_word (text : String) :
    word.kind? text = some (if text ∈ keywords then .keyword else .identifier) := by
  have reserved : isReserved text = true ↔ text ∈ keywords := List.contains_iff_mem
  simp only [kind?, reserved]

theorem table_eq : table =
    [word, number, blanks, comment] ++ signs.map fun sign => symbol sign.1 sign.2 := rfl

theorem mem_table_symbol_iff {c : Char} {kind : Kind} :
    symbol c kind ∈ table ↔ (c, kind) ∈ signs := by
  simp [table_eq]

/-! The character that a pattern takes first tells it from all others, but for a slash. -/

/-- The pattern that a character starts a lexeme of, unless it is a comment. -/
def byInitial (c : Char) : Option Pattern :=
  if Letter c then some word
  else if Digit c then some number
  else if isBlank c then some blanks
  else (signs.find? fun sign => sign.1 = c).map fun sign => symbol sign.1 sign.2

theorem exists_line {text : List Char} (takes : comment.lexeme text ≠ []) :
    ∃ line, text = '/' :: '/' :: line := by
  unfold lexeme at takes
  split at takes
  all_goals simp_all

theorem byInitial_of_sign {c : Char} {kind : Kind} (member : (c, kind) ∈ signs) :
    byInitial c = some (symbol c kind) := by
  have all : ∀ sign ∈ signs, byInitial sign.1 = some (symbol sign.1 sign.2) := by decide
  exact all _ member

theorem eq_of_takes {c s : Char} {kind : Kind} {text : List Char}
    (takes : (symbol s kind).lexeme (c :: text) ≠ []) : c = s := by
  apply Decidable.byContradiction
  intro other
  simp [lexeme, other] at takes

/-- A pattern takes something of a text only if its first character says so, or the text starts
with a comment. -/
theorem byInitial_of_takes {p : Pattern} (member : p ∈ table) {c : Char} {text : List Char}
    (takes : p.lexeme (c :: text) ≠ []) :
    byInitial c = some p ∨ p = comment ∧ c = '/' ∧ 1 < (p.lexeme (c :: text)).length := by
  cases p with
  | word =>
    have letter : Letter c := by simpa [lexeme, startsWord_iff] using takes
    exact .inl (if_pos letter)
  | number =>
    have digit : Digit c := by
      rw [← isDigit_iff]
      apply Decidable.byContradiction
      intro other
      simp [lexeme, numeral, other] at takes
    have other : ¬ Letter c := fun letter => letter.not_digit digit
    simp [byInitial, digit, other]
  | blanks =>
    have blank : isBlank c := by
      apply Decidable.byContradiction
      intro other
      simp [lexeme, other] at takes
    have other : ¬ Letter c := fun letter => by simp [letter.not_blank] at blank
    have other' : ¬ Digit c := fun digit => by simp [digit.not_blank] at blank
    simp [byInitial, blank, other, other']
  | comment =>
    obtain ⟨line, starts⟩ := exists_line takes
    obtain ⟨rfl, rfl⟩ := List.cons.inj starts
    exact .inr ⟨rfl, rfl, by simp [lexeme]⟩
  | symbol s kind =>
    obtain rfl := eq_of_takes takes
    exact .inl (byInitial_of_sign (mem_table_symbol_iff.mp member))

theorem lexeme_nil (p : Pattern) : p.lexeme [] = [] := by
  cases p <;> rfl

/-- Of two patterns that both take something of a text, the earlier one takes more. -/
theorem table_pairwise : table.Pairwise fun p q => ∀ text, p.lexeme text ≠ [] →
    q.lexeme text ≠ [] → (q.lexeme text).length < (p.lexeme text).length := by
  have order : table.Pairwise fun p q =>
      p ≠ q ∧ ¬ (p = symbol '/' (.operator .div) ∧ q = comment) := by decide
  have slash : byInitial '/' = some (symbol '/' (.operator .div)) := by decide
  apply order.imp_of_mem
  rintro p q member member' ⟨other, early⟩ text takes takes'
  cases text with
  | nil => exact absurd p.lexeme_nil takes
  | cons c text =>
    rcases byInitial_of_takes member takes with first | ⟨rfl, rfl, long⟩
    · rcases byInitial_of_takes member' takes' with second | ⟨rfl, rfl, -⟩
      · exact absurd (Option.some.inj (first.symm.trans second)) other
      · exact absurd ⟨Option.some.inj (first.symm.trans slash), rfl⟩ early
    · rcases byInitial_of_takes member' takes' with second | ⟨rfl, -, -⟩
      · obtain rfl : q = symbol '/' (.operator .div) := Option.some.inj (second.symm.trans slash)
        simpa [lexeme] using long
      · exact absurd rfl other

theorem length_lt_of_first {text : List Char} {p q : Pattern} (found : first? text = some p)
    (member : q ∈ table) (takes : q.lexeme text ≠ []) (other : q ≠ p) :
    (q.lexeme text).length < (p.lexeme text).length := by
  obtain ⟨finds, before, after, parts, none⟩ := List.find?_eq_some_iff_append.mp found
  have ordered := table_pairwise
  rw [parts] at member ordered
  have later : q ∈ after := by
    rcases List.mem_append.mp member with early | late
    · have empty := none q early
      simp [takes] at empty
    · exact List.mem_of_ne_of_mem other late
  have pairs := (List.pairwise_append.mp ordered).2.1
  exact List.rel_of_pairwise_cons pairs later text (lexeme_ne_nil found) takes

/-! What the patterns take are the lexemes of all shapes. -/

theorem digit_of_mem {c : Char} {text : List Char} (member : c ∈ text.takeWhile Char.isDigit) :
    Digit c :=
  isDigit_iff.mp (List.mem_takeWhile_imp member)

theorem numeral_eq {text : List Char} (digits : text.takeWhile Char.isDigit ≠ []) :
    numeral text = text.takeWhile Char.isDigit ++ fraction (text.dropWhile Char.isDigit) := by
  unfold numeral
  split
  · next none => exact absurd none digits
  · rfl

theorem fraction_cases (text : List Char) : fraction text = [] ∨
    ∃ places, fraction text = '.' :: places ∧ places ≠ [] ∧ ∀ c ∈ places, Digit c := by
  unfold fraction
  split
  · split
    · exact .inl rfl
    · next rest nonempty => exact .inr ⟨_, rfl, nonempty, fun c => digit_of_mem⟩
  · exact .inl rfl

theorem shape_numeral {text : List Char} (takes : numeral text ≠ []) :
    Shape (numeral text) (some .number) := by
  have digits : text.takeWhile Char.isDigit ≠ [] := by
    intro none
    simp [numeral, none] at takes
  rw [numeral_eq digits]
  rcases fraction_cases (text.dropWhile Char.isDigit) with none | ⟨places, point, nonempty, each⟩
  · rw [none, List.append_nil]
    exact .whole digits fun c => digit_of_mem
  · rw [point]
    exact .decimal digits (fun c => digit_of_mem) nonempty each

/-- What a pattern of the table takes has a shape that makes the same kind of token. -/
theorem shape_lexeme {p : Pattern} (member : p ∈ table) {text : List Char}
    (takes : p.lexeme text ≠ []) :
    Shape (p.lexeme text) (p.kind? (String.ofList (p.lexeme text))) := by
  cases text with
  | nil => exact absurd p.lexeme_nil takes
  | cons c text =>
    cases p with
    | word =>
      have starts : startsWord c = true := by simpa [lexeme] using takes
      rw [kind?_word, lexeme, if_pos starts]
      refine .word (startsWord_iff.mp starts) ?_
      intro d member
      exact continuesWord_iff.mp (List.mem_takeWhile_imp member)
    | number => exact shape_numeral takes
    | blanks => exact .blanks takes fun d member => List.mem_takeWhile_imp member
    | comment =>
      obtain ⟨line, starts⟩ := exists_line takes
      rw [starts]
      apply Shape.comment
      intro member
      simpa using List.mem_takeWhile_imp member
    | symbol s kind =>
      obtain rfl := eq_of_takes takes
      rw [lexeme, if_pos rfl]
      exact .sign (mem_table_symbol_iff.mp member)

theorem length_le_takeWhile {class? : Char → Bool} {piece : List Char}
    (each : ∀ c ∈ piece, class? c = true) (rest : List Char) :
    piece.length ≤ ((piece ++ rest).takeWhile class?).length := by
  rw [List.takeWhile_append_of_pos each, List.length_append]
  exact Nat.le_add_right _ _

theorem length_le_fraction {places : List Char} (nonempty : places ≠ [])
    (each : ∀ c ∈ places, c.isDigit = true) (rest : List Char) :
    places.length + 1 ≤ (fraction ('.' :: (places ++ rest))).length := by
  have long := length_le_takeWhile each rest
  have some := List.length_pos_iff.mpr nonempty
  rw [fraction]
  split
  · next none =>
    rw [none] at long
    exact absurd long (Nat.not_le_of_lt some)
  · exact Nat.succ_le_succ long

/-- A lexeme of any shape is taken by a pattern that makes the same kind of token, or more. -/
theorem exists_pattern {lexeme : List Char} {kind? : Option Kind} (shape : Shape lexeme kind?)
    (rest : List Char) : ∃ p ∈ table, p.kind? (String.ofList lexeme) = kind? ∧
      lexeme.length ≤ (p.lexeme (lexeme ++ rest)).length := by
  cases shape with
  | word starts continues =>
    refine ⟨word, by decide, kind?_word _, ?_⟩
    rw [List.cons_append, Pattern.lexeme, if_pos (startsWord_iff.mpr starts)]
    apply Nat.succ_le_succ
    exact length_le_takeWhile (fun c member => continuesWord_iff.mpr (continues c member)) rest
  | whole nonempty each =>
    refine ⟨number, by decide, rfl, ?_⟩
    have all : ∀ c ∈ lexeme, c.isDigit = true := fun c member => isDigit_iff.mpr (each c member)
    have long := length_le_takeWhile all rest
    have digits : (lexeme ++ rest).takeWhile Char.isDigit ≠ [] := by
      rw [List.takeWhile_append_of_pos all]
      simp [nonempty]
    rw [Pattern.lexeme, numeral_eq digits, List.length_append]
    omega
  | @decimal digits places nonempty each nonempty' each' =>
    refine ⟨number, by decide, rfl, ?_⟩
    have all : ∀ c ∈ digits, c.isDigit = true := fun c member => isDigit_iff.mpr (each c member)
    have all' : ∀ c ∈ places, c.isDigit = true := fun c member => isDigit_iff.mpr (each' c member)
    have parts : digits ++ '.' :: places ++ rest = digits ++ '.' :: (places ++ rest) := by simp
    have whole : (digits ++ '.' :: (places ++ rest)).takeWhile Char.isDigit = digits := by
      simp [List.takeWhile_append_of_pos all]
    have point : (digits ++ '.' :: (places ++ rest)).dropWhile Char.isDigit =
        '.' :: (places ++ rest) := by
      simp [List.dropWhile_append_of_pos all]
    have long := length_le_fraction nonempty' all' rest
    rw [Pattern.lexeme, parts, numeral_eq (by rwa [whole]), whole, point]
    simp only [List.length_append, List.length_cons]
    omega
  | blanks nonempty each => exact ⟨blanks, by decide, rfl, length_le_takeWhile each rest⟩
  | @comment line within =>
    refine ⟨comment, by decide, rfl, ?_⟩
    apply Nat.succ_le_succ
    apply Nat.succ_le_succ
    apply length_le_takeWhile
    intro c member
    simp only [ne_eq, decide_not, Bool.not_eq_eq_eq_not, Bool.not_true, decide_eq_false_iff_not]
    rintro rfl
    exact within member
  | sign member =>
    exact ⟨symbol _ _, mem_table_symbol_iff.mpr member, rfl, by simp [Pattern.lexeme]⟩

theorem length_le_of_first {text : List Char} {p q : Pattern} (found : first? text = some p)
    (member : q ∈ table) : (q.lexeme text).length ≤ (p.lexeme text).length := by
  by_cases same : q = p
  · exact Nat.le_of_eq (by rw [same])
  · by_cases takes : q.lexeme text = []
    · rw [takes]
      exact Nat.zero_le _
    · exact Nat.le_of_lt (length_lt_of_first found member takes same)

theorem exists_first {text : List Char} {p : Pattern} (member : p ∈ table)
    (takes : p.lexeme text ≠ []) : ∃ q, first? text = some q := by
  apply Option.isSome_iff_exists.mp
  rw [first?, List.find?_isSome]
  exact ⟨p, member, by simpa using takes⟩

/-- The first pattern that takes anything takes the longest lexeme. -/
theorem munch_of_first {text : List Char} {p : Pattern} (found : first? text = some p) :
    Munch (p.lexeme text) (text.drop (p.lexeme text).length)
      (p.kind? (String.ofList (p.lexeme text))) := by
  have parts : p.lexeme text ++ text.drop (p.lexeme text).length = text :=
    List.prefix_iff_eq_append.mp (p.lexeme_isPrefix text)
  refine ⟨shape_lexeme (List.mem_of_find?_eq_some found) (lexeme_ne_nil found), ?_⟩
  rw [parts]
  rintro other other? ⟨rest, rfl⟩ shape
  obtain ⟨q, member, -, long⟩ := exists_pattern shape rest
  exact Nat.le_trans long (length_le_of_first found member)

theorem first?_of_munch {lexeme rest : List Char} {kind? : Option Kind}
    (munch : Munch lexeme rest kind?) : ∃ p, first? (lexeme ++ rest) = some p ∧
      p.lexeme (lexeme ++ rest) = lexeme ∧ p.kind? (String.ofList lexeme) = kind? := by
  obtain ⟨q, member, kind, long⟩ := exists_pattern munch.shape rest
  have some := List.length_pos_iff.mpr munch.shape.ne_nil
  have takes : q.lexeme (lexeme ++ rest) ≠ [] := List.length_pos_iff.mp (by omega)
  obtain ⟨p, found⟩ := exists_first member takes
  have short := munch.longest _ _ (p.lexeme_isPrefix _) (munch_of_first found).shape
  obtain rfl : q = p := by
    apply Decidable.byContradiction
    intro other
    have less := length_lt_of_first found member takes other
    omega
  refine ⟨q, found, ?_, kind⟩
  have parts := List.prefix_of_prefix_length_le (List.prefix_append lexeme rest)
    (q.lexeme_isPrefix _) long
  exact (parts.eq_of_length (Nat.le_antisymm long short)).symm

theorem first?_eq_none_iff {text : List Char} : first? text = none ↔ Stuck text := by
  constructor
  · rintro none lexeme kind? ⟨rest, rfl⟩ shape
    obtain ⟨p, member, -, long⟩ := exists_pattern shape rest
    have some := List.length_pos_iff.mpr shape.ne_nil
    have takes : p.lexeme (lexeme ++ rest) ≠ [] := List.length_pos_iff.mp (by omega)
    obtain ⟨q, found⟩ := exists_first member takes
    rw [none] at found
    cases found
  · intro stuck
    cases found : first? text with
    | none => rfl
    | some p => exact absurd (munch_of_first found).shape (stuck _ _ (p.lexeme_isPrefix text))

end Pattern

theorem exists_munch_or_stuck (text : List Char) :
    (∃ lexeme rest kind?, text = lexeme ++ rest ∧ Munch lexeme rest kind?) ∨ Stuck text := by
  cases found : Pattern.first? text with
  | none => exact .inr (Pattern.first?_eq_none_iff.mp found)
  | some p =>
    have parts := List.prefix_iff_eq_append.mp (p.lexeme_isPrefix text)
    exact .inl ⟨_, _, _, parts.symm, Pattern.munch_of_first found⟩

end LinkedScopes
