import LinkedScopes.Proofs.Scan.Munch
import LinkedScopes.Token.Scanner

/-! Scanning is munching. From place to place the scanner takes the longest lexeme, whichever
shape it has, and it stops where none stands. The order of the patterns plays no part. -/
namespace LinkedScopes

open Text

/-- Where munching stops short of the end: at a character that no lexeme starts with. -/
structure Stop where
  offset : Nat
  character : Char

def Stop.diagnostic (file : String) (stop : Stop) : Diagnostic :=
  ⟨.unrecognised (String.singleton stop.character), .ofBytes stop.offset file⟩

def Token.placed (kind : Kind) (lexeme : List Char) (offset : Nat) (file : String) : Token :=
  ⟨kind, String.ofList lexeme, .ofBytes offset (width lexeme) file⟩

/-- Munching a text from an offset on. Each lexeme in turn is the longest that stands there;
those that make tokens are placed where they stand. It comes to the end of the text, or stops
where no lexeme stands. -/
inductive Munches (file : String) : Nat → List Char → Except Stop (List Token) → Prop
  | ended (offset : Nat) : Munches file offset [] (.ok [.endOfInput (.ofBytes offset file)])
  | passed {offset : Nat} {lexeme rest : List Char} {outcome : Except Stop (List Token)}
      (munch : Munch lexeme rest none)
      (later : Munches file (offset + width lexeme) rest outcome) :
    Munches file offset (lexeme ++ rest) outcome
  | made {offset : Nat} {lexeme rest : List Char} {kind : Kind}
      {outcome : Except Stop (List Token)} (munch : Munch lexeme rest (some kind))
      (later : Munches file (offset + width lexeme) rest outcome) :
    Munches file offset (lexeme ++ rest) (outcome.map (.placed kind lexeme offset file :: ·))
  | stuck {offset : Nat} {c : Char} {rest : List Char} (stuck : Stuck (c :: rest)) :
    Munches file offset (c :: rest) (.error ⟨offset, c⟩)

/-- What holds at the end of a text, and in front of each lexeme if it holds behind it, holds
wherever munching comes to the end. -/
@[elab_as_elim]
theorem Munches.ok_induct {file : String}
    {motive : ∀ offset text tokens, Munches file offset text (.ok tokens) → Prop}
    (ended : ∀ offset, motive offset [] _ (.ended offset))
    (passed : ∀ {offset lexeme rest tokens} (munch : Munch lexeme rest none)
      (later : Munches file (offset + width lexeme) rest (.ok tokens)),
      motive _ _ _ later → motive offset (lexeme ++ rest) tokens (.passed munch later))
    (made : ∀ {offset lexeme rest kind tokens} (munch : Munch lexeme rest (some kind))
      (later : Munches file (offset + width lexeme) rest (.ok tokens)),
      motive _ _ _ later →
        motive offset (lexeme ++ rest) (.placed kind lexeme offset file :: tokens)
          (.made munch later))
    {offset : Nat} {text : List Char} {tokens : List Token}
    (munches : Munches file offset text (.ok tokens)) : motive offset text tokens munches := by
  suffices all : ∀ {offset text outcome} (munches : Munches file offset text outcome) tokens
      (is : outcome = .ok tokens), motive offset text tokens (is ▸ munches) from
    all munches tokens rfl
  intro offset text outcome munches
  induction munches with
  | ended offset =>
    rintro tokens ⟨⟩
    exact ended offset
  | passed munch later ih =>
    rintro tokens rfl
    exact passed munch later (ih tokens rfl)
  | @made offset lexeme rest kind outcome munch later ih =>
    cases outcome with
    | error stop => rintro tokens ⟨⟩
    | ok others =>
      rintro tokens ⟨⟩
      exact made munch later (ih others rfl)
  | stuck => rintro tokens ⟨⟩

theorem Munches.shape_of_mem {file : String} {offset : Nat} {text : List Char}
    {tokens : List Token} (munches : Munches file offset text (.ok tokens)) {token : Token}
    (member : token ∈ tokens) (proper : token.kind ≠ .endOfInput) :
    Shape token.text.toList (some token.kind) := by
  induction munches using Munches.ok_induct with
  | ended offset =>
    obtain rfl := List.mem_singleton.mp member
    exact absurd rfl proper
  | passed munch later ih => exact ih member
  | made munch later ih =>
    rcases List.mem_cons.mp member with rfl | among
    · rw [Token.placed, String.toList_ofList]
      exact munch.shape
    · exact ih among

namespace Scanner

variable {file : String} {s : Scanner}

def outcome (file : String) (s : Scanner) : Except Diagnostic (List Token) :=
  (s.run file).map fun t => t.tokens.reverse ++ [.endOfInput (.ofBytes t.offset file)]

theorem outcome_of_ended (ended : s.rest = []) :
    s.outcome file = .ok (s.tokens.reverse ++ [.endOfInput (.ofBytes s.offset file)]) := by
  rw [outcome, run, if_pos ended]
  rfl

theorem outcome_of_step_ok {next : Scanner} (goes : s.rest ≠ []) (step : s.step file = .ok next) :
    s.outcome file = next.outcome file := by
  rw [outcome, run, if_neg goes]
  split
  · next d fails =>
    rw [step] at fails
    cases fails
  · next other steps =>
    rw [step] at steps
    cases steps
    rfl

theorem outcome_of_step_error {d : Diagnostic} (goes : s.rest ≠ [])
    (step : s.step file = .error d) : s.outcome file = .error d := by
  rw [outcome, run, if_neg goes]
  split
  · next d' fails =>
    rw [step] at fails
    cases fails
    rfl
  · next other steps =>
    rw [step] at steps
    cases steps

theorem step_of_munch {lexeme rest : List Char} {kind? : Option Kind}
    (parts : s.rest = lexeme ++ rest) (munch : Munch lexeme rest kind?) :
    s.step file = .ok (s.pass file lexeme kind?) := by
  obtain ⟨p, found, takes, kind⟩ := Pattern.first?_of_munch munch
  rw [step, parts, found]
  simp only [takes, kind]

theorem step_of_stuck {c : Char} {rest : List Char} (parts : s.rest = c :: rest)
    (stuck : Stuck (c :: rest)) : s.step file = .error (Stop.diagnostic file ⟨s.offset, c⟩) := by
  rw [step, parts, Pattern.first?_eq_none_iff.mpr stuck, Stop.diagnostic,
    String.singleton_eq_ofList]
  rfl

/-- A scanner comes to what munching the rest of its text comes to, after its own tokens. -/
theorem outcome_of_munches {offset : Nat} {text : List Char} {result : Except Stop (List Token)}
    (munches : Munches file offset text result) (tokens : List Token) :
    outcome file ⟨offset, text, tokens⟩ =
      (result.mapError (Stop.diagnostic file)).map (tokens.reverse ++ ·) := by
  induction munches generalizing tokens with
  | ended offset => exact outcome_of_ended rfl
  | @passed offset lexeme rest result munch later ih =>
    have goes : lexeme ++ rest ≠ [] := by simp [munch.shape.ne_nil]
    rw [outcome_of_step_ok goes (step_of_munch rfl munch), pass, List.drop_left, ih]
  | @made offset lexeme rest kind result munch later ih =>
    have goes : lexeme ++ rest ≠ [] := by simp [munch.shape.ne_nil]
    rw [outcome_of_step_ok goes (step_of_munch rfl munch), pass, List.drop_left, ih]
    cases result with
    | error stop => rfl
    | ok more => simp [Except.map, Except.mapError, Token.placed]
  | stuck stuck =>
    exact outcome_of_step_error (List.cons_ne_nil _ _) (step_of_stuck rfl stuck)

end Scanner

theorem exists_munches (file : String) (offset : Nat) (text : List Char) :
    ∃ outcome, Munches file offset text outcome := by
  rcases exists_munch_or_stuck text with ⟨lexeme, rest, kind?, parts, munch⟩ | stuck
  · have some := List.length_pos_iff.mpr munch.shape.ne_nil
    have shorter : rest.length < text.length := by
      rw [parts, List.length_append]
      omega
    obtain ⟨outcome, later⟩ := exists_munches file (offset + width lexeme) rest
    rw [parts]
    cases kind? with
    | none => exact ⟨_, .passed munch later⟩
    | some kind => exact ⟨_, .made munch later⟩
  · cases text with
    | nil => exact ⟨_, .ended offset⟩
    | cons c rest => exact ⟨_, .stuck stuck⟩
termination_by text.length

theorem Source.tokens_eq_outcome (source : Source) :
    source.tokens = (Scanner.start source).outcome source.file := by
  rw [tokens, Scanner.outcome]
  cases (Scanner.start source).run source.file <;> rfl

/-- Scanning comes to what munching comes to. -/
theorem Source.tokens_of_munches {source : Source} {result : Except Stop (List Token)}
    (munches : Munches source.file 0 source.text.toList result) :
    source.tokens = result.mapError (Stop.diagnostic source.file) := by
  rw [tokens_eq_outcome, Scanner.start, Scanner.outcome_of_munches munches]
  cases result <;> rfl

theorem Source.tokens_ofList_of_munches {file : String} {text : List Char}
    {result : Except Stop (List Token)} (munches : Munches file 0 text result) :
    Source.tokens ⟨String.ofList text, file⟩ = result.mapError (Stop.diagnostic file) := by
  apply tokens_of_munches
  rwa [String.toList_ofList]

theorem Source.munches_of_ok {source : Source} {tokens : List Token}
    (run : source.tokens = .ok tokens) :
    Munches source.file 0 source.text.toList (.ok tokens) := by
  obtain ⟨result, munches⟩ := exists_munches source.file 0 source.text.toList
  have same := (tokens_of_munches munches).symm.trans run
  cases result with
  | error stop => cases same
  | ok tokens' =>
    cases same
    exact munches

theorem Source.munches_of_error {source : Source} {d : Diagnostic}
    (run : source.tokens = .error d) : ∃ stop,
      Munches source.file 0 source.text.toList (.error stop) ∧ d = stop.diagnostic source.file := by
  obtain ⟨result, munches⟩ := exists_munches source.file 0 source.text.toList
  have same := (tokens_of_munches munches).symm.trans run
  cases result with
  | error stop =>
    cases same
    exact ⟨stop, munches, rfl⟩
  | ok tokens => cases same

/-- A lexeme that is the longest stays so where the text is cut off after it. -/
theorem Munch.cut {lexeme rest more : List Char} {kind? : Option Kind}
    (munch : Munch lexeme (rest ++ more) kind?) : Munch lexeme rest kind? where
  shape := munch.shape
  longest := by
    intro other other? front shape
    apply munch.longest other other? _ shape
    rw [← List.append_assoc]
    exact front.trans (List.prefix_append _ more)

/-- Munching stops at a character that no lexeme starts with. It comes to the end of what stands
before that. -/
theorem Munches.exists_before {file : String} {offset : Nat} {text : List Char} {stop : Stop}
    (munches : Munches file offset text (.error stop)) : ∃ before rest tokens,
      text = before ++ stop.character :: rest ∧ Stuck (stop.character :: rest) ∧
        stop.offset = offset + width before ∧ Munches file offset before (.ok tokens) := by
  generalize fails : Except.error stop = result at munches
  induction munches with
  | ended => cases fails
  | @passed offset lexeme rest result munch later ih =>
    obtain ⟨before, after, tokens, rfl, stuck, place, munches⟩ := ih fails
    refine ⟨lexeme ++ before, after, tokens, by simp, stuck, ?_, .passed munch.cut munches⟩
    rw [place, width_append, Nat.add_assoc]
  | @made offset lexeme rest kind result munch later ih =>
    cases result with
    | ok => cases fails
    | error other =>
      cases fails
      obtain ⟨before, after, tokens, rfl, stuck, place, munches⟩ := ih rfl
      refine ⟨lexeme ++ before, after, _, by simp, stuck, ?_, .made munch.cut munches⟩
      rw [place, width_append, Nat.add_assoc]
  | @stuck offset c rest stuck =>
    cases fails
    exact ⟨[], rest, _, rfl, stuck, rfl, .ended offset⟩

/-- Scanning is munching. It succeeds with the tokens that munching makes. It fails where munching
stops, for the one character that stands there, and at that offset in 32 bits; and the text cut
off there is scanned to its end. -/
theorem tokens_eq_iff_munches (source : Source) :
    (∀ tokens, source.tokens = .ok tokens ↔
      Munches source.file 0 source.text.toList (.ok tokens)) ∧
    (∀ d, source.tokens = .error d ↔ ∃ stop,
      Munches source.file 0 source.text.toList (.error stop) ∧
        d = ⟨.unrecognised (String.singleton stop.character),
          ⟨UInt32.ofNat stop.offset, source.file⟩⟩) ∧
    ∀ stop, Munches source.file 0 source.text.toList (.error stop) → ∃ before rest,
      source.text.toList = before ++ stop.character :: rest ∧ Stuck (stop.character :: rest) ∧
        stop.offset = width before ∧
        ∃ tokens, Source.tokens ⟨String.ofList before, source.file⟩ = .ok tokens := by
  refine ⟨?_, ?_, ?_⟩
  · intro tokens
    constructor
    · exact Source.munches_of_ok
    · exact Source.tokens_of_munches
  · intro d
    constructor
    · exact Source.munches_of_error
    · rintro ⟨stop, munches, rfl⟩
      exact Source.tokens_of_munches munches
  · intro stop munches
    obtain ⟨before, rest, tokens, parts, stuck, place, munches⟩ := munches.exists_before
    refine ⟨before, rest, parts, stuck, by rw [place, Nat.zero_add], tokens, ?_⟩
    exact Source.tokens_ofList_of_munches munches

/-- A word that starts with a keyword, and a character that starts no lexeme. -/
theorem tokens_eq_iff_munches_stuck :
    Source.tokens ⟨"ifx?", "a"⟩ = .error ⟨.unrecognised "?", ⟨3, "a"⟩⟩ ∧ ∃ before tokens,
      width before = 3 ∧ Source.tokens ⟨String.ofList before, "a"⟩ = .ok tokens := by
  have word : Munch ['i', 'f', 'x'] ['?'] (some .identifier) :=
    Pattern.munch_of_first (show Pattern.first? ['i', 'f', 'x', '?'] = some .word by decide)
  have none : Stuck ['?'] := Pattern.first?_eq_none_iff.mp (by decide)
  have munches : Munches "a" 0 "ifx?".toList (.error ⟨3, '?'⟩) := .made word (.stuck none)
  obtain ⟨-, fails, cut⟩ := tokens_eq_iff_munches ⟨"ifx?", "a"⟩
  obtain ⟨before, rest, -, -, place, tokens, run⟩ := cut ⟨3, '?'⟩ munches
  exact ⟨(fails _).mpr ⟨⟨3, '?'⟩, munches, rfl⟩, before, tokens, place.symm, run⟩

end LinkedScopes
