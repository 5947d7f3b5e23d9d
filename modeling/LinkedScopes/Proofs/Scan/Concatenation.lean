import LinkedScopes.Proofs.Scan.Gap

/-! Scanning line by line. Only blanks reach over a line feed, and of a gap it does not matter where
it is cut into lexemes. So what stands before a line feed is scanned as if nothing followed, and
what stands behind it as if nothing came before, but for the offsets. -/
namespace LinkedScopes

open Text

/-! Places so many bytes further on, in 32 bits. -/

def Position.shift (bytes : Nat) (position : Position) : Position :=
  { position with offset := position.offset + UInt32.ofNat bytes }

def Token.shift (bytes : Nat) (token : Token) : Token :=
  { token with span := ⟨token.span.start.shift bytes, token.span.stop.shift bytes⟩ }

def Diagnostic.shift (bytes : Nat) (d : Diagnostic) : Diagnostic :=
  { d with position := d.position.shift bytes }

def Stop.shift (bytes : Nat) (stop : Stop) : Stop :=
  { stop with offset := stop.offset + bytes }

section

variable {file : String} {offset bytes : Nat}

theorem Position.ofBytes_add :
    ofBytes (offset + bytes) file = (ofBytes offset file).shift bytes := by
  simp [ofBytes, shift, UInt32.ofNat_add]

theorem Token.placed_add {kind : Kind} {lexeme : List Char} :
    placed kind lexeme (offset + bytes) file = (placed kind lexeme offset file).shift bytes := by
  simp only [placed, shift, Span.ofBytes, ← Position.ofBytes_add, Nat.add_right_comm]

theorem Token.endOfInput_add :
    endOfInput (.ofBytes (offset + bytes) file) =
      (endOfInput (.ofBytes offset file)).shift bytes := by
  simp only [endOfInput, shift, Span.at, Position.ofBytes_add]

theorem Stop.diagnostic_shift (stop : Stop) :
    (stop.shift bytes).diagnostic file = (stop.diagnostic file).shift bytes := by
  simp only [diagnostic, shift, Diagnostic.shift, Position.ofBytes_add]

/-- A text is munched the same from any offset on. -/
theorem Munches.shift (bytes : Nat) {text : List Char} {outcome : Except Stop (List Token)}
    (munches : Munches file offset text outcome) :
    Munches file (offset + bytes) text
      ((outcome.mapError (Stop.shift bytes)).map (List.map (Token.shift bytes))) := by
  induction munches with
  | ended offset =>
    have ends : Munches file (offset + bytes) [] _ := .ended _
    rwa [Token.endOfInput_add] at ends
  | passed munch later ih =>
    rw [Nat.add_right_comm] at ih
    exact .passed munch ih
  | @made offset lexeme rest kind outcome munch later ih =>
    rw [Nat.add_right_comm] at ih
    have made := Munches.made munch ih
    cases outcome with
    | error stop => exact made
    | ok tokens =>
      simp only [Token.placed_add] at made
      exact made
  | stuck stuck => exact .stuck stuck

end

/-! No lexeme but blanks reaches over a line feed. -/

section

variable {file : String} {offset : Nat} {lexeme rest more : List Char} {kind? : Option Kind}

theorem isBlank_feed : isBlank '\n' = true := by decide

theorem Shape.blank_of_feed (shape : Shape lexeme kind?) (feed : '\n' ∈ lexeme) :
    ∀ c ∈ lexeme, isBlank c = true := by
  cases kind? with
  | some kind => simpa [isBlank_feed] using shape.not_blank _ feed
  | none =>
    cases shape with
    | blanks nonempty each => exact each
    | comment within => simp [within] at feed

/-- Behind a character that is no blank, a lexeme ends before the next line feed. -/
theorem Shape.isPrefix_of_feed {c : Char} {text : List Char} (shape : Shape lexeme kind?)
    (front : lexeme <+: c :: text ++ '\n' :: more) (other : isBlank c = false) :
    lexeme <+: c :: text := by
  obtain ⟨left, parts⟩ := front
  rcases List.append_eq_append_iff.mp parts with ⟨after, parts, -⟩ | ⟨beyond, rfl, feed⟩
  · exact ⟨after, parts.symm⟩
  · cases beyond with
    | nil => simp
    | cons d beyond =>
      obtain ⟨rfl, -⟩ := List.cons.inj feed
      have blank := shape.blank_of_feed (by simp) c (by simp)
      simp [blank] at other

/-- A lexeme that is not blank is the longest whatever stands behind the next line feed. -/
theorem Munch.before_feed (munch : Munch lexeme rest kind?)
    (first : ∀ c ∈ lexeme.head?, isBlank c = false) (more : List Char) :
    Munch lexeme (rest ++ '\n' :: more) kind? where
  shape := munch.shape
  longest := by
    intro other other? front shape
    obtain ⟨c, others, rfl⟩ := List.exists_cons_of_ne_nil munch.shape.ne_nil
    rw [← List.append_assoc] at front
    exact munch.longest other other? (shape.isPrefix_of_feed front (first c rfl)) shape

theorem Stuck.before_feed {c : Char} {text : List Char} (stuck : Stuck (c :: text))
    (more : List Char) : Stuck (c :: (text ++ '\n' :: more)) := by
  intro lexeme kind? front shape
  cases blank : isBlank c with
  | true =>
    have alone : Shape [c] none := .blanks (List.cons_ne_nil c []) (by simpa using blank)
    exact stuck [c] none ⟨text, rfl⟩ alone
  | false => exact stuck lexeme kind? (shape.isPrefix_of_feed front blank) shape

variable {outcome : Except Stop (List Token)}

theorem Munches.passed_before_feed (munch : Munch lexeme rest none)
    (later : Munches file (offset + width lexeme) (rest ++ '\n' :: more) outcome) :
    Munches file offset (lexeme ++ rest ++ '\n' :: more) outcome := by
  rw [List.append_assoc]
  cases munch.shape with
  | blanks nonempty each =>
    -- The blanks may go on behind the line feed.
    have gap : Gap (lexeme ++ []) (rest ++ '\n' :: more) := .blanks each .empty
    rw [List.append_nil] at gap
    exact gap.munches later
  | comment within =>
    exact .passed (munch.before_feed (by simp [not_blank_slash]) more) later

theorem Munches.made_before_feed {kind : Kind} (munch : Munch lexeme rest (some kind))
    (later : Munches file (offset + width lexeme) (rest ++ '\n' :: more) outcome) :
    Munches file offset (lexeme ++ rest ++ '\n' :: more)
      (outcome.map (.placed kind lexeme offset file :: ·)) := by
  rw [List.append_assoc]
  have first : ∀ c ∈ lexeme.head?, isBlank c = false :=
    fun c head => munch.shape.not_blank c (List.mem_of_mem_head? head)
  exact .made (munch.before_feed first more) later

theorem Munches.error_append_feed {text : List Char} {stop : Stop}
    (munches : Munches file offset text (.error stop)) (more : List Char) :
    Munches file offset (text ++ '\n' :: more) (.error stop) := by
  generalize fails : Except.error stop = result at munches
  induction munches with
  | ended => cases fails
  | passed munch later ih => exact .passed_before_feed munch (ih fails)
  | @made offset lexeme rest kind result munch later ih =>
    cases result with
    | ok tokens => cases fails
    | error other =>
      cases fails
      exact .made_before_feed munch (ih rfl)
  | stuck stuck =>
    cases fails
    exact .stuck (stuck.before_feed more)

/-- Where munching comes to the end of a text, it goes on behind a line feed that follows, with the
tokens made so far. -/
theorem Munches.append_feed {text : List Char} {tokens : List Token}
    (munches : Munches file offset text (.ok tokens)) : ∃ body,
      tokens = body ++ [.endOfInput (.ofBytes (offset + width text) file)] ∧
      ∀ more outcome, Munches file (offset + width text + 1) more outcome →
        Munches file offset (text ++ '\n' :: more) (outcome.map (body ++ ·)) := by
  induction munches using Munches.ok_induct with
  | ended offset =>
    refine ⟨[], rfl, fun more outcome later => ?_⟩
    have blank := Munches.blank isBlank_feed later
    cases outcome <;> exact blank
  | passed munch later ih =>
    obtain ⟨body, rfl, goes⟩ := ih
    rw [width_append, ← Nat.add_assoc]
    exact ⟨body, rfl, fun more outcome later => .passed_before_feed munch (goes more outcome later)⟩
  | @made offset lexeme rest kind tokens munch later ih =>
    obtain ⟨body, rfl, goes⟩ := ih
    rw [width_append, ← Nat.add_assoc]
    refine ⟨.placed kind lexeme offset file :: body, rfl, fun more outcome later => ?_⟩
    have whole := Munches.made_before_feed munch (goes more outcome later)
    cases outcome <;> exact whole

end

theorem Source.toList_join (a b : String) :
    (a ++ "\n" ++ b).toList = a.toList ++ '\n' :: b.toList := by
  simp [String.toList_append]

/-- Two texts that are joined by a line feed are scanned one after the other. A fault in the first
is the fault of both. Where the first has none, the fault of the second is theirs, as many bytes
further on as stand before it; and where the second has none either, the tokens of the first
without its end come before those of the second, which stand that much further on. -/
theorem tokens_append_line (a b file : String) :
    (∀ d, Source.tokens ⟨a, file⟩ = .error d →
      Source.tokens ⟨a ++ "\n" ++ b, file⟩ = .error d) ∧
    ∀ tokens, Source.tokens ⟨a, file⟩ = .ok tokens →
      (∀ d, Source.tokens ⟨b, file⟩ = .error d →
        Source.tokens ⟨a ++ "\n" ++ b, file⟩ = .error (d.shift (a.utf8ByteSize + 1))) ∧
      ∀ tokens', Source.tokens ⟨b, file⟩ = .ok tokens' → ∃ body,
        tokens = body ++ [.endOfInput (.ofBytes a.utf8ByteSize file)] ∧
        Source.tokens ⟨a ++ "\n" ++ b, file⟩ =
          .ok (body ++ tokens'.map (Token.shift (a.utf8ByteSize + 1))) := by
  have scanned {result : Except Stop (List Token)}
      (munches : Munches file 0 (a.toList ++ '\n' :: b.toList) result) :
      Source.tokens ⟨a ++ "\n" ++ b, file⟩ = result.mapError (Stop.diagnostic file) := by
    apply Source.tokens_of_munches
    rwa [Source.toList_join]
  constructor
  · intro d fails
    obtain ⟨stop, munches, rfl⟩ := Source.munches_of_error fails
    exact scanned (munches.error_append_feed b.toList)
  · intro tokens run
    obtain ⟨body, parts, goes⟩ := (Source.munches_of_ok run).append_feed
    rw [width_ofList, String.ofList_toList, Nat.zero_add] at parts goes
    -- The second text is munched from where the first one and the line feed end.
    have later {result : Except Stop (List Token)} (munches : Munches file 0 b.toList result) :=
      goes _ _ (by simpa only [Nat.zero_add] using munches.shift (a.utf8ByteSize + 1))
    refine ⟨fun d fails => ?_, fun tokens' run' => ?_⟩
    · obtain ⟨stop, munches, rfl⟩ := Source.munches_of_error fails
      rw [← Stop.diagnostic_shift]
      exact scanned (later munches)
    · exact ⟨body, parts, scanned (later (Source.munches_of_ok run'))⟩

/-- Blanks on both sides of the line feed are one lexeme then, and a slash starts no comment. A
fault behind the line feed is found three bytes further on. -/
theorem tokens_append_line_blanks :
    let slash (offset : Nat) : Token := .placed (.operator .div) ['/'] offset "a"
    let ended (offset : Nat) : Token := .endOfInput (.ofBytes offset "a")
    Source.tokens ⟨"/ ", "a"⟩ = .ok [slash 0, ended 2] ∧
    Source.tokens ⟨" /", "a"⟩ = .ok [slash 1, ended 2] ∧
    Source.tokens ⟨"/ \n /", "a"⟩ = .ok [slash 0, slash 4, ended 5] ∧
    Source.tokens ⟨"@", "a"⟩ = .error ⟨.unrecognised "@", .ofBytes 0 "a"⟩ ∧
    Source.tokens ⟨"/ \n@", "a"⟩ = .error ⟨.unrecognised "@", .ofBytes 3 "a"⟩ ∧
    Source.tokens ⟨"@\n/ ", "a"⟩ = .error ⟨.unrecognised "@", .ofBytes 0 "a"⟩ := by
  intro slash ended
  have sign : Shape ['/'] (some (.operator .div)) := .sign (by decide)
  have space : isBlank ' ' = true := by decide
  have before : Munch ['/'] [' '] (some (.operator .div)) := .of_blank sign (by simp [space])
  have last : Munch ['/'] [] (some (.operator .div)) := .of_blank sign (by simp)
  have none : Stuck ['@'] := Pattern.first?_eq_none_iff.mp (by decide)
  have first : Munches "a" 0 "/ ".toList _ := .made before (.blank space (.ended 2))
  have second : Munches "a" 0 " /".toList _ := .blank space (.made last (.ended 2))
  have third : Munches "a" 0 "@".toList _ := .stuck none
  have run : Source.tokens ⟨"/ ", "a"⟩ = _ := Source.tokens_of_munches first
  have run' : Source.tokens ⟨" /", "a"⟩ = _ := Source.tokens_of_munches second
  have fails : Source.tokens ⟨"@", "a"⟩ = _ := Source.tokens_of_munches third
  obtain ⟨body, parts, joined⟩ := ((tokens_append_line "/ " " /" "a").2 _ run).2 _ run'
  have same : [slash 0] ++ [ended 2] = body ++ [ended 2] := parts
  obtain rfl := List.append_cancel_right same
  have fails' := ((tokens_append_line "/ " "@" "a").2 _ run).1 _ fails
  have early := (tokens_append_line "@" "/ " "a").1 _ fails
  exact ⟨run, run', joined, fails, fails', early⟩

end LinkedScopes
