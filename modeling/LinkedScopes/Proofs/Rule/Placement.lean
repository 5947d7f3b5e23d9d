import LinkedScopes.Proofs.Grammar.Extent
import LinkedScopes.Proofs.Rule.Echo
import LinkedScopes.Proofs.Scan.Run

/-! What reading takes no notice of. Where tokens stand shows in diagnostics and nowhere else:
tokens that are spelled the same are read the same, and a fault that is found with one of them is
found with the same one wherever it stands. Nor does it matter whether the end of the input has a
token of its own, except for the place of what is missing there. -/
namespace LinkedScopes

/-- What a token says, wherever it stands. -/
def Token.spelling (token : Token) : Kind × String := (token.kind, token.text)

/-- What the token of an index says; past the last one it is that the input ends. -/
def spellingAt (tokens : List Token) (index : Nat) : Kind × String :=
  (tokens.map Token.spelling)[index]?.getD (.endOfInput, "EOF")

/-- Where some tokens end. -/
def endOf (tokens : List Token) : Position :=
  match tokens.getLast? with
  | some last => last.span.stop
  | none => .null

def startOf (tokens : List Token) (index : Nat) : Position :=
  match tokens[index]? with
  | some token => token.span.start
  | none => endOf tokens

/-- Reading the tokens under the limit ends with this complaint, which comes to this fault. -/
structure Complains (tokens : List Token) (limit : Nat) (complaint : Complaint) (fault : Fault) :
    Prop where
  about : complaint.fault ⟨tokens.toArray, limit⟩ = fault
  ends : (parse tokens limit).1 = .error (.fault ⟨fault, startOf tokens complaint.index⟩)

/-- Two lists of tokens are read alike: to one chain, or to one complaint with one fault, which each
places where its own token starts. As many tokens are passed and as many closes are owed. -/
structure ReadAlike (tokens tokens' : List Token) (limit : Nat) : Prop where
  cursor : (parse tokens' limit).2.cursor = (parse tokens limit).2.cursor
  debt : (parse tokens' limit).2.debt = (parse tokens limit).2.debt
  outcome : (∃ chain, (parse tokens limit).1 = .ok chain ∧ (parse tokens' limit).1 = .ok chain) ∨
    ∃ complaint fault, complaint.index ≤ tokens.length ∧
      Complains tokens limit complaint fault ∧ Complains tokens' limit complaint fault

section

variable {tokens tokens' : List Token} {limit index : Nat}

theorem Input.start_token :
    ((Input.mk tokens.toArray limit).token index).span.start = startOf tokens index := by
  rw [Input.token, startOf, List.getElem?_toArray]
  cases tokens[index]? with
  | some token => rfl
  | none =>
    rw [Input.ending, endOf, List.back?_toArray]
    cases tokens.getLast? with
    | some last => rfl
    | none => rfl

theorem Input.spelling_token :
    ((Input.mk tokens.toArray limit).token index).spelling = spellingAt tokens index := by
  rw [Input.token, spellingAt, List.getElem?_toArray, List.getElem?_map]
  cases tokens[index]? with
  | some token => rfl
  | none => rfl

/-- Tokens that are spelled the same look alike all the way, also past the last one. -/
theorem Input.resembles_of_spelling
    (same : ∀ index, spellingAt tokens' index = spellingAt tokens index) (limit last : Nat) :
    Input.Resembles ⟨tokens.toArray, limit⟩ ⟨tokens'.toArray, limit⟩ last := by
  have each (index : Nat) : ((Input.mk tokens'.toArray limit).token index).spelling =
      ((Input.mk tokens.toArray limit).token index).spelling := by
    rw [Input.spelling_token, Input.spelling_token, same]
  refine ⟨rfl, fun index _ => ?_, fun index _ => ?_⟩
  · exact congrArg Prod.fst (each index)
  · exact congrArg Prod.snd (each index)

theorem Complaint.fault_eq {input input' : Input} (like : ∀ last, input.Resembles input' last)
    (complaint : Complaint) : complaint.fault input' = complaint.fault input := by
  have text (index : Nat) : (input'.token index).text = (input.token index).text :=
    (like index).text index (Nat.le_refl _)
  cases complaint with
  | nestingTooDeep index => exact congrArg Fault.nestingTooDeep (like 0).limit
  | _ => simp only [fault, text]

theorem complains_of_diagnostic {complaint : Complaint}
    (ends : (parse tokens limit).1 =
      .error (.fault (complaint.diagnostic ⟨tokens.toArray, limit⟩))) :
    Complains tokens limit complaint (complaint.fault ⟨tokens.toArray, limit⟩) := by
  refine ⟨rfl, ?_⟩
  rw [ends, Complaint.diagnostic, Input.start_token]

theorem readAlike_of_resembles
    (like : ∀ last, Input.Resembles ⟨tokens.toArray, limit⟩ ⟨tokens'.toArray, limit⟩ last) :
    ReadAlike tokens tokens' limit := by
  have echo := (Rule.program_echoing (like (parse tokens limit).2.cursor) {}).echo
    (Nat.le_refl _) []
  rcases run : parse tokens limit with ⟨result, t⟩
  rcases run' : parse tokens' limit with ⟨result', t'⟩
  have ends := parse_ne_exhausted tokens limit
  have ends' := parse_ne_exhausted tokens' limit
  change Rule.Echo _ _ (parse tokens limit) (parse tokens' limit) at echo
  rw [run, run'] at echo
  rw [run] at ends
  rw [run'] at ends'
  cases echo with
  | @ok chain _ events =>
    refine ⟨by rw [run, run'], by rw [run, run'], .inl ⟨chain, by rw [run], by rw [run']⟩⟩
  | fault complaint fits seen events =>
    have inside : complaint.index ≤ tokens.length :=
      Nat.le_trans seen (Nat.le_trans (parse_cursor_le run) List.findIdx_le_length)
    have here := complains_of_diagnostic (congrArg Prod.fst run)
    have there := complains_of_diagnostic (congrArg Prod.fst run')
    rw [complaint.fault_eq like] at there
    exact ⟨by rw [run, run'], by rw [run, run'], .inr ⟨complaint, _, inside, here, there⟩⟩
  | exhausted => exact absurd rfl ends
  | exhausted' => exact absurd rfl ends'

end

/-- Tokens of the same kinds and texts are read alike wherever they stand, and so are sources with
such tokens. -/
theorem places_unseen :
    (∀ (tokens tokens' : List Token) (limit : Nat),
      tokens.map Token.spelling = tokens'.map Token.spelling → ReadAlike tokens tokens' limit) ∧
    ∀ (source source' : Source) (tokens tokens' : List Token) (limit : Nat),
      source.tokens = .ok tokens → source'.tokens = .ok tokens' →
      tokens.map Token.spelling = tokens'.map Token.spelling → ReadAlike tokens tokens' limit := by
  have alike (tokens tokens' : List Token) (limit : Nat)
      (same : tokens.map Token.spelling = tokens'.map Token.spelling) :
      ReadAlike tokens tokens' limit := by
    refine readAlike_of_resembles (Input.resembles_of_spelling (fun index => ?_) limit)
    rw [spellingAt, spellingAt, same]
  exact ⟨alike, fun _ _ tokens tokens' limit _ _ => alike tokens tokens' limit⟩

/-- A variable without its sign, at the start of a source and after a blank: what is missing is
reported at the end of either. -/
theorem places_unseen_shifted :
    let source : Source := ⟨"x", "a"⟩
    let source' : Source := ⟨" x", "a"⟩
    ∃ tokens tokens', source.tokens = .ok tokens ∧ source'.tokens = .ok tokens' ∧
      tokens.map Token.spelling = tokens'.map Token.spelling ∧ ReadAlike tokens tokens' 2 ∧
      (parse tokens 2).1 =
        .error (.fault ⟨.unexpectedFor "EOF" "expected `=` after `x`", ⟨1, "a"⟩⟩) ∧
      (parse tokens' 2).1 =
        .error (.fault ⟨.unexpectedFor "EOF" "expected `=` after `x`", ⟨2, "a"⟩⟩) := by
  intro source source'
  have word : Munch ['x'] [] (some .identifier) :=
    Pattern.munch_of_first (show Pattern.first? ['x'] = some .word by decide)
  have blank : Munch [' '] ['x'] none :=
    Pattern.munch_of_first (show Pattern.first? [' ', 'x'] = some .blanks by decide)
  have munches : Munches "a" 0 "x".toList (.ok _) := .made word (.ended 1)
  have munches' : Munches "a" 0 " x".toList (.ok _) := .passed blank (.made word (.ended 2))
  have run := @Source.tokens_of_munches source _ munches
  have run' := @Source.tokens_of_munches source' _ munches'
  exact ⟨_, _, run, run', rfl, places_unseen.2 source source' _ _ 2 run run' rfl, rfl, rfl⟩

/-- The token that stands for the end is spelled as the end is without it. -/
theorem spellingAt_append_end (tokens : List Token) (span : Span) (index : Nat) :
    spellingAt (tokens ++ [⟨.endOfInput, "EOF", span⟩]) index = spellingAt tokens index := by
  rw [spellingAt, spellingAt, List.map_append]
  rcases Nat.lt_or_ge index (tokens.map Token.spelling).length with inside | beyond
  · rw [List.getElem?_append_left inside]
  · rw [List.getElem?_append_right beyond, List.getElem?_eq_none beyond]
    -- The one token is spelled as what is past it.
    cases index - (tokens.map Token.spelling).length with
    | zero => rfl
    | succ more => rfl

theorem startOf_append {tokens : List Token} {index : Nat} (inside : index < tokens.length)
    (more : List Token) : startOf (tokens ++ more) index = startOf tokens index := by
  rw [startOf, startOf, List.getElem?_append_left inside, List.getElem?_eq_getElem inside]

/-- A token for the end of the input makes no difference, except that what is missing there is
missing where that token starts, and otherwise where the last token ends. -/
theorem end_token_unneeded (tokens : List Token) (span : Span) (limit : Nat) :
    let run := parse tokens limit
    let run' := parse (tokens ++ [⟨.endOfInput, "EOF", span⟩]) limit
    run'.2.cursor = run.2.cursor ∧ run'.2.debt = run.2.debt ∧
      ((∃ chain, run.1 = .ok chain ∧ run'.1 = .ok chain) ∨
        ∃ (complaint : Complaint) (fault : Fault) (position position' : Position),
          complaint.index ≤ tokens.length ∧ complaint.fault ⟨tokens.toArray, limit⟩ = fault ∧
          run.1 = .error (.fault ⟨fault, position⟩) ∧
          run'.1 = .error (.fault ⟨fault, position'⟩) ∧
          (∀ inside : complaint.index < tokens.length,
            position = tokens[complaint.index].span.start ∧ position' = position) ∧
          (complaint.index = tokens.length →
            position = endOf tokens ∧ position' = span.start)) := by
  have alike : ReadAlike tokens (tokens ++ [⟨.endOfInput, "EOF", span⟩]) limit :=
    readAlike_of_resembles (Input.resembles_of_spelling (spellingAt_append_end tokens span) limit)
  refine ⟨alike.cursor, alike.debt, alike.outcome.imp_right ?_⟩
  rintro ⟨complaint, fault, inside, here, there⟩
  refine ⟨complaint, fault, _, _, inside, here.about, here.ends, there.ends, ?_, ?_⟩
  · intro before
    exact ⟨by simp [startOf, before], startOf_append before _⟩
  · intro last
    rw [last]
    exact ⟨by simp [startOf], by simp [startOf]⟩

end LinkedScopes
