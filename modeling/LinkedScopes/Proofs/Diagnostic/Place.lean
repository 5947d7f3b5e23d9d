import LinkedScopes.Diagnostic.Excerpt
import LinkedScopes.Proofs.Grammar.Lexeme
import LinkedScopes.Proofs.Rule.Echo
import LinkedScopes.Proofs.Scan.Gap
import LinkedScopes.Proofs.Scan.Tiling
import LinkedScopes.Proofs.Source.Lines

/-! Where diagnostics point. Scanning stops at the character it reports. A rule reports a token
that it has seen, at the place where that token starts or where the one after it does; and every
token that it sees is one of the source, for past the last one it sees the last one again. So
a diagnostic points into the source, and what it names is what stands there or just before. -/
namespace LinkedScopes

open Text

/-- Where a diagnostic points, as a byte offset. -/
def Diagnostic.offset (d : Diagnostic) : Nat := d.position.offset.toNat

namespace Source

/-- Reading a source ends with this diagnostic, in its characters or in its tokens. -/
inductive Fails (source : Source) (limit : Nat) (d : Diagnostic) : Prop
  | scanning (run : source.tokens = .error d)
  | reading {tokens : List Token} {t : State} (run : source.tokens = .ok tokens)
    (halts : parse tokens limit = (.error (.fault d), t))

def Shows (source : Source) (offset : Nat) (text : String) : Prop :=
  ∃ stop rest, Stands source.text.toList offset stop text.toList rest

/-- At an offset of a source stands this text, or it is the end and the text says so. -/
def Names (source : Source) (offset : Nat) (text : String) : Prop :=
  source.Shows offset text ∨ offset = source.text.utf8ByteSize ∧ text = "EOF"

end Source

/-- A fault at an offset of a source names what stands there. A keyword that lacks its argument
is the text of the token before; nesting that is too deep is so at some token. -/
def Fault.StandsAt (source : Source) (limit offset : Nat) : Fault → Prop
  | unrecognised text | unexpected text | unexpectedFor text _ | malformedExpression text
  | malformedNumber text => source.Names offset text
  | keywordMisused word _ => source.Shows offset word ∨
    ∃ earlier keyword token later, source.tokens = .ok (earlier ++ keyword :: token :: later) ∧
      keyword.text = word ∧ token.start = offset
  | nestingTooDeep levels => levels = limit ∧
    ∃ tokens, source.tokens = .ok tokens ∧ ∃ token ∈ tokens, token.start = offset

/-- A diagnostic has its place in a source. It is reported with the line of that place unless the
caret would stand too far in, and then it is not reported at all. -/
structure Diagnostic.Placed (d : Diagnostic) (source : Source) (limit : Nat) : Prop where
  inside : d.offset ≤ source.text.utf8ByteSize
  boundary : ∃ before rest, source.text.toList = before ++ rest ∧ d.offset = width before
  shown : ∃ line, Line.at? source.text.toList d.offset = some line ∧
    (Diagnostic.column line < Diagnostic.widest → ∃ excerpt,
      Diagnostic.excerpt? line = some excerpt ∧
        d.report? source.text = some (d.heading ++ excerpt)) ∧
    (Diagnostic.widest ≤ Diagnostic.column line → d.report? source.text = none)
  stands : d.fault.StandsAt source limit d.offset

theorem Source.width_text (source : Source) :
    width source.text.toList = source.text.utf8ByteSize := by
  rw [width_ofList, String.ofList_toList]

theorem Line.exists_at? {text : List Char} {offset : Nat} (inside : offset ≤ width text) :
    ∃ line, Line.at? text offset = some line := by
  simp only [Line.at?, if_neg (Nat.not_lt.mpr inside)]
  cases Line.holding 1 offset (segments text) with
  | none => exact ⟨_, rfl⟩
  | some line => exact ⟨line, rfl⟩

namespace Diagnostic

theorem exists_excerpt {line : Line} (fits : column line < widest) :
    ∃ excerpt, excerpt? line = some excerpt := by
  apply Option.ne_none_iff_exists'.mp
  rw [Ne, excerpt?_eq_none_iff]
  exact Nat.not_le_of_lt fits

theorem report?_of_line {d : Diagnostic} {text : String} {line : Line}
    (found : Line.at? text.toList d.offset = some line) :
    d.report? text = (excerpt? line).map (d.heading ++ ·) := by
  rw [report?, show d.position.offset.toNat = d.offset from rfl, found]

end Diagnostic

/-- What is left to show of a diagnostic once it is known where it stands. -/
theorem Diagnostic.Placed.of_boundary {d : Diagnostic} {source : Source} {limit : Nat}
    (boundary : ∃ before rest, source.text.toList = before ++ rest ∧ d.offset = width before)
    (stands : d.fault.StandsAt source limit d.offset) : d.Placed source limit := by
  have inside : d.offset ≤ width source.text.toList := by
    obtain ⟨before, rest, parts, place⟩ := boundary
    rw [parts, place]
    exact width_le_append before rest
  obtain ⟨line, found⟩ := Line.exists_at? inside
  rw [source.width_text] at inside
  refine ⟨inside, boundary, ⟨line, found, fun fits => ?_, fun wide => ?_⟩, stands⟩
  · obtain ⟨excerpt, shown⟩ := Diagnostic.exists_excerpt fits
    exact ⟨excerpt, shown, by rw [Diagnostic.report?_of_line found, shown, Option.map_some]⟩
  · rw [Diagnostic.report?_of_line found, Diagnostic.excerpt?_eq_none_iff.mpr wide,
      Option.map_none]

/-! Tokens that rules see. -/

section

variable {source : Source} {tokens : List Token}

theorem Source.ends_of_tokens (run : source.tokens = .ok tokens) : ∃ body position,
    tokens = body ++ [.endOfInput position] ∧ ∀ token ∈ body, token.kind ≠ .endOfInput := by
  obtain ⟨body, parts, each⟩ := (Source.tiles run).last
  exact ⟨body, _, parts, each⟩

/-- Past the last token of a source, a rule sees that one again. -/
theorem Source.token_mem (run : source.tokens = .ok tokens) (limit index : Nat) :
    (Input.mk tokens.toArray limit).token index ∈ tokens := by
  by_cases inside : index < tokens.length
  · rw [Input.token_of_lt_size inside]
    exact List.getElem_mem inside
  · rw [Input.token_of_size_le (Nat.not_lt.mp inside)]
    obtain ⟨body, position, rfl, -⟩ := Source.ends_of_tokens run
    simp [Input.ending, Token.endOfInput, Span.at]

theorem Source.exists_parts (run : source.tokens = .ok tokens) {limit index : Nat}
    (proper : ((Input.mk tokens.toArray limit).token index).kind ≠ .endOfInput) :
    ∃ earlier later, tokens = earlier ++ (Input.mk tokens.toArray limit).token index ::
      (Input.mk tokens.toArray limit).token (index + 1) :: later := by
  have inside : index < tokens.length := Input.lt_size_of_kind proper
  have next : index + 1 < tokens.length := by
    obtain ⟨body, position, rfl, -⟩ := Source.ends_of_tokens run
    rw [List.length_append, List.length_singleton] at inside ⊢
    refine Nat.succ_lt_succ (Nat.lt_of_le_of_ne (Nat.le_of_lt_succ inside) ?_)
    rintro rfl
    exact proper (by simp [Input.token, Token.endOfInput])
  refine ⟨tokens.take index, tokens.drop (index + 1 + 1), ?_⟩
  have here := @Input.drop_eq_cons ⟨tokens.toArray, limit⟩ _ inside
  have there := @Input.drop_eq_cons ⟨tokens.toArray, limit⟩ _ next
  rw [← there, ← here]
  exact (List.take_append_drop index tokens).symm

/-- A token of a source is what stands where it starts. -/
theorem Source.stands_of_mem (short : source.text.utf8ByteSize < UInt32.size)
    (run : source.tokens = .ok tokens) {token : Token} (member : token ∈ tokens)
    (proper : token.kind ≠ .endOfInput) : token.start < token.stop ∧
      ∃ rest, Stands source.text.toList token.start token.stop token.text.toList rest := by
  rw [← source.width_text] at short
  exact (Source.tiles run).stands short token member proper

theorem Source.ends_of_mem (short : source.text.utf8ByteSize < UInt32.size)
    (run : source.tokens = .ok tokens) {token : Token} (member : token ∈ tokens)
    (ends : token.kind = .endOfInput) :
    token.start = source.text.utf8ByteSize ∧ token.text = "EOF" := by
  obtain ⟨body, parts, each⟩ := (Source.tiles run).last
  rw [parts] at member
  rcases List.mem_append.mp member with early | last
  · exact absurd ends (each token early)
  · obtain rfl := List.mem_singleton.mp last
    rw [← source.width_text] at short ⊢
    exact ⟨(@Token.place_endOfInput _ source.file short).1, rfl⟩

theorem Source.names_of_mem (short : source.text.utf8ByteSize < UInt32.size)
    (run : source.tokens = .ok tokens) {token : Token} (member : token ∈ tokens) :
    source.Names token.start token.text := by
  by_cases ends : token.kind = .endOfInput
  · exact .inr (Source.ends_of_mem short run member ends)
  · obtain ⟨-, stands⟩ := Source.stands_of_mem short run member ends
    exact .inl ⟨_, stands⟩

theorem Source.Names.boundary {offset : Nat} {text : String} (names : source.Names offset text) :
    ∃ before rest, source.text.toList = before ++ rest ∧ offset = width before := by
  rcases names with ⟨stop, rest, before, parts, place, -⟩ | ⟨place, -⟩
  · exact ⟨before, _, parts, place⟩
  · exact ⟨source.text.toList, [], by simp, place.trans source.width_text.symm⟩

end

/-- Reading finds fault with a token of its input: the run echoes itself. -/
theorem exists_complaint {tokens : List Token} {limit : Nat} {d : Diagnostic} {t : State}
    (halts : parse tokens limit = (.error (.fault d), t)) :
    ∃ complaint : Complaint, complaint.Fits ⟨tokens.toArray, limit⟩ ∧
      d = complaint.diagnostic ⟨tokens.toArray, limit⟩ := by
  let input : Input := ⟨tokens.toArray, limit⟩
  have like : input.Resembles input t.cursor := ⟨rfl, fun _ _ => rfl, fun _ _ => rfl⟩
  have run : Rule.program.runFrom input {} = (.error (.fault d), t) := halts
  have echo := (Rule.program_echoing like {}).echo
  rw [run] at echo
  have echo := echo (Nat.le_refl _) []
  generalize again : Rule.program.runFrom input _ = run' at echo
  cases echo with
  | fault complaint fits => exact ⟨complaint, fits, rfl⟩
  | exhausted' => cases run.symm.trans again

theorem Complaint.placed {source : Source} {tokens : List Token} {limit : Nat}
    (short : source.text.utf8ByteSize < UInt32.size) (run : source.tokens = .ok tokens)
    {complaint : Complaint} (fits : complaint.Fits ⟨tokens.toArray, limit⟩) :
    (complaint.diagnostic ⟨tokens.toArray, limit⟩).Placed source limit := by
  have member := Source.token_mem run limit
  have names (index : Nat) := Source.names_of_mem short run (member index)
  refine .of_boundary (names complaint.index).boundary ?_
  cases complaint with
  | unexpected index | unexpectedFor index | malformedExpression index | malformedNumber index =>
    exact names index
  | misplaced index =>
    obtain ⟨-, stands⟩ := Source.stands_of_mem short run (member index) fits
    exact .inl ⟨_, stands⟩
  | unopened index =>
    obtain ⟨earlier, later, parts⟩ := Source.exists_parts run fits
    exact .inr ⟨earlier, _, _, later, run.trans (congrArg _ parts), rfl, rfl⟩
  | nestingTooDeep index => exact ⟨rfl, tokens, run, _, member index, rfl⟩

theorem Stop.exists_boundary {source : Source} {stop : Stop}
    (short : source.text.utf8ByteSize < UInt32.size)
    (munches : Munches source.file 0 source.text.toList (.error stop)) : ∃ before rest,
      source.text.toList = before ++ stop.character :: rest ∧
        Stuck (stop.character :: rest) ∧
        (stop.diagnostic source.file).offset = width before := by
  obtain ⟨before, rest, -, parts, stuck, place, -⟩ := munches.exists_before
  rw [Nat.zero_add] at place
  rw [← source.width_text, parts] at short
  have small : stop.offset < UInt32.size := by
    rw [place]
    exact Nat.lt_of_le_of_lt (width_le_append _ _) short
  exact ⟨before, rest, parts, stuck, (UInt32.toNat_ofNat_of_lt' small).trans place⟩

theorem Stop.placed {source : Source} {stop : Stop} (limit : Nat)
    (short : source.text.utf8ByteSize < UInt32.size)
    (munches : Munches source.file 0 source.text.toList (.error stop)) :
    (stop.diagnostic source.file).Placed source limit := by
  obtain ⟨before, rest, parts, -, offset⟩ := Stop.exists_boundary short munches
  refine .of_boundary ⟨before, _, parts, offset⟩ (.inl ⟨_, rest, before, ?_, offset, rfl⟩)
  rw [parts]
  simp

/-- Every diagnostic for a source that fits in 32 bits points into it and names what it points at.
It is reported with the line of its place exactly if a caret can be set there. -/
theorem diagnostic_placed {source : Source} (short : source.text.utf8ByteSize < UInt32.size)
    {limit : Nat} {d : Diagnostic} (fails : source.Fails limit d) : d.Placed source limit := by
  cases fails with
  | scanning run =>
    obtain ⟨stop, munches, rfl⟩ := Source.munches_of_error run
    exact stop.placed limit short munches
  | reading run halts =>
    obtain ⟨complaint, fits, rfl⟩ := exists_complaint halts
    exact Complaint.placed short run fits

/-- A keyword with nothing after it: the fault is where the source ends. -/
theorem diagnostic_placed_bare :
    let source : Source := ⟨"print", "a"⟩
    let d : Diagnostic := ⟨.keywordMisused "print" "must be followed by `(`", ⟨5, "a"⟩⟩
    source.text.utf8ByteSize < UInt32.size ∧ source.Fails 9 d ∧ d.Placed source 9 := by
  intro source d
  let tokens : List Token := [.placed .keyword ['p', 'r', 'i', 'n', 't'] 0 "a",
    .endOfInput (.ofBytes 5 "a")]
  have word : Munch ['p', 'r', 'i', 'n', 't'] [] (some .keyword) :=
    Pattern.munch_of_first (show Pattern.first? ['p', 'r', 'i', 'n', 't'] = some .word by decide)
  have munches : Munches "a" 0 "print".toList (.ok tokens) := .made word (.ended 5)
  have run : source.tokens = .ok tokens := by
    rw [Source.tokens_of_munches munches]
    rfl
  have halts : (parse tokens 9).1 = .error (.fault d) := rfl
  have short : source.text.utf8ByteSize < UInt32.size := by decide
  have fails : source.Fails 9 d := .reading run (Prod.ext halts rfl)
  exact ⟨short, fails, diagnostic_placed short fails⟩

def wordLine (others : Nat) : List Char := 'a' :: (List.replicate others 'a' ++ [' '])

theorem width_wordLine (others : Nat) : width (wordLine others) = others + 2 := by
  have letters : width (List.replicate others 'a') = others := by
    induction others with
    | zero => rfl
    | succ others ih =>
      rw [List.replicate_succ, width_cons, ih]
      exact Nat.add_comm _ _
  rw [wordLine, width_cons, width_append, letters]
  exact Nat.add_comm _ _

theorem start_wordLine (others : Nat) : Line.start (wordLine others) = wordLine others := by
  apply List.rtakeWhile_eq_self_iff.mpr
  intro c member
  have plain : c = 'a' ∨ c = ' ' := by
    simp only [wordLine, List.mem_cons, List.mem_append, List.mem_replicate] at member
    tauto
  rcases plain with rfl | rfl <;> rfl

theorem Source.fails_wordLine (others limit : Nat) :
    Source.Fails ⟨String.ofList (wordLine others ++ ['@']), "shell"⟩ limit
      ⟨.unrecognised "@", .ofBytes (width (wordLine others)) "shell"⟩ := by
  have letters : ∀ c ∈ List.replicate others 'a', Letter c ∨ Digit c := by
    intro c member
    rw [List.eq_of_mem_replicate member]
    decide
  obtain ⟨kind, word⟩ : ∃ kind, Shape ('a' :: List.replicate others 'a') (some kind) :=
    ⟨_, .word (by decide) letters⟩
  have munch : Munch ('a' :: List.replicate others 'a') [' ', '@'] (some kind) := by
    apply Munch.of_blank word
    intro c head
    obtain rfl := Option.some.inj head
    decide
  have none : Stuck ['@'] := Pattern.first?_eq_none_iff.mp (by decide)
  have munches : Munches "shell" 0 ('a' :: List.replicate others 'a' ++ [' ', '@']) _ :=
    .made munch (.blank (by decide) (.stuck none))
  have parts : wordLine others ++ ['@'] = 'a' :: List.replicate others 'a' ++ [' ', '@'] := by
    simp [wordLine]
  have place : width (wordLine others) = 0 + width ('a' :: List.replicate others 'a') + 1 := by
    rw [Nat.zero_add, wordLine, ← List.cons_append, width_append]
    rfl
  rw [parts, place]
  exact .scanning (Source.tokens_ofList_of_munches munches)

/-- What is wrong behind a word that is too long is not reported. -/
theorem Diagnostic.report?_wordLine {others : Nat} (small : others + 2 < UInt32.size)
    (far : widest ≤ others + 2) (fault : Fault) (file : String) :
    report? ⟨fault, .ofBytes (width (wordLine others)) file⟩
      (String.ofList (wordLine others ++ ['@'])) = none := by
  have last : Line.segments ['@'] = [['@']] := rfl
  obtain ⟨number, found⟩ := Line.at?_append (wordLine others) last
  have place : offset ⟨fault, .ofBytes (width (wordLine others)) file⟩ =
      width (wordLine others) := by
    rw [width_wordLine]
    exact UInt32.toNat_ofNat_of_lt' small
  rw [← place, ← String.toList_ofList (l := wordLine others ++ ['@'])] at found
  rw [report?_of_line found, Option.map_eq_none_iff, excerpt?_eq_none_iff, column, start_wordLine,
    width_wordLine]
  exact far

/-- Not every diagnostic is reported with its line. -/
theorem diagnostic_unreported : ¬ ∀ (source : Source) (limit : Nat) (d : Diagnostic),
    source.text.utf8ByteSize < UInt32.size → source.Fails limit d →
      ∃ line, Line.at? source.text.toList d.offset = some line ∧ ∃ excerpt,
        Diagnostic.excerpt? line = some excerpt ∧
          d.report? source.text = some (d.heading ++ excerpt) := by
  intro shown
  have short : (String.ofList (wordLine 69999 ++ ['@'])).utf8ByteSize < UInt32.size := by
    rw [← width_ofList, width_append, width_wordLine]
    decide
  obtain ⟨line, -, excerpt, -, report⟩ := shown
    ⟨String.ofList (wordLine 69999 ++ ['@']), "shell"⟩ 1 _ short (Source.fails_wordLine 69999 1)
  rw [Diagnostic.report?_wordLine (by decide) (by decide)] at report
  cases report

end LinkedScopes
