import LinkedScopes.Proofs.Scan.Gap

/-! The tokens of a source tile it. Each stands where it says, in the order of the text, and what
they leave out between them are gaps. An offset that fits in 32 bits says its place in full. -/
namespace LinkedScopes

open Text

/-- Tokens that tile the text behind what stands before it, up to the one that stands for the end
of the text. -/
inductive Tiles (file : String) : List Char → List Char → List Token → Prop
  | ended {before gap : List Char} (between : Gap gap []) :
    Tiles file before gap [.endOfInput (.ofBytes (width (before ++ gap)) file)]
  | made {before gap lexeme rest : List Char} {kind : Kind} {tokens : List Token}
      (between : Gap gap (lexeme ++ rest)) (nonempty : lexeme ≠ []) (other : kind ≠ .endOfInput)
      (later : Tiles file (before ++ gap ++ lexeme) rest tokens) :
    Tiles file before (gap ++ (lexeme ++ rest))
      (.placed kind lexeme (width (before ++ gap)) file :: tokens)

/-! Munching tiles. -/

section

variable {file : String} {before text : List Char} {tokens : List Token}

theorem Shape.ne_endOfInput {lexeme : List Char} {kind : Kind} (shape : Shape lexeme (some kind)) :
    kind ≠ .endOfInput := by
  cases shape with
  | word => split <;> nofun
  | whole | decimal => nofun
  | sign member =>
    rintro rfl
    simp [signs] at member

theorem Tiles.behind {lexeme rest : List Char} (munch : Munch lexeme rest none)
    (later : Tiles file (before ++ lexeme) rest tokens) :
    Tiles file before (lexeme ++ rest) tokens := by
  cases later with
  | ended between =>
    have whole : Gap (lexeme ++ rest) [] := .of_munch (by rwa [List.append_nil]) between
    rw [List.append_assoc]
    exact .ended whole
  | @made _ gap token rest kind tokens between nonempty other later =>
    have whole : Gap (lexeme ++ gap) (token ++ rest) := .of_munch munch between
    rw [List.append_assoc before] at later ⊢
    rw [← List.append_assoc lexeme]
    exact .made whole nonempty other later

theorem Munches.tiles {offset : Nat} (munches : Munches file offset text (.ok tokens))
    (place : offset = width before) : Tiles file before text tokens := by
  induction munches using Munches.ok_induct generalizing before with
  | ended offset =>
    have tiles : Tiles file before _ _ := .ended .empty
    rwa [List.append_nil, ← place] at tiles
  | passed munch later ih =>
    -- The gap behind the lexeme is there by induction, and the lexeme goes in front of it.
    exact .behind munch (ih (by rw [place, width_append]))
  | @made offset lexeme rest kind tokens munch later ih =>
    have tiles : Tiles file (before ++ [] ++ lexeme) rest tokens := by
      rw [List.append_nil]
      exact ih (by rw [place, width_append])
    have whole := Tiles.made .empty munch.shape.ne_nil munch.shape.ne_endOfInput tiles
    rwa [List.append_nil, List.nil_append, ← place] at whole

theorem Source.tiles {source : Source} (run : source.tokens = .ok tokens) :
    Tiles source.file [] source.text.toList tokens :=
  (munches_of_ok run).tiles rfl

end

namespace Token

def start (token : Token) : Nat := token.span.start.offset.toNat

def stop (token : Token) : Nat := token.span.stop.offset.toNat

theorem toList_placed {kind : Kind} {lexeme : List Char} {offset : Nat} {file : String} :
    (placed kind lexeme offset file).text.toList = lexeme :=
  String.toList_ofList

/-- A token that a lexeme of a short text makes says where the lexeme stands. -/
theorem place_placed {kind : Kind} {before lexeme rest : List Char} {file : String}
    (short : width (before ++ lexeme ++ rest) < UInt32.size) :
    (placed kind lexeme (width before) file).start = width before ∧
      (placed kind lexeme (width before) file).stop = width (before ++ lexeme) := by
  have stop := Nat.lt_of_le_of_lt (width_le_append _ rest) short
  have start := Nat.lt_of_le_of_lt (width_le_append _ lexeme) stop
  rw [width_append] at stop ⊢
  exact ⟨UInt32.toNat_ofNat_of_lt' start, UInt32.toNat_ofNat_of_lt' stop⟩

theorem place_endOfInput {offset : Nat} {file : String} (short : offset < UInt32.size) :
    (endOfInput (.ofBytes offset file)).start = offset ∧
      (endOfInput (.ofBytes offset file)).stop = offset :=
  ⟨UInt32.toNat_ofNat_of_lt' short, UInt32.toNat_ofNat_of_lt' short⟩

end Token

/-- A piece of a text stands between two offsets, in front of the rest. -/
def Stands (text : List Char) (start stop : Nat) (piece rest : List Char) : Prop :=
  ∃ before, text = before ++ (piece ++ rest) ∧ start = width before ∧
    stop = width (before ++ piece)

structure Tiling (source : Source) (tokens : List Token) : Prop where
  /-- The last token and no other stands for the end of the text, and is empty there. -/
  last : ∃ body final, tokens = body ++ [final] ∧ final.kind = .endOfInput ∧ final.text = "EOF" ∧
    final.start = source.text.utf8ByteSize ∧ final.stop = source.text.utf8ByteSize ∧
    ∀ token ∈ body, token.kind ≠ .endOfInput
  /-- Every other token is not empty and is what stands where it says. -/
  stands : ∀ token ∈ tokens, token.kind ≠ .endOfInput → token.start < token.stop ∧
    ∃ rest, Stands source.text.toList token.start token.stop token.text.toList rest
  order : tokens.Pairwise fun token later => token.start < later.start ∧ token.stop ≤ later.start
  /-- A gap stands between any token and the one before it, or the start of the text. -/
  between : ∀ earlier token later, tokens = earlier ++ token :: later → ∃ gap rest,
    Stands source.text.toList ((earlier.map Token.stop).getLastD 0) token.start gap rest ∧
      Gap gap rest
  file : ∀ token ∈ tokens, token.span.start.file = source.file ∧ token.span.stop.file = source.file

namespace Tiles

variable {file : String} {before text : List Char} {tokens : List Token}

theorem last (tiles : Tiles file before text tokens) : ∃ body,
    tokens = body ++ [.endOfInput (.ofBytes (width (before ++ text)) file)] ∧
      ∀ token ∈ body, token.kind ≠ .endOfInput := by
  induction tiles with
  | ended between => exact ⟨[], rfl, by simp⟩
  | @made before gap lexeme rest kind tokens between nonempty other later ih =>
    obtain ⟨body, rfl, each⟩ := ih
    refine ⟨.placed kind lexeme (width (before ++ gap)) file :: body, by simp, ?_⟩
    exact List.forall_mem_cons.mpr ⟨other, each⟩

theorem file_of_mem (tiles : Tiles file before text tokens) :
    ∀ token ∈ tokens, token.span.start.file = file ∧ token.span.stop.file = file := by
  induction tiles with
  | ended between => exact List.forall_mem_singleton.mpr ⟨rfl, rfl⟩
  | made between nonempty other later ih => exact List.forall_mem_cons.mpr ⟨⟨rfl, rfl⟩, ih⟩

theorem parts_made (before gap lexeme rest : List Char) :
    before ++ (gap ++ (lexeme ++ rest)) = before ++ gap ++ lexeme ++ rest := by
  simp

theorem le_start_of_mem (tiles : Tiles file before text tokens)
    (short : width (before ++ text) < UInt32.size) :
    ∀ token ∈ tokens, width before ≤ token.start := by
  induction tiles with
  | ended between =>
    rw [List.forall_mem_singleton, (Token.place_endOfInput short).1]
    exact width_le_append _ _
  | @made before gap lexeme rest kind tokens between nonempty other later ih =>
    rw [parts_made] at short
    obtain ⟨start, -⟩ := Token.place_placed short
    refine List.forall_mem_cons.mpr ⟨?_, ?_⟩
    · rw [start]
      exact width_le_append _ _
    · intro token member
      calc
        width before ≤ width (before ++ gap) := width_le_append _ _
        _ ≤ width (before ++ gap ++ lexeme) := width_le_append _ _
        _ ≤ token.start := ih short token member

theorem order (tiles : Tiles file before text tokens)
    (short : width (before ++ text) < UInt32.size) :
    tokens.Pairwise fun token later => token.start < later.start ∧ token.stop ≤ later.start := by
  induction tiles with
  | ended between => exact List.pairwise_singleton _ _
  | made between nonempty other later ih =>
    rw [parts_made] at short
    refine List.pairwise_cons.mpr ⟨?_, ih short⟩
    intro token member
    obtain ⟨start, stop⟩ := Token.place_placed short
    have next := later.le_start_of_mem short token member
    rw [start, stop]
    exact ⟨Nat.lt_of_lt_of_le (width_lt_append _ nonempty) next, next⟩

theorem stands (tiles : Tiles file before text tokens)
    (short : width (before ++ text) < UInt32.size) :
    ∀ token ∈ tokens, token.kind ≠ .endOfInput → token.start < token.stop ∧
      ∃ rest, Stands (before ++ text) token.start token.stop token.text.toList rest := by
  induction tiles with
  | ended between =>
    rw [List.forall_mem_singleton]
    exact fun other => absurd rfl other
  | @made before gap lexeme rest kind tokens between nonempty other later ih =>
    rw [parts_made] at short ⊢
    refine List.forall_mem_cons.mpr ⟨fun _ => ?_, ih short⟩
    obtain ⟨start, stop⟩ := Token.place_placed short
    rw [start, stop, Token.toList_placed]
    exact ⟨width_lt_append _ nonempty, rest, before ++ gap, by simp, rfl, rfl⟩

theorem between (tiles : Tiles file before text tokens)
    (short : width (before ++ text) < UInt32.size) :
    ∀ earlier token later, tokens = earlier ++ token :: later → ∃ gap rest,
      Stands (before ++ text) ((earlier.map Token.stop).getLastD (width before)) token.start gap
        rest ∧ Gap gap rest := by
  intro earlier token more parts
  induction tiles generalizing earlier with
  | @ended before gap empty =>
    cases earlier with
    | nil =>
      obtain ⟨rfl, -⟩ := List.cons.inj parts
      rw [(Token.place_endOfInput short).1]
      exact ⟨gap, [], ⟨before, by simp, rfl, rfl⟩, empty⟩
    | cons => simp at parts
  | @made before gap lexeme rest kind tokens empty nonempty other later ih =>
    rw [parts_made] at short ⊢
    obtain ⟨start, stop⟩ := Token.place_placed short
    cases earlier with
    | nil =>
      obtain ⟨rfl, -⟩ := List.cons.inj parts
      rw [start]
      exact ⟨gap, lexeme ++ rest, ⟨before, by simp, rfl, rfl⟩, empty⟩
    | cons first earlier =>
      obtain ⟨rfl, others⟩ := List.cons.inj parts
      rw [List.map_cons, List.getLastD_cons, stop]
      exact ih short earlier others

end Tiles

/-- The tokens of a source that fits in 32 bits tile it. A text from no file is reported as
`shell`. -/
theorem tokens_tile {source : Source} (short : source.text.utf8ByteSize < UInt32.size)
    {tokens : List Token} (run : source.tokens = .ok tokens) :
    Tiling source tokens ∧ ∀ text, ({ text } : Source).file = "shell" := by
  have size : width source.text.toList = source.text.utf8ByteSize := by
    rw [width_ofList, String.ofList_toList]
  have tiles := Source.tiles run
  rw [← size] at short
  refine ⟨⟨?_, tiles.stands short, tiles.order short, tiles.between short, tiles.file_of_mem⟩, ?_⟩
  · obtain ⟨body, parts, each⟩ := tiles.last
    obtain ⟨start, stop⟩ := Token.place_endOfInput short
    exact ⟨body, _, parts, rfl, rfl, start.trans size, stop.trans size, each⟩
  · exact fun text => rfl

/-- A comment of wide characters between two tokens. -/
theorem tokens_tile_commented : ∃ tokens, tokens = [.placed .identifier ['x'] 0 "a",
      .placed .number ['1'] 8 "a", .endOfInput (.ofBytes 9 "a")] ∧
    Source.tokens ⟨"x // é\n1", "a"⟩ = .ok tokens ∧ Tiling ⟨"x // é\n1", "a"⟩ tokens := by
  have word : Shape ['x'] (some .identifier) := .word (by decide) nofun
  have digit : Digit '1' := by decide
  have number : Shape ['1'] (some .number) :=
    .whole (by decide) (List.forall_mem_singleton.mpr digit)
  have space : isBlank ' ' = true := by decide
  have feed : isBlank '\n' = true := by decide
  have line : Gap ('/' :: '/' :: ([' ', 'é'] ++ ['\n'])) ['1'] :=
    .comment (by decide) (fun c head => (Option.some.inj head).symm) (.blank feed .empty)
  have ends : ∀ c ∈ [' ', '/', '/', ' ', 'é', '\n', '1'].head?, isBlank c = true :=
    fun c head => (Option.some.inj head) ▸ space
  have nothing : ∀ c ∈ [].head?, isBlank c = true := by simp
  have last : Munches "a" 8 ['1'] _ := .made (.of_blank number nothing) (.ended 9)
  have munches : Munches "a" 0 "x // é\n1".toList _ :=
    .made (.of_blank word ends) (Gap.munches (.blank space line) last)
  have run : Source.tokens ⟨"x // é\n1", "a"⟩ = _ := Source.tokens_of_munches munches
  exact ⟨_, rfl, run, (tokens_tile (by decide) run).1⟩

end LinkedScopes
