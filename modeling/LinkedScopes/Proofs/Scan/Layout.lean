import LinkedScopes.Proofs.Scan.Gap

/-! Lexemes that are written with layout between them are read back. A blank in front of every
lexeme but the first keeps it from the one before it; whatever a comment says, nothing of it is
read. -/
namespace LinkedScopes

open Text

/-- Blanks, and comments with the line feeds that end them. -/
inductive Layout : List Char → Prop
  | empty : Layout []
  | blank {c : Char} {text : List Char} (blank : isBlank c = true) (more : Layout text) :
    Layout (c :: text)
  | comment {line text : List Char} (within : '\n' ∉ line) (more : Layout text) :
    Layout ('/' :: '/' :: (line ++ '\n' :: text))

/-- Layout that keeps two lexemes apart starts with a blank. -/
def Parts : List Char → Prop
  | [] => False
  | c :: _ => isBlank c = true

theorem Layout.gap {text : List Char} (layout : Layout text) (rest : List Char) :
    Gap text rest := by
  induction layout with
  | empty => exact .empty
  | blank blank more ih => exact .blank blank ih
  | comment within more ih =>
    have feed : isBlank '\n' = true := by decide
    apply Gap.comment within _ (.blank feed ih)
    intro c head
    exact (Option.some.inj head).symm

/-- A lexeme that makes a token, and the layout written in front of it. -/
structure Written where
  before : List Char
  text : List Char
  kind : Kind
  layout : Layout before
  shape : Shape text (some kind)

namespace Written

def render (pieces : List Written) : List Char :=
  pieces.flatMap fun piece => piece.before ++ piece.text

/-- The tokens of written lexemes, each at the offset it is written at. -/
def tokens (file : String) : Nat → List Written → List Token
  | _, [] => []
  | offset, piece :: later =>
    let start := offset + width piece.before
    .placed piece.kind piece.text start file :: tokens file (start + width piece.text) later

variable {trail : List Char}

theorem render_cons (piece : Written) (later : List Written) :
    render (piece :: later) = piece.before ++ (piece.text ++ render later) := by
  rw [render, List.flatMap_cons, List.append_assoc]
  rfl

theorem blank_of_follows {later : List Written} (apart : ∀ piece ∈ later, Parts piece.before)
    (last : trail = [] ∨ Parts trail) :
    ∀ c ∈ (render later ++ trail).head?, isBlank c = true := by
  intro c head
  cases later with
  | nil =>
    rcases last with rfl | parts
    · cases head
    · obtain ⟨more, rfl⟩ := List.head?_eq_some_iff.mp head
      exact parts
  | cons piece others =>
    have parts := apart piece List.mem_cons_self
    rw [render_cons] at head
    cases layout : piece.before with
    | nil =>
      rw [layout] at parts
      cases parts
    | cons d more =>
      rw [layout] at parts head
      obtain rfl := Option.some.inj head
      exact parts

theorem munches_render (file : String) {pieces : List Written}
    (apart : ∀ piece ∈ pieces.tail, Parts piece.before) (trailing : Gap trail [])
    (last : pieces ≠ [] → trail = [] ∨ Parts trail) (offset : Nat) :
    Munches file offset (render pieces ++ trail) (.ok (tokens file offset pieces ++
      [.endOfInput (.ofBytes (offset + width (render pieces ++ trail)) file)])) := by
  induction pieces generalizing offset with
  | nil =>
    have none : Munches file (offset + width trail) [] _ := .ended _
    have whole := trailing.munches none
    rwa [List.append_nil] at whole
  | cons piece later ih =>
    have behind := last (List.cons_ne_nil piece later)
    have munch := Munch.of_blank piece.shape (blank_of_follows apart behind)
    have others : ∀ other ∈ later.tail, Parts other.before :=
      fun other member => apart other (List.mem_of_mem_tail member)
    have rest := ih others (fun _ => behind) (offset + width piece.before + width piece.text)
    have whole := (piece.layout.gap _).munches (.made munch rest)
    have size : offset + width (render (piece :: later) ++ trail) = offset + width piece.before +
        width piece.text + width (render later ++ trail) := by
      simp only [render_cons, width_append, Nat.add_assoc]
    rw [size, render_cons, List.append_assoc, List.append_assoc]
    exact whole

end Written

/-- Lexemes that are written with layout between them are read back, each as a token at the offset
it is written at. A comment after the last may do without a line feed. -/
theorem tokens_render (file : String) {pieces : List Written} {trail : List Char}
    (apart : ∀ piece ∈ pieces.tail, Parts piece.before) (trailing : Gap trail [])
    (last : pieces ≠ [] → trail = [] ∨ Parts trail) :
    Source.tokens ⟨String.ofList (Written.render pieces ++ trail), file⟩ =
      .ok (Written.tokens file 0 pieces ++
        [.endOfInput (.ofBytes (width (Written.render pieces ++ trail)) file)]) := by
  have munches := Written.munches_render file apart trailing last 0
  rw [Nat.zero_add] at munches
  exact Source.tokens_ofList_of_munches munches

/-- A slash with a comment behind it, and a comment that ends with the text. -/
theorem tokens_render_slash : ∃ pieces trail,
    Written.render pieces ++ trail = "x / // é\n 1 // 2".toList ∧
    Source.tokens ⟨String.ofList (Written.render pieces ++ trail), "a"⟩ = .ok
      [.placed .identifier ['x'] 0 "a", .placed (.operator .div) ['/'] 2 "a",
        .placed .number ['1'] 11 "a", .endOfInput (.ofBytes 17 "a")] := by
  have word : Shape ['x'] (some .identifier) := .word (by decide) nofun
  have slash : Shape ['/'] (some (.operator .div)) := .sign (by decide)
  have digit : Digit '1' := by decide
  have number : Shape ['1'] (some .number) :=
    .whole (by decide) (List.forall_mem_singleton.mpr digit)
  have space : isBlank ' ' = true := by decide
  have blank : Layout [' '] := .blank space .empty
  have comment : Layout ('/' :: '/' :: ([' ', 'é'] ++ '\n' :: [' '])) := .comment (by decide) blank
  have open' : Gap ('/' :: '/' :: ([' ', '2'] ++ [])) [] := .comment (by decide) nofun .empty
  let pieces : List Written := [⟨[], _, _, .empty, word⟩, ⟨_, _, _, blank, slash⟩,
    ⟨_, _, _, .blank space comment, number⟩]
  let trail := [' ', '/', '/', ' ', '2']
  have apart : ∀ piece ∈ pieces.tail, Parts piece.before :=
    List.forall_mem_cons.mpr ⟨space, List.forall_mem_singleton.mpr space⟩
  have trailing : Gap trail [] := .blank space open'
  have read := tokens_render "a" apart trailing fun _ => .inr space
  have made : Written.tokens "a" 0 pieces = [.placed .identifier ['x'] 0 "a",
    .placed (.operator .div) ['/'] 2 "a", .placed .number ['1'] 11 "a"] := rfl
  have text : Written.render pieces ++ trail = "x / // é\n 1 // 2".toList := by cbv
  have size : width "x / // é\n 1 // 2".toList = 17 := by decide
  rw [made, text, size, ← text] at read
  exact ⟨pieces, trail, text, read⟩

end LinkedScopes
