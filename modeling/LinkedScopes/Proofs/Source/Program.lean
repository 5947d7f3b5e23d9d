import LinkedScopes.Proofs.Binary64.Reading
import LinkedScopes.Proofs.Diagnostic.Place
import LinkedScopes.Proofs.Grammar.Origin
import LinkedScopes.Proofs.Rule.Refusal

/-! What a source can say. The scanner and the grammar each tell numbers, names and keywords apart
by themselves. They agree: whatever the scanner takes for a number denotes one, and the words it
takes for keywords are those that the grammar knows. So what is read from a source has only sound
numbers and names in it, wherever they stand. -/
namespace LinkedScopes

/-- A letter and then letters and digits, but no keyword. -/
def Identifier (name : String) : Prop :=
  ∃ first others, name.toList = first :: others ∧ Letter first ∧
    (∀ c ∈ others, Letter c ∨ Digit c) ∧ name ∉ keywords

def Node.Sound : Node → Prop
  | .number value => value.Unsigned
  | .var name | .assignment name _ => Identifier name
  | .head word | .conditional word _ _ => word = "if" ∨ word = "while"
  | .call word _ => word ∈ ["print", "sqrt", "sin", "cos", "ln"]
  | .operation _ _ _ => True

/-! Lexemes of each kind. -/

theorem Shape.exists_unsigned {text : List Char} {kind? : Option Kind} (shape : Shape text kind?)
    (number : kind? = some .number) :
    ∃ x, Binary64.ofText? (String.ofList text) = some x ∧ x.Unsigned := by
  have digit {digits : List Char} (each : ∀ c ∈ digits, Digit c) :
      ∀ c ∈ digits, c.isDigit = true :=
    fun c member => Pattern.isDigit_iff.mpr (each c member)
  cases shape with
  | whole nonempty each => exact Binary64.exists_unsigned_digits nonempty (digit each)
  | decimal nonempty each _ each' =>
    exact Binary64.exists_unsigned_point nonempty (digit each) (digit each')
  | word starts continues => split at number <;> cases number
  | blanks | comment => cases number
  | sign member =>
    obtain rfl := Option.some.inj number
    simp [signs] at member

theorem Shape.word_cases {text : List Char} {kind? : Option Kind} (shape : Shape text kind?) :
    (kind? = some .identifier → Identifier (String.ofList text)) ∧
      (kind? = some .keyword → String.ofList text ∈ keywords) := by
  cases shape with
  | @word first others starts continues =>
    by_cases keyword : String.ofList (first :: others) ∈ keywords
    · rw [if_pos keyword]
      exact ⟨nofun, fun _ => keyword⟩
    · rw [if_neg keyword]
      exact ⟨fun _ => ⟨first, others, String.toList_ofList, starts, continues, keyword⟩, nofun⟩
  | whole | decimal | blanks | comment => exact ⟨nofun, nofun⟩
  | @sign c kind member =>
    constructor
    · rintro ⟨⟩
      simp [signs] at member
    · rintro ⟨⟩
      simp [signs] at member

/-! Tokens of a source. -/

namespace Source

variable {source : Source} {tokens : List Token} (run : source.tokens = .ok tokens)

include run

theorem readable_of_mem {token : Token} (member : token ∈ tokens) : token.lexeme.Readable := by
  intro number
  have is : token.kind = .number := number
  have shape := (munches_of_ok run).shape_of_mem member (by simp [is])
  obtain ⟨x, denotes, -⟩ := shape.exists_unsigned (congrArg some is)
  rw [String.ofList_toList] at denotes
  rw [Token.lexeme_eq_spelled is rfl, denotes]
  rfl

theorem shape_of_mem_lexemes {kind : Kind} {text : String} (spelled : kind.spelled = true)
    (member : ⟨kind, text⟩ ∈ lexemes tokens) : Shape text.toList (some kind) := by
  obtain ⟨token, among, is⟩ := List.mem_map.mp member
  obtain ⟨rfl, rfl⟩ := Token.of_lexeme_eq is spelled
  have proper : token.kind ≠ .endOfInput := by
    intro ends
    rw [ends] at spelled
    cases spelled
  exact (munches_of_ok run).shape_of_mem ((List.takeWhile_sublist _).subset among) proper

theorem exists_unsigned_of_mem {text : String} (member : ⟨.number, text⟩ ∈ lexemes tokens) :
    ∃ x, Binary64.ofText? text = some x ∧ x.Unsigned := by
  have denotes := (shape_of_mem_lexemes run rfl member).exists_unsigned rfl
  rwa [String.ofList_toList] at denotes

theorem identifier_of_mem {name : String} (member : ⟨.identifier, name⟩ ∈ lexemes tokens) :
    Identifier name := by
  have is := (shape_of_mem_lexemes run rfl member).word_cases.1 rfl
  rwa [String.ofList_toList] at is

theorem keyword_of_mem {word : String} (member : ⟨.keyword, word⟩ ∈ lexemes tokens) :
    word ∈ keywords := by
  have is := (shape_of_mem_lexemes run rfl member).word_cases.2 rfl
  rwa [String.ofList_toList] at is

theorem sound_of_from {node : Node} (origin : node.From (lexemes tokens)) : node.Sound := by
  have heads : ∀ word ∈ keywords, isConditionalWord word = true → word = "if" ∨ word = "while" := by
    decide
  have calls : ∀ word ∈ keywords, isConditionalWord word = false →
      word ∈ ["print", "sqrt", "sin", "cos", "ln"] := by decide
  cases node with
  | number value =>
    obtain ⟨text, member, denotes⟩ := origin
    obtain ⟨x, denotes', unsigned⟩ := exists_unsigned_of_mem run member
    rw [denotes] at denotes'
    exact Option.some.inj denotes' ▸ unsigned
  | var name | assignment name value => exact identifier_of_mem run origin
  | operation op left right => trivial
  | head word | conditional word condition body =>
    exact heads word (keyword_of_mem run origin.1) origin.2
  | call word argument => exact calls word (keyword_of_mem run origin.1) origin.2

end Source

/-- Reading what a source was cut into never finds fault with a number. All that stands anywhere in
the tree it comes to is sound: the numbers are numbers with the sign bit clear, and the names and
words are in their places. So the tree equals itself. -/
theorem scanned_programs_sound {source : Source} {tokens : List Token}
    (run : source.tokens = .ok tokens) (limit : Nat) :
    (∀ d t, parse tokens limit = (.error (.fault d), t) →
      ∀ text, d.fault ≠ .malformedNumber text) ∧
    ∀ chain t, parse tokens limit = (.ok chain, t) →
      (∀ node ∈ chain.nodes, node.Sound) ∧ chain.same chain = true := by
  constructor
  · rintro ⟨fault, position⟩ t halts text rfl
    have refused := Rule.Discerns.program _ _ _ _ _ halts
    exact refused (Source.readable_of_mem run (Source.token_mem run limit t.cursor))
  · intro chain t reads
    have sound : ∀ node ∈ chain.nodes, node.Sound :=
      fun node among => Source.sound_of_from run (parse_from reads node among)
    refine ⟨sound, chain.same_self_iff.mpr fun value among => ?_⟩
    have unsigned : value.Unsigned := sound _ among
    exact unsigned.number

/-- A call with a number, assigned to a name. -/
theorem scanned_programs_sound_call : ∃ tokens chain t,
    Source.tokens ⟨"x=ln(2.5);", "a"⟩ = .ok tokens ∧ parse tokens 9 = (.ok chain, t) ∧
    chain.nodes.length = 3 ∧ (∀ node ∈ chain.nodes, node.Sound) ∧ chain.same chain = true := by
  let tokens : List Token := [.placed .identifier ['x'] 0 "a",
    .placed (.operator .assign) ['='] 1 "a", .placed .keyword ['l', 'n'] 2 "a",
    .placed .openParen ['('] 4 "a", .placed .number ['2', '.', '5'] 5 "a",
    .placed .closeParen [')'] 8 "a", .placed .semicolon [';'] 9 "a",
    .endOfInput (.ofBytes 10 "a")]
  have first {p : Pattern} (text : List Char) (found : Pattern.first? text = some p) :=
    Pattern.munch_of_first found
  have munches : Munches "a" 0 "x=ln(2.5);".toList (.ok tokens) :=
    .made (first ['x', '=', 'l', 'n', '(', '2', '.', '5', ')', ';'] (p := .word) (by decide)) <|
    .made (first ['=', 'l', 'n', '(', '2', '.', '5', ')', ';'] (p := .symbol '=' _) (by decide)) <|
    .made (first ['l', 'n', '(', '2', '.', '5', ')', ';'] (p := .word) (by decide)) <|
    .made (first ['(', '2', '.', '5', ')', ';'] (p := .symbol '(' _) (by decide)) <|
    .made (first ['2', '.', '5', ')', ';'] (p := .number) (by decide)) <|
    .made (first [')', ';'] (p := .symbol ')' _) (by decide)) <|
    .made (first [';'] (p := .symbol ';' _) (by decide)) (.ended 10)
  have run : Source.tokens ⟨"x=ln(2.5);", "a"⟩ = .ok tokens := by
    rw [Source.tokens_of_munches munches]
    rfl
  have size : (parse tokens 9).1.toOption.map (List.length ∘ Chain.nodes) = some 3 := by
    decide +kernel
  rcases reads : parse tokens 9 with ⟨halt | chain, t⟩
  · rw [reads] at size
    cases size
  · rw [reads] at size
    obtain ⟨-, sound⟩ := scanned_programs_sound run 9
    exact ⟨tokens, chain, t, run, reads, Option.some.inj size, sound chain t reads⟩

end LinkedScopes
