import LinkedScopes.Binary64.Decimal
import LinkedScopes.Rule.Basic

/-! Tokens as the grammar sees them. A word or a number is what its text says; of any
other token only the kind matters, whatever text a token built by hand may carry. The
input left at a cursor ends at the first token that stands for the end. -/
namespace LinkedScopes

structure Lexeme where
  kind : Kind
  text : String
deriving DecidableEq

/-- Kinds whose tokens differ by their text. -/
def Kind.spelled : Kind → Bool
  | .number | .identifier | .keyword => true
  | _ => false

namespace Lexeme

/-- A lexeme whose kind says everything. -/
def bare (kind : Kind) : Lexeme := ⟨kind, ""⟩

def operator (op : Operator) : Lexeme := bare (.operator op)

def Readable (lexeme : Lexeme) : Prop :=
  lexeme.kind = .number → (Binary64.ofText? lexeme.text).isSome

instance (lexeme : Lexeme) : Decidable lexeme.Readable :=
  inferInstanceAs (Decidable (_ → _))

@[simp] theorem kind_bare (kind : Kind) : (bare kind).kind = kind := rfl

@[simp] theorem kind_operator (op : Operator) : (operator op).kind = .operator op := rfl

@[simp] theorem operator_inj {a b : Operator} : operator a = operator b ↔ a = b := by
  simp [operator, bare]

end Lexeme

namespace Token

def lexeme (token : Token) : Lexeme :=
  ⟨token.kind, if token.kind.spelled then token.text else ""⟩

theorem lexeme_eq_bare {token : Token} {kind : Kind} (is : token.kind = kind)
    (unspelled : kind.spelled = false) : token.lexeme = .bare kind := by
  subst is
  simp [lexeme, Lexeme.bare, unspelled]

theorem lexeme_eq_spelled {token : Token} {kind : Kind} (is : token.kind = kind)
    (spelled : kind.spelled = true) : token.lexeme = ⟨kind, token.text⟩ := by
  subst is
  simp [lexeme, spelled]

theorem of_lexeme_eq {token : Token} {kind : Kind} {text : String}
    (h : token.lexeme = ⟨kind, text⟩) (spelled : kind.spelled = true) :
    token.kind = kind ∧ token.text = text := by
  obtain rfl : token.kind = kind := congrArg Lexeme.kind h
  have text := congrArg Lexeme.text h
  simp only [lexeme, spelled, if_true] at text
  exact ⟨rfl, text⟩

end Token

/-- The lexemes up to the first token that stands for the end of the input. -/
def lexemes (tokens : List Token) : List Lexeme :=
  (tokens.takeWhile (·.kind ≠ .endOfInput)).map Token.lexeme

theorem lexemes_cons {token : Token} (proper : token.kind ≠ .endOfInput) (tokens : List Token) :
    lexemes (token :: tokens) = token.lexeme :: lexemes tokens := by
  simp [lexemes, proper]

theorem take_of_lexemes {tokens : List Token} {passed rest : List Lexeme}
    (parts : lexemes tokens = passed ++ rest) :
    (tokens.take passed.length).map Token.lexeme = passed ∧
      ∀ token ∈ tokens.take passed.length, token.kind ≠ .endOfInput := by
  induction passed generalizing tokens with
  | nil => simp
  | cons first passed ih =>
    cases tokens with
    | nil => cases parts
    | cons token tokens =>
      by_cases ends : token.kind = .endOfInput
      · simp [lexemes, ends] at parts
      · rw [lexemes_cons ends] at parts
        obtain ⟨is, parts⟩ := List.cons.inj parts
        obtain ⟨same, proper⟩ := ih parts
        rw [List.length_cons, List.take_succ_cons, List.map_cons, is, same]
        exact ⟨rfl, List.forall_mem_cons.mpr ⟨ends, proper⟩⟩

theorem lexemes_append {front : List Token} (proper : ∀ token ∈ front, token.kind ≠ .endOfInput)
    (more : List Token) : lexemes (front ++ more) = front.map Token.lexeme ++ lexemes more := by
  induction front with
  | nil => rfl
  | cons token front ih =>
    obtain ⟨first, others⟩ := List.forall_mem_cons.mp proper
    rw [List.cons_append, lexemes_cons first, ih others]
    rfl

namespace Input

variable {input : Input} {cursor : Nat}

def rest (input : Input) (cursor : Nat) : List Lexeme :=
  lexemes (input.tokens.toList.drop cursor)

theorem token_of_size_le (past : input.tokens.size ≤ cursor) :
    input.token cursor = input.ending := by
  simp [token, past]

theorem token_of_lt_size (inside : cursor < input.tokens.size) :
    input.token cursor = input.tokens[cursor] := by
  simp [token, inside]

theorem lt_size_of_kind (h : (input.token cursor).kind ≠ .endOfInput) :
    cursor < input.tokens.size := by
  apply Nat.lt_of_not_le
  intro past
  rw [token_of_size_le past] at h
  exact h rfl

theorem drop_eq_cons (inside : cursor < input.tokens.size) :
    input.tokens.toList.drop cursor =
      input.token cursor :: input.tokens.toList.drop (cursor + 1) := by
  rw [token_of_lt_size inside]
  exact List.drop_eq_getElem_cons (by simpa using inside)

theorem rest_eq_cons (h : (input.token cursor).kind ≠ .endOfInput) :
    input.rest cursor = (input.token cursor).lexeme :: input.rest (cursor + 1) := by
  rw [rest, drop_eq_cons (lt_size_of_kind h), lexemes_cons h]
  rfl

theorem head_rest {kind : Kind} (is : (input.token cursor).kind = kind)
    (plain : kind.spelled = false) (proper : kind ≠ .endOfInput) :
    (input.rest cursor).head? = some (.bare kind) := by
  rw [rest_eq_cons (is ▸ proper), Token.lexeme_eq_bare is plain]
  rfl

theorem rest_eq_nil_iff : input.rest cursor = [] ↔ (input.token cursor).kind = .endOfInput := by
  constructor
  · intro h
    apply Decidable.byContradiction
    intro kind
    rw [rest_eq_cons kind] at h
    cases h
  · intro h
    by_cases inside : cursor < input.tokens.size
    · simp [rest, drop_eq_cons inside, lexemes, h]
    · have past : input.tokens.toList.length ≤ cursor := Nat.le_of_not_lt inside
      simp [rest, lexemes, List.drop_eq_nil_of_le past]

theorem of_rest_eq_cons {lexeme : Lexeme} {more : List Lexeme}
    (h : input.rest cursor = lexeme :: more) :
    (input.token cursor).lexeme = lexeme ∧ input.rest (cursor + 1) = more := by
  have kind : (input.token cursor).kind ≠ .endOfInput := by
    intro ending
    rw [rest_eq_nil_iff.mpr ending] at h
    cases h
  rw [rest_eq_cons kind] at h
  exact List.cons_eq_cons.mp h

theorem kind_of_head_rest {lexeme : Lexeme} (h : (input.rest cursor).head? = some lexeme) :
    (input.token cursor).kind = lexeme.kind := by
  obtain ⟨more, goes⟩ := List.head?_eq_some_iff.mp h
  exact congrArg Lexeme.kind (of_rest_eq_cons goes).1

theorem rest_add {passed more : List Lexeme} (h : input.rest cursor = passed ++ more) :
    input.rest (cursor + passed.length) = more := by
  induction passed generalizing cursor with
  | nil => exact h
  | cons first passed ih =>
    rw [List.length_cons, Nat.add_comm passed.length, ← Nat.add_assoc]
    exact ih (of_rest_eq_cons h).2

theorem length_rest_le (input : Input) (cursor : Nat) :
    (input.rest cursor).length ≤ input.remaining cursor := by
  have kept := List.takeWhile_prefix (·.kind ≠ .endOfInput) (l := input.tokens.toList.drop cursor)
  simpa [rest, lexemes, remaining] using kept.length_le

end Input
end LinkedScopes
