import LinkedScopes.Diagnostic.Basic
import LinkedScopes.Source.Basic
import LinkedScopes.Text.Width
import LinkedScopes.Token.Pattern

/-! Cutting a source into tokens. The scanner carries the text still to be cut, so
every step works at the front of a list and shortens it; the byte offset follows
along and is only read to place tokens. -/
namespace LinkedScopes

structure Scanner where
  offset : Nat
  rest : List Char
  /-- The tokens found, last one first. -/
  tokens : List Token

namespace Scanner

def start (source : Source) : Scanner := ⟨0, source.text.toList, []⟩

/-- Passes a lexeme, keeping it as a token if it has a kind. -/
def pass (file : String) (s : Scanner) (lexeme : List Char) (kind? : Option Kind) : Scanner where
  offset := s.offset + Text.width lexeme
  rest := s.rest.drop lexeme.length
  tokens := match kind? with
    | none => s.tokens
    | some kind =>
      ⟨kind, String.ofList lexeme, .ofBytes s.offset (Text.width lexeme) file⟩ :: s.tokens

/-- Passes one lexeme. The character no lexeme starts with is the fault. -/
def step (file : String) (s : Scanner) : Except Diagnostic Scanner :=
  match Pattern.first? s.rest with
  | none => .error ⟨.unrecognised (String.ofList (s.rest.take 1)), .ofBytes s.offset file⟩
  | some p =>
    let lexeme := p.lexeme s.rest
    .ok (s.pass file lexeme (p.kind? (String.ofList lexeme)))

theorem step_shorter {file : String} {s next : Scanner} (h : s.step file = .ok next) :
    next.rest.length < s.rest.length := by
  unfold step at h
  split at h
  · cases h
  · next p found =>
    cases h
    have nonempty := List.length_pos_iff.mpr (Pattern.lexeme_ne_nil found)
    have fits := (p.lexeme_isPrefix s.rest).length_le
    simp only [pass, List.length_drop]
    omega

def run (file : String) (s : Scanner) : Except Diagnostic Scanner :=
  if s.rest = [] then .ok s
  else match _next : s.step file with
    | .error d => .error d
    | .ok next => next.run file
termination_by s.rest.length
decreasing_by exact step_shorter _next

end Scanner

def Source.tokens (source : Source) : Except Diagnostic (List Token) :=
  match (Scanner.start source).run source.file with
  | .error d => .error d
  | .ok s => .ok (s.tokens.reverse ++ [.endOfInput (.ofBytes s.offset source.file)])

end LinkedScopes
