import LinkedScopes.Source.Position

/-! What can be wrong with a program, and where. Reading stops at the first fault, so
a diagnostic is one cause at one place. -/
namespace LinkedScopes

/-- The cause of a diagnostic. Texts of tokens are kept as they stood. -/
inductive Fault where
  | unrecognised (token : String)
  /-- A token of one fixed kind is missing here. -/
  | unexpected (token : String)
  /-- Something is missing here, as the message says. -/
  | unexpectedFor (token message : String)
  | keywordMisused (keyword message : String)
  | malformedExpression (token : String)
  | malformedNumber (token : String)
  | nestingTooDeep (limit : Nat)
deriving DecidableEq

structure Diagnostic where
  fault : Fault
  position : Position
deriving DecidableEq

namespace Fault

def name : Fault → String
  | unrecognised _ => "UnrecognisedToken"
  | unexpected _ => "UnexpectedToken"
  | unexpectedFor _ _ => "UnexpectedTokenDetailed"
  | keywordMisused _ _ => "InvalidKeywordUsage"
  | malformedExpression _ => "MalformedExpression"
  | malformedNumber _ => "NumberParseError"
  | nestingTooDeep _ => "NestingTooDeep"

/-- The cause in one line; quoting keeps the token's text on it. -/
def message : Fault → String
  | unrecognised token => "unrecognised token: " ++ Text.quoted token
  | unexpected token => "unexpected token: " ++ Text.quoted token
  | unexpectedFor token message =>
    "unexpected token (" ++ Text.quoted message ++ "): " ++ Text.quoted token
  | keywordMisused keyword message =>
    "invalid use of keyword " ++ Text.quoted keyword ++ ": " ++ message
  | malformedExpression token => "malformed expression at " ++ Text.quoted token
  | malformedNumber token => "error parsing number: " ++ Text.quoted token
  | nestingTooDeep limit => "nesting deeper than " ++ toString limit ++ " levels"

/-- What to do about it; an unrecognised character speaks for itself. -/
def tip : Fault → Option String
  | unrecognised _ => none
  | unexpected token => some ("Unexpected token: `" ++ token ++ "`, did you miss a semicolon?")
  | unexpectedFor token message => some ("Unexpected token: `" ++ token ++ "`, " ++ message)
  | keywordMisused keyword message => some ("Keyword `" ++ keyword ++ "` " ++ message)
  | malformedExpression token =>
    some ("Expected a number, a variable, a keyword call or `(`, found `" ++ token ++ "`")
  | malformedNumber token => some ("Invalid number: `" ++ token ++ "`")
  | nestingTooDeep limit =>
    some ("Nesting is limited to " ++ toString limit ++ " levels, try splitting the program up")

def term (fault : Fault) : String :=
  Text.labelled fault.name <| match fault with
    | unrecognised token | unexpected token | malformedExpression token | malformedNumber token =>
      [("token", Text.quoted token)]
    | unexpectedFor token message =>
      [("token", Text.quoted token), ("message", Text.quoted message)]
    | keywordMisused keyword message =>
      [("keyword", Text.quoted keyword), ("message", Text.quoted message)]
    | nestingTooDeep limit => [("limit", toString limit)]

end Fault

namespace Diagnostic

def message (d : Diagnostic) : String :=
  d.fault.message ++ " at " ++ d.position.file ++ ":" ++ toString d.position.offset.toNat

def term (d : Diagnostic) : String :=
  Text.labelled "Error" [("internal_error", d.fault.term), ("position", d.position.term)]

end Diagnostic
end LinkedScopes
