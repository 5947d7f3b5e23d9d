/-! A source text and the name it is reported under. -/
namespace LinkedScopes

/-- A text that comes from no file is reported as `shell`. -/
structure Source where
  text : String
  file : String := "shell"

end LinkedScopes
