/-! Values written as terms: the name of a constructor, then its arguments in
parentheses or its fields in braces, all on one line. -/
namespace LinkedScopes.Text

/-- `Name(a, b)`. -/
def applied (name : String) (arguments : List String) : String :=
  name ++ "(" ++ ", ".intercalate arguments ++ ")"

/-- `Name`, then each field as `label: value` between braces. -/
def labelled (name : String) (fields : List (String × String)) : String :=
  name ++ " \x7b " ++ ", ".intercalate (fields.map fun field => field.1 ++ ": " ++ field.2) ++
    " \x7d"

end LinkedScopes.Text
