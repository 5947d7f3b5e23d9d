/-! Paths and the places they lead to. A path is a list of names to follow one by one;
dotted names stay in place or go up a level. -/
namespace LinkedScopes

/-- Where a walk starts: some levels above the working folder, or at the top. -/
inductive Anchor where
  | above (levels : Nat)
  | top
deriving DecidableEq

/-- A place reached by names from an anchor, the last name first. -/
structure Location where
  anchor : Anchor
  names : List String
deriving DecidableEq

namespace Location

def working : Location := ⟨.above 0, []⟩

/-- One step of a walk. An empty name, which a doubled slash leaves, stays in place. -/
def step (l : Location) (name : String) : Location :=
  if name = "" ∨ name = "." then l
  else if name = ".." then
    match l.names with
    | _ :: names => { l with names }
    | [] => match l.anchor with
      | .above levels => ⟨.above (levels + 1), []⟩
      | .top => l
  else { l with names := name :: l.names }

end Location

/-- The names of a path, those between its slashes; some may be empty. -/
def pathNames (path : String) : List String :=
  let pieces (c : Char) (names : List (List Char)) : List (List Char) :=
    if c = '/' then [] :: names
    else match names with
      | [] => [[c]]
      | name :: names => (c :: name) :: names
  (path.toList.foldr pieces [[]]).map String.ofList

end LinkedScopes
