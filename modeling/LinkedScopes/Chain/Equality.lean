import LinkedScopes.Chain.Basic

/-! Equality of trees: the same shape, names and operators, and numbers that are equal
as numbers. It is not identity, because two zeros are equal and what is not a number
differs even from itself. -/
namespace LinkedScopes

mutual

def Node.same : Node → Node → Bool
  | .number x, .number y => x.same y
  | .var a, .var b => a == b
  | .operation f a b, .operation g c d => f == g && a.same c && b.same d
  | .head a, .head b => a == b
  | .call f a, .call g b => f == g && a.same b
  | .conditional f a c, .conditional g b d => f == g && a.same b && sameChain c d
  | .assignment a x, .assignment b y => a == b && x.same y
  | _, _ => false
termination_by structural a => a

def sameCommand : Option Node → Option Node → Bool
  | none, none => true
  | some a, some b => a.same b
  | _, _ => false
termination_by structural a => a

def Link.same : Link → Link → Bool
  | ⟨m, a⟩, ⟨n, b⟩ => m == n && sameCommand a b
termination_by structural a => a

def sameChain : List Link → List Link → Bool
  | [], [] => true
  | a :: as, b :: bs => a.same b && sameChain as bs
  | _, _ => false
termination_by structural a => a

end

def Chain.same (a b : Chain) : Bool := sameChain a b

end LinkedScopes
