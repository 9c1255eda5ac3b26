import PseudocodeTools.Tree.Node
/-!
# Equality of trees

A tree is compared with another from the root down: frames and leaves are
compared as they are, and each child with the child in the same place.
-/

namespace PseudocodeTools

/-- Whether each test of a list holds of the item in the same place. -/
def holdAll {ν : Type} : List (ν -> Bool) -> List ν -> Bool
  | [], [] => true
  | test :: tests, x :: xs => test x && holdAll tests xs
  | _, _ => false

/-- Whether a test holds of an item, or both are missing. -/
def holdsOption {ν : Type} : Option (ν -> Bool) -> Option ν -> Bool
  | none, none => true
  | some test, some x => test x
  | _, _ => false

/-- Whether a payload has the leaves of another one that holds tests in the
place of children, and children of which these tests hold. -/
def Payload.agrees {ν : Type} : Payload (ν -> Bool) -> Payload ν -> Bool
  | .program a b, .program a' b' => holdAll a a' && holdsOption b b'
  | .function n a b t r, .function n' a' b' t' r' =>
      n == n' && holdAll a a' && holdsOption b b' && t == t' && r == r'
  | .block a, .block a' => holdAll a a'
  | .loop t i a z s c d b e l, .loop t' i' a' z' s' c' d' b' e' l' =>
      t == t' && holdsOption i i' && holdsOption a a' && holdsOption z z' &&
        holdsOption s s' && holdsOption c c' && holdsOption d d' && b b' &&
        e == e' && l == l'
  | .conditional c t e l, .conditional c' t' e' l' =>
      c c' && t t' && holdsOption e e' && holdAll l l'
  | .assignment t v o, .assignment t' v' o' =>
      holdsOption t t' && holdsOption v v' && o == o'
  | .returning v, .returning v' => holdsOption v v'
  | .call n a r, .call n' a' r' => n == n' && holdAll a a' && r == r'
  | .recursiveCall n a r p f, .recursiveCall n' a' r' p' f' =>
      n == n' && holdAll a a' && r == r' && p == p' && f == f'
  | .var n, .var n' => n == n'
  | .literal v t, .literal v' t' => v == v' && t == t'
  | .binary o a b, .binary o' a' b' =>
      o == o' && holdsOption a a' && holdsOption b b'
  | .unary o a, .unary o' a' => o == o' && holdsOption a a'
  | .access a i, .access a' i' => holdsOption a a' && holdsOption i i'
  | _, _ => false

/-- Whether two trees are equal. -/
def Node.equals (node : Node) : Node -> Bool :=
  node.fold fun frame payload other =>
    frame == other.frame && payload.agrees other.payload

instance : BEq Node :=
  ⟨Node.equals⟩

end PseudocodeTools
