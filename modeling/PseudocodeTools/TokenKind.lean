/-!
# Token kinds

The categories into which the words and symbols of pseudocode fall for
highlighting, and the names that editors know them by.
-/

namespace PseudocodeTools

inductive TokenKind where
  | keyword
  | boolean
  | number
  | string
  | comment
  | operator
  | identifier
  | invalid
deriving DecidableEq, Repr

namespace TokenKind

def all : List TokenKind :=
  [keyword, boolean, number, string, comment, operator, identifier, invalid]

theorem mem_all (kind : TokenKind) : kind ∈ all := by
  cases kind <;> decide

/-- The highlighting tag of a kind. -/
def tag : TokenKind -> String
  | keyword => "keyword"
  | boolean => "bool"
  | number => "number"
  | string => "string"
  | comment => "comment"
  | operator => "operator"
  | identifier => "variable"
  | invalid => "invalid"

end TokenKind
end PseudocodeTools
