import PseudocodeTools.JsonText.Scalar
/-!
# Reading a JSON value

Lists and objects may be nested up to a depth that the caller chooses; a
bracket or brace beyond it is a fault.  When a key is repeated in an object,
the last value counts.
-/

namespace PseudocodeTools
namespace Reader

/-- A member of an object, of which the opening quote was taken. -/
def member {α : Type} (value : Reader SyntaxFault α) :
    Reader SyntaxFault (String × α) := do
  let key ← string
  colon
  let x ← value
  return (key, x)

/-- A list with the given items, of which the bracket was not yet taken. -/
def array (item : Reader SyntaxFault Json) : Reader SyntaxFault Json := do
  advance
  let xs ← items item moreItems
  closeList
  return .array xs

/-- An object with the given values, of which the brace was not yet taken. -/
def object (item : Reader SyntaxFault Json) : Reader SyntaxFault Json := do
  advance
  let members ← items (member item) moreMembers
  closeObject
  return .ofPairs members

/-- A value, with readers for the lists and the objects. -/
def valueWith (list object : Reader SyntaxFault Json) :
    Reader SyntaxFault Json := do
  match ← peekToken with
  | none => failHere .endOfValue
  | some 'n' =>
      advance
      word ['u', 'l', 'l']
      return .null
  | some 't' =>
      advance
      word ['r', 'u', 'e']
      return .boolean true
  | some 'f' =>
      advance
      word ['a', 'l', 's', 'e']
      return .boolean false
  | some '-' =>
      advance
      return .number (← number true)
  | some '"' =>
      advance
      return .string (← string)
  | some '[' => list
  | some '\x7b' => object
  | some c =>
      if c.isDigit then
        return .number (← number false)
      else
        failAhead .expectedValue

/-- A value with at most `depth` brackets and braces open at a time. -/
def value : Nat -> Reader SyntaxFault Json
  | 0 => valueWith (failAhead .tooDeep) (failAhead .tooDeep)
  | depth + 1 => valueWith (array (value depth)) (object (value depth))

/-- The value that a whole text spells. -/
def document (depth : Nat) : Reader SyntaxFault Json := do
  let result ← value depth
  endOfText
  return result

end Reader

/-- Depth of nesting up to which texts are read. -/
def nestingLimit : Nat :=
  127

/-- The value that a text spells, or the fault in it with its place. -/
def Json.read (depth : Nat) (source : Text) :
    Except (Placed SyntaxFault) Json :=
  match Reader.document depth source with
  | .ok (result, _) => .ok result
  | .error fault => .error (fault.place source)

end PseudocodeTools
