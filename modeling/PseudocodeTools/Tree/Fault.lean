import PseudocodeTools.JsonText.Fault
import PseudocodeTools.Text.Basic
import PseudocodeTools.Tree.Grammar
/-!
# Faults in trees

A value that is no tree of the grammar has a first fault, which is reported
with the path from the root of the value to the place of the fault.
-/

namespace PseudocodeTools

/-!
# Paths
-/

/-- A step from a value into one of its parts. -/
inductive Step where
  | key (name : String)
  | index (position : Nat)
deriving DecidableEq, Repr

/-- Steps from the root on. -/
abbrev Path :=
  List Step

def Step.text : Step -> Text
  | key name => '.' :: name.toList
  | index position => '[' :: (Text.ofNat position ++ [']'])

/-- A path as it is written: a dollar sign, then the steps. -/
def Path.text (path : Path) : Text :=
  '$' :: path.flatMap Step.text

/-- The part of a value that a path leads to. -/
def Path.follow? : Path -> Json -> Option Json
  | [], value => some value
  | .key name :: rest, .object members =>
      (Json.Members.get? members name).bind (follow? rest)
  | .index position :: rest, .array items =>
      items[position]?.bind (follow? rest)
  | _ :: _, _ => none

/-!
# Causes
-/

/-- What a place in a tree should hold. -/
inductive Expectation where
  | node
  | location
  | object
  | array
  | string
  | boolean
  | number
  | nonNegativeInteger
  | operator
  | loopType
deriving DecidableEq, Repr

def Expectation.phrase : Expectation -> String
  | node => "an AST node object"
  | location => "a location object"
  | object => "an object"
  | array => "an array"
  | string => "a string"
  | boolean => "a boolean"
  | number => "a number"
  | nonNegativeInteger => "a non-negative integer"
  | operator => "an operator string"
  | loopType => "a loop_type string"

/-- The word lists from which a string may have to be taken. -/
inductive Vocabulary where
  | operator
  | loopType
deriving DecidableEq, Repr

def Vocabulary.name : Vocabulary -> String
  | operator => "operator"
  | loopType => "loop_type"

inductive TreeCause where
  | missingField
  | wrongType (expected : Expectation) (found : Json.Kind)
  | unknownNodeType (found : String)
  | unexpectedNode (found : NodeType) (role : Role)
  | unknownWord (vocabulary : Vocabulary) (found : String)
deriving DecidableEq, Repr

structure TreeFault where
  path : Path
  cause : TreeCause
deriving DecidableEq, Repr

def TreeCause.message : TreeCause -> String
  | missingField => "missing required field"
  | wrongType expected found =>
      "expected " ++ expected.phrase ++ ", found " ++ found.phrase
  | unknownNodeType found => "unknown node_type `" ++ found ++ "`"
  | unexpectedNode found role =>
      "`" ++ found.name ++ "` node not allowed here, expected " ++ role.phrase
  | unknownWord vocabulary found =>
      "unknown " ++ vocabulary.name ++ " `" ++ found ++ "`"

def TreeFault.message (fault : TreeFault) : String :=
  String.ofList fault.path.text ++ ": " ++ fault.cause.message

/-!
# Faults of a text that should spell a tree
-/

inductive TreeTextFault where
  | syntactic (fault : Placed SyntaxFault)
  | structural (fault : TreeFault)
deriving DecidableEq, Repr

namespace TreeTextFault

def path : TreeTextFault -> Path
  | syntactic _ => []
  | structural fault => fault.path

def message : TreeTextFault -> String
  | syntactic fault =>
      String.ofList (Path.text []) ++ ": invalid JSON: " ++
        fault.message SyntaxFault.message
  | structural fault => fault.message

end TreeTextFault
end PseudocodeTools
