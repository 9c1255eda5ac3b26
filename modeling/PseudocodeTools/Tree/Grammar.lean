import PseudocodeTools.Json.Basic
import PseudocodeTools.Tree.Vocabulary
/-!
# Grammar of syntax trees

Each kind of node has a fixed list of fields.  A field holds a leaf of some
sort, which may be left out in favour of a fallback, or child nodes in a role
that admits certain kinds only.  The table `NodeType.fields` is the whole
grammar; reading and writing of trees follow it.
-/

namespace PseudocodeTools

/-!
# Roles
-/

/-- Which kinds of nodes a place in a tree admits. -/
inductive Role where
  | any
  | expression
  | target
  | only (type : NodeType)
deriving DecidableEq, Repr

namespace Role

def admits : Role -> NodeType -> Bool
  | any, _ => true
  | expression, type => type.isExpression
  | target, type => type == .var || type == .access
  | only expected, type => type == expected

/-- The admitted nodes in a sentence. -/
def phrase : Role -> String
  | any => "any AST node"
  | expression =>
      "an expression node (variable, literal, binary_op, unary_op, array_access)"
  | target => "a variable or array_access node"
  | only .program => "a program node"
  | only .function => "a function node"
  | only .block => "a block node"
  | only .loop => "a loop node"
  | only .conditional => "a conditional node"
  | only .assignment => "an assignment node"
  | only .returning => "a return node"
  | only .call => "a function_call node"
  | only .recursiveCall => "a recursive_call node"
  | only .var => "a variable node"
  | only .literal => "a literal node"
  | only .binary => "a binary_op node"
  | only .unary => "a unary_op node"
  | only .access => "an array_access node"

end Role

/-!
# Kinds by which nodes are read

A role has its own list of the kinds that it reads.  For expressions and targets
the list ends in variables, which stand for every kind that is not listed.
-/

/-- The kind by which an expression of this kind is read. -/
def NodeType.asExpression : NodeType -> NodeType
  | literal => literal
  | binary => binary
  | unary => unary
  | access => access
  | _ => var

/-- The kind by which a target of this kind is read. -/
def NodeType.asTarget : NodeType -> NodeType
  | access => access
  | _ => var

namespace Role

/-- The kind by which a node of the given kind is read in a role. -/
def readKind : Role -> NodeType -> NodeType
  | any, type => if type.isExpression then type.asExpression else type
  | expression, type => type.asExpression
  | target, type => type.asTarget
  | only expected, _ => expected

/-- An admitted node is read by its own kind. -/
theorem readKind_of_admits {role : Role} {type : NodeType}
    (h : role.admits type = true) :
    role.readKind type = type := by
  cases role with
  | any =>
      cases type <;> rfl
  | expression =>
      cases type with
      | var | literal | binary | unary | access =>
          rfl
      | program | function | block | loop | conditional | assignment
      | returning | call | recursiveCall =>
          cases h
  | target =>
      cases type with
      | var | access =>
          rfl
      | program | function | block | loop | conditional | assignment
      | returning | call | recursiveCall | literal | binary | unary =>
          cases h
  | only expected =>
      exact (beq_iff_eq.mp h).symm

end Role

/-!
# Fields
-/

/-- What a field holds.  Where there is no fallback the field is required; an
optional field and a raw one may be missing, and a field of children is then
empty. -/
inductive Content where
  | text (fallback : Option String)
  | optionalText
  | flag (fallback : Bool)
  | count (fallback : UInt32)
  | factor (fallback : Binary64)
  | operator (fallback : Option Operator)
  | loopType (fallback : LoopType)
  | raw
  | child (role : Role)
  | optionalChild (role : Role)
  | children (role : Role)
deriving DecidableEq, Repr

structure Field where
  key : String
  content : Content
deriving DecidableEq, Repr

/-- The fields of a kind of node, in the order in which they are read. -/
def NodeType.fields : NodeType -> List Field
  | program =>
      [⟨"functions", .children (.only function)⟩,
        ⟨"global_statements", .optionalChild (.only block)⟩]
  | function =>
      [⟨"name", .text none⟩,
        ⟨"parameters", .children (.only var)⟩,
        ⟨"body", .optionalChild (.only block)⟩,
        ⟨"return_type", .optionalText⟩,
        ⟨"is_recursive", .flag false⟩]
  | block =>
      [⟨"statements", .children .any⟩]
  | loop =>
      [⟨"loop_type", .loopType .counted⟩,
        ⟨"iterator", .optionalChild (.only var)⟩,
        ⟨"start", .optionalChild .expression⟩,
        ⟨"end", .optionalChild .expression⟩,
        ⟨"step", .optionalChild .expression⟩,
        ⟨"collection", .optionalChild .expression⟩,
        ⟨"condition", .optionalChild .expression⟩,
        ⟨"body", .child (.only block)⟩,
        ⟨"estimated_iterations", .optionalText⟩,
        ⟨"nesting_level", .count 0⟩]
  | conditional =>
      [⟨"condition", .child .expression⟩,
        ⟨"then_branch", .child (.only block)⟩,
        ⟨"else_branch", .optionalChild (.only block)⟩,
        ⟨"elif_branches", .children (.only conditional)⟩]
  | assignment =>
      [⟨"target", .optionalChild .target⟩,
        ⟨"value", .optionalChild .expression⟩,
        ⟨"operator", .operator (some .assign)⟩]
  | returning =>
      [⟨"value", .optionalChild .expression⟩]
  | call =>
      [⟨"function_name", .text none⟩,
        ⟨"arguments", .children .expression⟩,
        ⟨"is_recursive", .flag false⟩]
  | recursiveCall =>
      [⟨"function_name", .text none⟩,
        ⟨"arguments", .children .expression⟩,
        ⟨"is_recursive", .flag false⟩,
        ⟨"reduction_pattern", .optionalText⟩,
        ⟨"branching_factor", .factor Binary64.one⟩]
  | var =>
      [⟨"name", .text none⟩]
  | literal =>
      [⟨"value", .raw⟩,
        ⟨"literal_type", .text (some "unknown")⟩]
  | binary =>
      [⟨"operator", .operator none⟩,
        ⟨"left", .optionalChild .expression⟩,
        ⟨"right", .optionalChild .expression⟩]
  | unary =>
      [⟨"operator", .operator none⟩,
        ⟨"operand", .optionalChild .expression⟩]
  | access =>
      [⟨"array", .optionalChild .expression⟩,
        ⟨"index", .optionalChild .expression⟩]

/-- Keys that every node has a use for. -/
def commonKeys : List String :=
  ["node_type", "location", "metadata"]

/-- Keys that a node of this kind has a use for. -/
def NodeType.modelledKeys (type : NodeType) : List String :=
  commonKeys ++ type.fields.map Field.key

end PseudocodeTools
