import PseudocodeTools.Tree.Grammar
/-!
# Nodes

A node has the fields of its kind and a frame that nodes of all kinds share: a
place in the source, annotations, and the fields that the grammar does not know.

Payloads are generic in the type of their children.  The same payload can be
seen as a row of field values that follows the table of the grammar, and the
two views determine each other.
-/

namespace PseudocodeTools

/-- Where a node stands in the source. -/
structure Location where
  line : UInt32
  column : UInt32
  endLine : Option UInt32
  endColumn : Option UInt32
deriving DecidableEq, Repr

/-- What nodes of all kinds have. -/
structure Frame where
  location : Option Location
  metadata : Json.Members
  extra : Json.Members
deriving DecidableEq

/-- The fields of a node, by its kind, with children from `ν`. -/
inductive Payload (ν : Type) where
  | program (functions : List ν) (globalStatements : Option ν)
  | function (name : String) (parameters : List ν) (body : Option ν)
      (returnType : Option String) (isRecursive : Bool)
  | block (statements : List ν)
  | loop (loopType : LoopType) (iterator start stop step collection : Option ν)
      (condition : Option ν) (body : ν) (estimatedIterations : Option String)
      (nestingLevel : UInt32)
  | conditional (condition thenBranch : ν) (elseBranch : Option ν)
      (elifBranches : List ν)
  | assignment (target value : Option ν) (operator : Operator)
  | returning (value : Option ν)
  | call (functionName : String) (arguments : List ν) (isRecursive : Bool)
  | recursiveCall (functionName : String) (arguments : List ν)
      (isRecursive : Bool) (reductionPattern : Option String)
      (branchingFactor : Binary64)
  | var (name : String)
  | literal (value : Option Json) (literalType : String)
  | binary (operator : Operator) (left right : Option ν)
  | unary (operator : Operator) (operand : Option ν)
  | access (array index : Option ν)
deriving DecidableEq

/-- A syntax tree. -/
inductive Node where
  | mk (frame : Frame) (payload : Payload Node)

/-!
# Kinds of payloads
-/

def Payload.type {ν : Type} : Payload ν -> NodeType
  | program .. => .program
  | function .. => .function
  | block .. => .block
  | loop .. => .loop
  | conditional .. => .conditional
  | assignment .. => .assignment
  | returning .. => .returning
  | call .. => .call
  | recursiveCall .. => .recursiveCall
  | var .. => .var
  | literal .. => .literal
  | binary .. => .binary
  | unary .. => .unary
  | access .. => .access

namespace Node

def frame : Node -> Frame
  | mk frame _ => frame

def payload : Node -> Payload Node
  | mk _ payload => payload

def type (node : Node) : NodeType :=
  node.payload.type

end Node

/-!
# Rows of field values
-/

/-- The values of a field with the given content. -/
def Content.Value (ν : Type) : Content -> Type
  | text _ => String
  | optionalText => Option String
  | flag _ => Bool
  | count _ => UInt32
  | factor _ => Binary64
  | operator _ => Operator
  | loopType _ => LoopType
  | raw => Option Json
  | child _ => ν
  | optionalChild _ => Option ν
  | children _ => List ν

/-- One value for each field of a list. -/
def Row (ν : Type) : List Field -> Type
  | [] => Unit
  | field :: rest => field.content.Value ν × Row ν rest

namespace Payload

variable {ν : Type}

/-- The field values of a payload, in the order of the table. -/
def toRow : (payload : Payload ν) -> Row ν payload.type.fields
  | program functions globals => (functions, globals, ())
  | function name parameters body returnType isRecursive =>
      (name, parameters, body, returnType, isRecursive, ())
  | block statements => (statements, ())
  | loop loopType iterator start stop step collection condition body
        estimatedIterations nestingLevel =>
      (loopType, iterator, start, stop, step, collection, condition, body,
        estimatedIterations, nestingLevel, ())
  | conditional condition thenBranch elseBranch elifBranches =>
      (condition, thenBranch, elseBranch, elifBranches, ())
  | assignment target value operator => (target, value, operator, ())
  | returning value => (value, ())
  | call functionName arguments isRecursive =>
      (functionName, arguments, isRecursive, ())
  | recursiveCall functionName arguments isRecursive reductionPattern
        branchingFactor =>
      (functionName, arguments, isRecursive, reductionPattern, branchingFactor,
        ())
  | var name => (name, ())
  | literal value literalType => (value, literalType, ())
  | binary operator left right => (operator, left, right, ())
  | unary operator operand => (operator, operand, ())
  | access array index => (array, index, ())

/-- The payload of a kind with the given field values. -/
def ofRow : (type : NodeType) -> Row ν type.fields -> Payload ν
  | .program, (functions, globals, ()) => program functions globals
  | .function, (name, parameters, body, returnType, isRecursive, ()) =>
      function name parameters body returnType isRecursive
  | .block, (statements, ()) => block statements
  | .loop, (loopType, iterator, start, stop, step, collection, condition, body,
        estimatedIterations, nestingLevel, ()) =>
      loop loopType iterator start stop step collection condition body
        estimatedIterations nestingLevel
  | .conditional, (condition, thenBranch, elseBranch, elifBranches, ()) =>
      conditional condition thenBranch elseBranch elifBranches
  | .assignment, (target, value, operator, ()) =>
      assignment target value operator
  | .returning, (value, ()) => returning value
  | .call, (functionName, arguments, isRecursive, ()) =>
      call functionName arguments isRecursive
  | .recursiveCall, (functionName, arguments, isRecursive, reductionPattern,
        branchingFactor, ()) =>
      recursiveCall functionName arguments isRecursive reductionPattern
        branchingFactor
  | .var, (name, ()) => var name
  | .literal, (value, literalType, ()) => literal value literalType
  | .binary, (operator, left, right, ()) => binary operator left right
  | .unary, (operator, operand, ()) => unary operator operand
  | .access, (array, index, ()) => access array index

@[simp] theorem type_ofRow (type : NodeType) (row : Row ν type.fields) :
    (ofRow type row).type = type := by
  cases type <;> rfl

@[simp] theorem ofRow_toRow (payload : Payload ν) :
    ofRow payload.type payload.toRow = payload := by
  cases payload <;> rfl

end Payload

/-!
# Folding a tree

Every function on trees that works from the leaves up is a fold: it is given by
what it makes of a frame and of a payload whose children are results already.
-/

namespace Node

variable {α : Type}

mutual
/-- The result at the root, from the results at the children. -/
def fold (step : Frame -> Payload α -> α) : Node -> α
  | mk frame payload => step frame (foldPayload step payload)
termination_by structural node => node

def foldPayload (step : Frame -> Payload α -> α) : Payload Node -> Payload α
  | .program functions globals =>
      .program (foldList step functions) (foldOption step globals)
  | .function name parameters body returnType isRecursive =>
      .function name (foldList step parameters) (foldOption step body) returnType
        isRecursive
  | .block statements => .block (foldList step statements)
  | .loop loopType iterator start stop step' collection condition body
        estimatedIterations nestingLevel =>
      .loop loopType (foldOption step iterator) (foldOption step start)
        (foldOption step stop) (foldOption step step')
        (foldOption step collection) (foldOption step condition)
        (fold step body) estimatedIterations nestingLevel
  | .conditional condition thenBranch elseBranch elifBranches =>
      .conditional (fold step condition) (fold step thenBranch)
        (foldOption step elseBranch) (foldList step elifBranches)
  | .assignment target value operator =>
      .assignment (foldOption step target) (foldOption step value) operator
  | .returning value => .returning (foldOption step value)
  | .call functionName arguments isRecursive =>
      .call functionName (foldList step arguments) isRecursive
  | .recursiveCall functionName arguments isRecursive reductionPattern
        branchingFactor =>
      .recursiveCall functionName (foldList step arguments) isRecursive
        reductionPattern branchingFactor
  | .var name => .var name
  | .literal value literalType => .literal value literalType
  | .binary operator left right =>
      .binary operator (foldOption step left) (foldOption step right)
  | .unary operator operand => .unary operator (foldOption step operand)
  | .access array index =>
      .access (foldOption step array) (foldOption step index)
termination_by structural payload => payload

def foldList (step : Frame -> Payload α -> α) : List Node -> List α
  | [] => []
  | node :: rest => fold step node :: foldList step rest
termination_by structural nodes => nodes

def foldOption (step : Frame -> Payload α -> α) : Option Node -> Option α
  | none => none
  | some node => some (fold step node)
termination_by structural node => node
end

end Node
end PseudocodeTools
