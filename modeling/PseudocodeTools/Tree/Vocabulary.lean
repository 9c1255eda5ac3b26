/-!
# Vocabulary of syntax trees

The kinds of nodes, the operators and the kinds of loops, each with the word
that stands for it in an exchanged tree.
-/

namespace PseudocodeTools

/-!
# Kinds of nodes
-/

inductive NodeType where
  | program
  | function
  | block
  | loop
  | conditional
  | assignment
  | returning
  | call
  | recursiveCall
  | var
  | literal
  | binary
  | unary
  | access
deriving DecidableEq, Repr

namespace NodeType

def all : List NodeType :=
  [program, function, block, loop, conditional, assignment, returning, call,
    recursiveCall, var, literal, binary, unary, access]

theorem mem_all (type : NodeType) : type ∈ all := by
  cases type <;> decide

def name : NodeType -> String
  | program => "program"
  | function => "function"
  | block => "block"
  | loop => "loop"
  | conditional => "conditional"
  | assignment => "assignment"
  | returning => "return"
  | call => "function_call"
  | recursiveCall => "recursive_call"
  | var => "variable"
  | literal => "literal"
  | binary => "binary_op"
  | unary => "unary_op"
  | access => "array_access"

def ofName? (s : String) : Option NodeType :=
  all.find? fun type => type.name == s

/-- Whether nodes of this kind have a value. -/
def isExpression : NodeType -> Bool
  | var | literal | binary | unary | access => true
  | _ => false

end NodeType

/-!
# Operators
-/

inductive Operator where
  | add
  | subtract
  | multiply
  | divide
  | modulo
  | power
  | floorDivide
  | equal
  | notEqual
  | less
  | lessEqual
  | greater
  | greaterEqual
  | and
  | or
  | not
  | assign
  | addAssign
  | subtractAssign
  | multiplyAssign
  | divideAssign
deriving DecidableEq, Repr

namespace Operator

def all : List Operator :=
  [add, subtract, multiply, divide, modulo, power, floorDivide, equal,
    notEqual, less, lessEqual, greater, greaterEqual, and, or, not, assign,
    addAssign, subtractAssign, multiplyAssign, divideAssign]

theorem mem_all (op : Operator) : op ∈ all := by
  cases op <;> decide

def name : Operator -> String
  | add => "+"
  | subtract => "-"
  | multiply => "*"
  | divide => "/"
  | modulo => "%"
  | power => "^"
  | floorDivide => "//"
  | equal => "=="
  | notEqual => "!="
  | less => "<"
  | lessEqual => "<="
  | greater => ">"
  | greaterEqual => ">="
  | and => "and"
  | or => "or"
  | not => "not"
  | assign => "="
  | addAssign => "+="
  | subtractAssign => "-="
  | multiplyAssign => "*="
  | divideAssign => "/="

def ofName? (s : String) : Option Operator :=
  all.find? fun op => op.name == s

/-- Whether the operator stores a value. -/
def isAssignment : Operator -> Bool
  | assign | addAssign | subtractAssign | multiplyAssign | divideAssign => true
  | _ => false

end Operator

/-!
# Kinds of loops
-/

inductive LoopType where
  /-- An iterator runs over a range of numbers. -/
  | counted
  /-- An iterator runs over a collection. -/
  | overCollection
  /-- The condition is tested before each round. -/
  | preTested
  /-- The condition is tested after each round. -/
  | postTested
  /-- Rounds go on until the condition holds. -/
  | untilTrue
  | unknown
deriving DecidableEq, Repr

namespace LoopType

def all : List LoopType :=
  [counted, overCollection, preTested, postTested, untilTrue, unknown]

theorem mem_all (type : LoopType) : type ∈ all := by
  cases type <;> decide

def name : LoopType -> String
  | counted => "for"
  | overCollection => "for_each"
  | preTested => "while"
  | postTested => "do_while"
  | untilTrue => "repeat_until"
  | unknown => "unknown"

def ofName? (s : String) : Option LoopType :=
  all.find? fun type => type.name == s

def isCounted : LoopType -> Bool
  | counted => true
  | _ => false

end LoopType
end PseudocodeTools
