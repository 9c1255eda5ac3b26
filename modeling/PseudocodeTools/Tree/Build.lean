import PseudocodeTools.Tree.Node
/-!
# Building trees

The usual nodes with an empty frame, and changes to the frame of a node.
-/

namespace PseudocodeTools

def Frame.empty : Frame :=
  { location := none, metadata := [], extra := [] }

/-- A place without an end. -/
def Location.ofStart (line column : UInt32) : Location :=
  { line := line, column := column, endLine := none, endColumn := none }

namespace Node

/-- A node with an empty frame. -/
def ofPayload (payload : Payload Node) : Node :=
  mk Frame.empty payload

def var (name : String) : Node :=
  ofPayload (.var name)

def literal (value : Json) (literalType : String) : Node :=
  ofPayload (.literal (some value) literalType)

def binary (left : Node) (operator : Operator) (right : Node) : Node :=
  ofPayload (.binary operator (some left) (some right))

def returning (value : Option Node) : Node :=
  ofPayload (.returning value)

/-- A recursive call that calls itself once. -/
def recursiveCall (functionName : String) (arguments : List Node) : Node :=
  ofPayload (.recursiveCall functionName arguments false none Binary64.one)

def block (statements : List Node) : Node :=
  ofPayload (.block statements)

/-- A loop without a header. -/
def loop (loopType : LoopType) (condition : Option Node) (body : Node) : Node :=
  ofPayload (.loop loopType none none none none none condition body none 0)

/-- A function without parameters. -/
def function (name : String) (body : Option Node) : Node :=
  ofPayload (.function name [] body none false)

/-!
# Changes to the frame
-/

def mapFrame (f : Frame -> Frame) : Node -> Node
  | mk frame payload => mk (f frame) payload

def locate (location : Location) (node : Node) : Node :=
  node.mapFrame fun frame => { frame with location := some location }

def annotate (key : String) (value : Json) (node : Node) : Node :=
  node.mapFrame fun frame =>
    { frame with metadata := frame.metadata.insert key value }

def addExtra (key : String) (value : Json) (node : Node) : Node :=
  node.mapFrame fun frame =>
    { frame with extra := frame.extra.insert key value }

end Node
end PseudocodeTools
