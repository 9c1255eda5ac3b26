import PseudocodeTools.JsonText.Value
import PseudocodeTools.Tree.Fault
import PseudocodeTools.Tree.Node
/-!
# Reading trees

A JSON value is read as a tree from the root down: the kind of a node first,
then its frame, then its fields in the order of the grammar.  A member that is
null counts as missing, except for a raw field.  Members that the grammar does
not know are kept in the frame.  The first fault in this order is the result.
-/

namespace PseudocodeTools
namespace Tree

/-!
# Leaves
-/

def wrongType (path : Path) (expected : Expectation) (found : Json) :
    TreeFault :=
  { path := path, cause := .wrongType expected found.kind }

def missing (path : Path) : TreeFault :=
  { path := path, cause := .missingField }

/-- The value itself, or a fault when there is none. -/
def require {α : Type} (path : Path) : Option α -> Except TreeFault α
  | some x => .ok x
  | none => .error (missing path)

def text? (path : Path) : Option Json -> Except TreeFault (Option String)
  | none => .ok none
  | some (.string s) => .ok (some s)
  | some other => .error (wrongType path .string other)

def flag? (path : Path) : Option Json -> Except TreeFault (Option Bool)
  | none => .ok none
  | some (.boolean b) => .ok (some b)
  | some other => .error (wrongType path .boolean other)

def count? (path : Path) : Option Json -> Except TreeFault (Option UInt32)
  | none => .ok none
  | some (.number n) =>
      match n.toUInt32? with
      | some k => .ok (some k)
      | none => .error (wrongType path .nonNegativeInteger (.number n))
  | some other => .error (wrongType path .nonNegativeInteger other)

def factor? (path : Path) : Option Json -> Except TreeFault (Option Binary64)
  | none => .ok none
  | some (.number n) => .ok (some n.toBinary64)
  | some other => .error (wrongType path .number other)

def operator? (path : Path) : Option Json -> Except TreeFault (Option Operator)
  | none => .ok none
  | some (.string s) =>
      match Operator.ofName? s with
      | some op => .ok (some op)
      | none => .error { path := path, cause := .unknownWord .operator s }
  | some other => .error (wrongType path .operator other)

def loopType? (path : Path) : Option Json -> Except TreeFault (Option LoopType)
  | none => .ok none
  | some (.string s) =>
      match LoopType.ofName? s with
      | some type => .ok (some type)
      | none => .error { path := path, cause := .unknownWord .loopType s }
  | some other => .error (wrongType path .loopType other)

/-- A member that is there and not null. -/
def present? (members : Json.Members) (key : String) : Option Json :=
  (members.get? key).filter fun value => !value.isNull

/-- A place in the source.  Other members of its object are dropped. -/
def location? (path : Path) : Option Json -> Except TreeFault (Option Location)
  | none => .ok none
  | some (.object members) => do
      let at_ := fun key => path ++ [.key key]
      let line ← count? (at_ "line") (present? members "line")
      let line ← require (at_ "line") line
      let column ← count? (at_ "column") (present? members "column")
      let column ← require (at_ "column") column
      let endLine ← count? (at_ "end_line") (present? members "end_line")
      let endColumn ← count? (at_ "end_column") (present? members "end_column")
      return some
        { line := line, column := column, endLine := endLine,
          endColumn := endColumn }
  | some other => .error (wrongType path .location other)

def metadata (path : Path) : Option Json -> Except TreeFault Json.Members
  | none => .ok []
  | some (.object members) => .ok members
  | some other => .error (wrongType path .object other)

/-!
# Fields

The members of a node are given with the readers for them, so that reading a
field is no recursion.
-/

/-- A value with what it gives as a node and as a list of nodes. -/
structure Child where
  value : Json
  node : Role -> Path -> Except TreeFault Node
  nodes : Role -> Path -> Except TreeFault (List Node)

/-- A member that is there and not null, as a child. -/
def presentChild? (children : List (String × Child)) (key : String) :
    Option Child :=
  (children.lookup key).filter fun child => !child.value.isNull

def child? (role : Role) (path : Path) :
    Option Child -> Except TreeFault (Option Node)
  | none => .ok none
  | some child => (child.node role path).map some

/-- The value of the field at `path`, from the member that holds it. -/
def fieldValue (children : List (String × Child)) (path : Path) (key : String) :
    (content : Content) -> Except TreeFault (content.Value Node)
  | .raw => .ok ((children.lookup key).map Child.value)
  | .text fallback => do
      let found ← text? path ((presentChild? children key).map Child.value)
      require path (found.or fallback)
  | .optionalText => text? path ((presentChild? children key).map Child.value)
  | .flag fallback => do
      let found ← flag? path ((presentChild? children key).map Child.value)
      return found.getD fallback
  | .count fallback => do
      let found ← count? path ((presentChild? children key).map Child.value)
      return found.getD fallback
  | .factor fallback => do
      let found ← factor? path ((presentChild? children key).map Child.value)
      return found.getD fallback
  | .operator fallback => do
      let found ← operator? path ((presentChild? children key).map Child.value)
      require path (found.or fallback)
  | .loopType fallback => do
      let found ← loopType? path ((presentChild? children key).map Child.value)
      return found.getD fallback
  | .child role => do
      let found ← child? role path (presentChild? children key)
      require path found
  | .optionalChild role => child? role path (presentChild? children key)
  | .children role =>
      match presentChild? children key with
      | none => .ok []
      | some child => child.nodes role path

/-- The values of the given fields, in their order. -/
def rowValues (children : List (String × Child)) (path : Path) :
    (fields : List Field) -> Except TreeFault (Row Node fields)
  | [] => .ok ()
  | field :: rest => do
      let value ←
        fieldValue children (path ++ [.key field.key]) field.key field.content
      let values ← rowValues children path rest
      return (value, values)

/-- The kind of the node with the given members. -/
def nodeType (members : Json.Members) (path : Path) :
    Except TreeFault NodeType :=
  match members.get? "node_type" with
  | none | some .null => .error (missing (path ++ [.key "node_type"]))
  | some (.string name) =>
      match NodeType.ofName? name with
      | some type => .ok type
      | none => .error { path := path, cause := .unknownNodeType name }
  | some other =>
      .error (wrongType (path ++ [.key "node_type"]) .string other)

/-- The members that a kind of node has no use for. -/
def extraMembers (type : NodeType) (members : Json.Members) : Json.Members :=
  members.filter fun (key, _) => !type.modelledKeys.contains key

/-- The node of a kind with the given members, with the readers for them. -/
def nodeOfKind (type : NodeType) (members : Json.Members)
    (children : List (String × Child)) (path : Path) : Except TreeFault Node := do
  let location ←
    location? (path ++ [.key "location"]) (present? members "location")
  let metadata ←
    metadata (path ++ [.key "metadata"]) (present? members "metadata")
  let row ← rowValues children path type.fields
  let frame : Frame :=
    { location := location
      metadata := metadata
      extra := extraMembers type members }
  return .mk frame (.ofRow type row)

/-- The node with the given members, with the readers for them.  The kind that
is written decides whether the node is admitted, the role then by which kind it
is read. -/
def nodeOfMembers (members : Json.Members) (children : List (String × Child))
    (role : Role) (path : Path) : Except TreeFault Node := do
  let type ← nodeType members path
  if role.admits type then
    nodeOfKind (role.readKind type) members children path
  else
    .error { path := path, cause := .unexpectedNode type role }

/-!
# Trees
-/

mutual
/-- The tree that a value at `path` spells in a given role. -/
def decodeAt : Json -> Role -> Path -> Except TreeFault Node
  | .object members, role, path =>
      nodeOfMembers members (withReaders members) role path
  | .null, _, path => .error (wrongType path .node .null)
  | .boolean b, _, path => .error (wrongType path .node (.boolean b))
  | .number n, _, path => .error (wrongType path .node (.number n))
  | .string s, _, path => .error (wrongType path .node (.string s))
  | .array items, _, path => .error (wrongType path .node (.array items))
termination_by structural value => value

/-- The trees that the items of an array spell in a given role. -/
def decodeArray : Json -> Role -> Path -> Except TreeFault (List Node)
  | .array items, role, path => decodeItems items role path 0
  | .null, _, path => .error (wrongType path .array .null)
  | .boolean b, _, path => .error (wrongType path .array (.boolean b))
  | .number n, _, path => .error (wrongType path .array (.number n))
  | .string s, _, path => .error (wrongType path .array (.string s))
  | .object members, _, path =>
      .error (wrongType path .array (.object members))
termination_by structural value => value

/-- The trees of items that are counted from `position` on. -/
def decodeItems : List Json -> Role -> Path -> Nat ->
    Except TreeFault (List Node)
  | [], _, _, _ => .ok []
  | item :: rest, role, path, position => do
      let node ← decodeAt item role (path ++ [.index position])
      let nodes ← decodeItems rest role path (position + 1)
      return node :: nodes
termination_by structural items => items

/-- Members with their readers. -/
def withReaders : List (String × Json) -> List (String × Child)
  | [] => []
  | (key, value) :: rest =>
      (key,
        { value := value
          node := decodeAt value
          nodes := decodeArray value }) :: withReaders rest
termination_by structural members => members
end

/-- The tree that a value spells in a given role. -/
def decode (role : Role) (value : Json) : Except TreeFault Node :=
  decodeAt value role []

/-- The tree that a text spells, of any kind. -/
def decodeText (source : Text) : Except TreeTextFault Node :=
  match Json.read nestingLimit source with
  | .error fault => .error (.syntactic fault)
  | .ok value =>
      match decode .any value with
      | .error fault => .error (.structural fault)
      | .ok node => .ok node

end Tree
end PseudocodeTools
