import PseudocodeTools.Tree.Node
/-!
# Writing trees

A tree is written with the members of its frame and one member for each field
that has a value.  Fallbacks are written out.  A member that the grammar does
not know is written only if nothing else has its key.
-/

namespace PseudocodeTools

/-!
# Members of a node
-/

/-- An optional member. -/
def optionalMember (key : String) : Option Json -> Json.Members
  | none => []
  | some value => [(key, value)]

namespace Location

def toJson (location : Location) : Json :=
  let word := fun n => Json.number (JsonNumber.ofUInt32 n)
  .ofPairs <|
    ("line", word location.line) :: ("column", word location.column) ::
      (optionalMember "end_line" (location.endLine.map word) ++
        optionalMember "end_column" (location.endColumn.map word))

end Location

/-- The member that holds the value of a field, if one is written. -/
def Content.toJson? : (content : Content) -> content.Value Json -> Option Json
  | text _, s => some (.string s)
  | optionalText, s? => s?.map Json.string
  | flag _, b => some (.boolean b)
  | count _, n => some (.number (.ofUInt32 n))
  | factor _, x => some (.ofBinary64 x)
  | operator _, op => some (.string op.name)
  | loopType _, type => some (.string type.name)
  | raw, value? => value?
  | child _, value => some value
  | optionalChild _, value? => value?
  | children _, values => some (.array values)

/-- The members that hold the values of the given fields. -/
def Row.members : (fields : List Field) -> Row Json fields -> Json.Members
  | [], () => []
  | field :: rest, (value, values) =>
      optionalMember field.key (field.content.toJson? value) ++
        Row.members rest values

namespace Tree

/-- The value of a node, from the values of its children. -/
def nodeValue (frame : Frame) (payload : Payload Json) : Json :=
  let own : Json.Members :=
    ("node_type", .string payload.type.name) ::
      (Row.members payload.type.fields payload.toRow ++
        optionalMember "location" (frame.location.map Location.toJson) ++
        [("metadata", .object frame.metadata)])
  .object ((Json.Members.insertAll [] own).insertAllMissing frame.extra)

/-- The value that spells a tree. -/
def encode (node : Node) : Json :=
  node.fold nodeValue

/-!
# Counting nodes
-/

mutual
/-- The number of objects in a value that have a kind of node. -/
def countTagged : Json -> Nat
  | .object members =>
      (if Json.Members.hasKey members "node_type" then 1 else 0) + countTaggedMembers members
  | .array items => countTaggedItems items
  | .null | .boolean _ | .number _ | .string _ => 0
termination_by structural value => value

def countTaggedItems : List Json -> Nat
  | [] => 0
  | item :: rest => countTagged item + countTaggedItems rest
termination_by structural items => items

def countTaggedMembers : List (String × Json) -> Nat
  | [] => 0
  | (_, value) :: rest => countTagged value + countTaggedMembers rest
termination_by structural members => members
end

end Tree
end PseudocodeTools
