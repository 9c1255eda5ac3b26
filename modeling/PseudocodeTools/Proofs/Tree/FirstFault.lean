import PseudocodeTools.Proofs.Tree.Parts
import PseudocodeTools.Proofs.Tree.PathText
/-!
# The first fault

The parts of a node are read in a fixed order, and a list of children from the
left, so the first part that cannot be read decides.  What stands behind it has
no influence, neither on whether there is a fault nor on which one it is.
-/

namespace PseudocodeTools

/-!
# Faults seen from further up
-/

/-- Seen from further up, the steps from the root come first in the written path
and the rest of the fault stays. -/
theorem TreeFault.text_under (base : Path) (fault : TreeFault) :
    (fault.under base).path.text = base.text ++ fault.path.stepsText := by
  change '$' :: (base ++ fault.path).flatMap Step.text = _
  rw [List.flatMap_append]
  rfl

namespace Tree

/-!
# Lists of children
-/

/-- The items before the first that cannot be read are counted, the ones behind
it are not looked at. -/
theorem decodeItems_first_fault {role : Role} {front : List Json} {bad : Json}
    {fault : TreeFault} (rest : List Json) (path : Path) (start : Nat)
    (hfront : forall item, item ∈ front -> exists node, Decodes role item node)
    (hbad : decode role bad = .error fault) :
    decodeItems (front ++ bad :: rest) role path start =
      .error (fault.under (path ++ [.index (start + front.length)])) := by
  induction front generalizing start with
  | nil =>
      have hfault : decodeAt bad role (path ++ [.index start]) =
          .error (fault.under (path ++ [.index start])) :=
        decodeAt_eq_error_iff.mpr ⟨fault, hbad, rfl⟩
      rw [List.nil_append, decodeItems, hfault]
      rfl
  | cons item front ih =>
      rcases List.forall_mem_cons.mp hfront with ⟨⟨node, hitem⟩, hbehind⟩
      have hposition : start + (item :: front).length =
          start + 1 + front.length := by
        rw [List.length_cons, Nat.add_right_comm, Nat.add_assoc]
      rw [List.cons_append, decodeItems, decodeAt_eq_ok_iff.mpr hitem,
        hposition]
      change (decodeItems (front ++ bad :: rest) role path (start + 1) >>= _) = _
      rw [ih (start + 1) hbehind]
      rfl

/-!
# Fields of a node
-/

section Node

variable {role : Role} {members : Json.Members} {type : NodeType}
  {earlier later : List Field} {field : Field} {fault : TreeFault}

theorem rowValues_first_fault (path : Path)
    (hearlier : forall field, field ∈ earlier ->
      exists x, field.content.Reads Decodes members field.key x)
    (hfault : fieldValue (withReaders members) (path ++ [.key field.key])
      field.key field.content = .error fault) :
    rowValues (withReaders members) path (earlier ++ field :: later) =
      .error fault := by
  induction earlier with
  | nil =>
      rw [List.nil_append, rowValues, hfault]
      rfl
  | cons first earlier ih =>
      rcases List.forall_mem_cons.mp hearlier with ⟨⟨x, hx⟩, hbehind⟩
      rw [List.cons_append, rowValues, fieldValue_eq_ok_iff.mpr hx]
      change (rowValues (withReaders members) path (earlier ++ field :: later) >>=
        _) = _
      rw [ih hbehind]
      rfl

/-- What comes before some fields of a node can be read: its kind, which the
role admits, its place, its annotations and the fields before them. -/
structure ReadsUpTo (role : Role) (members : Json.Members) (type : NodeType)
    (earlier : List Field) : Prop where
  kind : members.get? "node_type" = some (.string type.name)
  admitted : role.admits type = true
  location :
    present? members "location" = none ∨
      exists inner location, present? members "location" = some (.object inner) ∧
        SpellsLocation inner location
  metadata :
    present? members "metadata" = none ∨
      exists entries, present? members "metadata" = some (.object entries)
  fields : forall field, field ∈ earlier ->
    exists x, field.content.Reads Decodes members field.key x

theorem ReadsUpTo.exists_location (h : ReadsUpTo role members type earlier)
    (path : Path) :
    exists location, location? path (present? members "location") =
      .ok location := by
  rcases h.location with hnone | ⟨inner, location, hgiven, hspells⟩
  · exact ⟨none, location?_eq_ok_iff.mpr (Or.inl ⟨hnone, rfl⟩)⟩
  · exact ⟨some location, location?_eq_ok_iff.mpr
      (Or.inr ⟨inner, location, hgiven, rfl, hspells⟩)⟩

theorem ReadsUpTo.exists_metadata (h : ReadsUpTo role members type earlier)
    (path : Path) :
    exists entries, Tree.metadata path (present? members "metadata") =
      .ok entries := by
  rcases h.metadata with hnone | ⟨entries, hgiven⟩
  · exact ⟨[], metadata_eq_ok_iff.mpr (Or.inl ⟨hnone, rfl⟩)⟩
  · exact ⟨entries, metadata_eq_ok_iff.mpr (Or.inr hgiven)⟩

/-- The fault of the first field that cannot be read is that of the node. -/
theorem ReadsUpTo.decode_eq_error (h : ReadsUpTo role members type earlier)
    (hfields : type.fields = earlier ++ field :: later)
    (hfault : fieldValue (withReaders members) [.key field.key] field.key
      field.content = .error fault) :
    decode role (.object members) = .error fault := by
  rcases h.exists_location [.key "location"] with ⟨location, hlocation⟩
  rcases h.exists_metadata [.key "metadata"] with ⟨entries, hmetadata⟩
  have hrow : rowValues (withReaders members) [] type.fields = .error fault := by
    rw [hfields]
    exact rowValues_first_fault [] h.fields hfault
  have hnode : nodeOfKind type members (withReaders members) [] =
      .error fault :=
    Except.bind_eq_error_iff.mpr <| Or.inr ⟨location, hlocation,
      Except.bind_eq_error_iff.mpr <| Or.inr ⟨entries, hmetadata,
        Except.bind_eq_error_iff.mpr <| Or.inl hrow⟩⟩
  change nodeOfMembers members (withReaders members) role [] = _
  unfold nodeOfMembers
  rw [nodeType_eq_ok_iff.mpr h.kind]
  change (if role.admits type = true then _ else _) = _
  rw [if_pos h.admitted, Role.readKind_of_admits h.admitted]
  exact hnode

end Node

/-- Where a value stands shows in the path of a fault only, which is written with
the steps to that place instead of the dollar sign.  And if the nodes in a list
of children (functions, parameters, statements, further branches or arguments)
can be read up to one that cannot, as can everything that is read before the
list, then the fault of that node is the fault of the whole, seen from further
up, whatever else the node holds. -/
theorem first_fault_wins :
    (forall (value : Json) (role : Role) (path : Path),
      decodeAt value role path =
        (decode role value).mapError (TreeFault.under path)) ∧
    (forall (path : Path) (fault : TreeFault),
      exists steps, fault.path.text = '$' :: steps ∧
        (fault.under path).path.text = path.text ++ steps ∧
        (fault.under path).message =
          String.ofList (path.text ++ steps) ++ ": " ++ fault.cause.message) ∧
    forall (role itemRole : Role) (members : Json.Members) (type : NodeType)
        (earlier later : List Field) (field : Field) (front rest : List Json)
        (bad : Json) (fault : TreeFault),
      type.fields = earlier ++ field :: later ->
      field.content = .children itemRole ->
      ReadsUpTo role members type earlier ->
      members.get? field.key = some (.array (front ++ bad :: rest)) ->
      (forall item, item ∈ front -> exists node, Decodes itemRole item node) ->
      decode itemRole bad = .error fault ->
      decode role (.object members) =
        .error (fault.under [.key field.key, .index front.length]) := by
  refine ⟨decodeAt_eq_mapError, ?_, ?_⟩
  · intro path fault
    have htext := TreeFault.text_under path fault
    refine ⟨fault.path.stepsText, rfl, htext, ?_⟩
    unfold TreeFault.message
    rw [htext]
    rfl
  · intro role itemRole members type earlier later field front rest bad fault
      hfields hcontent hreads hget hfront hbad
    refine hreads.decode_eq_error hfields ?_
    have hitems := decodeItems_first_fault rest [.key field.key] 0 hfront hbad
    rw [Nat.zero_add] at hitems
    rw [hcontent, fieldValue, presentChild?_withReaders,
      present?_of_get? hget rfl]
    exact hitems

/-- A variable is a parameter and a literal is none. -/
def parameterX : Json :=
  .object [("name", .string "x"), ("node_type", .string "variable")]

def parameterLiteral : Json :=
  .object [("node_type", .string "literal")]

/-- A function with a literal for its second parameter, a number for its third
one and another for its body. -/
def functionOfLiteral : Json.Members :=
  [("body", .number (.ofUInt32 5)), ("name", .string "f"),
    ("node_type", .string "function"),
    ("parameters",
      .array [parameterX, parameterLiteral, .number (.ofUInt32 5)])]

def literalFault : TreeFault :=
  { path := [], cause := .unexpectedNode .literal (.only .var) }

theorem first_fault_of_functionOfLiteral :
    ReadsUpTo .any functionOfLiteral .function [⟨"name", .text none⟩] ∧
    (exists node, Decodes (.only .var) parameterX node) ∧
    decode (.only .var) parameterLiteral = .error literalFault ∧
    decode .any (.object functionOfLiteral) =
      .error (literalFault.under [.key "parameters", .index 1]) ∧
    decodeAt (.object functionOfLiteral) .any [.key "z"] =
      (decode .any (.object functionOfLiteral)).mapError
        (TreeFault.under [.key "z"]) := by
  have hreads : ReadsUpTo .any functionOfLiteral .function
      [⟨"name", .text none⟩] :=
    { kind := rfl
      admitted := rfl
      location := Or.inl rfl
      metadata := Or.inl rfl
      fields := List.forall_mem_singleton.mpr ⟨"f", rfl⟩ }
  have hparameter : exists node, Decodes (.only .var) parameterX node :=
    ⟨_, rfl⟩
  refine ⟨hreads, hparameter, rfl, ?_, first_fault_wins.1 _ _ _⟩
  exact first_fault_wins.2.2 .any (.only .var) functionOfLiteral .function
    [⟨"name", .text none⟩] _ ⟨"parameters", .children (.only .var)⟩
    [parameterX] [.number (.ofUInt32 5)] parameterLiteral literalFault rfl rfl
    hreads rfl (List.forall_mem_singleton.mpr hparameter) rfl

end Tree
end PseudocodeTools
