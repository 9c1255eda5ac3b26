import Mathlib.Algebra.BigOperators.Group.List.Basic
import Mathlib.Algebra.GroupWithZero.Nat
import PseudocodeTools.Proofs.Tree.RoundTrip
/-!
# Counting nodes

The count that is reported for a tree goes over the value that is written for
it.  It finds every node, and with them the objects in annotations, unknown
members and literal values that look like nodes.
-/

namespace PseudocodeTools

/-!
# Values without tags
-/

namespace Json

/-- The second value is the first one or stands in it, at any depth. -/
inductive Contains : Json -> Json -> Prop where
  | self {value : Json} : Contains value value
  | item {items : List Json} {item part : Json} (mem : item ∈ items)
      (inside : Contains item part) : Contains (.array items) part
  | member {members : Members} {member : String × Json} {part : Json}
      (mem : member ∈ members) (inside : Contains member.2 part) :
      Contains (.object members) part

/-- No object in the value has a kind of node. -/
def Untagged (value : Json) : Prop :=
  forall members, value.Contains (.object members) ->
    Members.hasKey members "node_type" = false

end Json

namespace Tree

/-!
# Counts as sums
-/

theorem countTaggedItems_eq (items : List Json) :
    countTaggedItems items = (items.map countTagged).sum := by
  induction items with
  | nil =>
      rfl
  | cons item rest ih =>
      rw [countTaggedItems, ih, List.map_cons, List.sum_cons]

theorem countTaggedMembers_eq (members : Json.Members) :
    countTaggedMembers members =
      (members.map fun member => countTagged member.2).sum := by
  induction members with
  | nil =>
      rfl
  | cons member rest ih =>
      rw [countTaggedMembers, ih, List.map_cons, List.sum_cons]

theorem countTagged_array (items : List Json) :
    countTagged (.array items) = (items.map countTagged).sum := by
  rw [countTagged, countTaggedItems_eq]

theorem countTagged_object (members : Json.Members) :
    countTagged (.object members) =
      (if members.hasKey "node_type" then 1 else 0) +
        (members.map fun member => countTagged member.2).sum := by
  rw [countTagged, countTaggedMembers_eq]

theorem countTagged_eq_zero_of_contains {value part : Json}
    (h : countTagged value = 0) (hpart : value.Contains part) :
    countTagged part = 0 := by
  induction hpart with
  | self =>
      exact h
  | item mem inside ih =>
      rw [countTagged_array, List.sum_eq_zero_iff_forall_eq_nat] at h
      exact ih (h _ (List.mem_map_of_mem mem))
  | @member members member part mem inside ih =>
      rw [countTagged_object, Nat.add_eq_zero_iff,
        List.sum_eq_zero_iff_forall_eq_nat] at h
      exact ih (h.2 _ (List.mem_map.mpr ⟨member, mem, rfl⟩))

theorem countTagged_eq_zero_iff {value : Json} :
    countTagged value = 0 ↔ value.Untagged := by
  constructor
  · intro h members hpart
    have hzero := countTagged_eq_zero_of_contains h hpart
    rw [countTagged_object, Nat.add_eq_zero_iff] at hzero
    by_contra hkey
    rw [Bool.not_eq_false] at hkey
    rw [if_pos hkey] at hzero
    exact Nat.one_ne_zero hzero.1
  · intro h
    induction hsize : sizeOf value using Nat.strongRecOn generalizing value with
    | ind size ih =>
        cases value with
        | null | boolean _ | number _ | string _ =>
            rfl
        | array items =>
            rw [countTagged_array, List.sum_eq_zero_iff_forall_eq_nat]
            intro n hn
            rcases List.mem_map.mp hn with ⟨item, hitem, rfl⟩
            have hlt := Json.sizeOf_item_lt hitem
            exact ih (sizeOf item) (hsize ▸ hlt)
              (fun members hpart => h members (.item hitem hpart)) rfl
        | object members =>
            rw [countTagged_object, h members .self,
              if_neg Bool.false_ne_true, Nat.zero_add,
              List.sum_eq_zero_iff_forall_eq_nat]
            intro n hn
            rcases List.mem_map.mp hn with ⟨member, hmember, rfl⟩
            have hlt := List.sizeOf_lt_of_mem hmember
            have hvalue : sizeOf member.2 < sizeOf (Json.object members) := by
              rcases member with ⟨key, value⟩
              simp only [Prod.mk.sizeOf_spec, Json.object.sizeOf_spec] at hlt ⊢
              omega
            exact ih (sizeOf member.2) (hsize ▸ hvalue)
              (fun inner hpart => h inner (.member hmember hpart)) rfl

end Tree

/-!
# Nodes and what they carry
-/

namespace Node

/-- The number of nodes of a tree. -/
def size (node : Node) : Nat :=
  node.fold fun _ payload => 1 + (payload.places.map Prod.snd).sum

/-- The values that the nodes of a tree carry beside their children: their
annotations, the values of unknown members, and the values of literals. -/
def attachments (node : Node) : List Json :=
  node.fold fun frame payload =>
    .object frame.metadata :: (frame.extra.map Prod.snd ++ payload.rawValues ++
      payload.places.flatMap Prod.snd)

variable {frame : Frame} {type : NodeType} {row : Row Node type.fields}

theorem size_ofRow :
    size (.mk frame (.ofRow type row)) =
      1 + ((Row.places type.fields row).map fun place => place.2.size).sum := by
  rw [size, fold_ofRow, Payload.places_ofRow, Row.places_map, List.map_map]
  rfl

theorem attachments_ofRow :
    attachments (.mk frame (.ofRow type row)) =
      .object frame.metadata :: (frame.extra.map Prod.snd ++
        Row.rawValues type.fields row ++
        (Row.places type.fields row).flatMap
          fun place => place.2.attachments) := by
  rw [attachments, fold_ofRow, Payload.places_ofRow, Payload.rawValues_ofRow,
    Row.rawValues_map, Row.places_map, List.flatMap_map]
  rfl

end Node

namespace Tree

/-!
# Counts in what is written
-/

theorem countTagged_ofBinary64 (x : Binary64) :
    countTagged (.ofBinary64 x) = 0 := by
  unfold Json.ofBinary64
  split <;> rfl

/-- In the member of a field there are the children and the raw values of the
field. -/
theorem sum_optionalMember (key : String) {content : Content}
    (x : content.Value Json) :
    ((optionalMember key (content.toJson? x)).map
        fun member => countTagged member.2).sum =
      ((content.places x).map fun place => countTagged place.2).sum +
        ((content.rawValues x).map countTagged).sum := by
  cases content with
  | text _ | flag _ | count _ | operator _ | loopType _ | child _ =>
      rfl
  | factor _ =>
      exact congrArg (· + 0) (countTagged_ofBinary64 x)
  | optionalText =>
      change Option String at x
      cases x <;> rfl
  | raw | optionalChild _ =>
      change Option Json at x
      cases x with
      | none =>
          rfl
      | some value =>
          simp [optionalMember, Content.toJson?, Content.places,
            Content.rawValues]
  | children role =>
      change List Json at x
      simp [optionalMember, Content.toJson?, Content.places, Content.rawValues,
        countTagged_array, Function.comp_def]

theorem sum_rowMembers {fields : List Field} (row : Row Json fields) :
    ((Row.members fields row).map fun member => countTagged member.2).sum =
      ((Row.places fields row).map fun place => countTagged place.2).sum +
        ((Row.rawValues fields row).map countTagged).sum := by
  induction fields with
  | nil =>
      rfl
  | cons field rest ih =>
      rcases row with ⟨x, xs⟩
      rw [Row.members, Row.places, Row.rawValues]
      simp only [List.map_append, List.sum_append, sum_optionalMember, ih]
      omega

theorem countTagged_location (location : Location) :
    countTagged location.toJson = 0 := by
  have hkind : location.members.hasKey "node_type" = false := by
    unfold Json.Members.hasKey
    rw [Location.get?_members]
    rfl
  have hpairs : forall pair, pair ∈ location.pairs ->
      countTagged pair.2 = 0 := by
    rcases location with ⟨line, column, endLine, endColumn⟩
    intro pair hpair
    cases endLine <;> cases endColumn <;>
      simp only [Location.pairs, optionalMember, Option.map_none,
        Option.map_some, List.append_nil, List.nil_append, List.cons_append,
        List.mem_cons, List.not_mem_nil, or_false] at hpair <;>
      rcases hpair with rfl | rfl | rfl | rfl <;> rfl
  rw [Location.toJson_eq, countTagged_object, hkind, if_neg Bool.false_ne_true,
    Nat.zero_add, List.sum_eq_zero_iff_forall_eq_nat]
  intro n hn
  rcases List.mem_map.mp hn with ⟨member, hmember, rfl⟩
  rcases Json.Members.mem_insertAll hmember with hnone | hpair
  · cases hnone
  · exact hpairs member hpair

section Nodes

variable {frame : Frame} {type : NodeType} {row : Row Json type.fields}

theorem sum_ownMembers :
    ((ownMembers frame type row).map fun member => countTagged member.2).sum =
      ((Row.places type.fields row).map fun place => countTagged place.2).sum +
        ((Row.rawValues type.fields row).map countTagged).sum +
        countTagged (.object frame.metadata) := by
  have hlocation : ((optionalMember "location"
      (frame.location.map Location.toJson)).map
        fun member => countTagged member.2).sum = 0 := by
    cases frame.location with
    | none =>
        rfl
    | some location =>
        exact countTagged_location location
  have hname : countTagged (.string type.name) = 0 := rfl
  rw [ownMembers]
  simp only [List.map_cons, List.map_append, List.sum_cons, List.sum_append,
    List.map_nil, List.sum_nil, hname, hlocation, sum_rowMembers]
  omega

/-- In a written node there are the node itself, its children, and what it
carries beside them. -/
theorem countTagged_nodeMembers (hextra : (frame.extra.map Prod.fst).Nodup)
    (hunknown : forall key, key ∈ type.modelledKeys ->
      frame.extra.hasKey key = false) :
    countTagged (.object (nodeMembers frame type row)) =
      1 + ((Row.places type.fields row).map
          fun place => countTagged place.2).sum +
        ((.object frame.metadata :: (frame.extra.map Prod.snd ++
          Row.rawValues type.fields row)).map countTagged).sum := by
  have hkind : (nodeMembers frame type row).hasKey "node_type" = true :=
    Json.Members.hasKey_iff.mpr ⟨_, get?_nodeMembers_kind⟩
  have hmembers : (nodeMembers frame type row).Perm
      (frame.extra ++ ownMembers frame type row) :=
    perm_nodeMembers hextra hunknown
  have hperm := (hmembers.map fun member => countTagged member.2).sum_nat
  rw [countTagged_object, hkind, if_pos rfl, hperm, List.map_append,
    List.sum_append, sum_ownMembers, List.map_cons, List.sum_cons,
    List.map_append, List.sum_append, List.map_map]
  simp only [Function.comp_def]
  omega

end Nodes

/-!
# Counts of trees
-/

theorem countTagged_encode {node : Node} (hordered : node.Ordered)
    (hwell : node.WellFormed) :
    countTagged (encode node) =
      node.size + (node.attachments.map countTagged).sum := by
  unfold Node.WellFormed at hwell
  induction hwell with
  | @mk frame payload here _ ih =>
      obtain ⟨type, row, rfl⟩ : exists type row, payload = .ofRow type row :=
        ⟨_, _, payload.ofRow_toRow.symm⟩
      rcases here with ⟨hunknown, _⟩
      rw [Payload.type_ofRow] at hunknown
      rw [Payload.places_ofRow] at ih
      rcases Node.everywhere_ofRow_iff.mp hordered with
        ⟨⟨_, hextra, _⟩, hbelow⟩
      rw [← Row.forall_places_iff] at hbelow
      have hkeys := (Json.ordered_object_iff.mp hextra).1.nodup_keys
      have hchildren : ((Row.places type.fields row).map
            fun place => countTagged (encode place.2)) =
          (Row.places type.fields row).map fun place =>
            place.2.size + (place.2.attachments.map countTagged).sum :=
        List.map_congr_left fun place hplace =>
          ih place hplace (hbelow place hplace)
      have hcarried : (((Row.places type.fields row).flatMap
            fun place => place.2.attachments).map countTagged).sum =
          ((Row.places type.fields row).map fun place =>
            (place.2.attachments.map countTagged).sum).sum := by
        rw [List.map_flatMap, List.flatMap_def, List.sum_flatten, List.map_map]
        rfl
      rw [encode_mk, countTagged_nodeMembers hkeys hunknown, Row.places_map,
        Row.rawValues_map, List.map_map, Node.size_ofRow,
        Node.attachments_ofRow]
      simp only [Function.comp_def, hchildren, hcarried, List.map_cons,
        List.map_append, List.sum_cons, List.sum_append, List.sum_map_add]
      omega

/-- The count of a tree that was read is the number of its nodes and, on top of
that, the number of all objects with a kind of node in what the nodes carry.  So
it is the number of nodes exactly if no such object stands there, at any
depth. -/
theorem countTagged_encode_eq_size_iff {role : Role} {value : Json}
    {node : Node} (hordered : value.Ordered)
    (hread : decode role value = .ok node) :
    countTagged (encode node) =
        node.size + (node.attachments.map countTagged).sum ∧
      (countTagged (encode node) = node.size ↔
        forall carried, carried ∈ node.attachments -> carried.Untagged) := by
  have hcount := countTagged_encode (ordered_of_decodes hread hordered)
    (wellFormed_of_decodes hread)
  refine ⟨hcount, ?_⟩
  rw [hcount, Nat.add_eq_left, List.sum_eq_zero_iff_forall_eq_nat,
    List.forall_mem_map]
  exact forall₂_congr fun carried _ => countTagged_eq_zero_iff

/-- A negated literal, whose value looks like a node with another one in its
name. -/
def negatedRecord : Json :=
  .object
    [("node_type", .string "unary_op"),
      ("operand", .object
        [("node_type", .string "literal"),
          ("value", .object
            [("name", .object [("node_type", .null)]),
              ("node_type", .string "variable")])]),
      ("operator", .string "-")]

theorem ordered_negatedRecord : negatedRecord.Ordered := by
  simp only [negatedRecord, Json.Ordered, Json.OrderedMembers]
  decide

/-- Two nodes are counted as four. -/
theorem countTagged_negatedRecord :
    negatedRecord.Ordered ∧
      exists node, decode .any negatedRecord = .ok node ∧ node.size = 2 ∧
        (node.attachments.map countTagged).sum = 2 ∧
        countTagged (encode node) = 2 + 2 := by
  have hread : exists node, decode .any negatedRecord = .ok node ∧
      node.size = 2 ∧ (node.attachments.map countTagged).sum = 2 :=
    ⟨_, rfl, rfl, rfl⟩
  rcases hread with ⟨node, hread, hsize, hcarried⟩
  have hcount :=
    (countTagged_encode_eq_size_iff ordered_negatedRecord hread).1
  rw [hsize, hcarried] at hcount
  exact ⟨ordered_negatedRecord, node, hread, hsize, hcarried, hcount⟩

/-- An annotation with the key of the kind of a node counts as a second node. -/
theorem countTagged_ne_size_of_annotated :
    exists node,
      decode .any
          (.object
            [("metadata", .object [("node_type", .string "y")]),
              ("name", .string "x"), ("node_type", .string "variable")]) =
        .ok node ∧
      node.size = 1 ∧ countTagged (encode node) = 2 :=
  ⟨_, rfl, rfl, rfl⟩

end Tree
end PseudocodeTools
