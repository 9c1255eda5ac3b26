import PseudocodeTools.Proofs.Json.Members
import PseudocodeTools.Proofs.Tree.Reading
import PseudocodeTools.Tree.Encode
/-!
# What is written

The members of a written node, by key: the kind, the place and the annotations
under their own keys, the value of each field under the key of the field, and
the unknown members under all other keys.
-/

namespace PseudocodeTools

/-!
# Folding rows
-/

namespace Node

variable {α : Type} (step : Frame -> Payload α -> α)

theorem foldList_eq_map (nodes : List Node) :
    foldList step nodes = nodes.map (fold step) := by
  induction nodes with
  | nil =>
      rfl
  | cons node rest ih =>
      simp [foldList, ih]

theorem foldOption_eq_map (node? : Option Node) :
    foldOption step node? = node?.map (fold step) := by
  cases node? <;> rfl

theorem foldPayload_eq_ofRow (payload : Payload Node) :
    foldPayload step payload =
      .ofRow payload.type (Row.map (fold step) _ payload.toRow) := by
  cases payload <;>
    simp only [foldPayload, foldList_eq_map, foldOption_eq_map] <;>
    rfl

theorem foldPayload_ofRow (type : NodeType) (row : Row Node type.fields) :
    foldPayload step (.ofRow type row) =
      .ofRow type (Row.map (fold step) type.fields row) := by
  rw [foldPayload_eq_ofRow]
  cases type <;> rfl

theorem fold_ofRow (frame : Frame) (type : NodeType)
    (row : Row Node type.fields) :
    fold step (.mk frame (.ofRow type row)) =
      step frame (.ofRow type (Row.map (fold step) type.fields row)) := by
  rw [fold, foldPayload_ofRow]

end Node

/-!
# Keys of fields
-/

theorem NodeType.nodup_modelledKeys (type : NodeType) :
    type.modelledKeys.Nodup := by
  cases type <;> decide

theorem NodeType.nodup_fieldKeys (type : NodeType) :
    (type.fields.map Field.key).Nodup :=
  (List.nodup_append.mp type.nodup_modelledKeys).2.1

theorem NodeType.mem_modelledKeys {type : NodeType} {field : Field}
    (hfield : field ∈ type.fields) :
    field.key ∈ type.modelledKeys :=
  List.mem_append_right _ (List.mem_map_of_mem hfield)

theorem NodeType.field_ne_common {type : NodeType} {field : Field}
    (hfield : field ∈ type.fields) {key : String} (hkey : key ∈ commonKeys) :
    field.key ≠ key := by
  intro heq
  have hdisjoint := (List.nodup_append.mp type.nodup_modelledKeys).2.2
  exact hdisjoint key hkey field.key (List.mem_map_of_mem hfield) heq.symm

/-!
# Members of a row
-/

theorem get?_optionalMember (k key : String) (value? : Option Json) :
    Json.Members.get? (optionalMember k value?) key =
      if key = k then value? else none := by
  cases value? <;> simp [optionalMember]

theorem Row.get?_members_of_notMem {fields : List Field} {row : Row Json fields}
    {key : String} (h : key ∉ fields.map Field.key) :
    Json.Members.get? (Row.members fields row) key = none := by
  induction fields with
  | nil =>
      rfl
  | cons field rest ih =>
      rcases row with ⟨x, xs⟩
      rw [List.map_cons, List.mem_cons, not_or] at h
      rw [Row.members, Json.Members.get?_append, get?_optionalMember,
        if_neg h.1, Option.none_or]
      exact ih h.2

theorem Row.get?_members {fields : List Field} (row : Row Json fields)
    (hnodup : (fields.map Field.key).Nodup) :
    Row.Forall
      (fun field x =>
        Json.Members.get? (Row.members fields row) field.key =
          field.content.toJson? x)
      fields row := by
  induction fields with
  | nil =>
      exact True.intro
  | cons field rest ih =>
      rcases row with ⟨x, xs⟩
      rw [List.map_cons, List.nodup_cons] at hnodup
      have hrest := ih xs hnodup.2
      constructor
      · dsimp only
        rw [Row.members, Json.Members.get?_append, get?_optionalMember,
          if_pos rfl, Row.get?_members_of_notMem hnodup.1, Option.or_none]
      · refine hrest.imp fun field' x' hmem hget => ?_
        have hne : field'.key ≠ field.key := by
          intro heq
          exact hnodup.1 (heq ▸ List.mem_map_of_mem hmem)
        rw [Row.members, Json.Members.get?_append, get?_optionalMember,
          if_neg hne, Option.none_or, hget]

theorem Row.keys_members_sublist {fields : List Field} (row : Row Json fields) :
    ((Row.members fields row).map Prod.fst).Sublist (fields.map Field.key) := by
  induction fields with
  | nil =>
      exact List.Sublist.refl _
  | cons field rest ih =>
      rcases row with ⟨x, xs⟩
      rw [Row.members, List.map_append, List.map_cons]
      cases field.content.toJson? x with
      | none =>
          exact (ih xs).cons field.key
      | some value =>
          exact (ih xs).cons_cons field.key

/-!
# Members of a place
-/

namespace Location

def pairs (location : Location) : Json.Members :=
  let word := fun n => Json.number (JsonNumber.ofUInt32 n)
  ("line", word location.line) :: ("column", word location.column) ::
    (optionalMember "end_line" (location.endLine.map word) ++
      optionalMember "end_column" (location.endColumn.map word))

def members (location : Location) : Json.Members :=
  Json.Members.insertAll [] location.pairs

theorem toJson_eq (location : Location) :
    location.toJson = .object location.members := rfl

theorem increasing_members (location : Location) :
    location.members.Increasing :=
  Json.Members.increasing_nil.insertAll _

theorem get?_members (location : Location) (key : String) :
    location.members.get? key =
      if key = "line" then some (.number (.ofUInt32 location.line))
      else if key = "column" then some (.number (.ofUInt32 location.column))
      else if key = "end_line" then
        location.endLine.map fun n => .number (.ofUInt32 n)
      else if key = "end_column" then
        location.endColumn.map fun n => .number (.ofUInt32 n)
      else none := by
  have hnodup : (location.pairs.map Prod.fst).Nodup := by
    rcases location with ⟨line, column, endLine, endColumn⟩
    cases endLine <;> cases endColumn <;> simp [pairs, optionalMember]
  rw [members, Json.Members.get?_insertAll hnodup, Json.Members.get?_nil,
    Option.or_none, pairs, Json.Members.get?_cons, Json.Members.get?_cons,
    Json.Members.get?_append, get?_optionalMember, get?_optionalMember]
  by_cases hline : key = "end_line"
  · simp [hline]
  · simp [hline]

end Location

namespace Tree

/-!
# Members of a node
-/

/-- The members that the grammar knows, in the order in which they are put
in. -/
def ownMembers (frame : Frame) (type : NodeType) (row : Row Json type.fields) :
    Json.Members :=
  ("node_type", .string type.name) ::
    (Row.members type.fields row ++
      optionalMember "location" (frame.location.map Location.toJson) ++
      [("metadata", .object frame.metadata)])

/-- All members of a node, in increasing order of keys. -/
def nodeMembers (frame : Frame) (type : NodeType) (row : Row Json type.fields) :
    Json.Members :=
  (Json.Members.insertAll [] (ownMembers frame type row)).insertAllMissing
    frame.extra

theorem nodeValue_ofRow (frame : Frame) (type : NodeType)
    (row : Row Json type.fields) :
    nodeValue frame (.ofRow type row) =
      .object (nodeMembers frame type row) := by
  cases type <;> rfl

theorem encode_mk (frame : Frame) (type : NodeType)
    (row : Row Node type.fields) :
    encode (.mk frame (.ofRow type row)) =
      .object (nodeMembers frame type (Row.map encode type.fields row)) := by
  rw [encode, Node.fold_ofRow, nodeValue_ofRow]
  rfl

theorem increasing_nodeMembers (frame : Frame) (type : NodeType)
    (row : Row Json type.fields) :
    (nodeMembers frame type row).Increasing :=
  (Json.Members.increasing_nil.insertAll _).insertAllMissing _

variable {frame : Frame} {type : NodeType} {row : Row Json type.fields}

theorem nodup_ownKeys :
    ((ownMembers frame type row).map Prod.fst).Nodup := by
  have hlocation : ((optionalMember "location"
      (frame.location.map Location.toJson)).map Prod.fst).Sublist
        ["location"] := by
    cases frame.location with
    | none =>
        exact List.nil_sublist _
    | some location =>
        exact List.Sublist.refl _
  have hsublist : ((ownMembers frame type row).map Prod.fst).Sublist
      ("node_type" :: (type.fields.map Field.key ++ ["location"] ++
        ["metadata"])) := by
    rw [ownMembers, List.map_cons, List.map_append, List.map_append]
    exact (((Row.keys_members_sublist row).append hlocation).append
      (List.Sublist.refl _)).cons_cons _
  refine hsublist.nodup ?_
  cases type <;> decide

theorem get?_nodeMembers (key : String) :
    (nodeMembers frame type row).get? key =
      (Json.Members.get? (ownMembers frame type row) key).or
        (frame.extra.get? key) := by
  rw [nodeMembers, Json.Members.get?_insertAllMissing,
    Json.Members.get?_insertAll nodup_ownKeys, Json.Members.get?_nil,
    Option.or_none]

theorem get?_ownMembers (key : String) :
    Json.Members.get? (ownMembers frame type row) key =
      if key = "node_type" then some (.string type.name)
      else
        ((Json.Members.get? (Row.members type.fields row) key).or
          (if key = "location" then frame.location.map Location.toJson
            else none)).or
          (if key = "metadata" then some (.object frame.metadata)
            else none) := by
  rw [ownMembers, Json.Members.get?_cons, Json.Members.get?_append,
    Json.Members.get?_append, get?_optionalMember, Json.Members.get?_cons,
    Json.Members.get?_nil]

theorem get?_row_common {key : String} (hkey : key ∈ commonKeys) :
    Json.Members.get? (Row.members type.fields row) key = none := by
  apply Row.get?_members_of_notMem
  intro hmem
  rcases List.mem_map.mp hmem with ⟨field, hfield, heq⟩
  exact NodeType.field_ne_common hfield hkey heq

theorem get?_nodeMembers_kind :
    (nodeMembers frame type row).get? "node_type" =
      some (.string type.name) := by
  rw [get?_nodeMembers, get?_ownMembers, if_pos rfl, Option.some_or]

theorem get?_nodeMembers_location :
    (nodeMembers frame type row).get? "location" =
      (frame.location.map Location.toJson).or
        (frame.extra.get? "location") := by
  rw [get?_nodeMembers, get?_ownMembers,
    get?_row_common (by decide : "location" ∈ commonKeys)]
  simp

theorem get?_nodeMembers_metadata :
    (nodeMembers frame type row).get? "metadata" =
      some (.object frame.metadata) := by
  rw [get?_nodeMembers, get?_ownMembers,
    get?_row_common (by decide : "metadata" ∈ commonKeys)]
  simp

theorem get?_nodeMembers_fields :
    Row.Forall
      (fun field x =>
        (nodeMembers frame type row).get? field.key =
          (field.content.toJson? x).or (frame.extra.get? field.key))
      type.fields row := by
  refine (Row.get?_members row type.nodup_fieldKeys).imp ?_
  intro field x hfield hget
  have hkind : field.key ≠ "node_type" :=
    NodeType.field_ne_common hfield (by decide)
  have hlocation : field.key ≠ "location" :=
    NodeType.field_ne_common hfield (by decide)
  have hmetadata : field.key ≠ "metadata" :=
    NodeType.field_ne_common hfield (by decide)
  rw [get?_nodeMembers, get?_ownMembers, if_neg hkind, if_neg hlocation,
    if_neg hmetadata, hget, Option.or_none, Option.or_none]

theorem get?_ownMembers_of_notMem {key : String}
    (hkey : key ∉ type.modelledKeys) :
    Json.Members.get? (ownMembers frame type row) key = none := by
  rw [NodeType.modelledKeys, List.mem_append, not_or] at hkey
  rcases hkey with ⟨hcommon, hfield⟩
  have hkind : key ≠ "node_type" :=
    fun heq => hcommon (by simp [heq, commonKeys])
  have hlocation : key ≠ "location" :=
    fun heq => hcommon (by simp [heq, commonKeys])
  have hmetadata : key ≠ "metadata" :=
    fun heq => hcommon (by simp [heq, commonKeys])
  rw [get?_ownMembers, if_neg hkind, if_neg hlocation,
    if_neg hmetadata, Row.get?_members_of_notMem hfield, Option.or_none,
    Option.or_none]

theorem get?_nodeMembers_extra {key : String}
    (hkey : key ∉ type.modelledKeys) :
    (nodeMembers frame type row).get? key = frame.extra.get? key := by
  rw [get?_nodeMembers, get?_ownMembers_of_notMem hkey, Option.none_or]

/-- A node without known keys among its unknown members is written with the
members of both kinds. -/
theorem perm_nodeMembers (hextra : (frame.extra.map Prod.fst).Nodup)
    (hunknown : forall key, key ∈ type.modelledKeys ->
      frame.extra.hasKey key = false) :
    (nodeMembers frame type row).Perm
      (frame.extra ++ ownMembers frame type row) := by
  have hnew : forall key, key ∈ frame.extra.map Prod.fst ->
      Json.Members.get? (Json.Members.insertAll [] (ownMembers frame type row))
        key = none := by
    intro key hkey
    have hnone : key ∉ type.modelledKeys := by
      intro hmem
      have hmissing : frame.extra.get? key = none := by
        simpa [Json.Members.hasKey] using hunknown key hmem
      exact Json.Members.get?_eq_none_iff.mp hmissing hkey
    rw [Json.Members.get?_insertAll nodup_ownKeys,
      get?_ownMembers_of_notMem hnone]
    rfl
  have hown : (Json.Members.insertAll [] (ownMembers frame type row)).Perm
      (ownMembers frame type row ++ []) :=
    Json.Members.perm_insertAll nodup_ownKeys fun _ _ => rfl
  rw [List.append_nil] at hown
  rw [nodeMembers, Json.Members.insertAllMissing_eq_insertAll hextra hnew]
  exact (Json.Members.perm_insertAll hextra hnew).trans (hown.append_left _)

end Tree
end PseudocodeTools
