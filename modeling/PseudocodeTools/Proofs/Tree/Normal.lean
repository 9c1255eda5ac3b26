import PseudocodeTools.Proofs.Tree.Parts
import PseudocodeTools.Proofs.Tree.Writing
/-!
# Normal form

What is left of a value that is read as a tree and written again.  Only nodes
change: null members of the grammar are dropped, missing ones get their
fallbacks, places and branching factors are put in their normal form, and all
other members stay as they are.
-/

namespace PseudocodeTools
namespace Tree

/-!
# Keys by kind
-/

/-- The keys of members that are nodes. -/
def nodeKeys : NodeType -> List String
  | .program => ["global_statements"]
  | .function => ["body"]
  | .loop =>
      ["iterator", "start", "end", "step", "collection", "condition", "body"]
  | .conditional => ["condition", "then_branch", "else_branch"]
  | .assignment => ["target", "value"]
  | .returning => ["value"]
  | .binary => ["left", "right"]
  | .unary => ["operand"]
  | .access => ["array", "index"]
  | .block | .call | .recursiveCall | .var | .literal => []

/-- The keys of members that are lists of nodes. -/
def listKeys : NodeType -> List String
  | .program => ["functions"]
  | .function => ["parameters"]
  | .block => ["statements"]
  | .conditional => ["elif_branches"]
  | .call | .recursiveCall => ["arguments"]
  | .loop | .assignment | .returning | .var | .literal | .binary | .unary
  | .access => []

/-- The keys of members without nodes, except for the value of a literal. -/
def leafKeys : NodeType -> List String
  | .function => ["name", "return_type", "is_recursive"]
  | .loop => ["loop_type", "estimated_iterations", "nesting_level"]
  | .assignment => ["operator"]
  | .call => ["function_name", "is_recursive"]
  | .recursiveCall =>
      ["function_name", "is_recursive", "reduction_pattern", "branching_factor"]
  | .var => ["name"]
  | .literal => ["literal_type"]
  | .binary | .unary => ["operator"]
  | .program | .block | .conditional | .returning | .access => []

/-- The keys of members that are dropped when they are null. -/
def nullableKeys (type : NodeType) : List String :=
  "location" :: "metadata" :: (nodeKeys type ++ listKeys type ++ leafKeys type)

/-- The members that are written for missing ones. -/
def fallbacks : NodeType -> Json.Members
  | .program => [("functions", .array [])]
  | .function => [("parameters", .array []), ("is_recursive", .boolean false)]
  | .block => [("statements", .array [])]
  | .loop =>
      [("loop_type", .string "for"), ("nesting_level", .number (.ofUInt32 0))]
  | .conditional => [("elif_branches", .array [])]
  | .assignment => [("operator", .string "=")]
  | .call => [("arguments", .array []), ("is_recursive", .boolean false)]
  | .recursiveCall =>
      [("arguments", .array []), ("is_recursive", .boolean false),
        ("branching_factor", .ofBinary64 Binary64.one)]
  | .literal => [("literal_type", .string "unknown")]
  | .returning | .var | .binary | .unary | .access => []

/-!
# Normal form
-/

def locationKeys : List String :=
  ["line", "column", "end_line", "end_column"]

def normalLocation : Json -> Json
  | .object members =>
      .object <| members.filter fun (key, value) =>
        locationKeys.contains key && !value.isNull
  | other => other

def normalFactor : Json -> Json
  | .number m => .ofBinary64 m.toBinary64
  | other => other

/-- A member of a node, given what it is as a node and as a list of nodes. -/
def normalMember (type : NodeType) (key : String) (value node nodes : Json) :
    Json :=
  if key = "location" then normalLocation value
  else if type = .recursiveCall ∧ key = "branching_factor" then
    normalFactor value
  else if key ∈ nodeKeys type then node
  else if key ∈ listKeys type then nodes
  else value

def kindOf? (members : Json.Members) : Option NodeType :=
  match members.get? "node_type" with
  | some (.string name) => NodeType.ofName? name
  | _ => none

mutual
/-- The value that a node is written as after it was read. -/
def normal : Json -> Json
  | .object members =>
      match kindOf? members with
      | none => .object members
      | some type =>
          .object <| Json.Members.insertAllMissing (normalMembers type members)
            (("metadata", .object []) :: fallbacks type)
  | .null => .null
  | .boolean b => .boolean b
  | .number n => .number n
  | .string s => .string s
  | .array items => .array items
termination_by structural value => value

def normalArray : Json -> Json
  | .array items => .array (normalItems items)
  | .null => .null
  | .boolean b => .boolean b
  | .number n => .number n
  | .string s => .string s
  | .object members => .object members
termination_by structural value => value

def normalItems : List Json -> List Json
  | [] => []
  | item :: rest => normal item :: normalItems rest
termination_by structural items => items

def normalMembers (type : NodeType) : List (String × Json) ->
    List (String × Json)
  | [] => []
  | (key, value) :: rest =>
      if value.isNull && (nullableKeys type).contains key then
        normalMembers type rest
      else
        (key, normalMember type key value (normal value) (normalArray value)) ::
          normalMembers type rest
termination_by structural members => members
end

theorem normalItems_eq_map (items : List Json) :
    normalItems items = items.map normal := by
  induction items with
  | nil =>
      rfl
  | cons item rest ih =>
      rw [normalItems, ih, List.map_cons]

/-!
# Members of a normal form
-/

section Members

variable {type : NodeType} {members : Json.Members}

theorem keys_normalMembers_sublist :
    ((normalMembers type members).map Prod.fst).Sublist
      (members.map Prod.fst) := by
  induction members with
  | nil =>
      exact List.Sublist.refl _
  | cons member rest ih =>
      rcases member with ⟨key, value⟩
      rw [normalMembers]
      split
      · exact ih.cons key
      · exact ih.cons_cons key

theorem increasing_normalMembers (h : members.Increasing) :
    Json.Members.Increasing (normalMembers type members) := by
  have hkeys : (members.map Prod.fst).Pairwise (· < ·) :=
    List.pairwise_map.mpr h
  exact List.pairwise_map.mp (hkeys.sublist keys_normalMembers_sublist)

/-- What becomes of a member: nothing if it is null and the grammar knows its
key. -/
def normalMember? (type : NodeType) (key : String) (value : Json) :
    Option Json :=
  if value.isNull && (nullableKeys type).contains key then none
  else some (normalMember type key value (normal value) (normalArray value))

theorem get?_normalMembers (h : (members.map Prod.fst).Nodup) (key : String) :
    Json.Members.get? (normalMembers type members) key =
      (members.get? key).bind (normalMember? type key) := by
  induction members with
  | nil =>
      rfl
  | cons member rest ih =>
      rcases member with ⟨k, value⟩
      rw [List.map_cons, List.nodup_cons] at h
      rw [normalMembers, Json.Members.get?_cons]
      by_cases hkey : key = k
      · subst hkey
        rw [if_pos rfl, Option.bind_some, normalMember?]
        split
        · rw [ih h.2, Json.Members.get?_eq_none_iff.mpr h.1, Option.bind_none]
        · rw [Json.Members.get?_cons, if_pos rfl]
      · rw [if_neg hkey]
        split
        · exact ih h.2
        · rw [Json.Members.get?_cons, if_neg hkey]
          exact ih h.2

/-- What is found under a key of a normal form. -/
def normalGet? (type : NodeType) (members : Json.Members) (key : String) :
    Option Json :=
  ((members.get? key).bind (normalMember? type key)).or
    (Json.Members.get? (("metadata", .object []) :: fallbacks type) key)

theorem get?_normal (h : (members.map Prod.fst).Nodup) (key : String) :
    (Json.Members.insertAllMissing (normalMembers type members)
        (("metadata", .object []) :: fallbacks type)).get? key =
      normalGet? type members key := by
  rw [Json.Members.get?_insertAllMissing, get?_normalMembers h, normalGet?]

end Members

/-!
# Keys of the grammar
-/

def normalValue (value node nodes : Json) : Content -> Json
  | .factor _ => normalFactor value
  | .child _ | .optionalChild _ => node
  | .children _ => nodes
  | _ => value

def fallback? : Content -> Option Json
  | .text s? => s?.map .string
  | .flag b => some (.boolean b)
  | .count n => some (.number (.ofUInt32 n))
  | .factor x => some (.ofBinary64 x)
  | .operator op? => op?.map fun op => .string op.name
  | .loopType type => some (.string type.name)
  | .children _ => some (.array [])
  | .optionalText | .raw | .child _ | .optionalChild _ => none

section Keys

variable {type : NodeType}

theorem get?_fallbacks_field {field : Field} (hfield : field ∈ type.fields) :
    (fallbacks type).get? field.key = fallback? field.content := by
  revert field
  cases type <;> simp [NodeType.fields, fallbacks, fallback?] <;> rfl

theorem mem_nullableKeys_field_iff {field : Field}
    (hfield : field ∈ type.fields) :
    field.key ∈ nullableKeys type ↔ field.content ≠ .raw := by
  revert field
  cases type <;> decide

theorem normalMember_field {field : Field} (hfield : field ∈ type.fields)
    (value node nodes : Json) :
    normalMember type field.key value node nodes =
      normalValue value node nodes field.content := by
  revert field
  cases type <;>
    simp [NodeType.fields, normalMember, normalValue, nodeKeys, listKeys]

theorem mem_modelledKeys_of_mem_nullableKeys {key : String}
    (h : key ∈ nullableKeys type) :
    key ∈ type.modelledKeys := by
  revert key
  cases type <;> decide

theorem mem_modelledKeys_of_get?_fallbacks {key : String} {value : Json}
    (h : (fallbacks type).get? key = some value) :
    key ∈ type.modelledKeys := by
  have hkeys : forall key, key ∈ (fallbacks type).map Prod.fst ->
      key ∈ type.modelledKeys := by
    cases type <;> simp [fallbacks, NodeType.modelledKeys, NodeType.fields]
  exact hkeys key (List.mem_map_of_mem (Json.Members.mem_of_get? h))

theorem normalMember_of_notMem {key : String} (hkey : key ∉ type.modelledKeys)
    (value node nodes : Json) :
    normalMember type key value node nodes = value := by
  have hlocation : key ≠ "location" := by
    intro heq
    exact hkey (by simp [heq, NodeType.modelledKeys, commonKeys])
  have hnullable : key ∉ nullableKeys type := by
    intro hmem
    exact hkey (mem_modelledKeys_of_mem_nullableKeys hmem)
  have hfactor : ¬ (type = .recursiveCall ∧ key = "branching_factor") := by
    intro h
    rcases h with ⟨rfl, rfl⟩
    exact hkey (by decide)
  simp only [nullableKeys, List.mem_cons, List.mem_append, not_or] at hnullable
  rw [normalMember, if_neg hlocation, if_neg hfactor, if_neg hnullable.2.2.1.1,
    if_neg hnullable.2.2.1.2]

end Keys

/-!
# Values of fields
-/

theorem toJson?_of_fallback {content : Content} {x : content.Value Node}
    (h : content.Fallback x) :
    content.toJson? (content.map encode x) = fallback? content := by
  cases content with
  | text fallback | operator fallback =>
      change fallback = some x at h
      rw [h]
      rfl
  | optionalText | flag fallback | count fallback | factor fallback
  | loopType fallback | raw | optionalChild role | children role =>
      change x = _ at h
      rw [h]
      rfl
  | child role =>
      cases h

theorem map_encode_of_forall₂ {role : Role} {items : List Json}
    {nodes : List Node} (h : List.Forall₂ (Decodes role) items nodes)
    (heach : forall item node, item ∈ items -> Decodes role item node ->
      encode node = normal item) :
    nodes.map encode = items.map normal := by
  induction h with
  | nil =>
      rfl
  | cons hhead _ ih =>
      rw [List.map_cons, List.map_cons, heach _ _ List.mem_cons_self hhead,
        ih fun item node hitem =>
          heach item node (List.mem_cons_of_mem _ hitem)]

section Reads

variable {members : Json.Members}
  (hbelow : forall role part node, members.Holds part ->
    Decodes role part node -> encode node = normal part)

include hbelow

theorem toJson?_of_spells {key : String} {value : Json} {content : Content}
    {x : content.Value Node} (hget : members.get? key = some value)
    (h : content.Spells Decodes value x) :
    content.toJson? (content.map encode x) =
      some (normalValue value (normal value) (normalArray value) content) := by
  cases content with
  | text _ | flag _ | count _ | operator _ | loopType _ =>
      change value = _ at h
      rw [h]
      rfl
  | raw =>
      exact h
  | optionalText =>
      rcases h with ⟨s, hx, hvalue⟩
      rw [hx, hvalue]
      rfl
  | factor _ =>
      rcases h with ⟨m, hvalue, hx⟩
      rw [hx, hvalue]
      rfl
  | child role =>
      have hnode := hbelow role value x ⟨key, value, hget, Or.inl rfl⟩ h
      exact congrArg some hnode
  | optionalChild role =>
      rcases h with ⟨node, hx, hread⟩
      have hnode := hbelow role value node ⟨key, value, hget, Or.inl rfl⟩ hread
      rw [hx]
      exact congrArg some hnode
  | children role =>
      rcases h with ⟨items, rfl, hnodes⟩
      have heach := map_encode_of_forall₂ hnodes fun item node hitem =>
        hbelow role item node ⟨key, _, hget, Or.inr ⟨items, rfl, hitem⟩⟩
      change some (Json.array (List.map encode x)) =
        some (Json.array (normalItems items))
      rw [heach, normalItems_eq_map]

/-- The member written for a field that was read: the normal form of the one
that was given, or else the fallback. -/
theorem toJson?_of_reads {key : String} {content : Content}
    {x : content.Value Node} (h : content.Reads Decodes members key x) :
    content.toJson? (content.map encode x) =
      ((content.given members key).map fun value =>
        normalValue value (normal value) (normalArray value) content).or
        (fallback? content) := by
  rcases Content.reads_iff.mp h with ⟨hgiven, hfallback⟩ |
    ⟨value, hgiven, hspells⟩
  · rw [hgiven]
    exact toJson?_of_fallback hfallback
  · rw [hgiven]
    exact toJson?_of_spells hbelow (get?_of_given hgiven) hspells

end Reads

/-!
# Normal forms of nodes
-/

section Bind

variable {type : NodeType} {members : Json.Members} {key : String}
  {f : Json -> Json}
  (hmember : forall value,
    normalMember type key value (normal value) (normalArray value) = f value)

include hmember

theorem bind_normalMember?_of_nullable (hkey : key ∈ nullableKeys type) :
    (members.get? key).bind (normalMember? type key) =
      (present? members key).map f := by
  unfold present?
  cases members.get? key with
  | none =>
      rfl
  | some value =>
      cases hnull : value.isNull <;>
        simp [normalMember?, Option.filter, hnull, hkey, hmember]

theorem bind_normalMember?_of_not_nullable (hkey : key ∉ nullableKeys type) :
    (members.get? key).bind (normalMember? type key) =
      (members.get? key).map f := by
  cases members.get? key with
  | none =>
      rfl
  | some value =>
      simp [normalMember?, hkey, hmember]

end Bind

theorem bind_normalMember?_field {type : NodeType} {field : Field}
    (hfield : field ∈ type.fields) (members : Json.Members) :
    (members.get? field.key).bind (normalMember? type field.key) =
      (field.content.given members field.key).map fun value =>
        normalValue value (normal value) (normalArray value) field.content := by
  have hnullable := mem_nullableKeys_field_iff hfield
  have hmember := fun value =>
    normalMember_field hfield value (normal value) (normalArray value)
  rcases field with ⟨key, content⟩
  cases content with
  | raw =>
      refine bind_normalMember?_of_not_nullable hmember ?_
      intro hkey
      exact hnullable.mp hkey rfl
  | text _ | optionalText | flag _ | count _ | factor _ | operator _
  | loopType _ | child _ | optionalChild _ | children _ =>
      exact bind_normalMember?_of_nullable hmember
        (hnullable.mpr (by simp))

theorem normalLocation_eq {inner : Json.Members} {location : Location}
    (hordered : (Json.object inner).Ordered)
    (h : SpellsLocation inner location) :
    normalLocation (.object inner) = location.toJson := by
  have hkeys := (Json.ordered_object_iff.mp hordered).1
  rw [normalLocation, Location.toJson_eq, Json.object.injEq]
  refine (hkeys.filter _).ext location.increasing_members ?_
  intro key
  rw [Json.Members.get?_filter_of_nodup hkeys.nodup_keys, Location.get?_members]
  rcases h with ⟨hline, hcolumn, hendLine, hendColumn⟩
  by_cases hkey : key ∈ locationKeys
  · have hpresent : (inner.get? key).filter (fun value =>
        locationKeys.contains key && !value.isNull) = present? inner key := by
      simp [present?, hkey]
    rw [hpresent]
    simp only [locationKeys, List.mem_cons, List.not_mem_nil, or_false] at hkey
    rcases hkey with rfl | rfl | rfl | rfl
    · exact hline
    · exact hcolumn
    · exact hendLine
    · exact hendColumn
  · have hnone : (inner.get? key).filter (fun value =>
        locationKeys.contains key && !value.isNull) = none := by
      simp [hkey]
    rw [hnone]
    simp only [locationKeys, List.mem_cons, List.not_mem_nil, or_false,
      not_or] at hkey
    rw [if_neg hkey.1, if_neg hkey.2.1, if_neg hkey.2.2.1, if_neg hkey.2.2.2]

section Nodes

variable {role : Role} {members : Json.Members} {frame : Frame}
  {type : NodeType} {row : Row Node type.fields}

theorem get?_extra_of_spells (h : SpellsNode role members frame type row)
    (key : String) :
    frame.extra.get? key =
      if key ∈ type.modelledKeys then none else members.get? key := by
  have hget := Json.Members.get?_filter members
    (fun key => !type.modelledKeys.contains key) key
  rw [h.extra, extraMembers, hget]
  by_cases hkey : key ∈ type.modelledKeys <;> simp [hkey]

theorem get?_normal_kind (h : SpellsNode role members frame type row) :
    (members.get? "node_type").bind (normalMember? type "node_type") =
      some (.string type.name) := by
  have hmember : forall value,
      normalMember type "node_type" value (normal value) (normalArray value) =
        value := by
    intro value
    cases type <;> simp [normalMember, nodeKeys, listKeys]
  have hkey : "node_type" ∉ nullableKeys type := by
    cases type <;> decide
  rw [bind_normalMember?_of_not_nullable hmember hkey, h.kind, Option.map_some]

theorem get?_normal_location (h : SpellsNode role members frame type row)
    (hordered : (Json.object members).Ordered) :
    (members.get? "location").bind (normalMember? type "location") =
      frame.location.map Location.toJson := by
  have hmember : forall value,
      normalMember type "location" value (normal value) (normalArray value) =
        normalLocation value := fun value => if_pos rfl
  rw [bind_normalMember?_of_nullable hmember (List.mem_cons_self)]
  rcases h.location with ⟨hnone, hframe⟩ |
    ⟨inner, location, hsome, hframe, hspells⟩
  · rw [hnone, hframe]
    rfl
  · have hinner := hordered.member (get?_of_present? hsome)
    rw [hsome, hframe, Option.map_some, Option.map_some,
      normalLocation_eq hinner hspells]

theorem get?_normal_metadata (h : SpellsNode role members frame type row) :
    ((members.get? "metadata").bind (normalMember? type "metadata")).or
        (some (.object [])) =
      some (.object frame.metadata) := by
  have hmember : forall value,
      normalMember type "metadata" value (normal value) (normalArray value) =
        value := by
    intro value
    cases type <;> simp [normalMember, nodeKeys, listKeys]
  have hkey : "metadata" ∈ nullableKeys type := by
    simp [nullableKeys]
  rw [bind_normalMember?_of_nullable hmember hkey]
  rcases h.metadata with ⟨hnone, hframe⟩ | hsome
  · rw [hnone, hframe]
    rfl
  · rw [hsome]
    rfl

theorem normalGet?_common (h : SpellsNode role members frame type row)
    (hordered : (Json.object members).Ordered) {key : String}
    (hkey : key ∈ commonKeys) :
    (nodeMembers frame type (Row.map encode _ row)).get? key =
      normalGet? type members key := by
  simp only [commonKeys, List.mem_cons, List.not_mem_nil, or_false] at hkey
  unfold normalGet?
  rcases hkey with rfl | rfl | rfl
  · rw [get?_nodeMembers_kind, get?_normal_kind h, Option.some_or]
  · have hextra : frame.extra.get? "location" = none := by
      rw [get?_extra_of_spells h, if_pos]
      simp [NodeType.modelledKeys, commonKeys]
    have hfallback : Json.Members.get?
        (("metadata", .object []) :: fallbacks type) "location" = none := by
      cases type <;> rfl
    rw [get?_nodeMembers_location, get?_normal_location h hordered, hextra,
      hfallback]
  · rw [get?_nodeMembers_metadata, Json.Members.get?_cons, if_pos rfl,
      get?_normal_metadata h]

theorem normalGet?_field (h : SpellsNode role members frame type row)
    (hbelow : forall role part node, members.Holds part ->
      Decodes role part node -> encode node = normal part) {field : Field}
    (hfield : field ∈ type.fields) :
    (nodeMembers frame type (Row.map encode _ row)).get? field.key =
      normalGet? type members field.key := by
  have hextra : frame.extra.get? field.key = none := by
    rw [get?_extra_of_spells h, if_pos (NodeType.mem_modelledKeys hfield)]
  have hne : field.key ≠ "metadata" :=
    NodeType.field_ne_common hfield (by decide)
  have hwritten := Row.forall_map.mp
    (@get?_nodeMembers_fields frame type (Row.map encode type.fields row))
  rcases Row.exists_forall_iff.mp ⟨row, hwritten.and h.fields⟩ field hfield with
    ⟨x, hget, hreads⟩
  unfold normalGet?
  rw [hget, hextra, Option.or_none, toJson?_of_reads hbelow hreads,
    bind_normalMember?_field hfield, Json.Members.get?_cons, if_neg hne,
    get?_fallbacks_field hfield]

theorem normalGet?_extra (h : SpellsNode role members frame type row)
    {key : String} (hkey : key ∉ type.modelledKeys) :
    (nodeMembers frame type (Row.map encode _ row)).get? key =
      normalGet? type members key := by
  have hnullable : key ∉ nullableKeys type := by
    intro hmem
    exact hkey (mem_modelledKeys_of_mem_nullableKeys hmem)
  have hmember : forall value,
      normalMember type key value (normal value) (normalArray value) = value :=
    fun value => normalMember_of_notMem hkey value _ _
  have hne : key ≠ "metadata" := by
    intro heq
    exact hkey (by simp [heq, NodeType.modelledKeys, commonKeys])
  have hfallback : Json.Members.get? (fallbacks type) key = none := by
    cases hget : Json.Members.get? (fallbacks type) key with
    | none =>
        rfl
    | some value =>
        exact absurd (mem_modelledKeys_of_get?_fallbacks hget) hkey
  unfold normalGet?
  rw [get?_nodeMembers_extra hkey, get?_extra_of_spells h, if_neg hkey,
    bind_normalMember?_of_not_nullable hmember hnullable, Option.map_id',
    Json.Members.get?_cons, if_neg hne, hfallback, Option.or_none]

/-- A written node has the members of the normal form. -/
theorem get?_nodeMembers_of_spells
    (h : SpellsNode role members frame type row)
    (hordered : (Json.object members).Ordered)
    (hbelow : forall role part node, members.Holds part ->
      Decodes role part node -> encode node = normal part) (key : String) :
    (nodeMembers frame type (Row.map encode _ row)).get? key =
      normalGet? type members key := by
  by_cases hkey : key ∈ type.modelledKeys
  · rcases List.mem_append.mp hkey with hcommon | hfield
    · exact normalGet?_common h hordered hcommon
    · rcases List.mem_map.mp hfield with ⟨field, hmem, rfl⟩
      exact normalGet?_field h hbelow hmem
  · exact normalGet?_extra h hkey

end Nodes

/-- Reading and writing again loses nothing but what the normal form drops. -/
theorem encode_decode_eq_normal {role : Role} {value : Json} {node : Node}
    (hordered : value.Ordered) (hread : decode role value = .ok node) :
    encode node = normal value := by
  refine decodes_induction
    (motive := fun _ value node => value.Ordered -> encode node = normal value)
    ?_ hread hordered
  intro role members frame type row hspells ih hobject
  have hkind : kindOf? members = some type := by
    unfold kindOf?
    rw [hspells.kind]
    exact type.ofName?_name
  have hbelow : forall role part node, members.Holds part ->
      Decodes role part node -> encode node = normal part := by
    intro role' part node hheld hpart
    exact ih part role' node hheld hpart (hheld.ordered hobject)
  have hkeys := (Json.ordered_object_iff.mp hobject).1
  rw [encode_mk, normal, hkind]
  refine congrArg Json.object (Json.Members.Increasing.ext
    (increasing_nodeMembers frame type _)
    ((increasing_normalMembers hkeys).insertAllMissing _) ?_)
  intro key
  rw [get?_normal hkeys.nodup_keys]
  exact get?_nodeMembers_of_spells hspells hobject hbelow key

/-- A literal null with a null annotation that the grammar does not know, in an
assignment without a target. -/
def nullAssignment : Json :=
  .object
    [("location", .object
        [("column", .number (.ofUInt32 4)), ("end_line", .null),
          ("file", .string "a"), ("line", .number (.ofUInt32 2))]),
      ("node_type", .string "assignment"),
      ("note", .null),
      ("target", .null),
      ("value", .object
        [("literal_type", .null), ("node_type", .string "literal"),
          ("value", .null)])]

theorem encode_nullAssignment :
    exists node, decode .any nullAssignment = .ok node ∧
      encode node =
        .object
          [("location", .object
              [("column", .number (.ofUInt32 4)),
                ("line", .number (.ofUInt32 2))]),
            ("metadata", .object []),
            ("node_type", .string "assignment"),
            ("note", .null),
            ("operator", .string "="),
            ("value", .object
              [("literal_type", .string "unknown"), ("metadata", .object []),
                ("node_type", .string "literal"), ("value", .null)])] := by
  have hordered : nullAssignment.Ordered := by
    simp only [nullAssignment, Json.Ordered, Json.OrderedMembers]
    decide
  have hread : exists node, decode .any nullAssignment = .ok node := ⟨_, rfl⟩
  rcases hread with ⟨node, hread⟩
  refine ⟨node, hread, ?_⟩
  rw [encode_decode_eq_normal hordered hread]
  rfl

end Tree
end PseudocodeTools
