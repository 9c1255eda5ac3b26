import Mathlib.Data.List.Nodup
import PseudocodeTools.Proofs.Tree.Change
import PseudocodeTools.Proofs.Tree.Writing
/-!
# Unknown members

A member that the grammar has no use for is kept in the frame of its node and
does nothing else: wherever it is put into a value, the tree that is read is the
same but for that frame, and a fault is the same fault.  A change of one part of
a value is followed on its way up, node by node.
-/

namespace PseudocodeTools
namespace Tree

/-!
# Objects that differ in one member
-/

/-- The members are the same under all keys but one. -/
def SameBeside (key : String) (members changed : Json.Members) : Prop :=
  forall k, k ≠ key -> changed.get? k = members.get? k

section SameBeside

variable {key : String} {members changed : Json.Members} {type : NodeType}
  {F : Node -> Node}

theorem SameBeside.present?_eq (h : SameBeside key members changed) {k : String}
    (hne : k ≠ key) :
    present? changed k = present? members k := by
  unfold present?
  rw [h k hne]

theorem SameBeside.fieldValue_eq (h : SameBeside key members changed)
    {k : String} (hne : k ≠ key) (path : Path) (content : Content) :
    fieldValue (withReaders changed) path k content =
      fieldValue (withReaders members) path k content := by
  have hlookup : (withReaders changed).lookup k =
      (withReaders members).lookup k := by
    rw [lookup_withReaders, lookup_withReaders, h k hne]
  unfold fieldValue presentChild?
  rw [hlookup]

/-- If only the field with the key is read differently, only its value in the
row is different. -/
theorem SameBeside.rowValues_eq_map (h : SameBeside key members changed)
    {f : (content : Content) -> content.Value Node -> content.Value Node}
    {fields : List Field} (path : Path)
    (hfield : forall field, field ∈ fields -> field.key = key ->
      fieldValue (withReaders changed) (path ++ [.key field.key]) field.key
          field.content =
        (fieldValue (withReaders members) (path ++ [.key field.key]) field.key
          field.content).map (f field.content)) :
    rowValues (withReaders changed) path fields =
      (rowValues (withReaders members) path fields).map
        (Row.mapField key f fields) := by
  induction fields with
  | nil =>
      rfl
  | cons field rest ih =>
      rcases List.forall_mem_cons.mp hfield with ⟨hfirst, hbehind⟩
      have hvalue : fieldValue (withReaders changed) (path ++ [.key field.key])
            field.key field.content =
          (fieldValue (withReaders members) (path ++ [.key field.key]) field.key
            field.content).map fun x =>
              if field.key = key then f field.content x else x := by
        by_cases hkey : field.key = key
        · simp only [hkey, if_true] at hfirst ⊢
          exact hfirst trivial
        · simp only [hkey, if_false]
          rw [h.fieldValue_eq hkey]
          cases fieldValue (withReaders members) (path ++ [.key field.key])
            field.key field.content <;> rfl
      rw [rowValues, rowValues, hvalue, ih hbehind]
      cases fieldValue (withReaders members) (path ++ [.key field.key])
          field.key field.content with
      | error fault =>
          rfl
      | ok x =>
          cases rowValues (withReaders members) path rest <;> rfl

theorem SameBeside.nodeOfKind_eq_map (h : SameBeside key members changed)
    (hkey : key ∉ commonKeys) {f : Row Node type.fields -> Row Node type.fields}
    (hrow : rowValues (withReaders changed) [] type.fields =
      (rowValues (withReaders members) [] type.fields).map f)
    (hnode : forall location metadata row,
      F (.mk ⟨location, metadata, extraMembers type members⟩
          (.ofRow type row)) =
        .mk ⟨location, metadata, extraMembers type changed⟩
          (.ofRow type (f row))) :
    nodeOfKind type changed (withReaders changed) [] =
      (nodeOfKind type members (withReaders members) []).map F := by
  have hlocation : "location" ≠ key := fun heq => hkey (heq ▸ by decide)
  have hmetadata : "metadata" ≠ key := fun heq => hkey (heq ▸ by decide)
  unfold nodeOfKind
  rw [h.present?_eq hlocation, h.present?_eq hmetadata, hrow]
  cases location? ([] ++ [.key "location"]) (present? members "location") with
  | error fault =>
      rfl
  | ok location =>
      cases metadata ([] ++ [.key "metadata"])
          (present? members "metadata") with
      | error fault =>
          rfl
      | ok entries =>
          cases rowValues (withReaders members) [] type.fields with
          | error fault =>
              rfl
          | ok row =>
              exact congrArg Except.ok (hnode location entries row).symm

/-- The kind of the node and the role are the same, so what matters is how nodes
of the kind that is named are read. -/
theorem SameBeside.decode_eq_map (h : SameBeside key members changed)
    (hkey : key ∉ commonKeys) (role : Role)
    (hnode : forall type : NodeType,
      members.get? "node_type" = some (.string type.name) ->
      nodeOfKind type changed (withReaders changed) [] =
        (nodeOfKind type members (withReaders members) []).map F) :
    decode role (.object changed) =
      (decode role (.object members)).map F := by
  have hkind : "node_type" ≠ key := fun heq => hkey (heq ▸ by decide)
  have htype : nodeType changed [] = nodeType members [] := by
    unfold nodeType
    rw [h _ hkind]
  change nodeOfMembers changed (withReaders changed) role [] =
    (nodeOfMembers members (withReaders members) role []).map F
  unfold nodeOfMembers
  rw [htype]
  cases hread : nodeType members [] with
  | error fault =>
      rfl
  | ok type =>
      change (if role.admits type = true then _ else _) =
        (if role.admits type = true then _ else _ : Except TreeFault Node).map F
      by_cases hadmits : role.admits type = true
      · rw [if_pos hadmits, if_pos hadmits, Role.readKind_of_admits hadmits]
        exact hnode type (nodeType_eq_ok_iff.mp hread)
      · rw [if_neg hadmits, if_neg hadmits]
        rfl

end SameBeside

/-!
# A member put in
-/

/-- The node with the given members has no use for a key. -/
def IsUnknownKey (members : Json.Members) (key : String) : Prop :=
  key ∉ commonKeys ∧
    forall type : NodeType,
      members.get? "node_type" = some (.string type.name) ->
      key ∉ type.fields.map Field.key

theorem sameBeside_insert (members : Json.Members) (key : String) (x : Json) :
    SameBeside key members (members.insert key x) := by
  intro k hne
  rw [Json.Members.get?_insert, if_neg hne]

theorem extraMembers_insert {type : NodeType} {members : Json.Members}
    {key : String} (hmembers : members.Increasing)
    (hkey : key ∉ type.modelledKeys) (x : Json) :
    extraMembers type (members.insert key x) =
      (extraMembers type members).insert key x := by
  have hget : forall (ms : Json.Members) (k : String),
      (extraMembers type ms).get? k =
        if !type.modelledKeys.contains k then ms.get? k else none :=
    fun ms k => Json.Members.get?_filter ms
      (fun k => !type.modelledKeys.contains k) k
  refine Json.Members.Increasing.ext ((hmembers.insert key x).filter _)
    ((hmembers.filter _).insert key x) fun k => ?_
  have hunknown : type.modelledKeys.contains key = false := by
    simpa using hkey
  rw [hget, Json.Members.get?_insert, Json.Members.get?_insert]
  by_cases hk : k = key
  · rw [hk, if_pos rfl, if_pos rfl, hunknown]
    rfl
  · rw [if_neg hk, if_neg hk]
    exact (hget members k).symm

theorem decode_insert {members : Json.Members} {key : String}
    (hmembers : members.Increasing) (hkey : IsUnknownKey members key)
    (role : Role) (x : Json) :
    decode role (.object (members.insert key x)) =
      (decode role (.object members)).map (Node.addExtra key x) := by
  have hsame := sameBeside_insert members key x
  refine hsame.decode_eq_map hkey.1 role fun type htype => ?_
  have hfields := hkey.2 type htype
  refine hsame.nodeOfKind_eq_map hkey.1
    (f := Row.mapField key (fun _ y => y) type.fields) ?_ ?_
  · refine hsame.rowValues_eq_map [] fun field hfield heq => ?_
    exact (hfields (heq ▸ List.mem_map_of_mem hfield)).elim
  · intro location entries row
    have hunknown : key ∉ type.modelledKeys := fun hmem =>
      (List.mem_append.mp hmem).elim hkey.1 hfields
    rw [Row.mapField_of_notMem hfields, extraMembers_insert hmembers hunknown]
    rfl

/-!
# A child changed
-/

/-- A node has one kind. -/
theorem type_eq_of_tagged {members : Json.Members} {type type' : NodeType}
    (h : members.get? "node_type" = some (.string type.name))
    (h' : members.get? "node_type" = some (.string type'.name)) :
    type = type' := by
  rw [h, Option.some.injEq, Json.string.injEq] at h'
  have hname := NodeType.ofName?_name type
  rw [h', NodeType.ofName?_name type'] at hname
  exact (Option.some.inj hname).symm

theorem sameBeside_update (members : Json.Members) (key : String)
    (f : Json -> Json) :
    SameBeside key members (members.update key f) := by
  intro k hne
  rw [Json.Members.get?_update, if_neg hne]

theorem extraMembers_update {type : NodeType} {key : String}
    (hkey : key ∈ type.modelledKeys) (members : Json.Members)
    (f : Json -> Json) :
    extraMembers type (members.update key f) = extraMembers type members := by
  have hcontains : type.modelledKeys.contains key = true := by
    simpa using hkey
  induction members with
  | nil =>
      rfl
  | cons member rest ih =>
      rcases member with ⟨k, value⟩
      change extraMembers type
        ((k, if k = key then f value else value) ::
          Json.Members.update key f rest) = _
      unfold extraMembers at ih ⊢
      rw [List.filter_cons, List.filter_cons, ih]
      by_cases hk : k = key
      · simp [hk, hkey]
      · simp [hk]

/-- A change of one field of a node is a change of one value of the row. -/
theorem decode_update {members : Json.Members} {type : NodeType}
    {field : Field} {F : Node -> Node} {change : Json -> Json}
    {f : (content : Content) -> content.Value Node -> content.Value Node}
    (tagged : members.get? "node_type" = some (.string type.name))
    (known : field ∈ type.fields)
    (hvalue : fieldValue (withReaders (members.update field.key change))
        [.key field.key] field.key field.content =
      (fieldValue (withReaders members) [.key field.key] field.key
        field.content).map (f field.content))
    (hF : forall frame payload,
      F (.mk frame payload) = .mk frame (payload.mapField field.key f))
    (role : Role) :
    decode role (.object (members.update field.key change)) =
      (decode role (.object members)).map F := by
  have hsame := sameBeside_update members field.key change
  have hkey : field.key ∉ commonKeys := fun hmem =>
    NodeType.field_ne_common known hmem rfl
  refine hsame.decode_eq_map hkey role fun type' tagged' => ?_
  obtain rfl : type' = type := type_eq_of_tagged tagged' tagged
  refine hsame.nodeOfKind_eq_map hkey
    (f := Row.mapField field.key f type'.fields) ?_ ?_
  · refine hsame.rowValues_eq_map [] fun field' hfield' heq => ?_
    obtain rfl : field' = field :=
      List.inj_on_of_nodup_map type'.nodup_fieldKeys hfield' known heq
    exact hvalue
  · intro location entries row
    rw [hF, Payload.mapField_ofRow,
      extraMembers_update (NodeType.mem_modelledKeys known)]

section Child

variable {role : Role} {members : Json.Members} {key : String} {part : Json}
  {change : Json -> Json} {F : Node -> Node}

theorem fieldValue_update_child {content : Content}
    (holds : content = .child role ∨ content = .optionalChild role)
    (hget : members.get? key = some part) (hpart : part.isNull = false)
    (hchanged : (change part).isNull = false)
    (hdecode : decode role (change part) = (decode role part).map F)
    (path : Path) :
    fieldValue (withReaders (members.update key change)) path key content =
      (fieldValue (withReaders members) path key content).map
        (content.changeChild F) := by
  have hget' : (members.update key change).get? key = some (change part) := by
    rw [Json.Members.get?_update, if_pos rfl, hget]
    rfl
  have hchild :
      child? role path
          (presentChild? (withReaders (members.update key change)) key) =
        (child? role path (presentChild? (withReaders members) key)).map
          (Option.map F) := by
    rw [presentChild?_withReaders, presentChild?_withReaders,
      present?_of_get? hget hpart, present?_of_get? hget' hchanged]
    change (decodeAt (change part) role path).map some =
      ((decodeAt part role path).map some).map (Option.map F)
    rw [decodeAt_eq_mapError, decodeAt_eq_mapError part, hdecode]
    cases decode role part <;> rfl
  rcases holds with rfl | rfl
  · rw [fieldValue, fieldValue, hchild]
    cases child? role path (presentChild? (withReaders members) key) with
    | error fault =>
        rfl
    | ok node? =>
        cases node? <;> rfl
  · exact hchild

theorem decodeItems_modify {items : List Json} {position : Nat}
    (hitem : items[position]? = some part)
    (hdecode : decode role (change part) = (decode role part).map F)
    (path : Path) (start : Nat) :
    decodeItems (items.modify position change) role path start =
      (decodeItems items role path start).map fun nodes =>
        nodes.modify position F := by
  induction items generalizing position start with
  | nil =>
      cases hitem
  | cons item rest ih =>
      cases position with
      | zero =>
          obtain rfl : item = part := Option.some.inj hitem
          rw [List.modify_zero_cons, decodeItems, decodeItems,
            decodeAt_eq_mapError, decodeAt_eq_mapError item, hdecode]
          cases decode role item with
          | error fault =>
              rfl
          | ok node =>
              cases decodeItems rest role path (start + 1) <;> rfl
      | succ position =>
          rw [List.modify_succ_cons, decodeItems, decodeItems,
            ih hitem (start + 1)]
          cases decodeAt item role (path ++ [.index start]) with
          | error fault =>
              rfl
          | ok node =>
              cases decodeItems rest role path (start + 1) <;> rfl

theorem fieldValue_update_item {items : List Json} {position : Nat}
    {rest : Path}
    (hget : members.get? key = some (.array items))
    (hitem : items[position]? = some part)
    (hdecode : decode role (rest.change change part) =
      (decode role part).map F)
    (path : Path) :
    fieldValue
        (withReaders (members.update key
          (Path.change change (.index position :: rest)))) path key
        (.children role) =
      (fieldValue (withReaders members) path key (.children role)).map
        (Content.changeItem position F (.children role)) := by
  have hget' : (members.update key
      (Path.change change (.index position :: rest))).get? key =
        some (.array (items.modify position (rest.change change))) := by
    rw [Json.Members.get?_update, if_pos rfl, hget]
    rfl
  rw [fieldValue, fieldValue, presentChild?_withReaders,
    presentChild?_withReaders, present?_of_get? hget rfl,
    present?_of_get? hget' rfl]
  exact decodeItems_modify hitem hdecode path 0

end Child

section Reads

theorem exists_getElem?_of_forall₂ {α β : Type} {R : α -> β -> Prop}
    {as : List α} {bs : List β} (h : List.Forall₂ R as bs) {i : Nat} {a : α}
    (ha : as[i]? = some a) :
    exists b, bs[i]? = some b ∧ R a b := by
  induction h generalizing i with
  | nil =>
      cases ha
  | @cons a' b as bs hab hrest ih =>
      cases i with
      | zero =>
          obtain rfl : a' = a := Option.some.inj ha
          exact ⟨b, rfl, hab⟩
      | succ i =>
          exact ih ha

variable {role : Role} {members : Json.Members} {key : String} {part : Json}
  {content : Content} {x : content.Value Node}

theorem exists_child?_of_reads
    (holds : content = .child role ∨ content = .optionalChild role)
    (hpresent : present? members key = some part)
    (hreads : content.Reads Decodes members key x) :
    exists node, content.child? x = some node ∧ Decodes role part node := by
  rcases holds with rfl | rfl
  · unfold Content.Reads Content.given at hreads
    dsimp only at hreads
    rw [hpresent] at hreads
    exact ⟨x, rfl, hreads⟩
  · unfold Content.Reads Content.given at hreads
    dsimp only at hreads
    rw [hpresent] at hreads
    exact hreads

theorem exists_item?_of_reads {items : List Json} {position : Nat}
    (holds : content = .children role)
    (hget : members.get? key = some (.array items))
    (hitem : items[position]? = some part)
    (hreads : content.Reads Decodes members key x) :
    exists node, content.item? position x = some node ∧
      Decodes role part node := by
  subst holds
  unfold Content.Reads Content.given at hreads
  dsimp only at hreads
  rw [present?_of_get? hget rfl] at hreads
  rcases hreads with ⟨items', hitems, hnodes⟩
  cases hitems
  exact exists_getElem?_of_forall₂ hnodes hitem

end Reads

/-!
# A part changed
-/

theorem Asks.ne_index {role : Role} {value : Json} {path : Path}
    {demand : Demand} (h : Asks role value path demand) (position : Nat)
    (rest : Path) :
    path ≠ .index position :: rest := by
  cases h <;> nofun

section Part

variable {role role' : Role} {value part : Json} {path : Path}
  {change : Json -> Json} {F : Node -> Node}

theorem isNull_of_follow? (h : path.follow? value = some part)
    (hpart : part.isNull = false) :
    value.isNull = false := by
  cases path with
  | nil =>
      cases h
      exact hpart
  | cons step rest =>
      cases value with
      | null =>
          cases step <;> cases h
      | boolean _ | number _ | string _ | array _ | object _ =>
          rfl

theorem isNull_change (h : path.follow? value = some part)
    (hchanged : (change part).isNull = false) :
    (path.change change value).isNull = false := by
  cases path with
  | nil =>
      cases h
      exact hchanged
  | cons step rest =>
      cases step with
      | key name =>
          cases value with
          | object members =>
              rfl
          | null | boolean _ | number _ | string _ | array _ =>
              cases h
      | index position =>
          cases value with
          | array items =>
              rfl
          | null | boolean _ | number _ | string _ | object _ =>
              cases h

/-- If a part is read as before but for a change of the node, so is the whole.
The induction goes down to the part, and each node on the way takes the change
over from the one below it. -/
theorem decode_change (hplace : Asks role value path (.node role'))
    (hfollow : path.follow? value = some part)
    (hpart : part.isNull = false) (hchanged : (change part).isNull = false)
    (hdecode : decode role' (change part) = (decode role' part).map F) :
    decode role (path.change change value) =
      (decode role value).map (Node.change F path) := by
  generalize hdemand : Demand.node role' = demand at hplace
  induction hplace with
  | node =>
      cases hdemand
      cases hfollow
      exact hdecode
  | kind | location | coordinate _ _ | metadata | field _ _ =>
      cases hdemand
  | @child role role'' members type field child rest demand tagged known holds
      given below ih =>
      rw [Path.follow?, given, Option.bind_some] at hfollow
      exact decode_update tagged known
        (fieldValue_update_child holds given (isNull_of_follow? hfollow hpart)
          (isNull_change hfollow hchanged) (ih hfollow hdemand) _)
        (Node.change_key below.ne_index F field.key) role
  | @item role role'' members type field items position child rest demand tagged
      known holds given listed below ih =>
      rw [Path.follow?, given, Option.bind_some, Path.follow?, listed,
        Option.bind_some] at hfollow
      refine decode_update tagged known ?_
        (f := Content.changeItem position (Node.change F rest))
        (fun _ _ => rfl) role
      rw [holds]
      exact fieldValue_update_item given listed (ih hfollow hdemand) _

/-- The node of a part stands in the tree where the part stands in the value. -/
theorem exists_part? (hplace : Asks role value path (.node role'))
    (hfollow : path.follow? value = some part) (hpart : part.isNull = false)
    {node : Node} (hnode : Decodes role value node) :
    exists inner, node.part? path = some inner ∧ Decodes role' part inner := by
  generalize hdemand : Demand.node role' = demand at hplace
  induction hplace generalizing node with
  | node =>
      cases hdemand
      cases hfollow
      exact ⟨node, rfl, hnode⟩
  | kind | location | coordinate _ _ | metadata | field _ _ =>
      cases hdemand
  | @child role role'' members type field child rest demand tagged known holds
      given below ih =>
      rw [Path.follow?, given, Option.bind_some] at hfollow
      have hpresent : present? members field.key = some child :=
        present?_of_get? given (isNull_of_follow? hfollow hpart)
      rcases decodes_object_iff.mp hnode with ⟨frame, type', row, rfl, hspells⟩
      obtain rfl : type' = type := type_eq_of_tagged hspells.kind tagged
      rcases Row.exists_find?_eq type'.nodup_fieldKeys hspells.fields known with
        ⟨x, hreads, hfind⟩
      rcases exists_child?_of_reads holds hpresent hreads with
        ⟨below', hbelow', hdecodes⟩
      rcases ih hfollow hdecodes hdemand with ⟨inner, hinner, hpart'⟩
      refine ⟨inner, ?_, hpart'⟩
      rw [Node.part?_key below.ne_index, Payload.find?_ofRow, hfind, hbelow']
      exact hinner
  | @item role role'' members type field items position child rest demand tagged
      known holds given listed below ih =>
      rw [Path.follow?, given, Option.bind_some, Path.follow?, listed,
        Option.bind_some] at hfollow
      rcases decodes_object_iff.mp hnode with ⟨frame, type', row, rfl, hspells⟩
      obtain rfl : type' = type := type_eq_of_tagged hspells.kind tagged
      rcases Row.exists_find?_eq type'.nodup_fieldKeys hspells.fields known with
        ⟨x, hreads, hfind⟩
      rcases exists_item?_of_reads holds given listed hreads with
        ⟨below', hbelow', hdecodes⟩
      rcases ih hfollow hdecodes hdemand with ⟨inner, hinner, hpart'⟩
      refine ⟨inner, ?_, hpart'⟩
      rw [Node.part?, Payload.find?_ofRow, hfind, hbelow']
      exact hinner

end Part

theorem ordered_of_follow? {value part : Json} {path : Path}
    (h : path.follow? value = some part) (hordered : value.Ordered) :
    part.Ordered := by
  induction path generalizing value with
  | nil =>
      cases h
      exact hordered
  | cons step rest ih =>
      cases step with
      | key name =>
          cases value with
          | object members =>
              rcases Option.bind_eq_some_iff.mp h with ⟨below, hget, hbelow⟩
              exact ih hbelow (hordered.member hget)
          | null | boolean _ | number _ | string _ | array _ =>
              cases h
      | index position =>
          cases value with
          | array items =>
              rcases Option.bind_eq_some_iff.mp h with ⟨below, hitem, hbelow⟩
              exact ih hbelow (Json.ordered_array_iff.mp hordered below
                (List.mem_of_getElem? hitem))
          | null | boolean _ | number _ | string _ | object _ =>
              cases h

/-- A member with an unknown key may be put into any node of a value, and may
hold anything: the tree that is read has it in the frame of that node and is the
same elsewhere, and where no tree can be read the fault is the same one. -/
theorem decode_addMember_at {role role' : Role} {value : Json} {path : Path}
    {members : Json.Members} {key : String} (hordered : value.Ordered)
    (hplace : Asks role value path (.node role'))
    (hobject : path.follow? value = some (.object members))
    (hkey : IsUnknownKey members key) (x : Json) :
    decode role (path.change (Json.addMember key x) value) =
        (decode role value).map (Node.change (Node.addExtra key x) path) ∧
      forall node, decode role value = .ok node ->
        exists inner, decode role' (.object members) = .ok inner ∧
          node.part? path = some inner ∧
          (node.change (Node.addExtra key x) path).part? path =
            some (inner.addExtra key x) := by
  have hmembers : members.Increasing :=
    (Json.ordered_object_iff.mp (ordered_of_follow? hobject hordered)).1
  constructor
  · exact decode_change hplace hobject rfl rfl
      (decode_insert hmembers hkey role' x)
  · intro node hnode
    rcases exists_part? hplace hobject rfl hnode with ⟨inner, hinner, hpart⟩
    refine ⟨inner, hpart, hinner, ?_⟩
    rw [Node.part?_change, hinner]
    rfl

/-- A block with one variable for its only statement. -/
def statementY : Json.Members :=
  [("name", .string "y"), ("node_type", .string "variable")]

def blockOfY : Json.Members :=
  [("node_type", .string "block"), ("statements", .array [.object statementY])]

def functionOfY : Json.Members :=
  [("body", .object blockOfY), ("name", .string "f"),
    ("node_type", .string "function")]

def pathToY : Path :=
  [.key "body", .key "statements", .index 0]

theorem asks_pathToY :
    Asks .any (.object functionOfY) pathToY (.node .any) := by
  have hbody : (⟨"body", .optionalChild (.only .block)⟩ : Field) ∈
      NodeType.function.fields := by
    decide
  have hstatements : (⟨"statements", .children .any⟩ : Field) ∈
      NodeType.block.fields := by
    decide
  exact .child rfl hbody (Or.inr rfl) rfl
    (.item rfl hstatements rfl rfl rfl .node)

/-- A variable has no body, and what is put there is no node. -/
theorem decode_addMember_at_pathToY :
    (Json.object functionOfY).Ordered ∧
    Asks .any (.object functionOfY) pathToY (.node .any) ∧
    pathToY.follow? (.object functionOfY) = some (.object statementY) ∧
    IsUnknownKey statementY "body" ∧
    decode .any
        (pathToY.change
          (Json.addMember "body" (.object [("node_type", .null)]))
          (.object functionOfY)) =
      (decode .any (.object functionOfY)).map
        (Node.change
          (Node.addExtra "body" (.object [("node_type", .null)])) pathToY) := by
  have hordered : (Json.object functionOfY).Ordered := by
    simp only [functionOfY, blockOfY, statementY, Json.Ordered,
      Json.OrderedMembers, Json.OrderedItems]
    decide
  have hunknown : IsUnknownKey statementY "body" := by
    refine ⟨by decide, fun type htype => ?_⟩
    obtain rfl : type = .var := type_eq_of_tagged htype rfl
    decide
  exact ⟨hordered, asks_pathToY, rfl, hunknown,
    (decode_addMember_at hordered asks_pathToY rfl hunknown _).1⟩

end Tree
end PseudocodeTools
