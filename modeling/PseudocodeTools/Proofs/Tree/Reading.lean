import Mathlib.Data.List.Forall2
import PseudocodeTools.Proofs.Json.Members
import PseudocodeTools.Proofs.Tree.Leaf
import PseudocodeTools.Proofs.Tree.Relocation
import PseudocodeTools.Proofs.Tree.Row
/-!
# What is read

A tree is read from an object exactly when each field of its kind has a value
that the member of the field spells, or that stands for a missing member.  The
relation is stated field by field, so that later modules need not unfold the
readers.
-/

namespace PseudocodeTools

/-!
# Values of fields

`reads role value x` says that `x` is read from `value` in a role.
-/

section Content

variable {ν : Type}

/-- The value that a field has when nothing is given for it. -/
def Content.Fallback : (content : Content) -> content.Value ν -> Prop
  | text fallback, s => fallback = some s
  | optionalText, s? => s? = none
  | flag fallback, b => b = fallback
  | count fallback, n => n = fallback
  | factor fallback, x => x = fallback
  | operator fallback, op => fallback = some op
  | loopType fallback, type => type = fallback
  | raw, value? => value? = none
  | child _, _ => False
  | optionalChild _, x? => x? = none
  | children _, xs => xs = []

/-- A JSON value spells a value of a field. -/
def Content.Spells (reads : Role -> Json -> ν -> Prop) (value : Json) :
    (content : Content) -> content.Value ν -> Prop
  | text _, s => value = .string s
  | optionalText, s? => exists s, s? = some s ∧ value = .string s
  | flag _, b => value = .boolean b
  | count _, n => value = .number (.ofUInt32 n)
  | factor _, x => exists m, value = .number m ∧ x = m.toBinary64
  | operator _, op => value = .string op.name
  | loopType _, type => value = .string type.name
  | raw, value? => value? = some value
  | child role, x => reads role value x
  | optionalChild role, x? => exists x, x? = some x ∧ reads role value x
  | children role, xs =>
      exists items, value = .array items ∧ List.Forall₂ (reads role) items xs

/-- What is given for a field: the member with its key, and a null member only
for a raw field. -/
def Content.given (content : Content) (members : Json.Members) (key : String) :
    Option Json :=
  match content with
  | raw => members.get? key
  | _ => Tree.present? members key

/-- A field has a value that is spelled, or that stands for a missing one. -/
def Content.Reads (reads : Role -> Json -> ν -> Prop) (members : Json.Members)
    (key : String) (content : Content) (x : content.Value ν) : Prop :=
  (content.given members key).elim (content.Fallback x) fun value =>
    content.Spells reads value x

theorem Content.reads_iff {reads : Role -> Json -> ν -> Prop}
    {members : Json.Members} {key : String} {content : Content}
    {x : content.Value ν} :
    content.Reads reads members key x ↔
      (content.given members key = none ∧ content.Fallback x) ∨
        exists value, content.given members key = some value ∧
          content.Spells reads value x := by
  unfold Content.Reads
  cases content.given members key <;> simp

end Content

namespace Tree

/-- The relation of trees to the values that they are read from. -/
def Decodes (role : Role) (value : Json) (node : Node) : Prop :=
  decode role value = .ok node

/-!
# Fields
-/

theorem lookup_withReaders (members : Json.Members) (key : String) :
    (withReaders members).lookup key =
      (members.get? key).map fun value =>
        { value := value, node := decodeAt value,
          nodes := decodeArray value } := by
  induction members with
  | nil =>
      rfl
  | cons member rest ih =>
      rcases member with ⟨k, value⟩
      rw [withReaders, Json.Members.get?_cons, List.lookup_cons, ih]
      by_cases hkey : key = k
      · simp [hkey]
      · simp [hkey, beq_eq_false_iff_ne.mpr hkey]

theorem presentChild?_withReaders (members : Json.Members) (key : String) :
    presentChild? (withReaders members) key =
      (present? members key).map fun value =>
        { value := value, node := decodeAt value,
          nodes := decodeArray value } := by
  unfold presentChild? present?
  rw [lookup_withReaders]
  cases members.get? key with
  | none =>
      rfl
  | some value =>
      cases h : value.isNull <;> simp [Option.filter, h]

theorem map_value_presentChild? (members : Json.Members) (key : String) :
    (presentChild? (withReaders members) key).map Child.value =
      present? members key := by
  rw [presentChild?_withReaders, Option.map_map]
  exact Option.map_id'

theorem decodeItems_eq_ok_iff {items : List Json} {role : Role} {path : Path}
    {position : Nat} {nodes : List Node} :
    decodeItems items role path position = .ok nodes ↔
      List.Forall₂ (Decodes role) items nodes := by
  induction items generalizing position nodes with
  | nil =>
      simp [decodeItems, eq_comm]
  | cons item rest ih =>
      simp only [decodeItems, Except.bind_eq_ok_iff, decodeAt_eq_ok_iff, ih,
        List.forall₂_cons_left_iff, Decodes]
      constructor
      · intro h
        rcases h with ⟨node, hnode, nodes', hnodes, hresult⟩
        cases hresult
        exact ⟨node, nodes', hnode, hnodes, rfl⟩
      · intro h
        rcases h with ⟨node, nodes', hnode, hnodes, rfl⟩
        exact ⟨node, hnode, nodes', hnodes, rfl⟩

theorem decodeArray_eq_ok_iff {value : Json} {role : Role} {path : Path}
    {nodes : List Node} :
    decodeArray value role path = .ok nodes ↔
      exists items, value = .array items ∧
        List.Forall₂ (Decodes role) items nodes := by
  cases value with
  | array items =>
      rw [decodeArray, decodeItems_eq_ok_iff]
      simp
  | null | boolean _ | number _ | string _ | object _ =>
      simp [decodeArray]

/-!
A reader that accepts exactly the members `f a` is put together with a fallback
in three ways: the fallback is always there, it may be missing, or the value
itself is optional.
-/

section Reader

variable {α β : Type} {read : Except TreeFault (Option α)} {f : α -> Json}
  {member : Option Json}

theorem bind_eq_ok_iff_elim
    (hread : forall a?, read = .ok a? ↔ member = Option.map f a?)
    {next : Option α -> Except TreeFault β} {b : β} :
    (read >>= next) = .ok b ↔
      member.elim (next none = .ok b) fun value =>
        exists a, value = f a ∧ next (some a) = .ok b := by
  simp only [Except.bind_eq_ok_iff, hread]
  cases member with
  | none =>
      constructor
      · intro h
        rcases h with ⟨a?, hmap, hresult⟩
        rw [Option.map_eq_none_iff.mp hmap.symm] at hresult
        exact hresult
      · intro h
        exact ⟨none, rfl, h⟩
  | some value =>
      constructor
      · intro h
        rcases h with ⟨a?, hmap, hresult⟩
        rcases Option.map_eq_some_iff.mp hmap.symm with ⟨a, rfl, rfl⟩
        exact ⟨a, rfl, hresult⟩
      · intro h
        rcases h with ⟨a, rfl, hresult⟩
        exact ⟨some a, rfl, hresult⟩

theorem getD_eq_ok_iff
    (hread : forall a?, read = .ok a? ↔ member = Option.map f a?)
    {fallback a : α} :
    (read >>= fun found => Except.ok (found.getD fallback)) = .ok a ↔
      member.elim (a = fallback) fun value => value = f a := by
  rw [bind_eq_ok_iff_elim hread]
  cases member <;> simp [eq_comm]

theorem require_or_eq_ok_iff {path : Path}
    (hread : forall a?, read = .ok a? ↔ member = Option.map f a?)
    {fallback : Option α} {a : α} :
    (read >>= fun found => require path (found.or fallback)) = .ok a ↔
      member.elim (fallback = some a) fun value => value = f a := by
  rw [bind_eq_ok_iff_elim hread]
  cases member <;> simp [require_eq_ok_iff]

theorem optional_eq_ok_iff
    (hread : forall a?, read = .ok a? ↔ member = Option.map f a?)
    {a? : Option α} :
    read = .ok a? ↔
      member.elim (a? = none) fun value =>
        exists a, a? = some a ∧ value = f a := by
  rw [hread]
  cases member <;> cases a? <;> simp

end Reader

theorem child?_eq_ok_iff {members : Json.Members} {role : Role} {path : Path}
    {key : String} {node? : Option Node} :
    child? role path (presentChild? (withReaders members) key) = .ok node? ↔
      (present? members key).elim (node? = none) fun value =>
        exists node, node? = some node ∧ Decodes role value node := by
  rw [presentChild?_withReaders]
  cases present? members key with
  | none =>
      simp [child?, eq_comm]
  | some value =>
      constructor
      · intro h
        change (decodeAt value role path).map some = .ok node? at h
        cases hnode : decodeAt value role path with
        | error fault =>
            rw [hnode] at h
            cases h
        | ok node =>
            rw [hnode] at h
            cases h
            exact ⟨node, rfl, decodeAt_eq_ok_iff.mp hnode⟩
      · intro h
        rcases h with ⟨node, rfl, hnode⟩
        change (decodeAt value role path).map some = _
        rw [decodeAt_eq_ok_iff.mpr hnode]
        rfl

theorem child_eq_ok_iff {members : Json.Members} {role : Role} {path : Path}
    {key : String} {node : Node} :
    (child? role path (presentChild? (withReaders members) key) >>=
        require path) = .ok node ↔
      (present? members key).elim False fun value =>
        Decodes role value node := by
  simp only [Except.bind_eq_ok_iff, child?_eq_ok_iff, require_eq_ok_iff]
  cases present? members key <;> simp

theorem children_eq_ok_iff {members : Json.Members} {role : Role} {path : Path}
    {key : String} {nodes : List Node} :
    (match presentChild? (withReaders members) key with
      | none => Except.ok []
      | some child => child.nodes role path) = .ok nodes ↔
      (present? members key).elim (nodes = []) fun value =>
        exists items, value = .array items ∧
          List.Forall₂ (Decodes role) items nodes := by
  rw [presentChild?_withReaders]
  cases present? members key with
  | none =>
      simp [eq_comm]
  | some value =>
      exact decodeArray_eq_ok_iff

theorem factor_eq_ok_iff {path : Path} {member : Option Json}
    {fallback x : Binary64} :
    (factor? path member >>= fun found => Except.ok (found.getD fallback)) =
        .ok x ↔
      member.elim (x = fallback) fun value =>
        exists m, value = .number m ∧ x = m.toBinary64 := by
  cases member with
  | none =>
      change Except.ok fallback = Except.ok x ↔ _
      simp [eq_comm]
  | some value =>
      cases value with
      | number m =>
          change Except.ok m.toBinary64 = Except.ok x ↔ _
          simp [eq_comm]
      | null | boolean _ | string _ | array _ | object _ =>
          constructor
          · intro h
            cases h
          · intro h
            rcases h with ⟨m, hvalue, _⟩
            cases hvalue

theorem fieldValue_eq_ok_iff {members : Json.Members} {path : Path}
    {key : String} {content : Content} {x : content.Value Node} :
    fieldValue (withReaders members) path key content = .ok x ↔
      content.Reads Decodes members key x := by
  unfold Content.Reads Content.given
  cases content with
  | raw =>
      change Option Json at x
      rw [fieldValue, lookup_withReaders, Option.map_map]
      change Except.ok (Option.map id (members.get? key)) = Except.ok x ↔ _
      rw [Option.map_id, id, Except.ok.injEq, eq_comm]
      cases members.get? key <;> exact Iff.rfl
  | text fallback =>
      rw [fieldValue, map_value_presentChild?]
      exact require_or_eq_ok_iff fun _ => text?_eq_ok_iff
  | optionalText =>
      rw [fieldValue, map_value_presentChild?]
      exact optional_eq_ok_iff fun _ => text?_eq_ok_iff
  | flag fallback =>
      rw [fieldValue, map_value_presentChild?]
      exact getD_eq_ok_iff fun _ => flag?_eq_ok_iff
  | count fallback =>
      rw [fieldValue, map_value_presentChild?]
      exact getD_eq_ok_iff fun _ => count?_eq_ok_iff
  | factor fallback =>
      rw [fieldValue, map_value_presentChild?]
      exact factor_eq_ok_iff
  | operator fallback =>
      rw [fieldValue, map_value_presentChild?]
      exact require_or_eq_ok_iff fun _ => operator?_eq_ok_iff
  | loopType fallback =>
      rw [fieldValue, map_value_presentChild?]
      exact getD_eq_ok_iff fun _ => loopType?_eq_ok_iff
  | child role =>
      rw [fieldValue]
      exact child_eq_ok_iff
  | optionalChild role =>
      exact child?_eq_ok_iff
  | children role =>
      exact children_eq_ok_iff

theorem rowValues_eq_ok_iff {members : Json.Members} {path : Path}
    {fields : List Field} {row : Row Node fields} :
    rowValues (withReaders members) path fields = .ok row ↔
      Row.Forall
        (fun field x => field.content.Reads Decodes members field.key x)
        fields row := by
  induction fields with
  | nil =>
      constructor
      · intro _
        exact True.intro
      · intro _
        rfl
  | cons field rest ih =>
      rcases row with ⟨x, xs⟩
      constructor
      · intro h
        rcases Except.bind_eq_ok_iff.mp h with ⟨x', hx, hrest⟩
        rcases Except.bind_eq_ok_iff.mp hrest with ⟨xs', hxs, hresult⟩
        cases hresult
        exact ⟨fieldValue_eq_ok_iff.mp hx, ih.mp hxs⟩
      · intro h
        rcases h with ⟨hx, hxs⟩
        refine Except.bind_eq_ok_iff.mpr ⟨x, fieldValue_eq_ok_iff.mpr hx, ?_⟩
        exact Except.bind_eq_ok_iff.mpr ⟨xs, ih.mpr hxs, rfl⟩

theorem nodeType_eq_ok_iff {members : Json.Members} {path : Path}
    {type : NodeType} :
    nodeType members path = .ok type ↔
      members.get? "node_type" = some (.string type.name) := by
  unfold nodeType
  cases members.get? "node_type" with
  | none =>
      simp
  | some value =>
      cases value with
      | string name =>
          have hname : NodeType.ofName? name = some type ↔ name = type.name :=
            NodeType.ofName?_eq_some_iff
          cases hword : NodeType.ofName? name with
          | none =>
              rw [hword] at hname
              simpa [hword] using hname
          | some type' =>
              rw [hword] at hname
              simpa [hword] using hname
      | null | boolean _ | number _ | array _ | object _ =>
          simp

/-!
# Nodes
-/

/-- The members of an object spell a node of the given kind. -/
structure SpellsNode (role : Role) (members : Json.Members) (frame : Frame)
    (type : NodeType) (row : Row Node type.fields) : Prop where
  kind : members.get? "node_type" = some (.string type.name)
  admitted : role.admits type = true
  location :
    (present? members "location" = none ∧ frame.location = none) ∨
      exists inner location,
        present? members "location" = some (.object inner) ∧
          frame.location = some location ∧ SpellsLocation inner location
  metadata :
    (present? members "metadata" = none ∧ frame.metadata = []) ∨
      present? members "metadata" = some (.object frame.metadata)
  extra : frame.extra = extraMembers type members
  fields :
    Row.Forall (fun field x => field.content.Reads Decodes members field.key x)
      type.fields row

theorem nodeOfKind_eq_ok_iff {type : NodeType} {members : Json.Members}
    {path : Path} {node : Node} :
    nodeOfKind type members (withReaders members) path = .ok node ↔
      exists location metadata row,
        ((present? members "location" = none ∧ location = none) ∨
          exists inner location',
            present? members "location" = some (.object inner) ∧
              location = some location' ∧ SpellsLocation inner location') ∧
        ((present? members "metadata" = none ∧ metadata = []) ∨
          present? members "metadata" = some (.object metadata)) ∧
        Row.Forall
          (fun field x => field.content.Reads Decodes members field.key x)
          type.fields row ∧
        node = .mk ⟨location, metadata, extraMembers type members⟩
          (.ofRow type row) := by
  simp only [nodeOfKind, Except.bind_eq_ok_iff, location?_eq_ok_iff,
    metadata_eq_ok_iff, rowValues_eq_ok_iff]
  constructor
  · intro h
    rcases h with
      ⟨location, hlocation, metadata, hmetadata, row, hrow, hresult⟩
    cases hresult
    exact ⟨location, metadata, row, hlocation, hmetadata, hrow, rfl⟩
  · intro h
    rcases h with ⟨location, metadata, row, hlocation, hmetadata, hrow, rfl⟩
    exact ⟨location, hlocation, metadata, hmetadata, row, hrow, rfl⟩

theorem decodes_object_iff {role : Role} {members : Json.Members}
    {node : Node} :
    Decodes role (.object members) node ↔
      exists frame type row,
        node = .mk frame (.ofRow type row) ∧
          SpellsNode role members frame type row := by
  change nodeOfMembers members (withReaders members) role [] = .ok node ↔ _
  simp only [nodeOfMembers, Except.bind_eq_ok_iff, nodeType_eq_ok_iff]
  constructor
  · intro h
    rcases h with ⟨type, hkind, hnode⟩
    by_cases hadmits : role.admits type = true
    · rw [if_pos hadmits, Role.readKind_of_admits hadmits] at hnode
      rcases nodeOfKind_eq_ok_iff.mp hnode with
        ⟨location, metadata, row, hlocation, hmetadata, hrow, hresult⟩
      exact ⟨_, type, row, hresult,
        { kind := hkind
          admitted := hadmits
          location := hlocation
          metadata := hmetadata
          extra := rfl
          fields := hrow }⟩
    · rw [if_neg hadmits] at hnode
      cases hnode
  · intro h
    rcases h with ⟨⟨location, metadata, extra⟩, type, row, rfl, h⟩
    refine ⟨type, h.kind, ?_⟩
    rw [if_pos h.admitted, Role.readKind_of_admits h.admitted]
    have hextra : extra = extraMembers type members := h.extra
    rw [hextra]
    exact nodeOfKind_eq_ok_iff.mpr
      ⟨location, metadata, row, h.location, h.metadata, h.fields, rfl⟩

theorem decodes_iff {role : Role} {value : Json} {node : Node} :
    Decodes role value node ↔
      exists members, value = .object members ∧
        Decodes role (.object members) node := by
  cases value with
  | object members =>
      simp
  | null | boolean _ | number _ | string _ | array _ =>
      constructor
      · intro h
        cases h
      · intro h
        rcases h with ⟨members, hvalue, _⟩
        cases hvalue

end Tree
end PseudocodeTools
