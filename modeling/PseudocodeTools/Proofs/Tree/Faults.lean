import PseudocodeTools.Proofs.Tree.Conformance
/-!
# Faults of readers

Where a reader fails, a member is missing, of another sort than the grammar asks
for, or a word that the grammar does not know; or the fault is one of a part.
The relations of this module say so reader by reader, so that later modules need
not unfold the readers.
-/

namespace PseudocodeTools

/-!
# Demands

What the grammar asks of a place in a value, and what is a fault there.
-/

/-- Whether a value is of the sort that is expected. -/
def Expectation.admits : Expectation -> Json -> Bool
  | node, .object _ | location, .object _ | object, .object _ => true
  | array, .array _ => true
  | string, .string _ | operator, .string _ | loopType, .string _ => true
  | boolean, .boolean _ => true
  | number, .number _ => true
  | nonNegativeInteger, .number n => n.toUInt32?.isSome
  | _, _ => false

def Vocabulary.words : Vocabulary -> List String
  | operator => Tree.operatorWords
  | loopType => Tree.loopTypeWords

/-- What the grammar asks of a place in a value. -/
inductive Demand where
  | node (role : Role)
  | kind
  | location
  | coordinate (required : Bool)
  | metadata
  | field (content : Content)

/-- What a field asks of its value, apart from the nodes in it. -/
def Content.expectation? : Content -> Option Expectation
  | text _ | optionalText => some .string
  | flag _ => some .boolean
  | count _ => some .nonNegativeInteger
  | factor _ => some .number
  | operator _ => some .operator
  | loopType _ => some .loopType
  | children _ => some .array
  | raw | child _ | optionalChild _ => none

namespace Demand

/-- Whether a value has to be there. -/
def isRequired : Demand -> Bool
  | kind => true
  | coordinate required => required
  | field (.text fallback) => fallback.isNone
  | field (.operator fallback) => fallback.isNone
  | field (.child _) => true
  | node _ | location | metadata | field _ => false

/-- What a value has to be. -/
def expectation? : Demand -> Option Expectation
  | node _ => some .node
  | kind => some .string
  | location => some .location
  | coordinate _ => some .nonNegativeInteger
  | metadata => some .object
  | field content => content.expectation?

/-- The words from which a value has to be taken. -/
def vocabulary? : Demand -> Option Vocabulary
  | field (.operator _) => some .operator
  | field (.loopType _) => some .loopType
  | _ => none

end Demand

namespace Tree

/-- The members of a place, and whether they have to be there. -/
def coordinates : List (String × Bool) :=
  [("line", true), ("column", true), ("end_line", false), ("end_column", false)]

/-!
# Leaves
-/

/-- A member does not meet a demand, apart from the nodes in it. -/
inductive LeafFault (member : Option Json) (demand : Demand) :
    TreeCause -> Prop where
  | missing (absent : member = none) (required : demand.isRequired = true) :
      LeafFault member demand .missingField
  | wrongType {value : Json} {expected : Expectation}
      (given : member = some value)
      (asked : demand.expectation? = some expected)
      (refused : expected.admits value = false) :
      LeafFault member demand (.wrongType expected value.kind)
  | unknownWord {word : String} {vocabulary : Vocabulary}
      (given : member = some (.string word))
      (asked : demand.vocabulary? = some vocabulary)
      (unknown : word ∉ vocabulary.words) :
      LeafFault member demand (.unknownWord vocabulary word)

section Leaf

variable {path : Path} {member : Option Json} {demand : Demand}
  {fault : TreeFault}

/-- The fault is at the path, and what the member has not met is the demand. -/
def IsLeafFault (path : Path) (member : Option Json) (demand : Demand)
    (fault : TreeFault) : Prop :=
  exists cause, LeafFault member demand cause ∧
    fault = { path := path, cause := cause }

theorem isLeafFault_wrongType {value : Json} {expected : Expectation}
    (asked : demand.expectation? = some expected)
    (refused : expected.admits value = false) :
    IsLeafFault path (some value) demand (wrongType path expected value) :=
  ⟨_, .wrongType rfl asked refused, rfl⟩

theorem isLeafFault_of_text? (asked : demand.expectation? = some .string)
    (h : text? path member = .error fault) :
    IsLeafFault path member demand fault := by
  rcases member with _ | value
  · cases h
  · cases value with
    | string s =>
        cases h
    | null | boolean _ | number _ | array _ | object _ =>
        cases h
        exact isLeafFault_wrongType asked rfl

theorem isLeafFault_of_flag? (asked : demand.expectation? = some .boolean)
    (h : flag? path member = .error fault) :
    IsLeafFault path member demand fault := by
  rcases member with _ | value
  · cases h
  · cases value with
    | boolean b =>
        cases h
    | null | number _ | string _ | array _ | object _ =>
        cases h
        exact isLeafFault_wrongType asked rfl

theorem isLeafFault_of_factor? (asked : demand.expectation? = some .number)
    (h : factor? path member = .error fault) :
    IsLeafFault path member demand fault := by
  rcases member with _ | value
  · cases h
  · cases value with
    | number m =>
        cases h
    | null | boolean _ | string _ | array _ | object _ =>
        cases h
        exact isLeafFault_wrongType asked rfl

theorem isLeafFault_of_count?
    (asked : demand.expectation? = some .nonNegativeInteger)
    (h : count? path member = .error fault) :
    IsLeafFault path member demand fault := by
  rcases member with _ | value
  · cases h
  · cases value with
    | number m =>
        cases hword : m.toUInt32? with
        | some n =>
            rw [count?_number hword] at h
            cases h
        | none =>
            simp only [count?, hword] at h
            cases h
            exact isLeafFault_wrongType asked (by simp [Expectation.admits, hword])
    | null | boolean _ | string _ | array _ | object _ =>
        cases h
        exact isLeafFault_wrongType asked rfl

theorem notMem_of_find?_eq_none {α : Type} {all : List α} {name : α -> String}
    {word : String} (h : (all.find? fun x => name x == word) = none) :
    word ∉ all.map name := by
  intro hmem
  rcases List.mem_map.mp hmem with ⟨x, hx, rfl⟩
  have hne := List.find?_eq_none.mp h x hx
  exact hne (beq_self_eq_true _)

theorem isLeafFault_of_operator? (asked : demand.expectation? = some .operator)
    (words : demand.vocabulary? = some .operator)
    (h : operator? path member = .error fault) :
    IsLeafFault path member demand fault := by
  rcases member with _ | value
  · cases h
  · cases value with
    | string s =>
        cases hword : Operator.ofName? s with
        | some op =>
            simp [operator?, hword] at h
        | none =>
            simp only [operator?, hword] at h
            cases h
            exact ⟨_, .unknownWord rfl words (notMem_of_find?_eq_none hword), rfl⟩
    | null | boolean _ | number _ | array _ | object _ =>
        cases h
        exact isLeafFault_wrongType asked rfl

theorem isLeafFault_of_loopType? (asked : demand.expectation? = some .loopType)
    (words : demand.vocabulary? = some .loopType)
    (h : loopType? path member = .error fault) :
    IsLeafFault path member demand fault := by
  rcases member with _ | value
  · cases h
  · cases value with
    | string s =>
        cases hword : LoopType.ofName? s with
        | some type =>
            simp [loopType?, hword] at h
        | none =>
            simp only [loopType?, hword] at h
            cases h
            exact ⟨_, .unknownWord rfl words (notMem_of_find?_eq_none hword), rfl⟩
    | null | boolean _ | number _ | array _ | object _ =>
        cases h
        exact isLeafFault_wrongType asked rfl

theorem isLeafFault_of_metadata (asked : demand.expectation? = some .object)
    (h : metadata path member = .error fault) :
    IsLeafFault path member demand fault := by
  rcases member with _ | value
  · cases h
  · cases value with
    | object members =>
        cases h
    | null | boolean _ | number _ | string _ | array _ =>
        cases h
        exact isLeafFault_wrongType asked rfl

theorem require_eq_error_iff {α : Type} {x? : Option α} :
    require path x? = .error fault ↔ x? = none ∧ fault = missing path := by
  cases x? <;> simp [require, eq_comm]

/-- A value that has to be there is missing when no member is given for it. -/
theorem isLeafFault_of_require {α : Type} {read : Except TreeFault (Option α)}
    (hread : forall fault, read = .error fault ->
      IsLeafFault path member demand fault)
    {fallback : Option α}
    (hnone : read = .ok none -> fallback = none ->
      member = none ∧ demand.isRequired = true)
    (h : (read >>= fun found => require path (found.or fallback)) =
      .error fault) :
    IsLeafFault path member demand fault := by
  rcases Except.bind_eq_error_iff.mp h with h | ⟨found, hfound, hmissing⟩
  · exact hread fault h
  · rcases require_eq_error_iff.mp hmissing with ⟨hor, rfl⟩
    rcases Option.or_eq_none_iff.mp hor with ⟨rfl, hfallback⟩
    rcases hnone hfound hfallback with ⟨absent, required⟩
    exact ⟨_, .missing absent required, rfl⟩

theorem isLeafFault_of_getD {α β : Type} {read : Except TreeFault α}
    {f : α -> β}
    (hread : forall fault, read = .error fault ->
      IsLeafFault path member demand fault)
    (h : (read >>= fun found => Except.ok (f found)) = .error fault) :
    IsLeafFault path member demand fault := by
  rcases Except.bind_eq_error_iff.mp h with h | ⟨_, _, hok⟩
  · exact hread fault h
  · cases hok

end Leaf

/-!
# Fields
-/

/-- A member is no value of a field, by itself or by a node in it. -/
inductive FieldFault (members : Json.Members) (path : Path) (key : String)
    (content : Content) : TreeFault -> Prop where
  | leaf {fault : TreeFault}
      (h : IsLeafFault path (present? members key) (.field content) fault) :
      FieldFault members path key content fault
  | child {role : Role} {value : Json} {fault : TreeFault}
      (holds : content = .child role ∨ content = .optionalChild role)
      (given : present? members key = some value)
      (below : decode role value = .error fault) :
      FieldFault members path key content (fault.under path)
  | item {role : Role} {items : List Json} {position : Nat} {item : Json}
      {fault : TreeFault} (holds : content = .children role)
      (given : present? members key = some (.array items))
      (listed : items[position]? = some item)
      (below : decode role item = .error fault) :
      FieldFault members path key content
        (fault.under (path ++ [.index position]))

section Field

variable {members : Json.Members} {path : Path} {key : String}
  {fault : TreeFault}

theorem exists_of_child?_eq_error {role : Role}
    (h : child? role path (presentChild? (withReaders members) key) =
      .error fault) :
    exists value inner, present? members key = some value ∧
      decode role value = .error inner ∧ fault = inner.under path := by
  rw [presentChild?_withReaders] at h
  cases hgiven : present? members key with
  | none =>
      rw [hgiven] at h
      cases h
  | some value =>
      rw [hgiven] at h
      change (decodeAt value role path).map some = .error fault at h
      rcases decodeAt_eq_error_iff.mp (Except.map_eq_error_iff.mp h) with
        ⟨inner, hinner, hfault⟩
      exact ⟨value, inner, rfl, hinner, hfault.symm⟩

theorem present?_eq_none_of_child? {role : Role}
    (h : child? role path (presentChild? (withReaders members) key) =
      .ok none) :
    present? members key = none := by
  have helim := child?_eq_ok_iff.mp h
  cases hgiven : present? members key with
  | none =>
      rfl
  | some value =>
      rw [hgiven] at helim
      rcases helim with ⟨node, hnone, _⟩
      cases hnone

theorem exists_of_decodeItems_eq_error {items : List Json} {role : Role}
    {start : Nat}
    (h : decodeItems items role path start = .error fault) :
    exists position item inner, items[position]? = some item ∧
      decode role item = .error inner ∧
      fault = inner.under (path ++ [.index (start + position)]) := by
  induction items generalizing start with
  | nil =>
      cases h
  | cons item rest ih =>
      rw [decodeItems] at h
      rcases Except.bind_eq_error_iff.mp h with hitem | ⟨_, _, hrest⟩
      · rcases decodeAt_eq_error_iff.mp hitem with ⟨inner, hinner, hfault⟩
        exact ⟨0, item, inner, rfl, hinner, hfault.symm⟩
      · rcases Except.bind_eq_error_iff.mp hrest with hrest | ⟨_, _, hok⟩
        · rcases ih hrest with ⟨position, item', inner, hlisted, hinner, hfault⟩
          refine ⟨position + 1, item', inner, hlisted, hinner, ?_⟩
          rw [hfault, Nat.add_right_comm, Nat.add_assoc]
        · cases hok

theorem fieldFault_of_children {role : Role}
    (h : fieldValue (withReaders members) path key (.children role) =
      .error fault) :
    FieldFault members path key (.children role) fault := by
  rw [fieldValue, presentChild?_withReaders] at h
  cases hgiven : present? members key with
  | none =>
      rw [hgiven] at h
      cases h
  | some value =>
      rw [hgiven] at h
      change decodeArray value role path = .error fault at h
      cases value with
      | array items =>
          rw [decodeArray] at h
          rcases exists_of_decodeItems_eq_error h with
            ⟨position, item, inner, hlisted, hinner, rfl⟩
          rw [Nat.zero_add]
          exact .item rfl hgiven hlisted hinner
      | null | boolean _ | number _ | string _ | object _ =>
          cases h
          refine .leaf ?_
          rw [hgiven]
          exact isLeafFault_wrongType rfl rfl

theorem fieldFault_of_fieldValue {content : Content}
    (h : fieldValue (withReaders members) path key content = .error fault) :
    FieldFault members path key content fault := by
  cases content with
  | raw =>
      cases h
  | text fallback =>
      rw [fieldValue, map_value_presentChild?] at h
      refine .leaf (isLeafFault_of_require (fun _ => isLeafFault_of_text? rfl)
        (fun hnone hfallback => ⟨text?_eq_ok_iff.mp hnone, ?_⟩) h)
      rw [hfallback]
      rfl
  | optionalText =>
      rw [fieldValue, map_value_presentChild?] at h
      exact .leaf (isLeafFault_of_text? rfl h)
  | flag fallback =>
      rw [fieldValue, map_value_presentChild?] at h
      exact .leaf (isLeafFault_of_getD (fun _ => isLeafFault_of_flag? rfl) h)
  | count fallback =>
      rw [fieldValue, map_value_presentChild?] at h
      exact .leaf (isLeafFault_of_getD (fun _ => isLeafFault_of_count? rfl) h)
  | factor fallback =>
      rw [fieldValue, map_value_presentChild?] at h
      exact .leaf (isLeafFault_of_getD (fun _ => isLeafFault_of_factor? rfl) h)
  | operator fallback =>
      rw [fieldValue, map_value_presentChild?] at h
      refine .leaf (isLeafFault_of_require
        (fun _ => isLeafFault_of_operator? rfl rfl)
        (fun hnone hfallback => ⟨operator?_eq_ok_iff.mp hnone, ?_⟩) h)
      rw [hfallback]
      rfl
  | loopType fallback =>
      rw [fieldValue, map_value_presentChild?] at h
      exact .leaf
        (isLeafFault_of_getD (fun _ => isLeafFault_of_loopType? rfl rfl) h)
  | child role =>
      rw [fieldValue] at h
      rcases Except.bind_eq_error_iff.mp h with h | ⟨found, hfound, hmissing⟩
      · rcases exists_of_child?_eq_error h with
          ⟨value, inner, hgiven, hinner, rfl⟩
        exact .child (Or.inl rfl) hgiven hinner
      · rcases require_eq_error_iff.mp hmissing with ⟨rfl, rfl⟩
        have habsent := present?_eq_none_of_child? hfound
        exact .leaf ⟨_, .missing habsent rfl, rfl⟩
  | optionalChild role =>
      rcases exists_of_child?_eq_error h with
        ⟨value, inner, hgiven, hinner, rfl⟩
      exact .child (Or.inr rfl) hgiven hinner
  | children role =>
      exact fieldFault_of_children h

theorem exists_of_rowValues_eq_error {fields : List Field}
    (h : rowValues (withReaders members) path fields = .error fault) :
    exists field, field ∈ fields ∧
      FieldFault members (path ++ [.key field.key]) field.key field.content
        fault := by
  induction fields with
  | nil =>
      cases h
  | cons field rest ih =>
      rcases Except.bind_eq_error_iff.mp h with hfield | ⟨_, _, hrest⟩
      · exact ⟨field, List.mem_cons_self, fieldFault_of_fieldValue hfield⟩
      · rcases Except.bind_eq_error_iff.mp hrest with hrest | ⟨_, _, hok⟩
        · rcases ih hrest with ⟨field', hmem, hfault⟩
          exact ⟨field', List.mem_cons_of_mem _ hmem, hfault⟩
        · cases hok

end Field

/-!
# Nodes
-/

/-- The members of an object are those of no node in the role. -/
inductive NodeFault (role : Role) (members : Json.Members) :
    TreeFault -> Prop where
  | kind {fault : TreeFault}
      (h : IsLeafFault [.key "node_type"] (present? members "node_type") .kind
        fault) :
      NodeFault role members fault
  | unknownKind {name : String}
      (given : members.get? "node_type" = some (.string name))
      (unknown : forall type : NodeType, type.name ≠ name) :
      NodeFault role members { path := [], cause := .unknownNodeType name }
  | refused {type : NodeType}
      (given : members.get? "node_type" = some (.string type.name))
      (refused : role.admits type = false) :
      NodeFault role members { path := [], cause := .unexpectedNode type role }
  | location {fault : TreeFault}
      (h : IsLeafFault [.key "location"] (present? members "location") .location
        fault) :
      NodeFault role members fault
  | coordinate {inner : Json.Members} {key : String} {required : Bool}
      {fault : TreeFault}
      (given : present? members "location" = some (.object inner))
      (known : (key, required) ∈ coordinates)
      (h : IsLeafFault [.key "location", .key key] (present? inner key)
        (.coordinate required) fault) :
      NodeFault role members fault
  | metadata {fault : TreeFault}
      (h : IsLeafFault [.key "metadata"] (present? members "metadata") .metadata
        fault) :
      NodeFault role members fault
  | field {type : NodeType} {field : Field} {fault : TreeFault}
      (given : members.get? "node_type" = some (.string type.name))
      (known : field ∈ type.fields)
      (h : FieldFault members [.key field.key] field.key field.content fault) :
      NodeFault role members fault

section Node

variable {role : Role} {members : Json.Members} {fault : TreeFault}

theorem nodeFault_of_nodeType (h : nodeType members [] = .error fault) :
    NodeFault role members fault := by
  unfold nodeType at h
  cases hgiven : members.get? "node_type" with
  | none =>
      rw [hgiven] at h
      cases h
      exact .kind ⟨_, .missing (by simp [present?, hgiven]) rfl, rfl⟩
  | some value =>
      rw [hgiven] at h
      cases value with
      | null =>
          cases h
          exact .kind
            ⟨_, .missing (by simp [present?, hgiven, Json.isNull]) rfl, rfl⟩
      | string name =>
          cases hname : NodeType.ofName? name with
          | some type =>
              simp [hname] at h
          | none =>
              simp only [hname] at h
              cases h
              refine .unknownKind hgiven fun type heq => ?_
              exact notMem_of_find?_eq_none hname
                (List.mem_map.mpr ⟨type, type.mem_all, heq⟩)
      | boolean _ | number _ | array _ | object _ =>
          cases h
          refine .kind ?_
          have hpresent : present? members "node_type" = some _ :=
            present?_of_get? hgiven rfl
          rw [hpresent]
          exact isLeafFault_wrongType rfl rfl

/-- The members of a place are judged one after the other, each as it has to be
there or not. -/
theorem nodeFault_of_location?
    (h : location? [.key "location"] (present? members "location") =
      .error fault) :
    NodeFault role members fault := by
  cases hgiven : present? members "location" with
  | none =>
      rw [hgiven] at h
      cases h
  | some value =>
      rw [hgiven] at h
      cases value with
      | object inner =>
          have hcount : forall {key : String} (required : Bool),
              (key, required) ∈ coordinates ->
              count? [.key "location", .key key] (present? inner key) =
                .error fault ->
              NodeFault role members fault := fun _ known hfault =>
            .coordinate hgiven known (isLeafFault_of_count? rfl hfault)
          have hrequire : forall {key : String} {n? : Option UInt32},
              (key, true) ∈ coordinates ->
              count? [.key "location", .key key] (present? inner key) = .ok n? ->
              require [.key "location", .key key] n? = .error fault ->
              NodeFault role members fault := by
            intro key n? known hread hmissing
            rcases require_eq_error_iff.mp hmissing with ⟨rfl, rfl⟩
            have habsent : present? inner key = none := count?_eq_ok_iff.mp hread
            exact .coordinate hgiven known ⟨_, .missing habsent rfl, rfl⟩
          rw [location?] at h
          rcases Except.bind_eq_error_iff.mp h with h | ⟨line?, hline, h⟩
          · exact hcount true (by decide) h
          rcases Except.bind_eq_error_iff.mp h with h | ⟨_, _, h⟩
          · exact hrequire (by decide) hline h
          rcases Except.bind_eq_error_iff.mp h with h | ⟨column?, hcolumn, h⟩
          · exact hcount true (by decide) h
          rcases Except.bind_eq_error_iff.mp h with h | ⟨_, _, h⟩
          · exact hrequire (by decide) hcolumn h
          rcases Except.bind_eq_error_iff.mp h with h | ⟨_, _, h⟩
          · exact hcount false (by decide) h
          rcases Except.bind_eq_error_iff.mp h with h | ⟨_, _, h⟩
          · exact hcount false (by decide) h
          cases h
      | null | boolean _ | number _ | string _ | array _ =>
          cases h
          refine .location ?_
          rw [hgiven]
          exact isLeafFault_wrongType rfl rfl

theorem nodeFault_of_nodeOfKind {type : NodeType}
    (given : members.get? "node_type" = some (.string type.name))
    (h : nodeOfKind type members (withReaders members) [] = .error fault) :
    NodeFault role members fault := by
  rcases Except.bind_eq_error_iff.mp h with h | ⟨_, _, h⟩
  · exact nodeFault_of_location? h
  rcases Except.bind_eq_error_iff.mp h with h | ⟨_, _, h⟩
  · exact .metadata (isLeafFault_of_metadata rfl h)
  rcases Except.bind_eq_error_iff.mp h with h | ⟨_, _, h⟩
  · rcases exists_of_rowValues_eq_error h with ⟨field, known, hfault⟩
    exact .field given known hfault
  cases h

/-- What is wrong with an object that cannot be read in a role. -/
theorem nodeFault_of_decode (h : decode role (.object members) = .error fault) :
    NodeFault role members fault := by
  rcases Except.bind_eq_error_iff.mp h with h | ⟨type, htype, h⟩
  · exact nodeFault_of_nodeType h
  · have given := nodeType_eq_ok_iff.mp htype
    cases hadmits : role.admits type with
    | true =>
        rw [hadmits, if_pos rfl, Role.readKind_of_admits hadmits] at h
        exact nodeFault_of_nodeOfKind given h
    | false =>
        rw [hadmits] at h
        cases h
        exact .refused given hadmits

end Node

end Tree
end PseudocodeTools
