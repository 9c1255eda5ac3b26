import PseudocodeTools.Proofs.Tree.FaultPlace
import PseudocodeTools.Proofs.Tree.Row
import PseudocodeTools.Tree.Build
/-!
# Changing a part

A path leads to a part of a value, and to a node of the tree that is read from
it.  Either may be changed in its place; where a path leads nowhere nothing
changes.
-/

namespace PseudocodeTools

/-!
# Parts of values
-/

/-- The members with the value under one key changed. -/
def Json.Members.update (key : String) (f : Json -> Json)
    (members : Json.Members) : Json.Members :=
  members.map fun (k, value) => (k, if k = key then f value else value)

theorem Json.Members.get?_update (members : Json.Members) (k key : String)
    (f : Json -> Json) :
    (members.update k f).get? key =
      if key = k then (members.get? key).map f else members.get? key := by
  induction members with
  | nil =>
      simp [update]
  | cons member rest ih =>
      rcases member with ⟨k', value⟩
      change get? ((k', if k' = k then f value else value) :: update k f rest)
        key = _
      rw [get?_cons, get?_cons, ih]
      by_cases hkey : key = k'
      · simp only [hkey, if_true]
        by_cases hk : k' = k <;> simp [hk]
      · simp [hkey]

/-- The value with the part changed to which a path leads. -/
def Path.change (f : Json -> Json) : Path -> Json -> Json
  | [], value => f value
  | .key name :: rest, .object members =>
      .object (Json.Members.update name (change f rest) members)
  | .index position :: rest, .array items =>
      .array (items.modify position (change f rest))
  | _ :: _, value => value

/-- An object with a member put in; other values stay as they are. -/
def Json.addMember (key : String) (x : Json) : Json -> Json
  | object members => object (Members.insert key x members)
  | value => value

/-!
# Parts of trees

A field is found by its key.  It holds one child, which is reached by the key
alone, or a list of children, which are reached by the key and a position.
-/

section Row

variable {ν α : Type}

/-- The child of a field that holds one. -/
def Content.child? : (content : Content) -> content.Value ν -> Option ν
  | child _, x => some x
  | optionalChild _, x? => x?
  | text _, _ | optionalText, _ | flag _, _ | count _, _ | factor _, _ => none
  | operator _, _ | loopType _, _ | raw, _ | children _, _ => none

/-- The child at a position of a field that holds a list. -/
def Content.item? (position : Nat) :
    (content : Content) -> content.Value ν -> Option ν
  | children _, (xs : List ν) => xs[position]?
  | text _, _ | optionalText, _ | flag _, _ | count _, _ | factor _, _ => none
  | operator _, _ | loopType _, _ | raw, _ | child _, _ => none
  | optionalChild _, _ => none

def Content.changeChild (f : ν -> ν) :
    (content : Content) -> content.Value ν -> content.Value ν
  | child _, x => f x
  | optionalChild _, x? => x?.map f
  | text _, x | optionalText, x | flag _, x | count _, x | factor _, x => x
  | operator _, x | loopType _, x | raw, x | children _, x => x

def Content.changeItem (position : Nat) (f : ν -> ν) :
    (content : Content) -> content.Value ν -> content.Value ν
  | children _, xs => xs.modify position f
  | text _, x | optionalText, x | flag _, x | count _, x | factor _, x => x
  | operator _, x | loopType _, x | raw, x | child _, x => x
  | optionalChild _, x => x

theorem Content.child?_changeChild (f : ν -> ν) (content : Content)
    (x : content.Value ν) :
    content.child? (content.changeChild f x) = (content.child? x).map f := by
  cases content <;> rfl

theorem Content.item?_changeItem (position : Nat) (f : ν -> ν)
    (content : Content) (x : content.Value ν) :
    content.item? position (content.changeItem position f x) =
      (content.item? position x).map f := by
  cases content with
  | children role =>
      change List ν at x
      exact List.getElem?_modify_eq f position x
  | text _ | optionalText | flag _ | count _ | factor _ | operator _
  | loopType _ | raw | child _ | optionalChild _ =>
      rfl

/-- What is taken out of the field with a key. -/
def Row.find? (key : String)
    (get : (content : Content) -> content.Value ν -> Option α) :
    (fields : List Field) -> Row ν fields -> Option α
  | [], () => none
  | field :: rest, (x, xs) =>
      if field.key = key then get field.content x else find? key get rest xs

/-- The row with the value of the field with a key changed. -/
def Row.mapField (key : String)
    (f : (content : Content) -> content.Value ν -> content.Value ν) :
    (fields : List Field) -> Row ν fields -> Row ν fields
  | [], () => ()
  | field :: rest, (x, xs) =>
      (if field.key = key then f field.content x else x,
        mapField key f rest xs)

theorem Row.mapField_of_notMem {key : String}
    {f : (content : Content) -> content.Value ν -> content.Value ν}
    {fields : List Field} (hkey : key ∉ fields.map Field.key)
    (row : Row ν fields) :
    Row.mapField key f fields row = row := by
  induction fields with
  | nil =>
      rfl
  | cons field rest ih =>
      rcases row with ⟨x, xs⟩
      rw [List.map_cons, List.mem_cons, not_or] at hkey
      rw [mapField, if_neg (Ne.symm hkey.1), ih hkey.2]

theorem Row.find?_mapField {key : String} {f : α -> α}
    {get : (content : Content) -> content.Value ν -> Option α}
    {change : (content : Content) -> content.Value ν -> content.Value ν}
    (hget : forall content x,
      get content (change content x) = (get content x).map f)
    {fields : List Field} (row : Row ν fields) :
    Row.find? key get fields (Row.mapField key change fields row) =
      (Row.find? key get fields row).map f := by
  induction fields with
  | nil =>
      rfl
  | cons field rest ih =>
      rcases row with ⟨x, xs⟩
      by_cases hkey : field.key = key
      · simp only [mapField, find?, hkey, if_true, hget]
      · simp only [mapField, find?, hkey, if_false, ih]

/-- A field is found by its key where no other one has the same. -/
theorem Row.exists_find?_eq
    {P : (field : Field) -> field.content.Value ν -> Prop}
    {fields : List Field} {row : Row ν fields}
    (hnodup : (fields.map Field.key).Nodup) (h : Row.Forall P fields row)
    {field : Field} (hfield : field ∈ fields) :
    exists x, P field x ∧
      forall get : (content : Content) -> content.Value ν -> Option α,
        Row.find? field.key get fields row = get field.content x := by
  induction fields with
  | nil =>
      cases hfield
  | cons first rest ih =>
      rcases row with ⟨x, xs⟩
      rw [List.map_cons, List.nodup_cons] at hnodup
      rcases List.mem_cons.mp hfield with rfl | hrest
      · exact ⟨x, h.1, fun get => if_pos rfl⟩
      · rcases ih hnodup.2 h.2 hrest with ⟨y, hy, hfind⟩
        have hne : first.key ≠ field.key := fun heq =>
          hnodup.1 (heq ▸ List.mem_map_of_mem hrest)
        exact ⟨y, hy, fun get => (if_neg hne).trans (hfind get)⟩

end Row

namespace Payload

variable {ν α : Type}

def find? (key : String)
    (get : (content : Content) -> content.Value ν -> Option α)
    (payload : Payload ν) : Option α :=
  Row.find? key get _ payload.toRow

def mapField (key : String)
    (f : (content : Content) -> content.Value ν -> content.Value ν)
    (payload : Payload ν) : Payload ν :=
  ofRow payload.type (Row.mapField key f _ payload.toRow)

theorem find?_ofRow (key : String)
    (get : (content : Content) -> content.Value ν -> Option α)
    (type : NodeType) (row : Row ν type.fields) :
    (ofRow type row).find? key get = Row.find? key get type.fields row := by
  cases type <;> rfl

theorem mapField_ofRow (key : String)
    (f : (content : Content) -> content.Value ν -> content.Value ν)
    (type : NodeType) (row : Row ν type.fields) :
    (ofRow type row).mapField key f =
      ofRow type (Row.mapField key f type.fields row) := by
  cases type <;> rfl

theorem find?_mapField (key : String) {f : α -> α}
    {get : (content : Content) -> content.Value ν -> Option α}
    {change : (content : Content) -> content.Value ν -> content.Value ν}
    (hget : forall content x,
      get content (change content x) = (get content x).map f)
    (payload : Payload ν) :
    (payload.mapField key change).find? key get =
      (payload.find? key get).map f := by
  unfold mapField
  rw [find?_ofRow]
  exact Row.find?_mapField hget payload.toRow

end Payload

namespace Node

/-- The node to which a path leads. -/
def part? : Path -> Node -> Option Node
  | [], node => some node
  | .key key :: .index position :: rest, mk _ payload =>
      (payload.find? key (Content.item? position)).bind fun node =>
        part? rest node
  | .key key :: rest, mk _ payload =>
      (payload.find? key Content.child?).bind fun node => part? rest node
  | .index _ :: _, _ => none

/-- The tree with the node changed to which a path leads. -/
def change (f : Node -> Node) : Path -> Node -> Node
  | [], node => f node
  | .key key :: .index position :: rest, mk frame payload =>
      mk frame (payload.mapField key
        (Content.changeItem position (change f rest)))
  | .key key :: rest, mk frame payload =>
      mk frame (payload.mapField key (Content.changeChild (change f rest)))
  | .index _ :: _, node => node

/-- What stands behind a key that is not followed by a position is a child. -/
theorem part?_key {rest : Path}
    (hrest : forall position behind, rest ≠ .index position :: behind)
    (key : String) (frame : Frame) (payload : Payload Node) :
    part? (.key key :: rest) (mk frame payload) =
      (payload.find? key Content.child?).bind fun node => part? rest node := by
  rw [part?]
  exact hrest

theorem change_key {rest : Path}
    (hrest : forall position behind, rest ≠ .index position :: behind)
    (f : Node -> Node) (key : String) (frame : Frame) (payload : Payload Node) :
    change f (.key key :: rest) (mk frame payload) =
      mk frame (payload.mapField key (Content.changeChild (change f rest))) := by
  rw [change]
  exact hrest

/-- Where a path leads, the changed node stands after the change. -/
theorem part?_change (f : Node -> Node) (path : Path) (node : Node) :
    (node.change f path).part? path = (node.part? path).map f := by
  fun_induction part? path node with
  | case1 node =>
      rfl
  | case2 key position rest frame payload ih =>
      have hitem := Payload.find?_mapField key
        (Content.item?_changeItem position (change f rest)) payload
      rw [change, part?, hitem]
      cases payload.find? key (Content.item? position) with
      | none =>
          rfl
      | some node =>
          exact ih node
  | case3 key rest frame payload hrest ih =>
      have hchild := Payload.find?_mapField key
        (Content.child?_changeChild (change f rest)) payload
      rw [change_key hrest, part?_key hrest, hchild]
      cases payload.find? key Content.child? with
      | none =>
          rfl
      | some node =>
          exact ih node
  | case4 =>
      rfl

end Node
end PseudocodeTools
