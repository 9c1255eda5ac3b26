import PseudocodeTools.Proofs.Outcome
import PseudocodeTools.Tree.Decode
/-!
# Reading at another place

Where a value stands has no influence on the tree that is read from it, and only
shows in the path of a fault.  A reader that is given a longer path gives the
same result, with the added steps in front of the path of its fault.
-/

namespace PseudocodeTools

/-- The fault as seen from a value that holds the faulty one at `base`. -/
def TreeFault.under (base : Path) (fault : TreeFault) : TreeFault :=
  { fault with path := base ++ fault.path }

namespace Tree

variable {α β : Type}

/-- The reader depends on the path in its faults only. -/
def Relocates (read : Path -> Except TreeFault α) : Prop :=
  forall base path,
    read (base ++ path) = (read path).mapError (TreeFault.under base)

/-!
# Readers put together
-/

theorem relocates_ok (x : α) : Relocates fun _ => .ok x := by
  intro base path
  rfl

theorem relocates_fault (cause : TreeCause) :
    Relocates fun path =>
      (.error { path := path, cause := cause } : Except TreeFault α) := by
  intro base path
  rfl

theorem Relocates.bind {first : Path -> Except TreeFault α}
    {next : α -> Path -> Except TreeFault β} (hfirst : Relocates first)
    (hnext : forall x, Relocates (next x)) :
    Relocates fun path => first path >>= fun x => next x path := by
  intro base path
  change (first (base ++ path) >>= fun x => next x (base ++ path)) =
    (first path >>= fun x => next x path).mapError (TreeFault.under base)
  rw [hfirst base path]
  cases first path with
  | error fault =>
      rfl
  | ok x =>
      exact hnext x base path

/-- A reader of a part of the value at the path. -/
theorem Relocates.below {read : Path -> Except TreeFault α}
    (h : Relocates read) (steps : Path) :
    Relocates fun path => read (path ++ steps) := by
  intro base path
  change read (base ++ path ++ steps) = _
  rw [List.append_assoc]
  exact h base (path ++ steps)

theorem relocates_require (x? : Option α) :
    Relocates fun path => require path x? := by
  cases x? with
  | none =>
      exact relocates_fault _
  | some x =>
      exact relocates_ok x

/-!
# Leaves
-/

theorem relocates_text? (member : Option Json) :
    Relocates fun path => text? path member := by
  intro base path
  rcases member with _ | value
  · rfl
  · cases value <;> rfl

theorem relocates_flag? (member : Option Json) :
    Relocates fun path => flag? path member := by
  intro base path
  rcases member with _ | value
  · rfl
  · cases value <;> rfl

theorem relocates_factor? (member : Option Json) :
    Relocates fun path => factor? path member := by
  intro base path
  rcases member with _ | value
  · rfl
  · cases value <;> rfl

theorem relocates_count? (member : Option Json) :
    Relocates fun path => count? path member := by
  intro base path
  rcases member with _ | value
  · rfl
  · cases value with
    | number n =>
        unfold count?
        dsimp only
        cases n.toUInt32? <;> rfl
    | null | boolean _ | string _ | array _ | object _ =>
        rfl

theorem relocates_operator? (member : Option Json) :
    Relocates fun path => operator? path member := by
  intro base path
  rcases member with _ | value
  · rfl
  · cases value with
    | string s =>
        unfold operator?
        dsimp only
        cases Operator.ofName? s <;> rfl
    | null | boolean _ | number _ | array _ | object _ =>
        rfl

theorem relocates_loopType? (member : Option Json) :
    Relocates fun path => loopType? path member := by
  intro base path
  rcases member with _ | value
  · rfl
  · cases value with
    | string s =>
        unfold loopType?
        dsimp only
        cases LoopType.ofName? s <;> rfl
    | null | boolean _ | number _ | array _ | object _ =>
        rfl

theorem relocates_metadata (member : Option Json) :
    Relocates fun path => metadata path member := by
  intro base path
  rcases member with _ | value
  · rfl
  · cases value <;> rfl

theorem relocates_location? (member : Option Json) :
    Relocates fun path => location? path member := by
  rcases member with _ | value
  · exact relocates_ok none
  · cases value with
    | object members =>
        have hcount : forall key, Relocates fun path =>
            count? (path ++ [.key key]) (present? members key) := fun key =>
          (relocates_count? (present? members key)).below [.key key]
        have hrequire : forall key (n? : Option UInt32), Relocates fun path =>
            require (path ++ [.key key]) n? := fun key n? =>
          (relocates_require n?).below [.key key]
        exact (hcount "line").bind fun line =>
          (hrequire "line" line).bind fun _ =>
          (hcount "column").bind fun column =>
          (hrequire "column" column).bind fun _ =>
          (hcount "end_line").bind fun _ =>
          (hcount "end_column").bind fun _ =>
          relocates_ok _
    | null | boolean _ | number _ | string _ | array _ =>
        exact relocates_fault _

/-!
# Fields

The readers for the members of a node are taken to relocate.
-/

/-- The readers for a member relocate. -/
def Child.Relocates (child : Child) : Prop :=
  (forall role, Tree.Relocates (child.node role)) ∧
    forall role, Tree.Relocates (child.nodes role)

variable {children : List (String × Child)}

theorem mem_of_lookup {key : String} {child : Child}
    (h : children.lookup key = some child) : (key, child) ∈ children := by
  rcases List.lookup_eq_some_iff.mp h with ⟨front, rest, hsplit, _⟩
  rw [hsplit]
  simp

theorem mem_of_presentChild? {key : String} {child : Child}
    (h : presentChild? children key = some child) : (key, child) ∈ children :=
  mem_of_lookup (Option.filter_eq_some_iff.mp h).1

theorem relocates_child?
    (hchildren : forall entry, entry ∈ children -> entry.2.Relocates)
    (role : Role) (key : String) :
    Relocates fun path => child? role path (presentChild? children key) := by
  cases h : presentChild? children key with
  | none =>
      exact relocates_ok none
  | some child =>
      intro base path
      have hnode : child.node role (base ++ path) =
          (child.node role path).mapError (TreeFault.under base) :=
        (hchildren _ (mem_of_presentChild? h)).1 role base path
      change (child.node role (base ++ path)).map some =
        ((child.node role path).map some).mapError (TreeFault.under base)
      rw [hnode]
      cases child.node role path <;> rfl

theorem relocates_fieldValue
    (hchildren : forall entry, entry ∈ children -> entry.2.Relocates)
    (key : String) (content : Content) :
    Relocates fun path => fieldValue children path key content := by
  cases content with
  | raw =>
      exact relocates_ok _
  | text fallback =>
      exact (relocates_text? _).bind fun _ => relocates_require _
  | optionalText =>
      exact relocates_text? _
  | flag fallback =>
      exact (relocates_flag? _).bind fun _ => relocates_ok _
  | count fallback =>
      exact (relocates_count? _).bind fun _ => relocates_ok _
  | factor fallback =>
      exact (relocates_factor? _).bind fun _ => relocates_ok _
  | operator fallback =>
      exact (relocates_operator? _).bind fun _ => relocates_require _
  | loopType fallback =>
      exact (relocates_loopType? _).bind fun _ => relocates_ok _
  | child role =>
      exact (relocates_child? hchildren role key).bind fun _ =>
        relocates_require _
  | optionalChild role =>
      exact relocates_child? hchildren role key
  | children role =>
      unfold fieldValue
      cases h : presentChild? children key with
      | none =>
          exact relocates_ok []
      | some child =>
          exact (hchildren _ (mem_of_presentChild? h)).2 role

theorem relocates_rowValues
    (hchildren : forall entry, entry ∈ children -> entry.2.Relocates)
    (fields : List Field) :
    Relocates fun path => rowValues children path fields := by
  induction fields with
  | nil =>
      exact relocates_ok ()
  | cons field rest ih =>
      have hfield :=
        (relocates_fieldValue hchildren field.key field.content).below
          [.key field.key]
      refine hfield.bind fun value => ih.bind fun values => ?_
      exact relocates_ok (show Row Node (field :: rest) from (value, values))

theorem relocates_nodeType (members : Json.Members) :
    Relocates (nodeType members) := by
  intro base path
  unfold nodeType
  rw [List.append_assoc]
  cases members.get? "node_type" with
  | none =>
      rfl
  | some value =>
      cases value with
      | string name =>
          dsimp only
          cases NodeType.ofName? name <;> rfl
      | null | boolean _ | number _ | array _ | object _ =>
          rfl

theorem relocates_nodeOfKind (type : NodeType) (members : Json.Members)
    (hchildren : forall entry, entry ∈ children -> entry.2.Relocates) :
    Relocates (nodeOfKind type members children) := by
  have hlocation :=
    (relocates_location? (present? members "location")).below [.key "location"]
  have hmetadata :=
    (relocates_metadata (present? members "metadata")).below [.key "metadata"]
  exact hlocation.bind fun _ => hmetadata.bind fun _ =>
    (relocates_rowValues hchildren type.fields).bind fun _ => relocates_ok _

theorem relocates_nodeOfMembers (members : Json.Members)
    (hchildren : forall entry, entry ∈ children -> entry.2.Relocates)
    (role : Role) :
    Relocates (nodeOfMembers members children role) := by
  refine (relocates_nodeType members).bind fun type => ?_
  by_cases hadmits : role.admits type = true
  · simp only [hadmits, if_true]
    exact relocates_nodeOfKind (role.readKind type) members hchildren
  · simp only [hadmits]
    exact relocates_fault _

/-!
# Trees
-/

mutual
theorem relocates_decodeAt : (value : Json) -> (role : Role) ->
    Relocates (decodeAt value role)
  | .object members, role =>
      relocates_nodeOfMembers members (relocates_withReaders members) role
  | .null, _ | .boolean _, _ | .number _, _ | .string _, _ | .array _, _ =>
      relocates_fault _

theorem relocates_decodeArray : (value : Json) -> (role : Role) ->
    Relocates (decodeArray value role)
  | .array items, role => relocates_decodeItems items role 0
  | .null, _ | .boolean _, _ | .number _, _ | .string _, _ | .object _, _ =>
      relocates_fault _

theorem relocates_decodeItems : (items : List Json) -> (role : Role) ->
    (position : Nat) ->
    Relocates fun path => decodeItems items role path position
  | [], _, _ => relocates_ok []
  | item :: rest, role, position =>
      ((relocates_decodeAt item role).below [.index position]).bind fun _ =>
        (relocates_decodeItems rest role (position + 1)).bind fun _ =>
          relocates_ok _

theorem relocates_withReaders : (members : List (String × Json)) ->
    forall entry, entry ∈ withReaders members -> entry.2.Relocates
  | [], _, h => nomatch h
  | (_, value) :: rest, entry, h =>
      match List.mem_cons.mp h with
      | Or.inl heq =>
          heq ▸ ⟨relocates_decodeAt value, relocates_decodeArray value⟩
      | Or.inr hrest => relocates_withReaders rest entry hrest
end

/-- Reading a value at a path is reading it alone, up to the path of a fault. -/
theorem decodeAt_eq_mapError (value : Json) (role : Role) (path : Path) :
    decodeAt value role path =
      (decode role value).mapError (TreeFault.under path) := by
  have h := relocates_decodeAt value role path []
  rw [List.append_nil] at h
  exact h

/-- A tree is read from a value wherever it stands. -/
theorem decodeAt_eq_ok_iff {value : Json} {role : Role} {path : Path}
    {node : Node} :
    decodeAt value role path = .ok node ↔ decode role value = .ok node := by
  rw [decodeAt_eq_mapError]
  cases decode role value with
  | error fault =>
      exact ⟨nofun, nofun⟩
  | ok found =>
      exact Iff.rfl

theorem decodeAt_eq_error_iff {value : Json} {role : Role} {path : Path}
    {fault : TreeFault} :
    decodeAt value role path = .error fault ↔
      exists inner, decode role value = .error inner ∧
        inner.under path = fault := by
  rw [decodeAt_eq_mapError]
  exact Except.mapError_eq_error_iff

end Tree
end PseudocodeTools
