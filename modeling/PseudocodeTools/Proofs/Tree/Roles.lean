import PseudocodeTools.Proofs.Tree.Reading
/-!
# Reading in different roles

A role decides whether a node is admitted, and nothing else: what is admitted is
read as it is read where every node may stand.
-/

namespace PseudocodeTools
namespace Tree

/-- The value is an object that names a kind of node. -/
def Names (value : Json) (type : NodeType) : Prop :=
  exists members : Json.Members, value = .object members ∧
    members.get? "node_type" = some (.string type.name)

section Object

variable {role : Role} {members : Json.Members} {type : NodeType}

/-- The kind that is named decides which fields are read. -/
theorem decode_of_admits (h : members.get? "node_type" = some (.string type.name))
    (admitted : role.admits type = true) :
    decode role (.object members) =
      nodeOfKind type members (withReaders members) [] := by
  change nodeOfMembers members (withReaders members) role [] = _
  rw [nodeOfMembers, nodeType_eq_ok_iff.mpr h]
  change (if role.admits type = true then _ else _) = _
  rw [if_pos admitted, Role.readKind_of_admits admitted]

theorem decode_of_not_admits
    (h : members.get? "node_type" = some (.string type.name))
    (refused : role.admits type = false) :
    decode role (.object members) =
      .error { path := [], cause := .unexpectedNode type role } := by
  change nodeOfMembers members (withReaders members) role [] = _
  rw [nodeOfMembers, nodeType_eq_ok_iff.mpr h]
  change (if role.admits type = true then _ else _) = _
  rw [refused]
  rfl

end Object

/-- Without a known kind the role is not asked. -/
theorem exists_decode_eq_error_of_not_names {value : Json}
    (h : forall type, ¬ Names value type) :
    exists fault, forall role, decode role value = .error fault := by
  cases value with
  | object members =>
      cases hkind : nodeType members [] with
      | ok type =>
          have hget := nodeType_eq_ok_iff.mp hkind
          exact (h type ⟨members, rfl, hget⟩).elim
      | error fault =>
          refine ⟨fault, fun role => ?_⟩
          change nodeOfMembers members (withReaders members) role [] = _
          rw [nodeOfMembers, hkind]
          rfl
  | null | boolean _ | number _ | string _ | array _ =>
      exact ⟨_, fun _ => rfl⟩

theorem exists_row_of_nodeOfKind {type : NodeType} {members : Json.Members}
    {path : Path} {node : Node}
    (h : nodeOfKind type members (withReaders members) path = .ok node) :
    exists frame row, node = .mk frame (.ofRow type row) := by
  rcases nodeOfKind_eq_ok_iff.mp h with ⟨_, _, row, _, _, _, hnode⟩
  exact ⟨_, row, hnode⟩

theorem names_of_decodes {role : Role} {value : Json} {node : Node}
    (h : Decodes role value node) :
    Names value node.type ∧ role.admits node.type = true := by
  rcases decodes_iff.mp h with ⟨members, rfl, hobject⟩
  rcases decodes_object_iff.mp hobject with ⟨frame, type, row, rfl, hspells⟩
  have htype : (Node.mk frame (.ofRow type row)).type = type :=
    Payload.type_ofRow type row
  rw [htype]
  exact ⟨⟨members, rfl, hspells.kind⟩, hspells.admitted⟩

/-- In a role that admits the kind that is named, a value is read as it is read
where every kind is admitted: the same fault is found, or the same fields of the
kind that is named.  In a role that does not admit it, that is the fault.  Where
no kind is named, the fault is the same in all roles.  So no node is ever read
by the fields of another kind. -/
theorem decode_agrees_in_roles (role : Role) (value : Json) :
    (forall type, Names value type -> role.admits type = true ->
      (exists fault, decode role value = .error fault ∧
        decode .any value = .error fault) ∨
      exists frame row,
        decode role value = .ok (.mk frame (.ofRow type row)) ∧
        decode .any value = .ok (.mk frame (.ofRow type row))) ∧
    (forall type, Names value type -> role.admits type = false ->
      decode role value =
        .error { path := [], cause := .unexpectedNode type role }) ∧
    ((forall type, ¬ Names value type) ->
      exists fault, decode role value = .error fault ∧
        decode .any value = .error fault) ∧
    forall node, decode role value = .ok node ->
      Names value node.type ∧ role.admits node.type = true ∧
        role.readKind node.type = node.type := by
  refine ⟨?_, ?_, ?_, ?_⟩
  · intro type hnames admitted
    rcases hnames with ⟨members, rfl, hget⟩
    rw [decode_of_admits hget admitted,
      decode_of_admits hget (rfl : Role.any.admits type = true)]
    cases hread : nodeOfKind type members (withReaders members) [] with
    | error fault =>
        exact Or.inl ⟨fault, rfl, rfl⟩
    | ok node =>
        rcases exists_row_of_nodeOfKind hread with ⟨frame, row, rfl⟩
        exact Or.inr ⟨frame, row, rfl, rfl⟩
  · intro type hnames refused
    rcases hnames with ⟨members, rfl, hget⟩
    exact decode_of_not_admits hget refused
  · intro hnames
    rcases exists_decode_eq_error_of_not_names hnames with ⟨fault, hfault⟩
    exact ⟨fault, hfault role, hfault .any⟩
  · intro node hnode
    rcases names_of_decodes hnode with ⟨hnames, admitted⟩
    exact ⟨hnames, admitted, Role.readKind_of_admits admitted⟩

/-- An item of a list. -/
def itemOfList : Json :=
  .object
    [("array", .object
        [("name", .string "xs"), ("node_type", .string "variable")]),
      ("node_type", .string "array_access")]

theorem decode_itemOfList :
    ((exists fault, decode .target itemOfList = .error fault ∧
        decode .any itemOfList = .error fault) ∨
      exists frame row,
        decode .target itemOfList = .ok (.mk frame (.ofRow .access row)) ∧
        decode .any itemOfList = .ok (.mk frame (.ofRow .access row))) ∧
    (exists node, decode .target itemOfList = .ok node) ∧
    decode (.only .var) itemOfList =
      .error { path := [], cause := .unexpectedNode .access (.only .var) } ∧
    exists fault, decode .expression (.array [itemOfList]) = .error fault ∧
      decode .any (.array [itemOfList]) = .error fault := by
  have hnames : Names itemOfList .access := ⟨_, rfl, rfl⟩
  have hnone : forall type, ¬ Names (.array [itemOfList]) type := by
    intro type h
    rcases h with ⟨_, hobject, _⟩
    cases hobject
  refine ⟨?_, ⟨_, rfl⟩, ?_, ?_⟩
  · exact (decode_agrees_in_roles .target itemOfList).1 .access hnames rfl
  · exact (decode_agrees_in_roles (.only .var) itemOfList).2.1 .access hnames rfl
  · exact (decode_agrees_in_roles .expression _).2.2.1 hnone

end Tree
end PseudocodeTools
