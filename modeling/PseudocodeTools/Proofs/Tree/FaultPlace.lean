import Mathlib.Logic.ExistsUnique
import PseudocodeTools.Proofs.Tree.Faults
import PseudocodeTools.Proofs.Tree.PathText
/-!
# Places of faults

The path of a fault leads to a place of which the grammar asks something, and
what is found there is what the fault says.  Of all paths that are written like
it, no other one leads to such a place.
-/

namespace PseudocodeTools

/-!
# Following a path
-/

theorem Path.follow?_append (path rest : Path) (value : Json) :
    follow? (path ++ rest) value = (path.follow? value).bind rest.follow? := by
  induction path generalizing value with
  | nil =>
      rfl
  | cons step path ih =>
      cases step with
      | key name =>
          cases value with
          | object members =>
              simp only [List.cons_append, follow?, Option.bind_assoc, ← ih]
          | null | boolean _ | number _ | string _ | array _ =>
              rfl
      | index position =>
          cases value with
          | array items =>
              simp only [List.cons_append, follow?, Option.bind_assoc, ← ih]
          | null | boolean _ | number _ | string _ | object _ =>
              rfl

theorem Path.follow?_key {members : Json.Members} {key : String} {part : Json}
    (h : members.get? key = some part) :
    follow? [.key key] (.object members) = some part := by
  rw [follow?, h]
  rfl

theorem Path.follow?_item {members : Json.Members} {key : String}
    {items : List Json} {position : Nat} {item : Json}
    (h : members.get? key = some (.array items))
    (hitem : items[position]? = some item) :
    follow? [.key key, .index position] (.object members) = some item := by
  rw [follow?, h, Option.bind_some, follow?, hitem]
  rfl

namespace Tree

theorem present?_eq_none_iff {members : Json.Members} {key : String} :
    present? members key = none ↔
      members.get? key = none ∨ members.get? key = some .null := by
  unfold present?
  cases members.get? key with
  | none =>
      simp
  | some value =>
      cases value <;> simp [Json.isNull]

/-!
# Places
-/

/-- The grammar makes a demand on the place to which a path leads in a value, if
the value stands in the role. -/
inductive Asks : Role -> Json -> Path -> Demand -> Prop where
  | node {role : Role} {value : Json} :
      Asks role value [] (.node role)
  | kind {role : Role} {members : Json.Members} :
      Asks role (.object members) [.key "node_type"] .kind
  | location {role : Role} {members : Json.Members} :
      Asks role (.object members) [.key "location"] .location
  | coordinate {role : Role} {members inner : Json.Members} {key : String}
      {required : Bool}
      (given : members.get? "location" = some (.object inner))
      (known : (key, required) ∈ coordinates) :
      Asks role (.object members) [.key "location", .key key]
        (.coordinate required)
  | metadata {role : Role} {members : Json.Members} :
      Asks role (.object members) [.key "metadata"] .metadata
  | field {role : Role} {members : Json.Members} {type : NodeType}
      {field : Field}
      (tagged : members.get? "node_type" = some (.string type.name))
      (known : field ∈ type.fields) :
      Asks role (.object members) [.key field.key] (.field field.content)
  | child {role role' : Role} {members : Json.Members} {type : NodeType}
      {field : Field} {part : Json} {path : Path} {demand : Demand}
      (tagged : members.get? "node_type" = some (.string type.name))
      (known : field ∈ type.fields)
      (holds : field.content = .child role' ∨
        field.content = .optionalChild role')
      (given : members.get? field.key = some part)
      (below : Asks role' part path demand) :
      Asks role (.object members) (.key field.key :: path) demand
  | item {role role' : Role} {members : Json.Members} {type : NodeType}
      {field : Field} {items : List Json} {position : Nat} {part : Json}
      {path : Path} {demand : Demand}
      (tagged : members.get? "node_type" = some (.string type.name))
      (known : field ∈ type.fields) (holds : field.content = .children role')
      (given : members.get? field.key = some (.array items))
      (listed : items[position]? = some part)
      (below : Asks role' part path demand) :
      Asks role (.object members) (.key field.key :: .index position :: path)
        demand

theorem isPlain_key_of_known {type : NodeType} {field : Field}
    (known : field ∈ type.fields) :
    (Step.key field.key).IsPlain := by
  have hall : forall field, field ∈ type.fields ->
      field.key.toList.any startsStep = false := by
    cases type <;> decide
  exact Step.isPlain_key (hall field known)

/-- No key of the grammar can be taken for several steps. -/
theorem Asks.isPlain {role : Role} {value : Json} {path : Path}
    {demand : Demand} (h : Asks role value path demand) :
    path.IsPlain := by
  have hsingle : forall {step : Step}, step.IsPlain -> Path.IsPlain [step] :=
    fun hstep => List.forall_mem_singleton.mpr hstep
  have hlocation : (Step.key "location").IsPlain :=
    Step.isPlain_key (by decide)
  induction h with
  | node =>
      exact List.forall_mem_nil _
  | kind =>
      exact hsingle (Step.isPlain_key (by decide))
  | location =>
      exact hsingle hlocation
  | coordinate _ known =>
      have hall : forall entry, entry ∈ coordinates ->
          entry.1.toList.any startsStep = false := by
        decide
      exact List.forall_mem_cons.mpr
        ⟨hlocation, hsingle (Step.isPlain_key (hall _ known))⟩
  | metadata =>
      exact hsingle (Step.isPlain_key (by decide))
  | field _ known =>
      exact hsingle (isPlain_key_of_known known)
  | child _ known _ _ _ ih =>
      exact List.forall_mem_cons.mpr ⟨isPlain_key_of_known known, ih⟩
  | item _ known _ _ _ _ ih =>
      exact List.forall_mem_cons.mpr ⟨isPlain_key_of_known known,
        List.forall_mem_cons.mpr ⟨True.intro, ih⟩⟩

end Tree

/-!
# What is found
-/

/-- What the cause of a fault says is found where a path leads in a value. -/
def TreeCause.ShowsAt (value : Json) (path : Path) : TreeCause -> Prop
  | .missingField =>
      exists (parent : Path) (key : String) (members : Json.Members),
        path = parent ++ [.key key] ∧
        parent.follow? value = some (.object members) ∧
        (members.get? key = none ∨ members.get? key = some .null)
  | .wrongType expected found =>
      exists part, path.follow? value = some part ∧ part.kind = found ∧
        expected.admits part = false
  | .unknownNodeType found =>
      exists members : Json.Members,
        path.follow? value = some (.object members) ∧
        members.get? "node_type" = some (.string found) ∧
        forall type : NodeType, type.name ≠ found
  | .unexpectedNode found role =>
      exists members : Json.Members,
        path.follow? value = some (.object members) ∧
        members.get? "node_type" = some (.string found.name) ∧
        role.admits found = false
  | .unknownWord vocabulary found =>
      path.follow? value = some (.string found) ∧ found ∉ vocabulary.words

/-- The demand that is not met when there is a fault. -/
def TreeCause.Breaks (demand : Demand) : TreeCause -> Prop
  | .missingField => demand.isRequired = true
  | .wrongType expected _ => demand.expectation? = some expected
  | .unknownNodeType _ => exists role, demand = .node role
  | .unexpectedNode _ role => demand = .node role
  | .unknownWord vocabulary _ => demand.vocabulary? = some vocabulary

/-- Where a path leads in a value that stands in the role, the grammar makes a
demand, and what is found there does not meet it. -/
def TreeCause.IsAt (cause : TreeCause) (role : Role) (value : Json)
    (path : Path) : Prop :=
  cause.ShowsAt value path ∧
    exists demand, Tree.Asks role value path demand ∧ cause.Breaks demand

section IsAt

variable {cause : TreeCause} {role role' : Role} {value part : Json}
  {base path : Path}

theorem TreeCause.ShowsAt.below (h : cause.ShowsAt part path)
    (hbase : base.follow? value = some part) :
    cause.ShowsAt value (base ++ path) := by
  have hfollow : forall rest : Path,
      Path.follow? (base ++ rest) value = rest.follow? part := by
    intro rest
    rw [Path.follow?_append, hbase]
    rfl
  cases cause with
  | missingField =>
      rcases h with ⟨parent, key, members, rfl, hparent, habsent⟩
      refine ⟨base ++ parent, key, members, ?_, ?_, habsent⟩
      · rw [List.append_assoc]
      · rw [hfollow, hparent]
  | wrongType expected found =>
      rcases h with ⟨inner, hinner, hkind, hrefused⟩
      exact ⟨inner, (hfollow path).trans hinner, hkind, hrefused⟩
  | unknownNodeType found =>
      rcases h with ⟨members, hmembers, hkind, hunknown⟩
      exact ⟨members, (hfollow path).trans hmembers, hkind, hunknown⟩
  | unexpectedNode found expected =>
      rcases h with ⟨members, hmembers, hkind, hrefused⟩
      exact ⟨members, (hfollow path).trans hmembers, hkind, hrefused⟩
  | unknownWord vocabulary found =>
      exact ⟨(hfollow path).trans h.1, h.2⟩

/-- A fault of a part is one of the whole. -/
theorem TreeCause.IsAt.below (h : cause.IsAt role' part path)
    (hbase : base.follow? value = some part)
    (hasks : forall {demand}, Tree.Asks role' part path demand ->
      Tree.Asks role value (base ++ path) demand) :
    cause.IsAt role value (base ++ path) := by
  rcases h with ⟨hshows, demand, hdemand, hbreaks⟩
  exact ⟨hshows.below hbase, demand, hasks hdemand, hbreaks⟩

end IsAt

namespace Tree

/-!
# Faults of a reader
-/

section Reader

variable {role : Role} {value : Json} {members : Json.Members}
  {fault : TreeFault}

theorem isAt_of_leafFault {base : Path} {key : String} {demand : Demand}
    (hbase : base.follow? value = some (.object members))
    (hasks : Asks role value (base ++ [.key key]) demand)
    (h : IsLeafFault (base ++ [.key key]) (present? members key) demand
      fault) :
    fault.cause.IsAt role value fault.path := by
  have hfollow : forall {part}, present? members key = some part ->
      Path.follow? (base ++ [.key key]) value = some part := by
    intro part hpart
    rw [Path.follow?_append, hbase]
    exact Path.follow?_key (get?_of_present? hpart)
  rcases h with ⟨cause, hcause, rfl⟩
  cases hcause with
  | missing absent required =>
      exact ⟨⟨base, key, members, rfl, hbase, present?_eq_none_iff.mp absent⟩,
        demand, hasks, required⟩
  | wrongType given asked refused =>
      exact ⟨⟨_, hfollow given, rfl, refused⟩, demand, hasks, asked⟩
  | unknownWord given asked unknown =>
      exact ⟨⟨hfollow given, unknown⟩, demand, hasks, asked⟩

/-- The faults of parts are where they say. -/
theorem isAt_of_nodeFault
    (ih : forall {part role' fault}, members.Holds part ->
      decode role' part = .error fault ->
      fault.cause.IsAt role' part fault.path)
    (h : NodeFault role members fault) :
    fault.cause.IsAt role (.object members) fault.path := by
  have hroot : Path.follow? [] (.object members) = some (.object members) :=
    rfl
  cases h with
  | kind h =>
      exact isAt_of_leafFault hroot .kind h
  | unknownKind given unknown =>
      exact ⟨⟨members, rfl, given, unknown⟩, .node role, .node, role, rfl⟩
  | refused given refused =>
      exact ⟨⟨members, rfl, given, refused⟩, .node role, .node, rfl⟩
  | location h =>
      exact isAt_of_leafFault hroot .location h
  | coordinate given known h =>
      have hget := get?_of_present? given
      exact isAt_of_leafFault (Path.follow?_key hget) (.coordinate hget known) h
  | metadata h =>
      exact isAt_of_leafFault hroot .metadata h
  | field tagged known h =>
      cases h with
      | leaf h =>
          exact isAt_of_leafFault hroot (.field tagged known) h
      | child holds given below =>
          have hget := get?_of_present? given
          exact (ih ⟨_, _, hget, Or.inl rfl⟩ below).below
            (Path.follow?_key hget) (Asks.child tagged known holds hget)
      | item holds given listed below =>
          have hget := get?_of_present? given
          have hmem := List.mem_of_getElem? listed
          exact (ih ⟨_, _, hget, Or.inr ⟨_, rfl, hmem⟩⟩ below).below
            (Path.follow?_item hget listed)
            (Asks.item tagged known holds hget listed)

theorem isAt_of_decode (h : decode role value = .error fault) :
    fault.cause.IsAt role value fault.path := by
  induction hsize : sizeOf value using Nat.strongRecOn
    generalizing role value fault with
  | ind size ih =>
      cases value with
      | object members =>
          refine isAt_of_nodeFault ?_ (nodeFault_of_decode h)
          intro part role' fault' hheld hpart
          exact ih (sizeOf part) (hsize ▸ hheld.sizeOf_lt) hpart rfl
      | null | boolean _ | number _ | string _ | array _ =>
          cases h
          exact ⟨⟨_, rfl, rfl, rfl⟩, .node role, .node, rfl⟩

end Reader

/-!
# Paths of faults
-/

/-- The path of a fault, as it is written, belongs to exactly one sequence of
keys and positions that leads to a fault of this cause.  Another sequence that
is written alike has to take a key with a dot or a bracket, and leads nowhere
that the grammar asks for anything. -/
theorem path_points_at_fault {role : Role} {value : Json} {fault : TreeFault}
    (h : decode role value = .error fault) :
    (∃! path : Path, path.text = fault.path.text ∧
      fault.cause.IsAt role value path) ∧
    forall path : Path, path.IsPlain -> path.text = fault.path.text ->
      path = fault.path := by
  have hat := isAt_of_decode h
  have hplain : fault.path.IsPlain := by
    rcases hat.2 with ⟨_, hasks, _⟩
    exact hasks.isPlain
  have hunique : forall path : Path, path.IsPlain ->
      path.text = fault.path.text -> path = fault.path :=
    fun _ hpath htext => Path.eq_of_text_eq hpath hplain htext
  refine ⟨⟨fault.path, ⟨rfl, hat⟩, ?_⟩, hunique⟩
  intro path hpath
  rcases hpath with ⟨htext, _, _, hasks, _⟩
  exact hunique path hasks.isPlain htext

/-- A block with a number for its only statement, and with an unknown member
whose key is written like the place of that statement. -/
def blockOfNumber : Json :=
  .object
    [("node_type", .string "block"),
      ("statements", .array [.number (.ofUInt32 5)]),
      ("statements[0]", .number (.ofUInt32 5))]

def blockOfNumberFault : TreeFault :=
  { path := [.key "statements", .index 0], cause := .wrongType .node .number }

theorem path_points_at_number :
    decode .any blockOfNumber = .error blockOfNumberFault ∧
    Path.text [.key "statements[0]"] = blockOfNumberFault.path.text ∧
    (∃! path : Path, path.text = blockOfNumberFault.path.text ∧
      blockOfNumberFault.cause.IsAt .any blockOfNumber path) ∧
    forall path : Path, path.IsPlain ->
      path.text = blockOfNumberFault.path.text ->
      path = blockOfNumberFault.path := by
  have hfault : decode .any blockOfNumber = .error blockOfNumberFault := rfl
  exact ⟨hfault, by decide, path_points_at_fault hfault⟩

/-- If the grammar is not asked, the unknown member is a number as well, so the
written path belongs to two sequences that lead to a fault of this cause. -/
theorem two_paths_to_numbers :
    decode .any blockOfNumber = .error blockOfNumberFault ∧
    ¬ ∃! path : Path, path.text = blockOfNumberFault.path.text ∧
      blockOfNumberFault.cause.ShowsAt blockOfNumber path := by
  refine ⟨rfl, fun hone => ?_⟩
  have hstatement : blockOfNumberFault.cause.ShowsAt blockOfNumber
      [.key "statements", .index 0] :=
    ⟨.number (.ofUInt32 5), rfl, rfl, rfl⟩
  have hunknown : blockOfNumberFault.cause.ShowsAt blockOfNumber
      [.key "statements[0]"] :=
    ⟨.number (.ofUInt32 5), rfl, rfl, rfl⟩
  have hsame := hone.unique ⟨rfl, hstatement⟩ ⟨by decide, hunknown⟩
  exact absurd hsame (by decide)

end Tree
end PseudocodeTools
