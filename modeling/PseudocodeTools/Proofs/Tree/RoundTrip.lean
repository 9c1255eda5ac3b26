import PseudocodeTools.Proofs.Binary64.Finite
import PseudocodeTools.Proofs.Tree.Parts
import PseudocodeTools.Proofs.Tree.Shape
import PseudocodeTools.Proofs.Tree.Writing
/-!
# Round trip

A tree that was read is well-formed, and a well-formed tree is read back from
the value that it is written as.
-/

namespace PseudocodeTools

namespace Tree

/-!
# Trees that were read
-/

theorem finite_fallback {type : NodeType} {field : Field}
    (hfield : field ∈ type.fields) {fallback : Binary64}
    (hcontent : field.content = .factor fallback) :
    fallback.isFinite = true := by
  have hall : forall field, field ∈ type.fields ->
      forall x, field.content = .factor x -> x = Binary64.one := by
    cases type <;> simp [NodeType.fields, eq_comm]
  rw [hall field hfield fallback hcontent]
  decide

theorem hasFiniteFactor_of_reads {members : Json.Members} {key : String}
    {content : Content} {x : content.Value Node}
    (h : content.Reads Decodes members key x)
    (hfallback : forall fallback, content = .factor fallback ->
      fallback.isFinite = true) :
    content.HasFiniteFactor x := by
  cases content with
  | factor fallback =>
      rcases Content.reads_iff.mp h with ⟨_, hx⟩ | ⟨_, _, m, _, hx⟩
      · change x = fallback at hx
        rw [hx]
        exact hfallback fallback rfl
      · rw [hx]
        exact m.isFinite_toBinary64
  | text _ | optionalText | flag _ | count _ | operator _ | loopType _ | raw
  | child _ | optionalChild _ | children _ =>
      exact True.intro

theorem ordered_rawValue_of_reads {members : Json.Members} {key : String}
    {content : Content} {x : content.Value Node}
    (h : content.Reads Decodes members key x)
    (hordered : (Json.object members).Ordered) {value : Json}
    (hvalue : value ∈ content.rawValues x) :
    value.Ordered := by
  cases content with
  | raw =>
      rcases Content.reads_iff.mp h with ⟨_, hx⟩ | ⟨found, hgiven, hx⟩
      · change x = none at hx
        rw [hx] at hvalue
        cases hvalue
      · change x = some found at hx
        rw [hx] at hvalue
        rw [List.mem_singleton.mp hvalue]
        exact hordered.member (get?_of_given hgiven)
  | text _ | optionalText | flag _ | count _ | factor _ | operator _
  | loopType _ | child _ | optionalChild _ | children _ =>
      cases hvalue

theorem hasKey_extraMembers {type : NodeType} {key : String}
    (hkey : key ∈ type.modelledKeys) (members : Json.Members) :
    (extraMembers type members).hasKey key = false := by
  have hget := Json.Members.get?_filter members
    (fun key => !type.modelledKeys.contains key) key
  have hcontains : type.modelledKeys.contains key = true := by
    simpa using hkey
  unfold Json.Members.hasKey extraMembers
  rw [hget, hcontains]
  rfl

theorem ordered_metadata_of_spells {role : Role} {members : Json.Members}
    {frame : Frame} {type : NodeType} {row : Row Node type.fields}
    (h : SpellsNode role members frame type row)
    (hordered : (Json.object members).Ordered) :
    (Json.object frame.metadata).Ordered := by
  rcases h.metadata with ⟨_, hnone⟩ | hpresent
  · rw [hnone]
    exact Json.ordered_object_iff.mpr ⟨Json.Members.increasing_nil, by simp⟩
  · exact hordered.member (get?_of_present? hpresent)

theorem fits_of_decodes {role : Role} {value : Json} {node : Node}
    (h : Decodes role value node) :
    node.Fits role := by
  refine decodes_induction (motive := fun role _ node => node.Fits role) ?_ h
  intro role members frame type row hspells ih
  refine Node.fits_ofRow_iff.mpr ⟨hspells.admitted, hspells.fields.imp ?_⟩
  intro field x _ hreads place hplace
  rcases exists_part_of_reads hreads hplace with ⟨part, hheld, hpart⟩
  exact ih part _ _ hheld hpart

theorem wellFormed_of_decodes {role : Role} {value : Json} {node : Node}
    (h : Decodes role value node) :
    node.WellFormed := by
  refine decodes_induction (motive := fun _ _ node => node.WellFormed) ?_ h
  intro role members frame type row hspells ih
  refine Node.everywhere_ofRow_iff.mpr ⟨⟨?_, ?_⟩, hspells.fields.imp ?_⟩
  · intro key hkey
    rw [Payload.type_ofRow] at hkey
    rw [hspells.extra]
    exact hasKey_extraMembers hkey members
  · rw [Payload.hasFiniteFactor_ofRow_iff]
    refine hspells.fields.imp fun field x hfield hreads => ?_
    exact hasFiniteFactor_of_reads hreads fun _ => finite_fallback hfield
  · intro field x _ hreads place hplace
    rcases exists_part_of_reads hreads hplace with ⟨part, hheld, hpart⟩
    exact ih part _ _ hheld hpart

theorem ordered_of_decodes {role : Role} {value : Json} {node : Node}
    (h : Decodes role value node) (hordered : value.Ordered) :
    node.Ordered := by
  refine decodes_induction
    (motive := fun _ value node => value.Ordered -> node.Ordered) ?_ h hordered
  intro role members frame type row hspells ih hobject
  refine Node.everywhere_ofRow_iff.mpr ⟨⟨?_, ?_, ?_⟩, hspells.fields.imp ?_⟩
  · exact ordered_metadata_of_spells hspells hobject
  · rw [hspells.extra]
    exact hobject.filter _
  · rw [Payload.forall_rawValues_ofRow_iff]
    refine hspells.fields.imp fun field x _ hreads value hvalue => ?_
    exact ordered_rawValue_of_reads hreads hobject hvalue
  · intro field x _ hreads place hplace
    rcases exists_part_of_reads hreads hplace with ⟨part, hheld, hpart⟩
    exact ih part _ _ hheld hpart (hheld.ordered hobject)

/-!
# Trees that were written
-/

theorem encode_object (node : Node) :
    exists members, encode node = .object members := by
  cases node with
  | mk frame payload =>
      rw [← Payload.ofRow_toRow payload, encode_mk]
      exact ⟨_, rfl⟩

theorem isNull_encode (node : Node) : (encode node).isNull = false := by
  rcases encode_object node with ⟨members, h⟩
  rw [h]
  rfl

theorem forall₂_map_encode {role : Role} {nodes : List Node}
    (h : forall node, node ∈ nodes -> Decodes role (encode node) node) :
    List.Forall₂ (Decodes role) (nodes.map encode) nodes := by
  rw [List.forall₂_map_left_iff, List.forall₂_same]
  exact h

/-- A field is read from the member that is written for it. -/
theorem reads_of_written {members : Json.Members} {key : String}
    {content : Content} {x : content.Value Node}
    (hget : members.get? key = content.toJson? (content.map encode x))
    (hfinite : content.HasFiniteFactor x)
    (hbelow : forall place, place ∈ content.places x ->
      Decodes place.1 (encode place.2) place.2) :
    content.Reads Decodes members key x := by
  unfold Content.Reads Content.given
  cases content with
  | text _ | flag _ | count _ | operator _ | loopType _ =>
      rw [present?_of_get? hget rfl]
      exact rfl
  | factor _ =>
      have hnumber : Json.ofBinary64 x = .number (.real x hfinite) :=
        dif_pos hfinite
      change members.get? key = some (Json.ofBinary64 x) at hget
      rw [hnumber] at hget
      rw [present?_of_get? hget rfl]
      exact ⟨_, rfl, rfl⟩
  | optionalText =>
      cases (x : Option String) with
      | none =>
          rw [present?_of_get?_none hget]
          exact rfl
      | some s =>
          rw [present?_of_get? hget rfl]
          exact ⟨s, rfl, rfl⟩
  | raw =>
      change members.get? key = x at hget
      dsimp only
      rw [hget]
      cases (x : Option Json) <;> exact rfl
  | child role =>
      rw [present?_of_get? hget (isNull_encode x)]
      exact hbelow (role, x) (List.mem_singleton_self _)
  | optionalChild role =>
      change Option Node at x
      cases x with
      | none =>
          rw [present?_of_get?_none hget]
          exact rfl
      | some node =>
          rw [present?_of_get? hget (isNull_encode node)]
          exact ⟨node, rfl, hbelow (role, node) (List.mem_singleton_self _)⟩
  | children role =>
      rw [present?_of_get? hget rfl]
      refine ⟨_, rfl, forall₂_map_encode fun node hnode => ?_⟩
      exact hbelow (role, node) (List.mem_map_of_mem hnode)

theorem spellsLocation_members (location : Location) :
    SpellsLocation location.members location := by
  unfold SpellsLocation present?
  simp only [Location.get?_members]
  refine ⟨rfl, rfl, ?_, ?_⟩
  · cases location.endLine <;> rfl
  · cases location.endColumn <;> rfl

theorem extraMembers_nodeMembers {frame : Frame} {type : NodeType}
    {row : Row Json type.fields} (hextra : frame.extra.Increasing)
    (hunknown : forall key, key ∈ type.modelledKeys ->
      frame.extra.hasKey key = false) :
    extraMembers type (nodeMembers frame type row) = frame.extra := by
  refine Json.Members.Increasing.ext
    ((increasing_nodeMembers frame type row).filter _) hextra ?_
  intro key
  have hget := Json.Members.get?_filter (nodeMembers frame type row)
    (fun key => !type.modelledKeys.contains key) key
  unfold extraMembers
  rw [hget]
  by_cases hkey : key ∈ type.modelledKeys
  · have hnone : frame.extra.get? key = none := by
      simpa [Json.Members.hasKey] using hunknown key hkey
    simp [hkey, hnone]
  · simp [hkey, get?_nodeMembers_extra hkey]

theorem location_nodeMembers {frame : Frame} {type : NodeType}
    {row : Row Json type.fields}
    (hmissing : frame.extra.get? "location" = none) :
    (present? (nodeMembers frame type row) "location" = none ∧
        frame.location = none) ∨
      exists inner location,
        present? (nodeMembers frame type row) "location" =
            some (.object inner) ∧
          frame.location = some location ∧ SpellsLocation inner location := by
  have hget : (nodeMembers frame type row).get? "location" =
      frame.location.map Location.toJson := by
    rw [get?_nodeMembers_location, hmissing, Option.or_none]
  cases hlocation : frame.location with
  | none =>
      rw [hlocation] at hget
      exact Or.inl ⟨present?_of_get?_none hget, rfl⟩
  | some location =>
      rw [hlocation] at hget
      exact Or.inr ⟨location.members, location, present?_of_get? hget rfl, rfl,
        spellsLocation_members location⟩

theorem spellsNode_nodeMembers {role : Role} {frame : Frame} {type : NodeType}
    {row : Row Node type.fields} (hadmitted : role.admits type = true)
    (hextra : frame.extra.Increasing)
    (hunknown : forall key, key ∈ type.modelledKeys ->
      frame.extra.hasKey key = false)
    (hfinite : Row.Forall (fun field x => field.content.HasFiniteFactor x)
      type.fields row)
    (hbelow : Row.Forall
      (fun field x => forall place, place ∈ field.content.places x ->
        Decodes place.1 (encode place.2) place.2)
      type.fields row) :
    SpellsNode role (nodeMembers frame type (Row.map encode type.fields row))
      frame type row := by
  have hmissing : forall key, key ∈ type.modelledKeys ->
      frame.extra.get? key = none := by
    intro key hkey
    simpa [Json.Members.hasKey] using hunknown key hkey
  refine
    { kind := get?_nodeMembers_kind
      admitted := hadmitted
      location := location_nodeMembers (hmissing _ ?_)
      metadata := Or.inr (present?_of_get? get?_nodeMembers_metadata rfl)
      extra := (extraMembers_nodeMembers hextra hunknown).symm
      fields := ?_ }
  · simp [NodeType.modelledKeys, commonKeys]
  · have hget := Row.forall_map.mp
      (@get?_nodeMembers_fields frame type (Row.map encode type.fields row))
    refine (hget.and (hfinite.and hbelow)).imp ?_
    intro field x hfield h
    rcases h with ⟨hwritten, hx, hchildren⟩
    rw [hmissing field.key (NodeType.mem_modelledKeys hfield),
      Option.or_none] at hwritten
    exact reads_of_written hwritten hx hchildren

/-- A well-formed tree is read back from the value that it is written as. -/
theorem decodes_encode {role : Role} {node : Node} (hfits : node.Fits role)
    (hordered : node.Ordered) (hwell : node.WellFormed) :
    Decodes role (encode node) node := by
  induction hfits with
  | @mk role frame payload admitted _ ih =>
      obtain ⟨type, row, rfl⟩ : exists type row, payload = .ofRow type row :=
        ⟨_, _, payload.ofRow_toRow.symm⟩
      rw [Payload.type_ofRow] at admitted
      rw [Payload.places_ofRow, Row.forall_places_iff] at ih
      rcases Node.everywhere_ofRow_iff.mp hwell with
        ⟨⟨hunknown, hfinite⟩, hwellBelow⟩
      rcases Node.everywhere_ofRow_iff.mp hordered with
        ⟨⟨_, hextra, _⟩, horderedBelow⟩
      rw [Payload.type_ofRow] at hunknown
      rw [Payload.hasFiniteFactor_ofRow_iff] at hfinite
      have hbelow := (ih.and (horderedBelow.and hwellBelow)).imp
        fun field x _ h place hplace =>
          h.1 place hplace (h.2.1 place hplace) (h.2.2 place hplace)
      rw [encode_mk]
      exact decodes_object_iff.mpr ⟨frame, type, row, rfl,
        spellsNode_nodeMembers admitted (Json.ordered_object_iff.mp hextra).1
          hunknown hfinite hbelow⟩

/-!
# Round trip
-/

/-- Trees that are read in a role are the well-formed trees that fit it, and
each of them is read back from the value that it is written as.  Objects that
hold their members in the order of keys give trees of the same sort. -/
theorem decode_wellFormed_and_decode_encode :
    (forall role value node, decode role value = .ok node ->
      node.Fits role ∧ node.WellFormed ∧ (value.Ordered -> node.Ordered)) ∧
    (forall role (node : Node), node.Fits role -> node.Ordered ->
      node.WellFormed -> decode role (encode node) = .ok node) := by
  constructor
  · intro role value node h
    exact ⟨fits_of_decodes h, wellFormed_of_decodes h, ordered_of_decodes h⟩
  · intro role node hfits hordered hwell
    exact decodes_encode hfits hordered hwell

/-- A recursive call with an unknown null member, and a null literal as its
argument. -/
def callOfNull : Json :=
  .object
    [("arguments", .array
        [.object
          [("metadata", .object [("seen", .boolean true)]),
            ("node_type", .string "literal"),
            ("value", .null)]]),
      ("branching_factor", .number (.ofUInt32 2)),
      ("function_name", .string "f"),
      ("node_type", .string "recursive_call"),
      ("score", .null)]

theorem ordered_callOfNull : callOfNull.Ordered := by
  simp only [callOfNull, Json.Ordered, Json.OrderedMembers, Json.OrderedItems]
  decide

theorem decode_encode_callOfNull :
    exists node, decode .any callOfNull = .ok node ∧
      node.Fits .any ∧ node.WellFormed ∧ node.Ordered ∧
      decode .any (encode node) = .ok node := by
  have hread : exists node, decode .any callOfNull = .ok node := ⟨_, rfl⟩
  rcases hread with ⟨node, hread⟩
  rcases decode_wellFormed_and_decode_encode with ⟨hshape, hback⟩
  rcases hshape _ _ _ hread with ⟨hfits, hwell, hordered⟩
  have hcanonical := hordered ordered_callOfNull
  exact ⟨node, hread, hfits, hwell, hcanonical,
    hback .any node hfits hcanonical hwell⟩

end Tree
end PseudocodeTools
