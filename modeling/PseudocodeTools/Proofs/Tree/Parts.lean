import PseudocodeTools.Proofs.Tree.Reading
/-!
# Parts of a value that was read

Children are read from parts of the value, so a property of the trees that are
read follows from what it says about one node and the parts below it.
-/

namespace PseudocodeTools

/-!
# Parts of an object
-/

/-- A member, or an item of a member that is an array. -/
def Json.Members.Holds (members : Members) (part : Json) : Prop :=
  exists key value, members.get? key = some value ∧
    (part = value ∨ exists items, value = .array items ∧ part ∈ items)

namespace Json.Members.Holds

variable {members : Json.Members} {part : Json}

theorem sizeOf_lt (h : members.Holds part) :
    sizeOf part < sizeOf (Json.object members) := by
  rcases h with ⟨key, value, hget, hpart⟩
  have hvalue := Json.sizeOf_member_lt hget
  rcases hpart with rfl | ⟨items, rfl, hitem⟩
  · exact hvalue
  · exact Nat.lt_trans (Json.sizeOf_item_lt hitem) hvalue

theorem ordered (h : members.Holds part)
    (hordered : (Json.object members).Ordered) :
    part.Ordered := by
  rcases h with ⟨key, value, hget, hpart⟩
  have hvalue := hordered.member hget
  rcases hpart with rfl | ⟨items, rfl, hitem⟩
  · exact hvalue
  · exact Json.ordered_array_iff.mp hvalue part hitem

end Json.Members.Holds

namespace Tree

/-!
# Children and parts
-/

theorem get?_of_present? {members : Json.Members} {key : String} {value : Json}
    (h : present? members key = some value) :
    members.get? key = some value :=
  (Option.filter_eq_some_iff.mp h).1

theorem present?_of_get? {members : Json.Members} {key : String} {value : Json}
    (hget : members.get? key = some value) (hvalue : value.isNull = false) :
    present? members key = some value := by
  unfold present?
  rw [hget]
  simp [Option.filter, hvalue]

theorem present?_of_get?_none {members : Json.Members} {key : String}
    (hget : members.get? key = none) :
    present? members key = none := by
  unfold present?
  rw [hget]
  rfl

section Forall₂

variable {α β : Type} {R : α -> β -> Prop} {xs : List α} {ys : List β}

theorem exists_forall₂_iff :
    (exists ys, List.Forall₂ R xs ys) ↔
      forall x, x ∈ xs -> exists y, R x y := by
  induction xs with
  | nil =>
      constructor
      · intro _ x hx
        cases hx
      · intro _
        exact ⟨[], .nil⟩
  | cons x rest ih =>
      rw [List.forall_mem_cons, ← ih]
      constructor
      · intro h
        rcases h with ⟨_, h⟩
        cases h with
        | cons hhead hrest =>
            exact ⟨⟨_, hhead⟩, ⟨_, hrest⟩⟩
      · intro h
        rcases h with ⟨⟨y, hhead⟩, ⟨ys, hrest⟩⟩
        exact ⟨y :: ys, .cons hhead hrest⟩

end Forall₂

theorem get?_of_given {content : Content} {members : Json.Members}
    {key : String} {value : Json} (h : content.given members key = some value) :
    members.get? key = some value := by
  cases content with
  | raw =>
      exact h
  | text _ | optionalText | flag _ | count _ | factor _ | operator _
  | loopType _ | child _ | optionalChild _ | children _ =>
      exact get?_of_present? h

theorem places_of_fallback {content : Content} {x : content.Value Node}
    (h : content.Fallback x) :
    content.places x = [] := by
  cases content with
  | text _ | optionalText | flag _ | count _ | factor _ | operator _
  | loopType _ | raw =>
      rfl
  | child _ =>
      cases h
  | optionalChild _ | children _ =>
      change x = _ at h
      rw [h]
      rfl

/-- Children of a field that was read are read from parts of the object. -/
theorem exists_part_of_reads {members : Json.Members} {key : String}
    {content : Content} {x : content.Value Node}
    (h : content.Reads Decodes members key x) {place : Role × Node}
    (hplace : place ∈ content.places x) :
    exists part, members.Holds part ∧ Decodes place.1 part place.2 := by
  rcases Content.reads_iff.mp h with ⟨_, hfallback⟩ | ⟨value, hgiven, hspells⟩
  · rw [places_of_fallback hfallback] at hplace
    cases hplace
  · have hget := get?_of_given hgiven
    cases content with
    | text _ | optionalText | flag _ | count _ | factor _ | operator _
    | loopType _ | raw =>
        cases hplace
    | child role =>
        rw [Content.places, List.mem_singleton] at hplace
        rw [hplace]
        exact ⟨value, ⟨key, value, hget, Or.inl rfl⟩, hspells⟩
    | optionalChild role =>
        rcases hspells with ⟨node, hx, hnode⟩
        rw [hx] at hplace
        cases List.mem_singleton.mp hplace
        exact ⟨value, ⟨key, value, hget, Or.inl rfl⟩, hnode⟩
    | children role =>
        rcases hspells with ⟨items, hvalue, hnodes⟩
        rcases List.mem_map.mp hplace with ⟨node, hnode, hpair⟩
        rcases exists_mem_of_forall₂ hnodes hnode with ⟨item, hitem, hread⟩
        rw [← hpair]
        exact ⟨item, ⟨key, value, hget, Or.inr ⟨items, hvalue, hitem⟩⟩, hread⟩

/-- Reading descends into parts of the value, so what holds of a node whenever
it holds of the children that were read holds of every tree that was read. -/
theorem decodes_induction {motive : Role -> Json -> Node -> Prop}
    (step : forall {role members frame type row},
      SpellsNode role members frame type row ->
        (forall part role' node, members.Holds part ->
          Decodes role' part node -> motive role' part node) ->
        motive role (.object members) (.mk frame (.ofRow type row)))
    {role : Role} {value : Json} {node : Node} (h : Decodes role value node) :
    motive role value node := by
  induction hsize : sizeOf value using Nat.strongRecOn
    generalizing role value node with
  | ind size ih =>
      rcases decodes_iff.mp h with ⟨members, rfl, hobject⟩
      rcases decodes_object_iff.mp hobject with ⟨frame, type, row, rfl, hspells⟩
      refine step hspells fun part role' node' hheld hpart => ?_
      exact ih (sizeOf part) (hsize ▸ hheld.sizeOf_lt) hpart rfl

end Tree
end PseudocodeTools
