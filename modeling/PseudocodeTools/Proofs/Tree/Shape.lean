import PseudocodeTools.Proofs.Json.Members
import PseudocodeTools.Proofs.Tree.Row
/-!
# Shapes of trees

A tree fits a role when every node of it has a kind that its place admits.  A
tree is well-formed when no unknown member of a node has a key of the grammar,
and every branching factor is finite.  It is ordered when the members that it
carries are those of objects in canonical form.
-/

namespace PseudocodeTools
namespace Node

/-- Every node has a kind that its place admits; the root stands in `role`. -/
inductive Fits : Role -> Node -> Prop where
  | mk {role : Role} {frame : Frame} {payload : Payload Node}
      (admitted : role.admits payload.type = true)
      (below : forall place, place ∈ payload.places -> Fits place.1 place.2) :
      Fits role (.mk frame payload)

/-- The property holds at every node of a tree. -/
inductive Everywhere (P : Frame -> Payload Node -> Prop) : Node -> Prop where
  | mk {frame : Frame} {payload : Payload Node} (here : P frame payload)
      (below : forall place, place ∈ payload.places ->
        Everywhere P place.2) :
      Everywhere P (.mk frame payload)

def WellFormed (node : Node) : Prop :=
  node.Everywhere fun frame payload =>
    (forall key, key ∈ payload.type.modelledKeys ->
      frame.extra.hasKey key = false) ∧
    payload.HasFiniteFactor

def Ordered (node : Node) : Prop :=
  node.Everywhere fun frame payload =>
    (Json.object frame.metadata).Ordered ∧ (Json.object frame.extra).Ordered ∧
    forall value, value ∈ payload.rawValues -> value.Ordered

/-!
# Nodes that are given by rows
-/

variable {role : Role} {frame : Frame} {type : NodeType}
  {row : Row Node type.fields}

theorem fits_ofRow_iff :
    (Node.mk frame (.ofRow type row)).Fits role ↔
      role.admits type = true ∧
        Row.Forall
          (fun field x =>
            forall place, place ∈ field.content.places x ->
              place.2.Fits place.1)
          type.fields row := by
  rw [← Row.forall_places_iff, ← Payload.places_ofRow]
  constructor
  · intro h
    cases h with
    | mk admitted below =>
        rw [Payload.type_ofRow] at admitted
        exact ⟨admitted, below⟩
  · intro h
    rcases h with ⟨admitted, below⟩
    refine .mk ?_ below
    rw [Payload.type_ofRow]
    exact admitted

theorem everywhere_ofRow_iff {P : Frame -> Payload Node -> Prop} :
    (Node.mk frame (.ofRow type row)).Everywhere P ↔
      P frame (.ofRow type row) ∧
        Row.Forall
          (fun field x =>
            forall place, place ∈ field.content.places x ->
              place.2.Everywhere P)
          type.fields row := by
  rw [← Row.forall_places_iff, ← Payload.places_ofRow]
  constructor
  · intro h
    cases h with
    | mk here below =>
        exact ⟨here, below⟩
  · intro h
    rcases h with ⟨here, below⟩
    exact .mk here below

end Node
end PseudocodeTools
