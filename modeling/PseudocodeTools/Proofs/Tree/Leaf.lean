import PseudocodeTools.Proofs.Outcome
import PseudocodeTools.Tree.Decode
/-!
# Leaves that are read

What the readers of leaves accept: each of them accepts the members that spell
a value of its sort, and a missing member as no value.
-/

namespace PseudocodeTools

/-!
# Words of the vocabulary
-/

theorem find?_name_eq_some_iff {α : Type} {all : List α} {name : α -> String}
    (hname : forall x, (all.find? fun y => name y == name x) = some x)
    {s : String} {x : α} :
    (all.find? fun y => name y == s) = some x ↔ s = name x := by
  constructor
  · intro h
    have hfound := List.find?_some h
    exact (beq_iff_eq.mp hfound).symm
  · intro h
    rw [h]
    exact hname x

theorem Operator.ofName?_name (op : Operator) : ofName? op.name = some op := by
  cases op <;> decide

theorem Operator.ofName?_eq_some_iff {s : String} {op : Operator} :
    ofName? s = some op ↔ s = op.name :=
  find?_name_eq_some_iff ofName?_name

theorem LoopType.ofName?_name (type : LoopType) :
    ofName? type.name = some type := by
  cases type <;> decide

theorem LoopType.ofName?_eq_some_iff {s : String} {type : LoopType} :
    ofName? s = some type ↔ s = type.name :=
  find?_name_eq_some_iff ofName?_name

theorem NodeType.ofName?_name (type : NodeType) :
    ofName? type.name = some type := by
  cases type <;> decide

theorem NodeType.ofName?_eq_some_iff {s : String} {type : NodeType} :
    ofName? s = some type ↔ s = type.name :=
  find?_name_eq_some_iff ofName?_name

/-!
# Numbers
-/

theorem JsonNumber.toUInt32?_eq_some_iff {m : JsonNumber} {n : UInt32} :
    m.toUInt32? = some n ↔ m = ofUInt32 n := by
  constructor
  · intro h
    cases m with
    | real value finite =>
        cases h
    | integer value inRange =>
        simp only [toUInt32?] at h
        split at h
        · rename_i hrange
          rw [Option.some.injEq] at h
          rw [← h]
          have hsize : value.toNat < UInt32.size := by
            simp only [UInt32.size]
            omega
          unfold ofUInt32
          congr 1
          rw [UInt32.toNat_ofNat_of_lt' hsize]
          omega
        · cases h
  · intro h
    rw [h]
    exact toUInt32?_ofUInt32 n

namespace Tree

/-!
# Leaves
-/

/-- A reader of leaves gives back what is written for a value, and nothing for
any other member. -/
theorem leaf_eq_ok_iff {α : Type} {write : α -> Json}
    (read : Option Json -> Except TreeFault (Option α))
    (hmissing : read none = .ok none)
    (hwritten : forall x, read (some (write x)) = .ok (some x))
    (hread : forall value x?, read (some value) = .ok x? ->
      exists x, value = write x)
    {member : Option Json} {x? : Option α} :
    read member = .ok x? ↔ member = x?.map write := by
  constructor
  · intro h
    cases member with
    | none =>
        rw [hmissing] at h
        cases h
        rfl
    | some value =>
        rcases hread value x? h with ⟨x, rfl⟩
        rw [hwritten] at h
        cases h
        rfl
  · intro h
    rw [h]
    cases x? with
    | none =>
        exact hmissing
    | some x =>
        exact hwritten x

section Leaf

variable {path : Path} {member : Option Json}

theorem text?_eq_ok_iff {s? : Option String} :
    text? path member = .ok s? ↔ member = s?.map Json.string := by
  refine leaf_eq_ok_iff (text? path) rfl (fun _ => rfl) ?_
  intro value s? h
  cases value with
  | string s =>
      exact ⟨s, rfl⟩
  | null | boolean _ | number _ | array _ | object _ =>
      cases h

theorem flag?_eq_ok_iff {b? : Option Bool} :
    flag? path member = .ok b? ↔ member = b?.map Json.boolean := by
  refine leaf_eq_ok_iff (flag? path) rfl (fun _ => rfl) ?_
  intro value b? h
  cases value with
  | boolean b =>
      exact ⟨b, rfl⟩
  | null | number _ | string _ | array _ | object _ =>
      cases h

theorem count?_number {m : JsonNumber} {n : UInt32}
    (h : m.toUInt32? = some n) :
    count? path (some (.number m)) = .ok (some n) := by
  simp [count?, h]

theorem count?_eq_ok_iff {n? : Option UInt32} :
    count? path member = .ok n? ↔
      member = n?.map fun n => Json.number (.ofUInt32 n) := by
  refine leaf_eq_ok_iff (count? path) rfl ?_ ?_
  · intro n
    exact count?_number (JsonNumber.toUInt32?_ofUInt32 n)
  · intro value n? h
    cases value with
    | number m =>
        cases hword : m.toUInt32? with
        | none =>
            simp [count?, hword] at h
        | some n =>
            exact ⟨n, congrArg _ (JsonNumber.toUInt32?_eq_some_iff.mp hword)⟩
    | null | boolean _ | string _ | array _ | object _ =>
        cases h

theorem operator?_eq_ok_iff {op? : Option Operator} :
    operator? path member = .ok op? ↔
      member = op?.map fun op => Json.string op.name := by
  refine leaf_eq_ok_iff (operator? path) rfl ?_ ?_
  · intro op
    simp [operator?, Operator.ofName?_name]
  · intro value op? h
    cases value with
    | string s =>
        cases hword : Operator.ofName? s with
        | none =>
            simp [operator?, hword] at h
        | some op =>
            exact ⟨op, congrArg _ (Operator.ofName?_eq_some_iff.mp hword)⟩
    | null | boolean _ | number _ | array _ | object _ =>
        cases h

theorem loopType?_eq_ok_iff {type? : Option LoopType} :
    loopType? path member = .ok type? ↔
      member = type?.map fun type => Json.string type.name := by
  refine leaf_eq_ok_iff (loopType? path) rfl ?_ ?_
  · intro type
    simp [loopType?, LoopType.ofName?_name]
  · intro value type? h
    cases value with
    | string s =>
        cases hword : LoopType.ofName? s with
        | none =>
            simp [loopType?, hword] at h
        | some type =>
            exact ⟨type, congrArg _ (LoopType.ofName?_eq_some_iff.mp hword)⟩
    | null | boolean _ | number _ | array _ | object _ =>
        cases h

end Leaf

theorem require_eq_ok_iff {α : Type} {path : Path} {x? : Option α} {x : α} :
    require path x? = .ok x ↔ x? = some x := by
  cases x? <;> simp [require]

/-!
# Places in the source and annotations
-/

/-- The members of an object spell a place, null members aside. -/
def SpellsLocation (members : Json.Members) (location : Location) : Prop :=
  present? members "line" = some (.number (.ofUInt32 location.line)) ∧
  present? members "column" = some (.number (.ofUInt32 location.column)) ∧
  present? members "end_line" =
    location.endLine.map (fun n => Json.number (.ofUInt32 n)) ∧
  present? members "end_column" =
    location.endColumn.map (fun n => Json.number (.ofUInt32 n))

theorem location?_eq_ok_iff {path : Path} {member : Option Json}
    {location? : Option Location} :
    Tree.location? path member = .ok location? ↔
      (member = none ∧ location? = none) ∨
        exists members location, member = some (.object members) ∧
          location? = some location ∧ SpellsLocation members location := by
  rcases member with _ | value
  · cases location? <;> simp [Tree.location?]
  · cases value with
    | object members =>
        simp only [Tree.location?, Except.bind_eq_ok_iff, count?_eq_ok_iff,
          require_eq_ok_iff, SpellsLocation]
        constructor
        · intro h
          rcases h with ⟨_, hline, line, rfl, _, hcolumn, column, rfl, endLine,
            hendLine, endColumn, hendColumn, hresult⟩
          cases hresult
          exact Or.inr ⟨members, _, rfl, rfl, hline, hcolumn, hendLine,
            hendColumn⟩
        · intro h
          rcases h with ⟨hnone, _⟩ |
            ⟨_, location, hmember, rfl, hline, hcolumn, hendLine, hendColumn⟩
          · cases hnone
          · cases hmember
            exact ⟨some location.line, hline, _, rfl, some location.column,
              hcolumn, _, rfl, _, hendLine, _, hendColumn, rfl⟩
    | null | boolean _ | number _ | string _ | array _ =>
        simp [Tree.location?]

theorem metadata_eq_ok_iff {path : Path} {member : Option Json}
    {annotations : Json.Members} :
    metadata path member = .ok annotations ↔
      (member = none ∧ annotations = []) ∨
        member = some (.object annotations) := by
  rcases member with _ | value
  · simp [metadata, eq_comm]
  · cases value <;> simp [metadata]

end Tree
end PseudocodeTools
