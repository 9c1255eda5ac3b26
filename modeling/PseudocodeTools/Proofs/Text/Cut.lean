import PseudocodeTools.Text.Basic
/-!
# Cuts and boundaries

What the two sides of an offset are, said by the text that they make up
together.
-/

namespace PseudocodeTools

/-- A character starts, or the text ends, at the byte offset. -/
def IsBoundary (source : Text) (cursor : Nat) : Prop :=
  exists front rest : Text, front ++ rest = source ∧
    front.byteLength = cursor

theorem after?_eq_some_iff {source rest : Text} {cursor : Nat} :
    source.after? cursor = some rest ↔
      exists front : Text, front ++ rest = source ∧
        front.byteLength = cursor := by
  unfold Text.after?
  rw [Option.map_eq_some_iff]
  constructor
  · intro h
    rcases h with ⟨⟨front, rest'⟩, hcut, rfl⟩
    exact ⟨front, Text.cut?_eq_some_iff.mp hcut⟩
  · intro h
    rcases h with ⟨front, hcut⟩
    exact ⟨(front, rest), Text.cut?_eq_some_iff.mpr hcut, rfl⟩

theorem after?_eq_none_iff {source : Text} {cursor : Nat} :
    source.after? cursor = none ↔ ¬ IsBoundary source cursor := by
  constructor
  · intro hnone hboundary
    rcases hboundary with ⟨front, rest, hcut⟩
    rw [after?_eq_some_iff.mpr ⟨front, hcut⟩] at hnone
    cases hnone
  · intro hboundary
    cases hafter : source.after? cursor with
    | none =>
        rfl
    | some rest =>
        rcases after?_eq_some_iff.mp hafter with ⟨front, hcut⟩
        exact absurd ⟨front, rest, hcut⟩ hboundary

theorem before?_eq_some_iff {source front : Text} {cursor : Nat} :
    source.before? cursor = some front ↔
      exists rest : Text, front ++ rest = source ∧
        front.byteLength = cursor := by
  unfold Text.before?
  rw [Option.map_eq_some_iff]
  constructor
  · intro h
    rcases h with ⟨⟨front', rest⟩, hcut, rfl⟩
    exact ⟨rest, Text.cut?_eq_some_iff.mp hcut⟩
  · intro h
    rcases h with ⟨rest, hcut⟩
    exact ⟨(front, rest), Text.cut?_eq_some_iff.mpr hcut, rfl⟩

theorem slice?_append (front middle rest : Text) :
    Text.slice? (front ++ (middle ++ rest)) front.byteLength
      (front.byteLength + middle.byteLength) = some middle := by
  unfold Text.slice?
  rw [if_pos (Nat.le_add_right _ _),
    after?_eq_some_iff.mpr ⟨front, rfl, rfl⟩, Option.bind_some,
    Nat.add_sub_cancel_left]
  exact before?_eq_some_iff.mpr ⟨rest, rfl, rfl⟩

/-- A stretch of a text begins and ends at a boundary. -/
theorem isBoundary_append (front middle rest : Text) :
    IsBoundary (front ++ (middle ++ rest)) front.byteLength ∧
      IsBoundary (front ++ (middle ++ rest))
        (front.byteLength + middle.byteLength) := by
  refine ⟨⟨front, middle ++ rest, rfl, rfl⟩, front ++ middle, rest, ?_, ?_⟩
  · exact List.append_assoc front middle rest
  · exact Text.byteLength_append front middle

theorem byteLength_pos {t : Text} (h : t ≠ []) : 0 < t.byteLength := by
  cases t with
  | nil =>
      exact absurd rfl h
  | cons c t =>
      have hpos := c.utf8Size_pos
      rw [Text.byteLength_cons]
      omega

theorem IsBoundary.le {source : Text} {n : Nat} (h : IsBoundary source n) :
    n ≤ source.byteLength := by
  rcases h with ⟨front, rest, rfl, rfl⟩
  rw [Text.byteLength_append]
  exact Nat.le_add_right _ _

/-- What stands before a text moves its boundaries. -/
theorem IsBoundary.behind {t : Text} {n : Nat} (h : IsBoundary t n)
    (before : Text) :
    IsBoundary (before ++ t) (before.byteLength + n) := by
  rcases h with ⟨front, rest, rfl, rfl⟩
  exact ⟨before ++ front, rest, List.append_assoc _ _ _,
    Text.byteLength_append before front⟩

/-- The two sides of a byte offset are found again by the offset. -/
theorem append_inj_of_byteLength {front rest front' rest' : Text}
    (h : front ++ rest = front' ++ rest')
    (hlen : front.byteLength = front'.byteLength) :
    front = front' ∧ rest = rest' := by
  have hcut := Text.cut?_append front' rest'
  rw [← hlen, ← h, Text.cut?_append, Option.some.injEq, Prod.mk.injEq] at hcut
  exact hcut

/-- Of two prefixes of a text, the one with more bytes continues the other. -/
theorem exists_gap {front rest front' rest' : Text}
    (h : front ++ rest = front' ++ rest')
    (hle : front.byteLength ≤ front'.byteLength) :
    exists gap, front' = front ++ gap ∧ rest = gap ++ rest' := by
  rcases List.append_eq_append_iff.mp h with
    ⟨gap, hfront, hrest⟩ | ⟨gap, hfront, hrest⟩
  · exact ⟨gap, hfront, hrest⟩
  · cases gap with
    | nil =>
        rw [List.append_nil] at hfront
        refine ⟨[], ?_, hrest.symm⟩
        rw [hfront, List.append_nil]
    | cons c gap =>
        have hpos := byteLength_pos (List.cons_ne_nil c gap)
        rw [hfront, Text.byteLength_append] at hle
        omega

end PseudocodeTools
