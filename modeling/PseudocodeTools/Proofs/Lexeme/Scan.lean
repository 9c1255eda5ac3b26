import PseudocodeTools.Proofs.Lexeme.Shape
import PseudocodeTools.Proofs.Text.Cut
/-!
# Scanning

A scan gives the segment that the rules call for at each boundary before the end
of the text, and nothing elsewhere.
-/

namespace PseudocodeTools

theorem scan_eq_none_iff {source : Text} {cursor : Nat} :
    scan source cursor = none ↔
      source.byteLength ≤ cursor ∨ ¬ IsBoundary source cursor := by
  rw [← after?_eq_none_iff]
  unfold scan
  cases hafter : source.after? cursor with
  | none =>
      simp
  | some rest =>
      rcases after?_eq_some_iff.mp hafter with ⟨front, rfl, rfl⟩
      cases rest with
      | nil =>
          simp
      | cons c rest =>
          have hpos := c.utf8Size_pos
          simp only [Text.byteLength_append, Text.byteLength_cons, reduceCtorEq,
            or_false, false_iff]
          omega

theorem start_segmentAt (start : Nat) (c : Char) (rest : Text) :
    (segmentAt start c rest).start = start := by
  unfold segmentAt
  split <;> rfl

theorem Munches.ne_nil {t s : Text} {kind? : Option TokenKind}
    (h : Munches t kind? s) :
    t ≠ [] := by
  intro hnil
  cases h with
  | @matched p _ _ _ _ longest _ _ =>
      rw [hnil] at longest
      rcases exists_extent_of_mem longest.isPrefix longest.mem with
        ⟨rule, hrule, n, hn, _⟩
      have hnone : forall rule, rule ∈ Rule.all -> rule.extent [] = none := by
        decide
      rw [hnone rule hrule] at hn
      cases hn
  | plain split _ =>
      rw [hnil] at split
      cases split

/-- A scan stops only at the end and inside characters, and takes the segment
that the rules call for elsewhere. -/
theorem scan_maximal_munch (source : Text) (cursor : Nat) :
    (scan source cursor = none ↔
      source.byteLength ≤ cursor ∨ ¬ IsBoundary source cursor) ∧
    forall segment, scan source cursor = some segment ↔
      segment.start = cursor ∧
        exists front rest : Text, front ++ rest = source ∧
          front.byteLength = cursor ∧
          Munches rest segment.kind segment.text := by
  constructor
  · exact scan_eq_none_iff
  · intro segment
    constructor
    · intro h
      unfold scan at h
      split at h
      · rename_i c rest hafter
        cases h
        rcases after?_eq_some_iff.mp hafter with ⟨front, hsplit, hlen⟩
        exact ⟨start_segmentAt cursor c rest, front, c :: rest, hsplit, hlen,
          munches_segmentAt cursor c rest⟩
      · cases h
    · intro h
      rcases h with ⟨hstart, front, rest, hsplit, hlen, hmunch⟩
      have hafter := after?_eq_some_iff.mpr ⟨front, hsplit, hlen⟩
      cases rest with
      | nil =>
          exact absurd rfl hmunch.ne_nil
      | cons c rest =>
          have hscan : scan source cursor = some (segmentAt cursor c rest) := by
            unfold scan
            rw [hafter]
          rcases (munches_segmentAt cursor c rest).unique hmunch with
            ⟨hkind, htext⟩
          rw [hscan, Option.some.injEq, Segment.mk.injEq]
          exact ⟨hkind, (start_segmentAt cursor c rest).trans hstart.symm,
            htext⟩

end PseudocodeTools
