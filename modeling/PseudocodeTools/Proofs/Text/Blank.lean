import Mathlib.Data.List.TakeWhile
import PseudocodeTools.Proofs.Text.Letter
import PseudocodeTools.Text.Alphanumeric
import PseudocodeTools.Text.Blank
/-!
# Blanks at the ends of a text

What trimming leaves of a text does not depend on blanks behind it, and neither
do the blanks before its first other character.  No blank is alphanumeric.
-/

namespace PseudocodeTools

theorem trimEnd_append_blanks (t : Text) {blanks : Text}
    (h : forall c, c ∈ blanks -> isBlank c = true) :
    Text.trimEnd (t ++ blanks) = t.trimEnd := by
  unfold Text.trimEnd
  rw [List.reverse_append, List.dropWhile_append_of_pos]
  exact fun c hmem => h c (List.mem_reverse.mp hmem)

/-- What stands before a text that is not blank is kept when it is trimmed. -/
theorem trimEnd_append_of_ne_nil (s : Text) {t : Text} (h : t.trimEnd ≠ []) :
    Text.trimEnd (s ++ t) = s ++ t.trimEnd := by
  unfold Text.trimEnd at h ⊢
  have hrest : ¬ (t.reverse.dropWhile isBlank).isEmpty = true := fun hempty =>
    h (List.reverse_eq_nil_iff.mpr (List.isEmpty_iff.mp hempty))
  rw [List.reverse_append, List.dropWhile_append, if_neg hrest,
    List.reverse_append, List.reverse_reverse]

/-- Trimming leaves nothing of a text of blanks only. -/
theorem trimEnd_eq_nil_iff {t : Text} :
    t.trimEnd = [] ↔ forall c, c ∈ t -> isBlank c = true := by
  unfold Text.trimEnd
  rw [List.reverse_eq_nil_iff, List.dropWhile_eq_nil_iff]
  exact forall_congr' fun c => by rw [List.mem_reverse]

theorem leadingBlanks_append {t : Text} (h : t.trimEnd ≠ []) (s : Text) :
    Text.leadingBlanks (t ++ s) = t.leadingBlanks := by
  have hlength : ¬ (t.takeWhile isBlank).length = t.length := by
    intro hlength
    have hall : t.takeWhile isBlank = t :=
      (List.takeWhile_prefix isBlank).eq_of_length hlength
    exact h (trimEnd_eq_nil_iff.mpr (List.takeWhile_eq_self_iff.mp hall))
  unfold Text.leadingBlanks
  rw [List.takeWhile_append, if_neg hlength]

/-!
# Blanks and alphanumeric characters
-/

/-- Two classes have no character in common when no range of the one meets the
other. -/
theorem contains_eq_false_of_apart {ranges others : CodeRanges} {c : Char}
    (hapart : (ranges.all fun range => !others.meets range.1 range.2) = true)
    (h : ranges.contains c = true) :
    others.contains c = false := by
  rcases List.any_eq_true.mp h with ⟨⟨first, last⟩, hmem, hin⟩
  simp only [Bool.and_eq_true, decide_eq_true_eq] at hin
  rcases hin with ⟨hfirst, hlast⟩
  have hmeets : others.meets first last = false :=
    (Bool.not_eq_true' _).mp (List.all_eq_true.mp hapart _ hmem)
  rw [← Bool.not_eq_true]
  intro hcontains
  rw [CodeRanges.meets_of_contains hcontains hfirst hlast] at hmeets
  cases hmeets

theorem contains_letterRanges_of_isAlpha {c : Char} (h : c.isAlpha = true) :
    letterRanges.contains c = true := by
  have hranges : (0x41, 0x5A) ∈ letterRanges ∧ (0x61, 0x7A) ∈ letterRanges :=
    ⟨List.mem_cons_self, List.mem_cons_of_mem _ List.mem_cons_self⟩
  unfold CodeRanges.contains
  rw [List.any_eq_true]
  rcases isAlpha_iff.mp h with hupper | hlower
  · refine ⟨(0x41, 0x5A), hranges.1, ?_⟩
    simpa using hupper
  · refine ⟨(0x61, 0x7A), hranges.2, ?_⟩
    simpa using hlower

theorem isAlphanumeric_of_isBlank {c : Char} (h : isBlank c = true) :
    isAlphanumeric c = false := by
  have hletter : letterRanges.contains c = false :=
    contains_eq_false_of_apart (by decide +kernel) h
  have hother : alphanumericRanges.contains c = false :=
    contains_eq_false_of_apart (by decide +kernel) h
  have hplain : isLetter c = false := by
    unfold isLetter
    split
    · rw [← Bool.not_eq_true]
      intro halpha
      rw [contains_letterRanges_of_isAlpha halpha] at hletter
      cases hletter
    · exact hletter
  rw [isAlphanumeric, hplain, hother]
  rfl

end PseudocodeTools
