/-!
# Ranges of code points

A character class is given by the inclusive ranges of its code points.
-/

namespace PseudocodeTools

/-- Inclusive ranges of code points. -/
abbrev CodeRanges :=
  List (Nat × Nat)

namespace CodeRanges

def contains (ranges : CodeRanges) (c : Char) : Bool :=
  ranges.any fun (first, last) => first ≤ c.toNat && c.toNat ≤ last

/-- Whether some member of the class lies between two code points. -/
def meets (ranges : CodeRanges) (low high : Nat) : Bool :=
  ranges.any fun (first, last) => first ≤ high && low ≤ last

theorem meets_of_contains {ranges : CodeRanges} {c : Char} {low high : Nat}
    (h : ranges.contains c = true) (hlow : low ≤ c.toNat)
    (hhigh : c.toNat ≤ high) :
    ranges.meets low high = true := by
  obtain ⟨⟨first, last⟩, hmem, hin⟩ := List.any_eq_true.mp h
  simp only [Bool.and_eq_true, decide_eq_true_eq] at hin
  refine List.any_eq_true.mpr ⟨(first, last), hmem, ?_⟩
  simp only [Bool.and_eq_true, decide_eq_true_eq]
  omega

end CodeRanges
end PseudocodeTools
