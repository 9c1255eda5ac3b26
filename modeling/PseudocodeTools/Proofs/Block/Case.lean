import PseudocodeTools.Proofs.Block.Marks
import PseudocodeTools.Proofs.Lexeme.Case
/-!
# Blocks without case

The words that open and close blocks are known in any case, so the blocks of a
text in lower case are those of the text.  Segments and blocks are then the same
for all texts that have one lower-case form.
-/

namespace PseudocodeTools

/-!
# Lines in lower case
-/

section Line

variable (line : Text)

theorem leadingWord_toLower :
    leadingWord line.toLower = Text.toLower (leadingWord line) := by
  have hblind : CaseBlind fun c => c.isAlphanum || c == '_' :=
    caseBlind_of_ascii (by decide)
  unfold leadingWord
  rw [trimStart_toLower, takeWhile_toLower hblind]

theorem opensBlock_toLower : opensBlock line.toLower = opensBlock line := by
  have hequal : forall word : Text,
      word.equalIgnoringCase (leadingWord line.toLower) =
        word.equalIgnoringCase (leadingWord line) := by
    intro word
    rw [leadingWord_toLower]
    exact congrArg (word.toLower == ·) (leadingWord line).toLower_toLower
  exact congrArg blockOpeners.any (funext hequal)

theorem closesBlock_toLower : closesBlock line.toLower = closesBlock line := by
  unfold closesBlock
  rw [trimStart_toLower]
  exact congrArg blockClosers.any
    (funext (startsIgnoringCase_toLower line.trimStart))

theorem sameMarks_toLower : SameMarks line.toLower line := by
  constructor
  · rw [dropReturn_toLower, opensBlock_toLower]
  · rw [dropReturn_toLower, closesBlock_toLower]

end Line

theorem endOfLine_toLower (lines : List Text) (n : Nat) :
    endOfLine (lines.map Text.toLower) n = endOfLine lines n := by
  induction lines generalizing n with
  | nil =>
      rfl
  | cons line rest ih =>
      cases n with
      | zero =>
          rw [List.map_cons, endOfLine, endOfLine, dropReturn_toLower,
            byteLength_toLower]
      | succ n =>
          rw [List.map_cons, endOfLine, endOfLine, byteLength_toLower, ih]

/-!
# Documents in other cases
-/

theorem foldRanges_toLower (source : Text) (strategy : FoldStrategy) :
    foldRanges source.toLower strategy = foldRanges source strategy := by
  have hmarks : List.Forall₂ SameMarks (source.lines.map Text.toLower)
      source.lines :=
    List.forall₂_map_left_iff.mpr
      (List.forall₂_same.mpr fun line _ => sameMarks_toLower line)
  have hrange : rangeOfLines (source.lines.map Text.toLower) 0 =
      rangeOfLines source.lines 0 := by
    funext pair
    unfold rangeOfLines
    rw [endOfLine_toLower, endOfLine_toLower]
  rw [foldRanges_eq, foldRanges_eq, lines_toLower,
    blockPairs_congr strategy hmarks, hrange]

/-- Whatever letters of a document change their case, its segments keep their
kinds and offsets and its blocks their ranges. -/
theorem outlines_and_foldRanges_switchCaseAt (places : Nat -> Bool)
    (source : Text) :
    (segments (source.switchCaseAt places)).map Segment.outline =
        (segments source).map Segment.outline ∧
      forall strategy, foldRanges (source.switchCaseAt places) strategy =
        foldRanges source strategy := by
  constructor
  · rw [← outlines_toLower, toLower_switchCaseAt, outlines_toLower]
  · intro strategy
    rw [← foldRanges_toLower, toLower_switchCaseAt, foldRanges_toLower]

end PseudocodeTools
