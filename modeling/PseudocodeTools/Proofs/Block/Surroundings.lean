import PseudocodeTools.Proofs.Block.Crossing
/-!
# Blocks in other surroundings

A block is found from its opener on and no further than to its closer.  So text
before it moves its range and does nothing else, and text behind it leaves its
range as it is.
-/

namespace PseudocodeTools

/-!
# Blocks by line numbers
-/

section Pairs

variable (strategy : FoldStrategy) (lines more : List Text)

/-- Lines before others add the blocks that begin in them. -/
theorem exists_blockPairs_append :
    exists earlier, blockPairs strategy (lines ++ more) =
        earlier ++ (blockPairs strategy more).map (linesDown lines.length) ∧
      forall pair, pair ∈ earlier -> pair.1 < lines.length := by
  induction lines with
  | nil =>
      exact ⟨[], (List.map_id _).symm,
        fun _ hmem => absurd hmem List.not_mem_nil⟩
  | cons line lines ih =>
      rcases ih with ⟨earlier, hpairs, hearlier⟩
      have hown : forall pair,
          pair ∈ (ownPair? strategy line (lines ++ more)).toList ->
            pair.1 < (line :: lines).length := by
        intro pair hmem
        rw [fst_of_mem_ownPair? hmem]
        exact Nat.succ_pos _
      refine ⟨(ownPair? strategy line (lines ++ more)).toList ++
        earlier.map (linesDown 1), ?_, ?_⟩
      · rw [List.cons_append, blockPairs, hpairs, List.map_append,
          List.map_map, List.append_assoc]
        rfl
      · intro pair hmem
        rcases List.mem_append.mp hmem with hfirst | hrest
        · exact hown pair hfirst
        · rcases List.mem_map.mp hrest with ⟨inner, hinner, rfl⟩
          exact Nat.succ_lt_succ (hearlier inner hinner)

/-- Lines behind others leave the blocks that are closed before. -/
theorem blockPairs_sublist_append :
    (blockPairs strategy lines).Sublist
      (blockPairs strategy (lines ++ more)) := by
  induction lines with
  | nil =>
      exact List.nil_sublist _
  | cons line lines ih =>
      rw [List.cons_append, blockPairs, blockPairs]
      apply List.Sublist.append _ (ih.map _)
      unfold ownPair?
      by_cases hopens : opensBlock line.dropReturn = true
      · rw [if_pos hopens, if_pos hopens]
        cases hn : linesToCloser strategy 1 lines with
        | none =>
            exact List.nil_sublist _
        | some n =>
            have hsearch := (closesAfter_of_linesToCloser hn).append more
            rw [hsearch.linesToCloser_eq]
      · rw [if_neg hopens, if_neg hopens]

end Pairs

/-!
# Ranges
-/

/-- The range in a text that stands `n` bytes later. -/
def FoldRange.shift (n : Nat) (range : FoldRange) : FoldRange :=
  { first := range.first + n, last := range.last + n }

theorem rangeOfLines_append_left {strategy : FoldStrategy} {lines : List Text}
    {pair : Nat × Nat} (h : pair ∈ blockPairs strategy lines)
    (more : List Text) :
    rangeOfLines (lines ++ more) 0 pair = rangeOfLines lines 0 pair := by
  rcases bounds_of_mem_blockPairs h with ⟨_, hi, hj⟩
  unfold rangeOfLines
  rw [endOfLine_append_left more hi, endOfLine_append_left more hj]

theorem rangeOfLines_append_right (before : Text) (lines : List Text)
    (pair : Nat × Nat) :
    rangeOfLines (before.lines ++ lines) 0
        (linesDown before.lines.length pair) =
      (rangeOfLines lines 0 pair).shift (before.byteLength + 1) := by
  unfold rangeOfLines linesDown FoldRange.shift
  simp only [endOfLine_append_right, Nat.zero_add]

theorem endOfLine_le_byteLength {t : Text} {n : Nat}
    (hn : n < t.lines.length) (more : List Text) :
    endOfLine (t.lines ++ more) n ≤ t.byteLength := by
  rw [endOfLine_append_left more hn]
  exact (isBoundary_endOfLine hn).le

/-- With other text before it, a document keeps its ranges, moved by that text
and a line feed.  With other text behind it, the ranges that it has stay as they
are. -/
theorem foldRanges_in_surroundings (strategy : FoldStrategy)
    (before document behind : Text) :
    (foldRanges (before ++ '\n' :: document) strategy).filter
        (before.byteLength < ·.first) =
      (foldRanges document strategy).map
        (FoldRange.shift (before.byteLength + 1)) ∧
    (foldRanges document strategy).Sublist
      (foldRanges (document ++ '\n' :: behind) strategy) := by
  constructor
  · rcases exists_blockPairs_append strategy before.lines document.lines with
      ⟨earlier, hpairs, hearlier⟩
    have hmoved : rangeOfLines (before.lines ++ document.lines) 0 ∘
          linesDown before.lines.length =
        FoldRange.shift (before.byteLength + 1) ∘
          rangeOfLines document.lines 0 :=
      funext (rangeOfLines_append_right before document.lines)
    rw [foldRanges_eq, foldRanges_eq, lines_append, hpairs, List.map_append,
      List.map_map, List.map_map, hmoved, List.filter_append]
    have hdropped : (earlier.map (rangeOfLines
        (before.lines ++ document.lines) 0)).filter
          (before.byteLength < ·.first) = [] := by
      apply List.filter_eq_nil_iff.mpr
      intro range hmem hlt
      rcases List.mem_map.mp hmem with ⟨pair, hpair, rfl⟩
      have hle := endOfLine_le_byteLength (hearlier pair hpair) document.lines
      rw [← Nat.zero_add (endOfLine _ _)] at hle
      exact Nat.not_lt_of_le hle (of_decide_eq_true hlt)
    have hkept : forall ranges : List FoldRange,
        (ranges.map (FoldRange.shift (before.byteLength + 1))).filter
            (before.byteLength < ·.first) =
          ranges.map (FoldRange.shift (before.byteLength + 1)) := by
      intro ranges
      apply List.filter_eq_self.mpr
      intro range hmem
      rcases List.mem_map.mp hmem with ⟨inner, _, rfl⟩
      exact decide_eq_true (Nat.lt_of_succ_le (Nat.le_add_left _ inner.first))
    rw [hdropped, List.nil_append, ← List.map_map, hkept]
  · have hsame : (blockPairs strategy document.lines).map
          (rangeOfLines document.lines 0) =
        (blockPairs strategy document.lines).map
          (rangeOfLines (document.lines ++ behind.lines) 0) := by
      apply List.map_congr_left
      intro pair hpair
      exact (rangeOfLines_append_left hpair behind.lines).symm
    rw [foldRanges_eq, foldRanges_eq, lines_append, hsame]
    exact (blockPairs_sublist_append strategy document.lines
      behind.lines).map _

end PseudocodeTools
