import PseudocodeTools.Proofs.Block.Depth
import PseudocodeTools.Proofs.Block.LineEnds
/-!
# Blocks do not cross

The searches from two openers go over the same lines with different numbers of
open blocks.  Still the later block lies behind the earlier one or inside it,
and no two blocks share a closer where blocks are counted.
-/

namespace PseudocodeTools

/-!
# Blocks by line numbers
-/

section Pairs

variable {strategy : FoldStrategy} {lines : List Text} {i j i' j' : Nat}

theorem closerAt_of_mem_blockPairs (h : (i, j) ∈ blockPairs strategy lines) :
    i < j ∧ CloserAt lines j := by
  rcases mem_blockPairs_iff.mp h with ⟨_, n, hsearch, rfl⟩
  exact ⟨Nat.lt_of_succ_le (Nat.le_add_right (i + 1) n),
    lineAt_drop_iff.mp hsearch.closerAt⟩

theorem bounds_of_mem_blockPairs (h : (i, j) ∈ blockPairs strategy lines) :
    i < j ∧ i < lines.length ∧ j < lines.length := by
  rcases closerAt_of_mem_blockPairs h with ⟨hlt, hcloser⟩
  exact ⟨hlt, hlt.trans hcloser.lt_length, hcloser.lt_length⟩

/-- A block that begins later begins behind the closer or ends there at the
latest. -/
theorem blockPairs_do_not_cross (h : (i, j) ∈ blockPairs strategy lines)
    (h' : (i', j') ∈ blockPairs strategy lines) (hlt : i < i') :
    j < i' ∨ Within strategy j' j := by
  have hcloser := (closerAt_of_mem_blockPairs h).2
  rcases mem_blockPairs_iff.mp h with ⟨_, n, hsearch, rfl⟩
  rcases mem_blockPairs_iff.mp h' with ⟨hopens, n', hsearch', rfl⟩
  rcases Nat.lt_trichotomy (i + 1 + n) i' with hbehind | heq | hinside
  · exact Or.inl hbehind
  · rw [heq] at hcloser
    exact absurd hopens hcloser.not_openerAt
  -- The earlier search passes the later opener, and goes on one block deeper
  -- than the search that begins there.
  · obtain ⟨k, rfl⟩ := Nat.exists_eq_add_of_le (Nat.succ_le_of_lt hlt)
    have hopens' : OpenerAt (lines.drop (i + 1)) k :=
      lineAt_drop_iff.mpr hopens
    rcases hsearch.exists_inner (Nat.le_refl 1)
      (Nat.lt_of_add_lt_add_left hinside) hopens' with ⟨m, hm, hwithin⟩
    rw [List.drop_drop] at hm
    have hsame : m = n' := hm.unique hsearch'
    subst hsame
    have hbehind := hwithin.add_left (i + 1)
    rw [← Nat.add_assoc] at hbehind
    exact Or.inr hbehind

end Pairs

/-!
# Ranges
-/

/-- Two ranges in the order of their openers, the second of which starts behind
the first or ends within it. -/
structure Apart (strategy : FoldStrategy) (earlier later : FoldRange) :
    Prop where
  inOrder : earlier.first < later.first
  uncrossed : earlier.last < later.first ∨ later.last ≤ earlier.last
  inside : strategy = .nested ->
    earlier.last < later.first ∨ later.last < earlier.last
  ownCloser : strategy = .nested -> earlier.last ≠ later.last

/-- A stretch of the text that is not empty. -/
structure IsStretch (source : Text) (range : FoldRange) : Prop where
  forward : range.first < range.last
  last_le : range.last ≤ source.byteLength
  firstOnBoundary : IsBoundary source range.first
  lastOnBoundary : IsBoundary source range.last

theorem apart_rangeOfLines {strategy : FoldStrategy} {lines : List Text}
    {pair pair' : Nat × Nat} (h : pair ∈ blockPairs strategy lines)
    (h' : pair' ∈ blockPairs strategy lines) (hlt : pair.1 < pair'.1) :
    Apart strategy (rangeOfLines lines 0 pair)
      (rangeOfLines lines 0 pair') := by
  rcases pair with ⟨i, j⟩
  rcases pair' with ⟨i', j'⟩
  rcases bounds_of_mem_blockPairs h with ⟨_, hi, hj⟩
  rcases bounds_of_mem_blockPairs h' with ⟨hlt', hi', hj'⟩
  have hapart := blockPairs_do_not_cross h h' hlt
  unfold rangeOfLines
  simp only [Nat.zero_add]
  constructor
  · exact (endOfLine_lt_iff hi hi').mpr hlt
  · rw [endOfLine_lt_iff hj hi', endOfLine_le_iff hj' hj]
    exact hapart.imp_right And.left
  · intro hnested
    rw [endOfLine_lt_iff hj hi', endOfLine_lt_iff hj' hj]
    exact hapart.imp_right fun hinside => hinside.2 hnested
  · intro hnested
    rw [ne_eq, endOfLine_eq_iff hj hj']
    rcases hapart with hbehind | ⟨_, hinside⟩
    · exact Nat.ne_of_lt (hbehind.trans hlt')
    · exact Nat.ne_of_gt (hinside hnested)

theorem isStretch_of_mem_foldRanges {source : Text} {strategy : FoldStrategy}
    {range : FoldRange} (h : range ∈ foldRanges source strategy) :
    IsStretch source range := by
  rw [foldRanges_eq] at h
  rcases List.mem_map.mp h with ⟨⟨i, j⟩, hpair, rfl⟩
  rcases bounds_of_mem_blockPairs hpair with ⟨hlt, hi, hj⟩
  unfold rangeOfLines
  simp only [Nat.zero_add]
  exact {
    forward := endOfLine_lt hlt hj
    last_le := (isBoundary_endOfLine hj).le
    firstOnBoundary := isBoundary_endOfLine hi
    lastOnBoundary := isBoundary_endOfLine hj }

/-- The ranges of a document stand in the order of their openers, each of them
is a stretch of the text, and no two of them cross. -/
theorem foldRanges_do_not_cross (source : Text) (strategy : FoldStrategy) :
    (foldRanges source strategy).Pairwise (Apart strategy) ∧
      forall range, range ∈ foldRanges source strategy ->
        IsStretch source range := by
  constructor
  · rw [foldRanges_eq, List.pairwise_map]
    apply (pairwise_blockPairs strategy source.lines).imp_of_mem
    intro pair pair' hmem hmem' hlt
    exact apart_rangeOfLines hmem hmem' hlt
  · exact fun range => isStretch_of_mem_foldRanges

/-- The loop lies inside the branch, and the first closer ends both unless
blocks are counted. -/
theorem foldRanges_do_not_cross_in_branch :
    let source := "IF é\r\nFOR\nNEXT\nENDIF".toList
    foldRanges source .nested = [⟨5, 21⟩, ⟨10, 15⟩] ∧
      foldRanges source .firstCloser = [⟨5, 15⟩, ⟨10, 15⟩] ∧
      Apart .nested ⟨5, 21⟩ ⟨10, 15⟩ ∧ Apart .firstCloser ⟨5, 15⟩ ⟨10, 15⟩ ∧
      IsStretch source ⟨5, 21⟩ := by
  intro source
  have hnested : foldRanges source .nested = [⟨5, 21⟩, ⟨10, 15⟩] := by decide
  have hfirst : foldRanges source .firstCloser = [⟨5, 15⟩, ⟨10, 15⟩] := by
    decide
  rcases foldRanges_do_not_cross source .nested with ⟨hapart, hstretch⟩
  have hapart' := (foldRanges_do_not_cross source .firstCloser).1
  rw [hnested] at hapart hstretch
  rw [hfirst] at hapart'
  refine ⟨hnested, hfirst, ?_, ?_, ?_⟩
  · exact List.rel_of_pairwise_cons hapart List.mem_cons_self
  · exact List.rel_of_pairwise_cons hapart' List.mem_cons_self
  · exact hstretch _ List.mem_cons_self

end PseudocodeTools
