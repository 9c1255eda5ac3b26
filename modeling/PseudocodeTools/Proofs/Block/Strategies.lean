import PseudocodeTools.Proofs.Block.Crossing
/-!
# Strategies compared

The first closer behind an opener is the one that counting pairs it with, if no
other block is opened before.  Otherwise counting goes on to a later closer or
finds none.
-/

namespace PseudocodeTools

/-!
# The first closer
-/

section First

variable {lines : List Text} {n : Nat}

/-- The line of the given number closes a block, and none before it does. -/
def FirstCloserAt (lines : List Text) (n : Nat) : Prop :=
  CloserAt lines n ∧ forall k, k < n -> ¬ CloserAt lines k

theorem FirstCloserAt.unique {m : Nat} (h : FirstCloserAt lines n)
    (h' : FirstCloserAt lines m) :
    n = m := by
  rcases Nat.lt_trichotomy n m with hlt | heq | hlt
  · exact absurd h.1 (h'.2 n hlt)
  · exact heq
  · exact absurd h'.1 (h.2 m hlt)

theorem FirstCloserAt.le {m : Nat} (h : FirstCloserAt lines n)
    (hm : CloserAt lines m) :
    n ≤ m := by
  apply Nat.le_of_not_lt
  intro hlt
  exact h.2 m hlt hm

theorem exists_firstCloserAt (h : CloserAt lines n) :
    exists m, FirstCloserAt lines m := by
  classical
  have hexists : exists m, CloserAt lines m := ⟨n, h⟩
  exact ⟨Nat.find hexists, Nat.find_spec hexists,
    fun k hlt => Nat.find_min hexists hlt⟩

theorem firstCloserAt_cons_iff {line : Text} {rest : List Text}
    (h : ¬ closesBlock line.dropReturn = true) :
    FirstCloserAt (line :: rest) (n + 1) ↔ FirstCloserAt rest n := by
  constructor
  · rintro ⟨hcloser, hbefore⟩
    exact ⟨hcloser, fun k hlt => hbefore (k + 1) (Nat.succ_lt_succ hlt)⟩
  · rintro ⟨hcloser, hbefore⟩
    refine ⟨hcloser, ?_⟩
    intro k hlt
    cases k with
    | zero =>
        exact fun hfirst => h (lineAt_zero_iff.mp hfirst)
    | succ k =>
        exact hbefore k (Nat.lt_of_succ_lt_succ hlt)

/-- Without counting, only the first closer ends a search. -/
theorem ClosesAfter.firstCloserAt {depth : Nat}
    (h : ClosesAfter .firstCloser depth lines n) :
    FirstCloserAt lines n := by
  induction h with
  | last closes ends =>
      exact ⟨lineAt_zero_iff.mpr closes,
        fun k hlt => absurd hlt (Nat.not_lt_zero k)⟩
  | closer closes counts deep goesOn ih =>
      exact absurd rfl counts
  | opener opens goesOn ih =>
      have hcloser := not_closesBlock_of_opensBlock opens
      exact (firstCloserAt_cons_iff hcloser).mpr ih
  | other noCloser noOpener goesOn ih =>
      exact (firstCloserAt_cons_iff noCloser).mpr ih

/-- The first closer ends every search without counting, and a search for the
closer of one block if no other block is opened before. -/
theorem closesAfter_of_firstCloserAt {strategy : FoldStrategy} {depth : Nat}
    (h : FirstCloserAt lines n)
    (hends : strategy = .firstCloser ∨
      depth ≤ 1 ∧ forall k, k < n -> ¬ OpenerAt lines k) :
    ClosesAfter strategy depth lines n := by
  induction lines generalizing n depth with
  | nil =>
      exact absurd h.1.lt_length (Nat.not_lt_zero n)
  | cons line rest ih =>
      cases n with
      | zero =>
          exact .last (lineAt_zero_iff.mp h.1) (hends.imp_right And.left)
      | succ n =>
          have hcloser : ¬ closesBlock line.dropReturn = true :=
            fun hcloses => h.2 0 (Nat.succ_pos n) (lineAt_zero_iff.mpr hcloses)
          have hrest := (firstCloserAt_cons_iff hcloser).mp h
          by_cases hopens : opensBlock line.dropReturn = true
          · refine .opener hopens (ih hrest ?_)
            rcases hends with hfirst | ⟨_, hplain⟩
            · exact Or.inl hfirst
            · exact absurd (lineAt_zero_iff.mpr hopens)
                (hplain 0 (Nat.succ_pos n))
          · refine .other hcloser hopens (ih hrest (hends.imp_right ?_))
            rintro ⟨hdepth, hplain⟩
            exact ⟨hdepth, fun k hlt => hplain (k + 1) (Nat.succ_lt_succ hlt)⟩

/-- Counting from one open block stops at the first closer exactly if no other
block is opened before. -/
theorem closesAfter_nested_iff (h : FirstCloserAt lines n) :
    ClosesAfter .nested 1 lines n ↔
      forall k, k < n -> ¬ OpenerAt lines k := by
  constructor
  · intro hsearch k hlt hopens
    rcases hsearch.exists_inner (Nat.le_refl 1) hlt hopens with
      ⟨m, hm, hwithin⟩
    exact h.2 (k + 1 + m) (hwithin.2 rfl) (lineAt_drop_iff.mp hm.closerAt)
  · intro hplain
    exact closesAfter_of_firstCloserAt h (Or.inr ⟨Nat.le_refl 1, hplain⟩)

end First

/-!
# Ranges of a line
-/

/-- The range is that of a block which the line of the given number opens. -/
def FoldsLine (source : Text) (strategy : FoldStrategy) (i : Nat)
    (range : FoldRange) : Prop :=
  range ∈ foldRanges source strategy ∧
    range.first = endOfLine source.lines i

theorem foldsLine_iff {source : Text} {strategy : FoldStrategy} {i : Nat}
    {range : FoldRange} (h : OpenerAt source.lines i) :
    FoldsLine source strategy i range ↔
      exists n, ClosesAfter strategy 1 (source.lines.drop (i + 1)) n ∧
        range = rangeOfLines source.lines 0 (i, i + 1 + n) := by
  unfold FoldsLine
  rw [foldRanges_eq, List.mem_map]
  constructor
  · rintro ⟨⟨⟨i', j⟩, hpair, rfl⟩, hfirst⟩
    have hi := (bounds_of_mem_blockPairs hpair).2.1
    rw [rangeOfLines, Nat.zero_add, endOfLine_eq_iff hi h.lt_length] at hfirst
    subst hfirst
    rcases mem_blockPairs_iff.mp hpair with ⟨_, n, hsearch, rfl⟩
    exact ⟨n, hsearch, rfl⟩
  · rintro ⟨n, hsearch, rfl⟩
    exact ⟨⟨(i, i + 1 + n), mem_blockPairs_iff.mpr ⟨h, n, hsearch, rfl⟩, rfl⟩,
      Nat.zero_add _⟩

/-- The first line behind line `i` that closes a block. -/
def IsNextCloser (lines : List Text) (i n : Nat) : Prop :=
  i < n ∧ CloserAt lines n ∧ forall k, i < k -> k < n -> ¬ CloserAt lines k

theorem forall_between_iff {P : Nat -> Prop} {i n : Nat} :
    (forall k, i < k -> k < i + 1 + n -> P k) ↔
      forall k, k < n -> P (i + 1 + k) := by
  constructor
  · intro h k hlt
    exact h (i + 1 + k) (Nat.lt_of_succ_le (Nat.le_add_right _ k))
      (Nat.add_lt_add_left hlt _)
  · intro h k hlow hhigh
    obtain ⟨m, rfl⟩ := Nat.exists_eq_add_of_le (Nat.succ_le_of_lt hlow)
    exact h m (Nat.lt_of_add_lt_add_left hhigh)

theorem isNextCloser_iff {lines : List Text} {i n : Nat} :
    IsNextCloser lines i n ↔
      exists m, FirstCloserAt (lines.drop (i + 1)) m ∧ n = i + 1 + m := by
  unfold IsNextCloser FirstCloserAt
  simp only [lineAt_drop_iff]
  constructor
  · rintro ⟨hlt, hcloser, hbefore⟩
    obtain ⟨m, rfl⟩ := Nat.exists_eq_add_of_le (Nat.succ_le_of_lt hlt)
    exact ⟨m, ⟨hcloser, forall_between_iff.mp hbefore⟩, rfl⟩
  · rintro ⟨m, ⟨hcloser, hbefore⟩, rfl⟩
    exact ⟨Nat.lt_of_succ_le (Nat.le_add_right _ m), hcloser,
      forall_between_iff.mpr hbefore⟩

/-- No block is opened up to the next closer, with the lines numbered from the
one behind line `i` on. -/
theorem exists_isNextCloser_iff {lines : List Text} {i m : Nat}
    (h : FirstCloserAt (lines.drop (i + 1)) m) :
    (exists n, IsNextCloser lines i n ∧
        forall k, i < k -> k < n -> ¬ OpenerAt lines k) ↔
      forall k, k < m -> ¬ OpenerAt (lines.drop (i + 1)) k := by
  simp only [lineAt_drop_iff]
  constructor
  · rintro ⟨n, hnext, hplain⟩
    rcases isNextCloser_iff.mp hnext with ⟨m', hfirst, rfl⟩
    have hsame : m' = m := hfirst.unique h
    subst hsame
    exact forall_between_iff.mp hplain
  · intro hplain
    exact ⟨i + 1 + m, isNextCloser_iff.mpr ⟨m, h, rfl⟩,
      forall_between_iff.mpr hplain⟩

theorem foldsLine_firstCloser_iff {source : Text} {i m : Nat}
    {range : FoldRange} (hopens : OpenerAt source.lines i)
    (h : FirstCloserAt (source.lines.drop (i + 1)) m) :
    FoldsLine source .firstCloser i range ↔
      range = rangeOfLines source.lines 0 (i, i + 1 + m) := by
  rw [foldsLine_iff hopens]
  constructor
  · rintro ⟨n, hsearch, rfl⟩
    rw [hsearch.firstCloserAt.unique h]
  · intro heq
    exact ⟨m, closesAfter_of_firstCloserAt h (Or.inl rfl), heq⟩

theorem rangeOfLines_eq_iff {lines : List Text} {i j j' : Nat}
    (hj : j < lines.length) (hj' : j' < lines.length) :
    rangeOfLines lines 0 (i, j) = rangeOfLines lines 0 (i, j') ↔ j = j' := by
  unfold rangeOfLines
  rw [FoldRange.mk.injEq, Nat.zero_add, Nat.zero_add, Nat.zero_add,
    endOfLine_eq_iff hj hj', and_iff_right rfl]

/-- An opener that has a range where blocks are counted has just one range where
they are not, which begins alike and ends no later; the two are equal exactly if
no block is opened before the next closer.  Without counting there is a range
exactly if a closer follows at all. -/
theorem nested_refines_firstCloser (source : Text) (i : Nat)
    (hopens : OpenerAt source.lines i) :
    (forall range, FoldsLine source .nested i range ->
      exists range',
        (forall other, FoldsLine source .firstCloser i other ↔
          other = range') ∧
        range'.first = range.first ∧ range'.last ≤ range.last ∧
        (range' = range ↔ exists n, IsNextCloser source.lines i n ∧
          forall k, i < k -> k < n -> ¬ OpenerAt source.lines k)) ∧
    ((exists range, FoldsLine source .firstCloser i range) ↔
      exists n, i < n ∧ CloserAt source.lines n) := by
  constructor
  · intro range hrange
    rcases (foldsLine_iff hopens).mp hrange with ⟨n, hsearch, rfl⟩
    rcases exists_firstCloserAt hsearch.closerAt with ⟨m, hfirst⟩
    have hn := (lineAt_drop_iff.mp hsearch.closerAt).lt_length
    have hm := (lineAt_drop_iff.mp hfirst.1).lt_length
    have hle : i + 1 + m ≤ i + 1 + n :=
      Nat.add_le_add_left (hfirst.le hsearch.closerAt) _
    have hsame : i + 1 + m = i + 1 + n ↔
        ClosesAfter .nested 1 (source.lines.drop (i + 1)) m := by
      rw [Nat.add_left_cancel_iff]
      constructor
      · intro heq
        rw [heq]
        exact hsearch
      · exact fun hstops => hstops.unique hsearch
    refine ⟨rangeOfLines source.lines 0 (i, i + 1 + m),
      fun other => foldsLine_firstCloser_iff hopens hfirst, rfl, ?_, ?_⟩
    · exact Nat.add_le_add_left ((endOfLine_le_iff hm hn).mpr hle) 0
    · rw [rangeOfLines_eq_iff hm hn, hsame, closesAfter_nested_iff hfirst,
        exists_isNextCloser_iff hfirst]
  · constructor
    · rintro ⟨range, hrange⟩
      rcases (foldsLine_iff hopens).mp hrange with ⟨n, hsearch, _⟩
      exact ⟨i + 1 + n, Nat.lt_of_succ_le (Nat.le_add_right _ n),
        lineAt_drop_iff.mp hsearch.closerAt⟩
    · rintro ⟨n, hlt, hcloser⟩
      obtain ⟨k, rfl⟩ := Nat.exists_eq_add_of_le (Nat.succ_le_of_lt hlt)
      rcases exists_firstCloserAt (lineAt_drop_iff.mpr hcloser) with
        ⟨m, hfirst⟩
      exact ⟨_, (foldsLine_firstCloser_iff hopens hfirst).mpr rfl⟩

/-- The loop in a branch, whose closer comes first. -/
theorem nested_refines_firstCloser_in_branch :
    let source : Text := "IF é\r\nFOR\nNEXT\nENDIF".toList
    OpenerAt source.lines 0 ∧ FoldsLine source .nested 0 ⟨5, 21⟩ ∧
      (exists range',
        (forall other, FoldsLine source .firstCloser 0 other ↔
          other = range') ∧
        range'.first = 5 ∧ range'.last ≤ 21 ∧
        (range' = ⟨5, 21⟩ ↔ exists n, IsNextCloser source.lines 0 n ∧
          forall k, 0 < k -> k < n -> ¬ OpenerAt source.lines k)) ∧
      ((exists range, FoldsLine source .firstCloser 0 range) ↔
        exists n, 0 < n ∧ CloserAt source.lines n) := by
  intro source
  have hopens : OpenerAt source.lines 0 := ⟨"IF é\r".toList, rfl, by decide⟩
  have hfolds : FoldsLine source .nested 0 ⟨5, 21⟩ := ⟨by decide, rfl⟩
  rcases nested_refines_firstCloser source 0 hopens with ⟨hranges, hexists⟩
  exact ⟨hopens, hfolds, hranges ⟨5, 21⟩ hfolds, hexists⟩

end PseudocodeTools
