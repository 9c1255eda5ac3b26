import PseudocodeTools.Proofs.Block.Stack
/-!
# The depth of a search

A search for a closing line goes over the lines with the number of open blocks.
What each line does to that number is said once, as a relation; the rest follows
from it by induction.  A block that is opened on the way is closed no later than
the block around it.
-/

namespace PseudocodeTools

/-!
# Lines by number
-/

/-- The line of the given number has the property, its carriage return aside. -/
def LineAt (P : Text -> Bool) (lines : List Text) (n : Nat) : Prop :=
  exists line, lines[n]? = some line ∧ P line.dropReturn = true

/-- The line of the given number opens a block. -/
abbrev OpenerAt : List Text -> Nat -> Prop :=
  LineAt opensBlock

/-- The line of the given number closes a block. -/
abbrev CloserAt : List Text -> Nat -> Prop :=
  LineAt closesBlock

section Numbered

variable {P : Text -> Bool} {lines rest : List Text} {line : Text} {n : Nat}

theorem lineAt_zero_iff :
    LineAt P (line :: rest) 0 ↔ P line.dropReturn = true := by
  constructor
  · rintro ⟨_, hget, hline⟩
    cases hget
    exact hline
  · exact fun hline => ⟨line, rfl, hline⟩

theorem lineAt_drop_iff {m : Nat} :
    LineAt P (lines.drop m) n ↔ LineAt P lines (m + n) := by
  unfold LineAt
  rw [List.getElem?_drop]

theorem LineAt.lt_length (h : LineAt P lines n) : n < lines.length := by
  rcases h with ⟨_, hget, _⟩
  exact (List.getElem?_eq_some_iff.mp hget).1

/-- No line both opens and closes a block. -/
theorem LineAt.not_openerAt (h : CloserAt lines n) : ¬ OpenerAt lines n := by
  rintro ⟨line, hget, hopens⟩
  rcases h with ⟨line', hget', hcloses⟩
  rw [hget, Option.some.injEq] at hget'
  rw [← hget', closesBlock_of_opensBlock hopens] at hcloses
  cases hcloses

end Numbered

/-!
# What each line does to the depth
-/

/-- When `depth` blocks are open, the block in question is closed by the line
before which `n` of the given lines stand. -/
inductive ClosesAfter (strategy : FoldStrategy) :
    Nat -> List Text -> Nat -> Prop where
  | last {depth : Nat} {line : Text} {rest : List Text}
      (closes : closesBlock line.dropReturn = true)
      (ends : strategy = .firstCloser ∨ depth ≤ 1) :
      ClosesAfter strategy depth (line :: rest) 0
  | closer {depth n : Nat} {line : Text} {rest : List Text}
      (closes : closesBlock line.dropReturn = true)
      (counts : strategy ≠ .firstCloser) (deep : 1 ≤ depth)
      (goesOn : ClosesAfter strategy depth rest n) :
      ClosesAfter strategy (depth + 1) (line :: rest) (n + 1)
  | opener {depth n : Nat} {line : Text} {rest : List Text}
      (opens : opensBlock line.dropReturn = true)
      (goesOn : ClosesAfter strategy (depth + 1) rest n) :
      ClosesAfter strategy depth (line :: rest) (n + 1)
  | other {depth n : Nat} {line : Text} {rest : List Text}
      (noCloser : ¬ closesBlock line.dropReturn = true)
      (noOpener : ¬ opensBlock line.dropReturn = true)
      (goesOn : ClosesAfter strategy depth rest n) :
      ClosesAfter strategy depth (line :: rest) (n + 1)

/-- The first of two lines stands before the second; where blocks are not
counted, it may be the second. -/
def Within (strategy : FoldStrategy) (m n : Nat) : Prop :=
  m ≤ n ∧ (strategy = .nested -> m < n)

section Search

variable {strategy : FoldStrategy} {depth n : Nat} {lines : List Text}

theorem closesAfter_of_linesToCloser
    (h : linesToCloser strategy depth lines = some n) :
    ClosesAfter strategy depth lines n := by
  induction lines generalizing depth n with
  | nil =>
      cases h
  | cons line rest ih =>
      unfold linesToCloser at h
      split at h
      · rename_i hcloses
        split at h
        · rename_i hlast
          cases h
          rw [Bool.or_eq_true, decide_eq_true_iff, decide_eq_true_iff] at hlast
          exact .last hcloses hlast
        · rename_i hdeep
          rw [Bool.or_eq_true, decide_eq_true_iff, decide_eq_true_iff,
            not_or] at hdeep
          rcases Option.map_eq_some_iff.mp h with ⟨m, hm, rfl⟩
          obtain ⟨outer, rfl⟩ : exists outer, depth = outer + 1 :=
            ⟨depth - 1, by omega⟩
          exact .closer hcloses hdeep.1 (by omega) (ih hm)
      · rename_i hcloses
        split at h
        · rename_i hopens
          rcases Option.map_eq_some_iff.mp h with ⟨m, hm, rfl⟩
          exact .opener hopens (ih hm)
        · rename_i hopens
          rcases Option.map_eq_some_iff.mp h with ⟨m, hm, rfl⟩
          exact .other hcloses hopens (ih hm)

theorem Within.of_lt {m : Nat} (h : m < n) : Within strategy m n :=
  ⟨h.le, fun _ => h⟩

theorem Within.add_left {m : Nat} (h : Within strategy m n) (k : Nat) :
    Within strategy (k + m) (k + n) :=
  ⟨Nat.add_le_add_left h.1 k, fun hcounts => Nat.add_lt_add_left (h.2 hcounts) k⟩

theorem Within.succ {m : Nat} (h : Within strategy m n) :
    Within strategy (m + 1) (n + 1) :=
  ⟨Nat.succ_le_succ h.1, fun hcounts => Nat.succ_lt_succ (h.2 hcounts)⟩

theorem ClosesAfter.linesToCloser_eq (h : ClosesAfter strategy depth lines n) :
    linesToCloser strategy depth lines = some n := by
  induction h with
  | @last depth line rest closes ends =>
      rw [linesToCloser, if_pos closes, if_pos]
      rw [Bool.or_eq_true, decide_eq_true_iff, decide_eq_true_iff]
      exact ends
  | @closer depth n line rest closes counts deep goesOn ih =>
      rw [linesToCloser, if_pos closes, if_neg, Nat.add_sub_cancel, ih]
      · rfl
      · rw [Bool.or_eq_true, decide_eq_true_iff, decide_eq_true_iff, not_or]
        exact ⟨counts, by omega⟩
  | @opener depth n line rest opens goesOn ih =>
      rw [linesToCloser, if_neg (not_closesBlock_of_opensBlock opens),
        if_pos opens, ih]
      rfl
  | @other depth n line rest noCloser noOpener goesOn ih =>
      rw [linesToCloser, if_neg noCloser, if_neg noOpener, ih]
      rfl

end Search

namespace ClosesAfter

variable {strategy : FoldStrategy} {depth n : Nat} {lines : List Text}

theorem unique {m : Nat} (h : ClosesAfter strategy depth lines n)
    (h' : ClosesAfter strategy depth lines m) :
    n = m := by
  have heq := h.linesToCloser_eq
  rw [h'.linesToCloser_eq, Option.some.injEq] at heq
  exact heq.symm

theorem closerAt (h : ClosesAfter strategy depth lines n) :
    CloserAt lines n := by
  induction h with
  | last closes ends =>
      exact lineAt_zero_iff.mpr closes
  | closer closes counts deep goesOn ih =>
      exact ih
  | opener opens goesOn ih =>
      exact ih
  | other noCloser noOpener goesOn ih =>
      exact ih

/-- Lines that are added behind do not change which line closes a block. -/
theorem append (h : ClosesAfter strategy depth lines n) (more : List Text) :
    ClosesAfter strategy depth (lines ++ more) n := by
  induction h with
  | last closes ends =>
      exact .last closes ends
  | closer closes counts deep goesOn ih =>
      exact .closer closes counts deep ih
  | opener opens goesOn ih =>
      exact .opener opens ih
  | other noCloser noOpener goesOn ih =>
      exact .other noCloser noOpener ih

/-- With fewer open blocks the search ends no later, and earlier where blocks
are counted. -/
theorem exists_of_lt {deep : Nat} (h : ClosesAfter strategy deep lines n)
    (hpos : 1 ≤ depth) (hlt : depth < deep) :
    exists m, ClosesAfter strategy depth lines m ∧ Within strategy m n := by
  induction h generalizing depth with
  | last closes ends =>
      have hfirst : strategy = .firstCloser :=
        ends.resolve_right (Nat.not_le_of_lt (hpos.trans_lt hlt))
      refine ⟨0, .last closes (Or.inl hfirst), Nat.le_refl 0, ?_⟩
      intro hcounts
      rw [hfirst] at hcounts
      cases hcounts
  | closer closes counts deep goesOn ih =>
      -- The shallower search may stop at a closer that the deeper one counts.
      by_cases hlast : depth ≤ 1
      · exact ⟨0, .last closes (Or.inr hlast), .of_lt (Nat.succ_pos _)⟩
      · obtain ⟨outer, rfl⟩ : exists outer, depth = outer + 1 :=
          ⟨depth - 1, by omega⟩
        have houter : 1 ≤ outer := by omega
        rcases ih houter (Nat.lt_of_succ_lt_succ hlt) with ⟨m, hm, hwithin⟩
        exact ⟨m + 1, .closer closes counts houter hm, hwithin.succ⟩
  | opener opens goesOn ih =>
      rcases ih (Nat.le_add_left 1 depth) (Nat.succ_lt_succ hlt) with
        ⟨m, hm, hwithin⟩
      exact ⟨m + 1, .opener opens hm, hwithin.succ⟩
  | other noCloser noOpener goesOn ih =>
      rcases ih hpos hlt with ⟨m, hm, hwithin⟩
      exact ⟨m + 1, .other noCloser noOpener hm, hwithin.succ⟩

/-- From every line on the way to the closer, the search goes on with some
number of open blocks. -/
theorem exists_drop {k j : Nat} (h : ClosesAfter strategy depth lines (k + j))
    (hdepth : 1 ≤ depth) :
    exists deep, 1 ≤ deep ∧ ClosesAfter strategy deep (lines.drop k) j := by
  induction k generalizing depth lines with
  | zero =>
      rw [Nat.zero_add] at h
      exact ⟨depth, hdepth, h⟩
  | succ k ih =>
      rw [Nat.add_right_comm] at h
      cases h with
      | closer closes counts deep goesOn =>
          exact ih goesOn deep
      | opener opens goesOn =>
          exact ih goesOn (Nat.le_add_left 1 depth)
      | other noCloser noOpener goesOn =>
          exact ih goesOn hdepth

/-- A block that is opened before the closing line is closed by that line at the
latest, and by an earlier one where blocks are counted. -/
theorem exists_inner (h : ClosesAfter strategy depth lines n)
    (hdepth : 1 ≤ depth) {k : Nat} (hlt : k < n) (hopens : OpenerAt lines k) :
    exists m, ClosesAfter strategy 1 (lines.drop (k + 1)) m ∧
      Within strategy (k + 1 + m) n := by
  rcases Nat.exists_eq_add_of_lt hlt with ⟨j, rfl⟩
  rcases exists_drop (k := k) (j := j + 1) h hdepth with ⟨deep, hdeep, hsearch⟩
  have hhead : OpenerAt (lines.drop k) 0 := lineAt_drop_iff.mpr hopens
  have htail : (lines.drop k).tail = lines.drop (k + 1) := List.tail_drop
  rw [← htail]
  generalize lines.drop k = behind at hsearch hhead
  cases hsearch with
  | closer closes counts deep goesOn =>
      exact absurd hhead (lineAt_zero_iff.mpr closes).not_openerAt
  | opener opens goesOn =>
      rcases goesOn.exists_of_lt (Nat.le_refl 1) (Nat.lt_add_of_pos_left hdeep)
        with ⟨m, hm, hwithin⟩
      have hbehind := hwithin.add_left (k + 1)
      rw [Nat.add_right_comm k 1 j] at hbehind
      exact ⟨m, hm, hbehind⟩
  | other noCloser noOpener goesOn =>
      exact absurd (lineAt_zero_iff.mp hhead) noOpener

end ClosesAfter

/-!
# Blocks by the search for their closers
-/

/-- A block runs from a line that opens one to the line which the search from
there ends at. -/
theorem mem_blockPairs_iff {strategy : FoldStrategy} {lines : List Text}
    {i j : Nat} :
    (i, j) ∈ blockPairs strategy lines ↔
      OpenerAt lines i ∧ exists n,
        ClosesAfter strategy 1 (lines.drop (i + 1)) n ∧ j = i + 1 + n := by
  induction lines generalizing i j with
  | nil =>
      constructor
      · intro hmem
        cases hmem
      · rintro ⟨⟨_, hget, _⟩, _⟩
        cases hget
  | cons line rest ih =>
      rw [blockPairs, List.mem_append, Option.mem_toList]
      cases i with
      | zero =>
          have hbehind : (0, j) ∉
              (blockPairs strategy rest).map (linesDown 1) := by
            intro hmem
            rcases List.mem_map.mp hmem with ⟨pair, _, heq⟩
            exact Nat.succ_ne_zero pair.1 (congrArg Prod.fst heq)
          have hopener : OpenerAt (line :: rest) 0 ↔
              opensBlock line.dropReturn = true := lineAt_zero_iff
          rw [or_iff_left hbehind, hopener, ownPair?]
          constructor
          · intro hown
            split at hown
            · rename_i hopens
              rcases Option.map_eq_some_iff.mp hown with ⟨n, hn, heq⟩
              cases heq
              exact ⟨hopens, n, closesAfter_of_linesToCloser hn,
                Nat.add_comm n 1⟩
            · cases hown
          · rintro ⟨hopens, n, hsearch, rfl⟩
            have hn : linesToCloser strategy 1 rest = some n :=
              hsearch.linesToCloser_eq
            rw [if_pos hopens, hn, Nat.zero_add, Nat.add_comm 1]
            rfl
      | succ i =>
          have hown : ¬ ownPair? strategy line rest = some (i + 1, j) := by
            intro hown
            have hfirst := fst_of_mem_ownPair? (Option.mem_toList.mpr hown)
            exact Nat.succ_ne_zero i hfirst
          rw [or_iff_right hown, List.mem_map]
          constructor
          · rintro ⟨⟨a, b⟩, hmem, heq⟩
            cases heq
            rcases ih.mp hmem with ⟨hopens, n, hsearch, rfl⟩
            exact ⟨hopens, n, hsearch, Nat.add_right_comm (a + 1) n 1⟩
          · rintro ⟨hopens, n, hsearch, rfl⟩
            have hdown : linesDown 1 (i, i + 1 + n) =
                (i + 1, i + 1 + 1 + n) :=
              congrArg (Prod.mk (i + 1)) (Nat.add_right_comm (i + 1) n 1)
            exact ⟨(i, i + 1 + n), ih.mpr ⟨hopens, n, hsearch, rfl⟩, hdown⟩

end PseudocodeTools
