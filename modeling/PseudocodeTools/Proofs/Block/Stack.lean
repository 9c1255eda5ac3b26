import Mathlib.Data.List.Sort
import PseudocodeTools.Proofs.Block.Closer
/-!
# Blocks by a stack

One pass over the lines of a document with a stack of open blocks pairs the same
lines as the separate searches from each opener.
-/

namespace PseudocodeTools

/-!
# The pass
-/

/-- The numbers of the openers that are not closed so far, the innermost first,
and the numbers of the opener and the closer of each closed block. -/
structure BlockStack where
  opened : List Nat := []
  closed : List (Nat × Nat) := []

/-- The stack after one more line, which is given with its number. -/
def BlockStack.step (stack : BlockStack) (line : Text × Nat) : BlockStack :=
  if opensBlock line.1 then
    { stack with opened := line.2 :: stack.opened }
  else if closesBlock line.1 then
    match stack.opened with
    | [] => stack
    | opener :: outer =>
        { opened := outer, closed := stack.closed ++ [(opener, line.2)] }
  else
    stack

/-- The stack after the given lines, from the one with number `number` on. -/
def BlockStack.run (stack : BlockStack) (number : Nat) (lines : List Text) :
    BlockStack :=
  ((lines.map Text.dropReturn).zipIdx number).foldl step stack

/-- The opener and the closer of each block of a document, by line numbers, in
the order in which the blocks are closed. -/
def stackPairs (source : Text) : List (Nat × Nat) :=
  (BlockStack.run {} 0 source.lines).closed

/-!
# Stack height and depth
-/

/-- The blocks among the open ones that the given lines close, the first of
which has number `number`.  The block at the top of the stack is closed when
`depth` blocks are, and each below it one block later. -/
def closings (number depth : Nat) (lines : List Text) :
    List Nat -> List (Nat × Nat)
  | [] => []
  | opener :: outer =>
      ((linesToCloser .nested depth lines).map
          fun n => (opener, number + n)).toList ++
        closings number (depth + 1) lines outer

theorem closings_nil (number depth : Nat) (opened : List Nat) :
    closings number depth [] opened = [] := by
  induction opened generalizing depth with
  | nil =>
      rfl
  | cons opener outer ih =>
      rw [closings, ih]
      rfl

/-- A line that takes each depth to one other depth leaves the blocks that are
closed behind it. -/
theorem closings_cons {line : Text} {rest : List Text} {depth depth' : Nat}
    (number : Nat) (opened : List Nat)
    (h : forall n, linesToCloser .nested (depth + n) (line :: rest) =
      (linesToCloser .nested (depth' + n) rest).map (· + 1)) :
    closings number depth (line :: rest) opened =
      closings (number + 1) depth' rest opened := by
  induction opened generalizing depth depth' with
  | nil =>
      rfl
  | cons opener outer ih =>
      have houter : closings number (depth + 1) (line :: rest) outer =
          closings (number + 1) (depth' + 1) rest outer := by
        refine ih ?_
        intro n
        rw [Nat.add_assoc, Nat.add_assoc]
        exact h (1 + n)
      have hopener : linesToCloser .nested depth (line :: rest) =
          (linesToCloser .nested depth' rest).map (· + 1) := h 0
      have hnumber : (fun n => (opener, number + n)) ∘ (· + 1) =
          fun n => (opener, number + 1 + n) := by
        funext n
        rw [Function.comp_apply, Nat.add_assoc, Nat.add_comm 1]
      rw [closings, closings, houter, hopener, Option.map_map, hnumber]

section Line

variable {line : Text} {rest : List Text}

theorem closings_of_opensBlock (number : Nat) (opened : List Nat)
    (h : opensBlock line.dropReturn = true) :
    closings number 1 (line :: rest) opened =
      closings (number + 1) 2 rest opened := by
  refine closings_cons number opened ?_
  intro n
  rw [linesToCloser, if_neg (not_closesBlock_of_opensBlock h), if_pos h,
    Nat.add_right_comm]

/-- A closer takes the block at the top of the stack away. -/
theorem closings_of_closesBlock (number opener : Nat) (outer : List Nat)
    (h : closesBlock line.dropReturn = true) :
    closings number 1 (line :: rest) (opener :: outer) =
      (opener, number) :: closings (number + 1) 1 rest outer := by
  have hfirst : linesToCloser .nested 1 (line :: rest) = some 0 := by
    rw [linesToCloser, if_pos h]
    rfl
  have houter : closings number 2 (line :: rest) outer =
      closings (number + 1) 1 rest outer := by
    refine closings_cons number outer ?_
    intro n
    have hdeep :
        ¬ (FoldStrategy.nested = .firstCloser || 2 + n ≤ 1) = true := by
      simp only [Bool.or_eq_true, decide_eq_true_eq, reduceCtorEq, false_or]
      omega
    have hdepth : 2 + n - 1 = 1 + n := by omega
    rw [linesToCloser, if_pos h, if_neg hdeep, hdepth]
  rw [closings, hfirst, houter]
  rfl

theorem closings_of_other (number : Nat) (opened : List Nat)
    (hopens : ¬ opensBlock line.dropReturn = true)
    (hcloses : ¬ closesBlock line.dropReturn = true) :
    closings number 1 (line :: rest) opened =
      closings (number + 1) 1 rest opened := by
  refine closings_cons number opened ?_
  intro n
  rw [linesToCloser, if_neg hcloses, if_neg hopens]

end Line

/-!
# What a pass finds
-/

theorem map_linesDown_succ (number : Nat) (pairs : List (Nat × Nat)) :
    (pairs.map (linesDown 1)).map (linesDown number) =
      pairs.map (linesDown (number + 1)) := by
  rw [List.map_map]
  refine congrFun (congrArg List.map (funext fun pair => ?_)) pairs
  simp only [Function.comp_apply, linesDown, Nat.add_assoc, Nat.add_comm 1]

theorem blockPairs_of_not_opensBlock {strategy : FoldStrategy} {line : Text}
    {rest : List Text} (h : ¬ opensBlock line.dropReturn = true) :
    blockPairs strategy (line :: rest) =
      (blockPairs strategy rest).map (linesDown 1) := by
  rw [blockPairs, ownPair?, if_neg h]
  rfl

/-- A pass closes the blocks of its stack that the lines close, and the blocks
that begin in the lines themselves. -/
theorem BlockStack.closed_run_perm (stack : BlockStack) (number : Nat)
    (lines : List Text) :
    (stack.run number lines).closed.Perm
      (stack.closed ++
        (closings number 1 lines stack.opened ++
          (blockPairs .nested lines).map (linesDown number))) := by
  induction lines generalizing stack number with
  | nil =>
      rw [closings_nil]
      exact .of_eq (List.append_nil _).symm
  | cons line rest ih =>
      have hrest := ih (stack.step (line.dropReturn, number)) (number + 1)
      have hrun : stack.run number (line :: rest) =
          (stack.step (line.dropReturn, number)).run (number + 1) rest := rfl
      rw [hrun]
      refine hrest.trans ?_
      unfold BlockStack.step
      by_cases hopens : opensBlock line.dropReturn = true
      · have hown : (ownPair? .nested line rest).toList.map
            (linesDown number) =
              ((linesToCloser .nested 1 rest).map
                fun n => (number, number + 1 + n)).toList := by
          rw [ownPair?, if_pos hopens]
          cases linesToCloser .nested 1 rest with
          | none =>
              rfl
          | some n =>
              have hcloser : linesDown number (0, n + 1) =
                  (number, number + 1 + n) := by
                simp only [linesDown, Prod.mk.injEq]
                omega
              exact congrArg (fun pair => [pair]) hcloser
        rw [if_pos hopens, closings_of_opensBlock _ _ hopens, blockPairs,
          List.map_append, hown, map_linesDown_succ]
        refine .append_left _ ?_
        rw [closings, List.append_assoc]
        exact List.perm_append_comm_assoc _ _ _
      · rw [if_neg hopens, blockPairs_of_not_opensBlock hopens,
          map_linesDown_succ]
        by_cases hcloses : closesBlock line.dropReturn = true
        · rw [if_pos hcloses]
          cases hopened : stack.opened with
          | nil =>
              dsimp only
              rw [hopened]
              exact .refl _
          | cons opener outer =>
              rw [closings_of_closesBlock _ _ _ hcloses]
              exact .of_eq (List.append_assoc _ _ _)
        · rw [if_neg hcloses, closings_of_other _ _ hopens hcloses]

/-!
# Blocks in the order of their openers
-/

theorem fst_of_mem_ownPair? {strategy : FoldStrategy} {line : Text}
    {rest : List Text} {pair : Nat × Nat}
    (h : pair ∈ (ownPair? strategy line rest).toList) :
    pair.1 = 0 := by
  unfold ownPair? at h
  split at h
  · rcases Option.map_eq_some_iff.mp (Option.mem_toList.mp h) with ⟨n, _, rfl⟩
    rfl
  · cases h

theorem pairwise_blockPairs (strategy : FoldStrategy) (lines : List Text) :
    (blockPairs strategy lines).Pairwise fun a b => a.1 < b.1 := by
  induction lines with
  | nil =>
      exact .nil
  | cons line rest ih =>
      rw [blockPairs, List.pairwise_append]
      refine ⟨?_, ih.map _ fun a b hlt => Nat.succ_lt_succ hlt, ?_⟩
      · cases ownPair? strategy line rest with
        | none =>
            exact .nil
        | some pair =>
            exact List.pairwise_singleton _ pair
      · intro a ha b hb
        rcases List.mem_map.mp hb with ⟨pair, _, rfl⟩
        rw [fst_of_mem_ownPair? ha]
        exact Nat.succ_pos pair.1

/-- The blocks of a document under nested folding are those that one pass with a
stack closes, in the order of their openers. -/
theorem foldRanges_nested_eq_stackPairs (source : Text) :
    foldRanges source .nested =
      ((stackPairs source).mergeSort fun a b => a.1 ≤ b.1).map
        (rangeOfLines source.lines 0) := by
  have hperm : (stackPairs source).Perm (blockPairs .nested source.lines) := by
    have hrun := BlockStack.closed_run_perm {} 0 source.lines
    have hdown : linesDown 0 = id := rfl
    rw [hdown, List.map_id] at hrun
    exact hrun
  have hpairs := pairwise_blockPairs .nested source.lines
  have hnodup : ((blockPairs .nested source.lines).map Prod.fst).Nodup :=
    List.pairwise_map.mpr (hpairs.imp Nat.ne_of_lt)
  have hsorted := hpairs.imp fun hlt => decide_eq_true (Nat.le_of_lt hlt)
  rw [foldRanges_eq]
  refine congrArg (List.map _) ?_
  refine List.Perm.eq_of_pairwise ?_ hsorted
    (List.pairwise_mergeSort ?_ ?_ _)
    (hperm.symm.trans (List.mergeSort_perm _ _).symm)
  · intro a b ha hb hle hge
    rw [List.mem_mergeSort, hperm.mem_iff] at hb
    rw [decide_eq_true_eq] at hle hge
    exact List.inj_on_of_nodup_map hnodup ha hb (Nat.le_antisymm hle hge)
  · intro a b c hab hbc
    simp only [decide_eq_true_eq] at hab hbc ⊢
    exact Nat.le_trans hab hbc
  · intro a b
    simp only [Bool.or_eq_true, decide_eq_true_eq]
    exact Nat.le_total a.1 b.1

-- The inner block is closed first and listed second; the first line and the
-- last pair with nothing.
example :
    let source := "END\nIF\r\nFOR\nNEXT\nENDIF\nWHILE".toList
    stackPairs source = [(2, 3), (1, 4)] ∧
      foldRanges source .nested = [⟨6, 22⟩, ⟨11, 16⟩] := by
  decide

end PseudocodeTools
