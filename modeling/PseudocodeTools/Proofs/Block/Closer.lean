import PseudocodeTools.Block.Fold
import PseudocodeTools.Proofs.Text.Cut
import PseudocodeTools.Proofs.Text.Lines
/-!
# Closing lines by number

The search for a closing line goes through byte offsets.  It comes to the same
as a search through line numbers, from which the offsets are found at the end.
-/

namespace PseudocodeTools

/-!
# Openers and closers
-/

section Head

variable {s line : Text}

/-- Every word begins with one of the letters, in lower case. -/
def AllBeginIn (letters : List Char) (words : List Text) : Prop :=
  forall word, word ∈ words ->
    exists w rest, word = w :: rest ∧ w.toLower ∈ letters

theorem allBeginIn_blockOpeners :
    AllBeginIn ['f', 'p', 'w', 'r', 'i', 'b'] blockOpeners := by
  intro word hword
  simp only [blockOpeners, List.map_cons, List.map_nil, List.mem_cons,
    List.not_mem_nil, or_false] at hword
  rcases hword with rfl | rfl | rfl | rfl | rfl | rfl | rfl <;>
    exact ⟨_, _, rfl, by decide⟩

theorem allBeginIn_blockClosers :
    AllBeginIn ['e', 'n', 'u'] blockClosers := by
  intro word hword
  simp only [blockClosers, List.map_cons, List.map_nil, List.mem_cons,
    List.not_mem_nil, or_false] at hword
  rcases hword with rfl | rfl | rfl | rfl <;> exact ⟨_, _, rfl, by decide⟩

theorem exists_head_of_equalIgnoringCase {letters : List Char}
    {words : List Text} (hwords : AllBeginIn letters words) {word : Text}
    (hword : word ∈ words) (h : s.map Char.toLower = word.map Char.toLower) :
    exists c, s.head? = some c ∧ c.toLower ∈ letters := by
  rcases hwords word hword with ⟨w, rest, rfl, hw⟩
  cases s with
  | nil =>
      cases h
  | cons c t =>
      have hlower : c.toLower = w.toLower := (List.cons.inj h).1
      rw [← hlower] at hw
      exact ⟨c, rfl, hw⟩

theorem head?_of_isPrefix {c : Char} (h : s <+: line)
    (hhead : s.head? = some c) :
    line.head? = some c := by
  rcases h with ⟨rest, rfl⟩
  rw [List.head?_append, hhead, Option.some_or]

theorem exists_head_of_opensBlock (h : opensBlock line = true) :
    exists c, line.trimStart.head? = some c ∧
      c.toLower ∈ ['f', 'p', 'w', 'r', 'i', 'b'] := by
  rcases List.any_eq_true.mp h with ⟨word, hword, hequal⟩
  rcases exists_head_of_equalIgnoringCase allBeginIn_blockOpeners hword
    (beq_iff_eq.mp hequal).symm with ⟨c, hhead, hc⟩
  exact ⟨c, head?_of_isPrefix (List.takeWhile_prefix _) hhead, hc⟩

theorem exists_head_of_closesBlock (h : closesBlock line = true) :
    exists c, line.trimStart.head? = some c ∧
      c.toLower ∈ ['e', 'n', 'u'] := by
  rcases List.any_eq_true.mp h with ⟨word, hword, hequal⟩
  rcases exists_head_of_equalIgnoringCase allBeginIn_blockClosers hword
    (beq_iff_eq.mp hequal) with ⟨c, hhead, hc⟩
  exact ⟨c, head?_of_isPrefix (List.take_prefix _ _) hhead, hc⟩

/-- No line both opens and closes a block. -/
theorem closesBlock_of_opensBlock (h : opensBlock line = true) :
    closesBlock line = false := by
  rw [← Bool.not_eq_true]
  intro hcloses
  rcases exists_head_of_opensBlock h with ⟨c, hhead, hc⟩
  rcases exists_head_of_closesBlock hcloses with ⟨d, hhead', hd⟩
  rw [hhead, Option.some.injEq] at hhead'
  rw [← hhead'] at hd
  generalize c.toLower = letter at hc hd
  simp only [List.mem_cons, List.not_mem_nil, or_false] at hc hd
  rcases hd with rfl | rfl | rfl <;> exact absurd hc (by decide)

theorem not_closesBlock_of_opensBlock (h : opensBlock line = true) :
    ¬ closesBlock line = true := by
  rw [closesBlock_of_opensBlock h]
  exact Bool.false_ne_true

end Head

/-!
# Ends of lines
-/

/-- Byte offset of the end of a line, by its number, when the first line stands
at offset zero.  The line break does not belong to the line. -/
def endOfLine : List Text -> Nat -> Nat
  | [], _ => 0
  | line :: _, 0 => line.dropReturn.byteLength
  | line :: rest, n + 1 => line.byteLength + 1 + endOfLine rest n

/-!
# The search for a closer
-/

/-- How many of the lines stand before the one that closes a block, when `depth`
blocks are open. -/
def linesToCloser (strategy : FoldStrategy) (depth : Nat) :
    List Text -> Option Nat
  | [] => none
  | line :: rest =>
      if closesBlock line.dropReturn then
        if strategy = .firstCloser || depth ≤ 1 then some 0
        else (linesToCloser strategy (depth - 1) rest).map (· + 1)
      else if opensBlock line.dropReturn then
        (linesToCloser strategy (depth + 1) rest).map (· + 1)
      else
        (linesToCloser strategy depth rest).map (· + 1)

theorem closingEnd_eq (strategy : FoldStrategy) (depth start : Nat)
    (lines : List Text) :
    closingEnd strategy depth start lines =
      (linesToCloser strategy depth lines).map
        fun n => start + endOfLine lines n := by
  induction lines generalizing depth start with
  | nil =>
      rfl
  | cons line rest ih =>
      have hbehind : forall n? : Option Nat,
          n?.map (fun n => start + line.byteLength + 1 + endOfLine rest n) =
            (n?.map (· + 1)).map
              fun n => start + endOfLine (line :: rest) n := by
        intro n?
        cases n? with
        | none =>
            rfl
        | some n =>
            simp only [Option.map_some, endOfLine, Nat.add_assoc]
      unfold closingEnd linesToCloser
      dsimp only
      by_cases hcloses : closesBlock line.dropReturn = true
      · rw [if_pos hcloses, if_pos hcloses]
        by_cases hlast : (strategy = .firstCloser || depth ≤ 1) = true
        · rw [if_pos hlast, if_pos hlast]
          rfl
        · rw [if_neg hlast, if_neg hlast, ih, hbehind]
      · rw [if_neg hcloses, if_neg hcloses]
        by_cases hopens : opensBlock line.dropReturn = true
        · rw [if_pos hopens, if_pos hopens, ih, hbehind]
        · rw [if_neg hopens, if_neg hopens, ih, hbehind]

/-!
# Blocks by number
-/

/-- The range from the end of one line to the end of another, when the first of
the lines stands at byte offset `start`. -/
def rangeOfLines (lines : List Text) (start : Nat) (pair : Nat × Nat) :
    FoldRange :=
  { first := start + endOfLine lines pair.1
    last := start + endOfLine lines pair.2 }

/-- The numbers of a line and of the line that closes its block, if it opens one
and that is closed. -/
def ownPair? (strategy : FoldStrategy) (line : Text) (rest : List Text) :
    Option (Nat × Nat) :=
  if opensBlock line.dropReturn then
    (linesToCloser strategy 1 rest).map fun n => (0, n + 1)
  else
    none

/-- A pair of line numbers when `n` more lines stand before. -/
def linesDown (n : Nat) (pair : Nat × Nat) : Nat × Nat :=
  (pair.1 + n, pair.2 + n)

/-- The numbers of the lines that open blocks, each with that of the line which
closes its block. -/
def blockPairs (strategy : FoldStrategy) : List Text -> List (Nat × Nat)
  | [] => []
  | line :: rest =>
      (ownPair? strategy line rest).toList ++
        (blockPairs strategy rest).map (linesDown 1)

/-- A search from the end of a line begins with the line that follows, since
nothing but a carriage return stands between. -/
theorem matchFold_eq (strategy : FoldStrategy) {source front line t : Text}
    {rest : List Text} (hsource : source = front ++ (line ++ t))
    (hrest : (t = [] ∧ rest = []) ∨
      exists u, t = '\n' :: u ∧ rest = Text.lines u) :
    matchFold source front.byteLength
        (front.byteLength + line.dropReturn.byteLength) strategy =
      (ownPair? strategy line rest).map
        (rangeOfLines (line :: rest) front.byteLength) := by
  rcases exists_dropReturn_append line with ⟨ending, hline, hending⟩
  have hfeed := lineFeed_notMem_of_returns hending
  have hcut : source = front ++ (line.dropReturn ++ (ending ++ t)) := by
    rw [hsource, ← List.append_assoc line.dropReturn, hline]
  have hafter : source.after?
      (front.byteLength + line.dropReturn.byteLength) = some (ending ++ t) :=
    after?_eq_some_iff.mpr ⟨front ++ line.dropReturn,
      by rw [hcut, List.append_assoc], Text.byteLength_append _ _⟩
  have hlines : Text.lines (ending ++ t) = ending :: rest := by
    rcases hrest with ⟨rfl, rfl⟩ | ⟨u, rfl, rfl⟩
    · rw [List.append_nil, lines_of_notMem hfeed]
    · exact lines_append_lineFeed hfeed u
  have hlength : line.byteLength =
      line.dropReturn.byteLength + ending.byteLength := by
    rw [← Text.byteLength_append, hline]
  unfold matchFold ownPair?
  rw [hafter]
  rw [hcut, slice?_append]
  simp only [Option.bind_eq_bind, Option.bind_some, hlines]
  by_cases hopens : opensBlock line.dropReturn = true
  · rw [if_pos hopens, if_pos hopens, closingEnd_eq]
    cases linesToCloser strategy 1 rest with
    | none =>
        rfl
    | some n =>
        have hlast : front.byteLength + line.dropReturn.byteLength +
            ending.byteLength + 1 + endOfLine rest n =
              front.byteLength + endOfLine (line :: rest) (n + 1) := by
          rw [endOfLine, hlength]
          omega
        have hlt : front.byteLength + line.dropReturn.byteLength <
            front.byteLength + endOfLine (line :: rest) (n + 1) := by
          rw [← hlast]
          omega
        simp only [Option.map_some, Option.bind_some, hlast]
        rw [if_pos hlt]
        rfl
  · rw [if_neg hopens, if_neg hopens]
    rfl

theorem map_rangeOfLines_succ (line : Text) (rest : List Text) (start : Nat)
    (pairs : List (Nat × Nat)) :
    pairs.map (rangeOfLines rest (start + line.byteLength + 1)) =
      (pairs.map (linesDown 1)).map (rangeOfLines (line :: rest) start) := by
  rw [List.map_map]
  refine congrFun (congrArg List.map (funext fun pair => ?_)) pairs
  simp only [Function.comp_apply, rangeOfLines, linesDown, endOfLine,
    Nat.add_assoc]

theorem foldRangesFrom_cons (source : Text) (strategy : FoldStrategy)
    (start : Nat) (line : Text) (rest : List Text) :
    foldRangesFrom source strategy start (line :: rest) =
      (matchFold source start (start + line.dropReturn.byteLength)
          strategy).toList ++
        foldRangesFrom source strategy (start + line.byteLength + 1) rest := by
  rw [foldRangesFrom]
  cases matchFold source start (start + line.dropReturn.byteLength) strategy <;>
    rfl

/-- The ranges of the blocks behind a line start. -/
theorem foldRangesFrom_eq (strategy : FoldStrategy) (t front : Text) :
    foldRangesFrom (front ++ t) strategy front.byteLength t.lines =
      (blockPairs strategy t.lines).map
        (rangeOfLines t.lines front.byteLength) := by
  induction t using lines_induction generalizing front with
  | last line hline =>
      have hown : matchFold (front ++ line) front.byteLength
          (front.byteLength + line.dropReturn.byteLength) strategy =
            (ownPair? strategy line []).map
              (rangeOfLines [line] front.byteLength) :=
        matchFold_eq strategy
          (congrArg (front ++ ·) (List.append_nil line)).symm
          (Or.inl ⟨rfl, rfl⟩)
      rw [lines_of_notMem hline, foldRangesFrom_cons, hown, foldRangesFrom,
        blockPairs, blockPairs, List.map_nil, List.append_nil, List.append_nil,
        Option.toList_map]
  | cons line u hline ih =>
      have hown : matchFold (front ++ (line ++ '\n' :: u)) front.byteLength
          (front.byteLength + line.dropReturn.byteLength) strategy =
            (ownPair? strategy line u.lines).map
              (rangeOfLines (line :: u.lines) front.byteLength) :=
        matchFold_eq strategy rfl (Or.inr ⟨u, rfl, rfl⟩)
      have hfollowing := ih (front ++ (line ++ ['\n']))
      have hsource : front ++ (line ++ ['\n']) ++ u =
          front ++ (line ++ '\n' :: u) := by
        simp only [List.append_assoc, List.singleton_append]
      have hstart : Text.byteLength (front ++ (line ++ ['\n'])) =
          front.byteLength + line.byteLength + 1 := by
        rw [Text.byteLength_append, Text.byteLength_append, ← Nat.add_assoc]
        rfl
      rw [hsource, hstart] at hfollowing
      rw [lines_append_lineFeed hline, foldRangesFrom_cons, hown, hfollowing,
        map_rangeOfLines_succ, blockPairs, List.map_append, Option.toList_map]

/-- The ranges of all blocks, from the numbers of their lines. -/
theorem foldRanges_eq (source : Text) (strategy : FoldStrategy) :
    foldRanges source strategy =
      (blockPairs strategy source.lines).map (rangeOfLines source.lines 0) :=
  foldRangesFrom_eq strategy source []

end PseudocodeTools
