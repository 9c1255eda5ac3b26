import PseudocodeTools.Proofs.Block.Closer
/-!
# Searches line by line

A search for a closing line takes one line after another, with the number of
open blocks and the byte offset at which the next line begins.  Whatever offsets
it is started from, a block is open before each line, and the offset is that of
a line of the document.
-/

namespace PseudocodeTools

/-!
# Counting open blocks
-/

/-- What a line makes of the number of open blocks. -/
inductive Tally where
  /-- The block in question is closed. -/
  | closed
  /-- So many blocks are open behind the line. -/
  | stillOpen (depth : Nat)
  /-- A block is to be closed where none is open. -/
  | overdrawn
deriving DecidableEq, Repr

/-- Where blocks are counted, each closer takes one away from their number; the
block in question is closed when none is left. -/
def tally (strategy : FoldStrategy) (depth : Nat) (content : Text) : Tally :=
  match strategy with
  | .firstCloser =>
      if closesBlock content then .closed else .stillOpen depth
  | .nested =>
      if closesBlock content then
        match depth with
        | 0 => .overdrawn
        | 1 => .closed
        | outer + 2 => .stillOpen (outer + 1)
      else if opensBlock content then
        .stillOpen (depth + 1)
      else
        .stillOpen depth

section Counting

variable {depth : Nat} {content : Text}

/-- With a block open, a closer can be counted. -/
theorem tally_of_closesBlock (strategy : FoldStrategy) (h : 1 ≤ depth)
    (hcloses : closesBlock content = true) :
    tally strategy depth content =
      if strategy = .firstCloser || depth ≤ 1 then .closed
      else .stillOpen (depth - 1) := by
  cases strategy with
  | firstCloser =>
      exact if_pos hcloses
  | nested =>
      simp only [tally, if_pos hcloses]
      rcases depth with _ | _ | outer
      · exact absurd h (Nat.not_succ_le_zero 0)
      · rfl
      · exact (if_neg (by simp)).symm

/-- With a block open, a line closes the block in question or leaves a block
open. -/
theorem tally_of_open (strategy : FoldStrategy) (h : 1 ≤ depth)
    (content : Text) :
    (tally strategy depth content = .closed ∧ closesBlock content = true) ∨
      exists deep, tally strategy depth content = .stillOpen deep ∧
        1 ≤ deep := by
  by_cases hcloses : closesBlock content = true
  · rw [tally_of_closesBlock strategy h hcloses]
    split
    · exact Or.inl ⟨rfl, hcloses⟩
    · rename_i hdeep
      rw [Bool.or_eq_true, decide_eq_true_iff, decide_eq_true_iff,
        not_or] at hdeep
      exact Or.inr ⟨depth - 1, rfl, by omega⟩
  · cases strategy with
    | firstCloser =>
        exact Or.inr ⟨depth, if_neg hcloses, h⟩
    | nested =>
        simp only [tally, if_neg hcloses]
        by_cases hopens : opensBlock content = true
        · exact Or.inr ⟨depth + 1, if_pos hopens, Nat.le_add_left 1 depth⟩
        · exact Or.inr ⟨depth, if_neg hopens, h⟩

end Counting

/-- Without counting, the number of open blocks does not matter. -/
theorem closingEnd_firstCloser (depth depth' start : Nat) (lines : List Text) :
    closingEnd .firstCloser depth start lines =
      closingEnd .firstCloser depth' start lines := by
  induction lines generalizing depth depth' start with
  | nil =>
      rfl
  | cons line rest ih =>
      unfold closingEnd
      dsimp only
      split
      · rfl
      · split
        · exact ih _ _ _
        · exact ih _ _ _

/-- One pass of the search.  With a block open, nothing is lost when the number
of open blocks is made less. -/
theorem closingEnd_cons (strategy : FoldStrategy) {depth : Nat}
    (h : 1 ≤ depth) (start : Nat) (line : Text) (rest : List Text) :
    closingEnd strategy depth start (line :: rest) =
      match tally strategy depth line.dropReturn with
      | .closed => some (start + line.dropReturn.byteLength)
      | .stillOpen deep =>
          closingEnd strategy deep (start + line.byteLength + 1) rest
      | .overdrawn => none := by
  rw [closingEnd]
  by_cases hcloses : closesBlock line.dropReturn = true
  · rw [if_pos hcloses, tally_of_closesBlock strategy h hcloses]
    split <;> rfl
  · rw [if_neg hcloses]
    cases strategy with
    | firstCloser =>
        simp only [tally, if_neg hcloses]
        split
        · exact closingEnd_firstCloser _ _ _ _
        · rfl
    | nested =>
        simp only [tally, if_neg hcloses]
        by_cases hopens : opensBlock line.dropReturn = true
        · rw [if_pos hopens, if_pos hopens]
        · rw [if_neg hopens, if_neg hopens]

/-!
# Searches
-/

/-- A search before its next line: how many blocks are open, the byte offset at
which the line begins, and the lines from this one on. -/
structure Search where
  depth : Nat
  start : Nat
  lines : List Text
deriving DecidableEq, Repr

namespace Search

/-- What the next line makes of a search. -/
inductive Turn where
  | ends (last : Nat)
  | goesOn (next : Search)
  /-- There is no next line. -/
  | exhausted
  /-- A block is to be closed where none is open. -/
  | overdrawn
deriving DecidableEq, Repr

def turn (strategy : FoldStrategy) (search : Search) : Turn :=
  match search.lines with
  | [] => .exhausted
  | line :: rest =>
      match tally strategy search.depth line.dropReturn with
      | .closed => .ends (search.start + line.dropReturn.byteLength)
      | .stillOpen depth =>
          .goesOn
            { depth := depth
              start := search.start + line.byteLength + 1
              lines := rest }
      | .overdrawn => .overdrawn

/-- The searches that a search comes to, itself among them. -/
inductive Reaches (strategy : FoldStrategy) : Search -> Search -> Prop where
  | here {search : Search} : Reaches strategy search search
  | onward {search next final : Search}
      (turns : search.turn strategy = .goesOn next)
      (reaches : Reaches strategy next final) :
      Reaches strategy search final

/-- The end of the closing line that a search comes to. -/
def last? (strategy : FoldStrategy) (search : Search) : Option Nat :=
  closingEnd strategy search.depth search.start search.lines

/-- The search behind the line between two byte offsets, if that line opens a
block. -/
def behind? (source : Text) (lineStart lineEnd : Nat) : Option Search := do
  let line ← source.slice? lineStart lineEnd
  if opensBlock line then
    let rest ← source.after? lineEnd
    match rest.lines with
    | [] => none
    | remainder :: following =>
        some
          { depth := 1
            start := lineEnd + remainder.byteLength + 1
            lines := following }
  else
    none

theorem exists_of_behind? {source : Text} {lineStart lineEnd : Nat}
    {search : Search} (h : behind? source lineStart lineEnd = some search) :
    exists rest remainder, source.after? lineEnd = some rest ∧
      rest.lines = remainder :: search.lines ∧ search.depth = 1 ∧
      search.start = lineEnd + remainder.byteLength + 1 := by
  unfold behind? at h
  rcases Option.bind_eq_some_iff.mp h with ⟨line, _, hopens⟩
  split at hopens
  · rcases Option.bind_eq_some_iff.mp hopens with ⟨rest, hafter, hlines⟩
    split at hlines
    · cases hlines
    · rename_i remainder following heq
      cases hlines
      exact ⟨rest, remainder, hafter, heq, rfl, rfl⟩
  · cases hopens

theorem matchFold_eq_bind (source : Text) (lineStart lineEnd : Nat)
    (strategy : FoldStrategy) :
    matchFold source lineStart lineEnd strategy =
      (behind? source lineStart lineEnd).bind fun search =>
        (search.last? strategy).bind fun last =>
          if lineEnd < last then some { first := lineEnd, last := last }
          else none := by
  unfold matchFold behind?
  cases source.slice? lineStart lineEnd with
  | none =>
      rfl
  | some line =>
      simp only [Option.bind_eq_bind, Option.bind_some]
      split
      · cases source.after? lineEnd with
        | none =>
            rfl
        | some rest =>
            simp only [Option.bind_some]
            cases rest.lines <;> rfl
      · rfl

section Turns

variable {strategy : FoldStrategy} {search : Search}

/-- All that can come of the next line while a block is open. -/
theorem turn_cases (strategy : FoldStrategy) (h : 1 ≤ search.depth) :
    (search.turn strategy = .exhausted ∧ search.lines = []) ∨
      exists line rest, search.lines = line :: rest ∧
        ((search.turn strategy =
              .ends (search.start + line.dropReturn.byteLength) ∧
            closesBlock line.dropReturn = true) ∨
          exists deep, 1 ≤ deep ∧
            search.turn strategy =
              .goesOn ⟨deep, search.start + line.byteLength + 1, rest⟩) := by
  rcases search with ⟨depth, start, _ | ⟨line, rest⟩⟩
  · exact Or.inl ⟨rfl, rfl⟩
  · refine Or.inr ⟨line, rest, rfl, ?_⟩
    unfold turn
    dsimp only
    rcases tally_of_open strategy h line.dropReturn with
      ⟨htally, hcloses⟩ | ⟨deep, htally, hdeep⟩
    · rw [htally]
      exact Or.inl ⟨rfl, hcloses⟩
    · rw [htally]
      exact Or.inr ⟨deep, hdeep, rfl⟩

theorem exists_of_goesOn {next : Search} (h : 1 ≤ search.depth)
    (hturn : search.turn strategy = .goesOn next) :
    exists line, search.lines = line :: next.lines ∧ 1 ≤ next.depth ∧
      next.start = search.start + line.byteLength + 1 := by
  rcases turn_cases strategy h with
    ⟨heq, _⟩ | ⟨line, rest, hlines, ⟨heq, _⟩ | ⟨deep, hdeep, heq⟩⟩
  · rw [heq] at hturn
    cases hturn
  · rw [heq] at hturn
    cases hturn
  · rw [heq] at hturn
    cases hturn
    exact ⟨line, hlines, hdeep, rfl⟩

theorem exists_of_ends {last : Nat} (h : 1 ≤ search.depth)
    (hturn : search.turn strategy = .ends last) :
    exists line rest, search.lines = line :: rest ∧
      closesBlock line.dropReturn = true ∧
      last = search.start + line.dropReturn.byteLength := by
  rcases turn_cases strategy h with
    ⟨heq, _⟩ | ⟨line, rest, hlines, ⟨heq, hcloses⟩ | ⟨_, _, heq⟩⟩
  · rw [heq] at hturn
    cases hturn
  · rw [heq] at hturn
    cases hturn
    exact ⟨line, rest, hlines, hcloses, rfl⟩
  · rw [heq] at hturn
    cases hturn

theorem turn_ne_overdrawn (strategy : FoldStrategy) (h : 1 ≤ search.depth) :
    search.turn strategy ≠ .overdrawn := by
  rcases turn_cases strategy h with
    ⟨heq, _⟩ | ⟨_, _, _, ⟨heq, _⟩ | ⟨_, _, heq⟩⟩
  all_goals
    rw [heq]
    exact Turn.noConfusion

theorem last?_eq (strategy : FoldStrategy) (h : 1 ≤ search.depth) :
    search.last? strategy =
      match search.turn strategy with
      | .ends last => some last
      | .goesOn next => next.last? strategy
      | .exhausted | .overdrawn => none := by
  rcases search with ⟨depth, start, _ | ⟨line, rest⟩⟩
  · rfl
  · rw [last?, closingEnd_cons strategy h, turn]
    dsimp only
    cases tally strategy depth line.dropReturn <;> rfl

/-- A search finds the end that it comes to turn by turn. -/
theorem last?_eq_some_iff {last : Nat} (h : 1 ≤ search.depth) :
    search.last? strategy = some last ↔
      exists final, Reaches strategy search final ∧
        final.turn strategy = .ends last := by
  constructor
  -- Every turn that goes on takes one line, so the induction is on those left.
  · intro hlast
    induction hlines : search.lines generalizing search with
    | nil =>
        rw [last?, hlines] at hlast
        cases hlast
    | cons line rest ih =>
        rw [last?_eq strategy h] at hlast
        cases hturn : search.turn strategy with
        | ends n =>
            rw [hturn] at hlast
            cases hlast
            exact ⟨search, .here, hturn⟩
        | goesOn next =>
            rw [hturn] at hlast
            rcases exists_of_goesOn h hturn with ⟨_, heq, hdeep, _⟩
            rw [hlines] at heq
            rcases ih hdeep hlast (List.cons.inj heq).2.symm with
              ⟨final, hreaches, hends⟩
            exact ⟨final, .onward hturn hreaches, hends⟩
        | exhausted | overdrawn =>
            rw [hturn] at hlast
            cases hlast
  · rintro ⟨final, hreaches, hends⟩
    induction hreaches with
    | here =>
        rw [last?_eq strategy h, hends]
    | onward turns reaches ih =>
        rcases exists_of_goesOn h turns with ⟨_, _, hdeep, _⟩
        rw [last?_eq strategy h, turns]
        exact ih hdeep hends

end Turns

end Search

/-!
# Places in the document
-/

/-- A line feed stands before the byte offset, and the document goes on behind it
with the given lines. -/
def GoesOnWith (source : Text) (start : Nat) (lines : List Text) : Prop :=
  exists front t : Text, front ++ '\n' :: t = source ∧
    front.byteLength + 1 = start ∧ t.lines = lines

section Places

variable {source line : Text} {start : Nat} {rest : List Text}

theorem GoesOnWith.next (h : GoesOnWith source start (line :: rest)) :
    rest = [] ∨ GoesOnWith source (start + line.byteLength + 1) rest := by
  rcases h with ⟨front, t, rfl, rfl, hlines⟩
  rcases exists_of_lines_eq_cons hlines with ⟨_, hnil⟩ | ⟨u, rfl, rfl⟩
  · exact Or.inl hnil
  · refine Or.inr ⟨front ++ '\n' :: line, u, List.append_assoc _ _ _, ?_, rfl⟩
    rw [byteLength_line]

/-- The end of a line that stands at an offset, its carriage return aside. -/
theorem GoesOnWith.lineEnd (h : GoesOnWith source start (line :: rest)) :
    IsBoundary source (start + line.dropReturn.byteLength) ∧
      source.slice? start (start + line.dropReturn.byteLength) =
        some line.dropReturn := by
  rcases h with ⟨front, t, rfl, rfl, hlines⟩
  obtain ⟨after, rfl⟩ : exists after, t = line ++ after := by
    rcases exists_of_lines_eq_cons hlines with ⟨rfl, _⟩ | ⟨u, rfl, _⟩
    · exact ⟨[], (List.append_nil _).symm⟩
    · exact ⟨_, rfl⟩
  rcases exists_dropReturn_append line with ⟨ending, hending, _⟩
  have hsplit : front ++ '\n' :: (line ++ after) =
      (front ++ ['\n']) ++ (line.dropReturn ++ (ending ++ after)) := by
    rw [← List.append_assoc line.dropReturn, hending, List.append_assoc]
    rfl
  have hstart : front.byteLength + 1 = Text.byteLength (front ++ ['\n']) := by
    rw [Text.byteLength_append]
    rfl
  rw [hsplit, hstart]
  exact ⟨(isBoundary_append _ _ _).2, slice?_append _ _ _⟩

end Places

/-!
# Searches in the document
-/

/-- A block is open, and the lines that are left stand in the document, the first
of them at the offset that the search has come to. -/
structure OnLines (source : Text) (lineEnd : Nat) (search : Search) : Prop where
  blockOpen : 1 ≤ search.depth
  behind : lineEnd < search.start
  placed : search.lines = [] ∨ GoesOnWith source search.start search.lines

section Placed

variable {source : Text} {lineEnd : Nat} {strategy : FoldStrategy}
  {search next final : Search}

theorem OnLines.goesOn (h : OnLines source lineEnd search)
    (hturn : search.turn strategy = .goesOn next) :
    OnLines source lineEnd next := by
  rcases Search.exists_of_goesOn h.blockOpen hturn with
    ⟨line, hlines, hopen, hstart⟩
  refine ⟨hopen, ?_, ?_⟩
  · have hbehind := h.behind
    omega
  · rcases h.placed with hnil | hplaced
    · rw [hnil] at hlines
      cases hlines
    · rw [hlines] at hplaced
      rw [hstart]
      exact hplaced.next

theorem OnLines.reaches (h : OnLines source lineEnd search)
    (hreaches : search.Reaches strategy final) :
    OnLines source lineEnd final := by
  induction hreaches with
  | here =>
      exact h
  | onward turns reaches ih =>
      exact ih (h.goesOn turns)

theorem onLines_of_behind? {lineStart : Nat}
    (h : Search.behind? source lineStart lineEnd = some search) :
    OnLines source lineEnd search := by
  rcases Search.exists_of_behind? h with ⟨rest, remainder, hafter, hlines, hopen,
    hstart⟩
  rcases after?_eq_some_iff.mp hafter with ⟨front, rfl, rfl⟩
  refine ⟨hopen.ge, ?_, ?_⟩
  · omega
  · rcases exists_of_lines_eq_cons hlines with ⟨_, hnil⟩ | ⟨u, rfl, hu⟩
    · exact Or.inl hnil
    · refine Or.inr ⟨front ++ remainder, u, List.append_assoc _ _ _, ?_, hu.symm⟩
      rw [hstart, Text.byteLength_append]

end Placed

/-- The range ends with the text of a line that closes a block. -/
structure EndsAtCloser (source : Text) (range : FoldRange) : Prop where
  forward : range.first < range.last
  last_le : range.last ≤ source.byteLength
  lastOnBoundary : IsBoundary source range.last
  closer : exists start line rest, GoesOnWith source start (line :: rest) ∧
    source.slice? start range.last = some line.dropReturn ∧
    closesBlock line.dropReturn = true

section Range

variable {source : Text} {lineStart lineEnd : Nat} {strategy : FoldStrategy}
  {range : FoldRange}

theorem OnLines.endsAtCloser {search : Search}
    (h : OnLines source range.first search)
    (hends : search.turn strategy = .ends range.last) :
    EndsAtCloser source range := by
  rcases Search.exists_of_ends h.blockOpen hends with
    ⟨line, rest, hlines, hcloses, hlast⟩
  have hbehind := h.behind
  have hplaced := h.placed
  rw [hlines] at hplaced
  have hline := hplaced.resolve_left (List.cons_ne_nil line rest)
  have hend := hline.lineEnd
  rw [← hlast] at hend
  exact {
    forward := by omega
    last_le := hend.1.le
    lastOnBoundary := hend.1
    closer := ⟨search.start, line, rest, hline, hend.2, hcloses⟩ }

/-- A range is found when the search behind its opening line comes to an end. -/
theorem matchFold_eq_some_iff :
    matchFold source lineStart lineEnd strategy = some range ↔
      range.first = lineEnd ∧ exists first final,
        Search.behind? source lineStart lineEnd = some first ∧
          first.Reaches strategy final ∧
          final.turn strategy = .ends range.last := by
  rw [Search.matchFold_eq_bind, Option.bind_eq_some_iff]
  constructor
  · rintro ⟨first, hfirst, hrange⟩
    rcases Option.bind_eq_some_iff.mp hrange with ⟨last, hlast, hif⟩
    have honLines := onLines_of_behind? hfirst
    rcases (Search.last?_eq_some_iff honLines.blockOpen).mp hlast with
      ⟨final, hreaches, hends⟩
    split at hif
    · cases hif
      exact ⟨rfl, first, final, hfirst, hreaches, hends⟩
    · cases hif
  · rintro ⟨rfl, first, final, hfirst, hreaches, hends⟩
    have honLines := onLines_of_behind? hfirst
    -- The check that the range is not empty never fails.
    have hforward := ((honLines.reaches hreaches).endsAtCloser hends).forward
    have hlast := (Search.last?_eq_some_iff honLines.blockOpen).mpr
      ⟨final, hreaches, hends⟩
    refine ⟨first, hfirst, ?_⟩
    rw [hlast, Option.bind_some, if_pos hforward]

/-- Between any two offsets, every line that a search comes to stands at the
offset that it holds, while a block is open, so that none is closed too much.
The range that it finds ends where the text of a closing line ends. -/
theorem matchFold_searches_on_lines (source : Text) (lineStart lineEnd : Nat)
    (strategy : FoldStrategy) :
    (forall first search,
        Search.behind? source lineStart lineEnd = some first ->
        first.Reaches strategy search ->
        1 ≤ search.depth ∧ search.turn strategy ≠ .overdrawn ∧
          (search.lines ≠ [] ->
            GoesOnWith source search.start search.lines)) ∧
      (forall range,
        matchFold source lineStart lineEnd strategy = some range ↔
          range.first = lineEnd ∧ exists first final,
            Search.behind? source lineStart lineEnd = some first ∧
              first.Reaches strategy final ∧
              final.turn strategy = .ends range.last) ∧
      forall range,
        matchFold source lineStart lineEnd strategy = some range ->
          range.first = lineEnd ∧ EndsAtCloser source range := by
  refine ⟨?_, fun range => matchFold_eq_some_iff, ?_⟩
  · intro first search hfirst hreaches
    have honLines := (onLines_of_behind? hfirst).reaches hreaches
    exact ⟨honLines.blockOpen,
      Search.turn_ne_overdrawn strategy honLines.blockOpen,
      honLines.placed.resolve_left⟩
  · intro range hrange
    rcases matchFold_eq_some_iff.mp hrange with
      ⟨rfl, first, final, hfirst, hreaches, hends⟩
    have honLines := (onLines_of_behind? hfirst).reaches hreaches
    exact ⟨rfl, honLines.endsAtCloser hends⟩

end Range

/-- The offsets cut the first line on both sides.  The search goes one block
deeper at the second line, which ends in a carriage return. -/
theorem matchFold_searches_on_lines_in_cut_line :
    let source := "éIF ê\r\nFOR\r\nNEXT\nEND î\r\n".toList
    let first : Search := ⟨1, 9, ["FOR\r", "NEXT", "END î\r", ""].map String.toList⟩
    let inner : Search := ⟨2, 14, ["NEXT", "END î\r", ""].map String.toList⟩
    Search.behind? source 2 4 = some first ∧
      first.Reaches .nested inner ∧
      (inner.turn .nested ≠ .overdrawn ∧
        GoesOnWith source 14 inner.lines) ∧
      matchFold source 2 4 .nested = some ⟨4, 25⟩ ∧
      EndsAtCloser source ⟨4, 25⟩ := by
  intro source first inner
  have hfirst : Search.behind? source 2 4 = some first := by decide
  have hreaches : first.Reaches .nested inner := .onward (by decide) .here
  have hrange : matchFold source 2 4 .nested = some ⟨4, 25⟩ := by decide
  rcases matchFold_searches_on_lines source 2 4 .nested with
    ⟨hsearch, _, hfound⟩
  rcases hsearch first inner hfirst hreaches with ⟨_, hturn, hplaced⟩
  exact ⟨hfirst, hreaches, ⟨hturn, hplaced (List.cons_ne_nil _ _)⟩, hrange,
    (hfound _ hrange).2⟩

end PseudocodeTools
