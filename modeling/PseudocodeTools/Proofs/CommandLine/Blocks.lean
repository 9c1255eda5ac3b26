import PseudocodeTools.CommandLine.Report
import PseudocodeTools.Proofs.Block.Crossing
import PseudocodeTools.Proofs.Server.Position
import PseudocodeTools.Server.LineBreak
/-!
# Blocks on the command line

A report counts lines and columns from one, and an editor from zero in 32 bits;
as far as these suffice, they come to the same places.  So the blocks of a report
are those that fold in an editor.
-/

namespace PseudocodeTools

/-!
# Lines and columns
-/

theorem lineColumn?_append (front rest : Text) :
    lineColumn? (front ++ rest) front.byteLength =
      some (front.count '\n' + 1, front.lastLine.length + 1) := by
  rw [lineColumn?, before?_eq_some_iff.mpr ⟨rest, rfl, rfl⟩]
  rfl

theorem Position.MarksEnd.lineColumn?_eq {p : Position} {front : Text}
    (h : p.MarksEnd front) (rest : Text) :
    lineColumn? (front ++ rest) front.byteLength =
      some (p.line.toNat + 1, p.character.toNat + 1) := by
  rw [lineColumn?_append, h.1, h.2]

/-- In a document whose lines can be counted, a line is the same however long it
is. -/
theorem fst_lineColumn? {source : Text} (h : source.count '\n' < UInt32.size)
    {n : Nat} {place : Nat × Nat} (hplace : lineColumn? source n = some place) :
    place.1 = (Position.ofOffset source n).line.toNat + 1 := by
  rcases Option.map_eq_some_iff.mp hplace with ⟨front, hfront, rfl⟩
  rcases before?_eq_some_iff.mp hfront with ⟨rest, rfl, rfl⟩
  rw [List.count_append] at h
  rw [Position.ofOffset_append, Position.behind_origin,
    UInt32.toNat_ofNat_of_lt' (Nat.lt_of_add_right_lt h)]

/-!
# Reports
-/

/-- A printed line gives two places, each with its line and its column in decimal
digits. -/
def Gives (line : Text) (first last : Nat × Nat) : Prop :=
  line = Nat.toDigits 10 first.1 ++ ':' :: Nat.toDigits 10 first.2 ++
    [' ', '-', ' '] ++
    (Nat.toDigits 10 last.1 ++ ':' :: Nat.toDigits 10 last.2)

/-- A printed line gives the two ends of a range. -/
def ReportsOn (source : Text) (range : FoldRange) (line : Text) : Prop :=
  exists first last, lineColumn? source range.first = some first ∧
    lineColumn? source range.last = some last ∧ Gives line first last

/-- A printed line tells between which lines a block folds, both counted from
one. -/
def TellsOf (line : Text) (block : FoldedLines) : Prop :=
  exists column column', Gives line (block.first.toNat + 1, column)
    (block.last.toNat + 1, column')

/-- The first and the last line of a range. -/
def FoldRange.foldedLines (source : Text) (range : FoldRange) : FoldedLines :=
  { first := (Position.ofOffset source range.first).line
    last := (Position.ofOffset source range.last).line }

section Range

variable {source : Text} {range : FoldRange}

theorem exists_reportLine? (h : IsStretch source range) :
    exists line, range.reportLine? source = some line ∧
      ReportsOn source range line := by
  rcases h.firstOnBoundary with ⟨front, rest, hsource, hfirst⟩
  rcases h.lastOnBoundary with ⟨front', rest', hsource', hlast⟩
  have hplace := lineColumn?_append front rest
  have hplace' := lineColumn?_append front' rest'
  rw [hsource, hfirst] at hplace
  rw [hsource', hlast] at hplace'
  unfold FoldRange.reportLine?
  rw [hplace, hplace']
  exact ⟨_, rfl, _, _, hplace, hplace', rfl⟩

theorem ReportsOn.tellsOf {line : Text} (h : ReportsOn source range line)
    (hcount : source.count '\n' < UInt32.size) :
    TellsOf line (range.foldedLines source) := by
  rcases h with ⟨first, last, hfirst, hlast, hgives⟩
  refine ⟨first.2, last.2, ?_⟩
  unfold FoldRange.foldedLines
  rw [← fst_lineColumn? hcount hfirst, ← fst_lineColumn? hcount hlast]
  exact hgives

end Range

/-- No range is left out of a report. -/
theorem forall₂_reportLines {source : Text} {ranges : List FoldRange}
    (h : forall range, range ∈ ranges -> IsStretch source range) :
    List.Forall₂ (ReportsOn source) ranges
      (ranges.filterMap (FoldRange.reportLine? source)) := by
  induction ranges with
  | nil =>
      exact .nil
  | cons range rest ih =>
      rcases exists_reportLine? (h range List.mem_cons_self) with
        ⟨line, hline, hreports⟩
      rw [List.filterMap_cons_some hline]
      exact .cons hreports
        (ih fun other hmem => h other (List.mem_cons_of_mem range hmem))

theorem foldsReport_eq (strategy : FoldStrategy) (source : Text) :
    foldsReport strategy source =
      .success
        (if foldRanges source strategy = [] then ["No foldable blocks".toList]
          else (foldRanges source strategy).filterMap
            (FoldRange.reportLine? source)) := by
  unfold foldsReport
  cases foldRanges source strategy <;> rfl

/-- Both ends of every block are boundaries, and line and column of a boundary
are its position, counted from one, if 32 bits suffice for the position.  So a
report has a line on each block, in the order in which the blocks fold in an
editor, and tells of the same lines if as many lines can be counted.  If nothing
folds, the report is a notice. -/
theorem foldsReport_tells_of_foldedLines (settings : EditorSettings)
    (source : Text) :
    (forall range, range ∈ foldRanges source settings.foldStrategy ->
        IsBoundary source range.first ∧ IsBoundary source range.last) ∧
      (forall front rest : Text, front ++ rest = source ->
        front.count '\n' < UInt32.size -> front.lastLine.length < UInt32.size ->
          lineColumn? source front.byteLength =
            some
              ((Position.ofOffset source front.byteLength).line.toNat + 1,
                (Position.ofOffset source front.byteLength).character.toNat +
                  1)) ∧
      exists lines,
        foldsReport settings.foldStrategy source =
            { code := 0
              output :=
                if foldRanges source settings.foldStrategy = [] then
                  "No foldable blocks\n".toList
                else lines.flatMap fun line => line ++ ['\n']
              errors := [] } ∧
          List.Forall₂ (ReportsOn source)
            (foldRanges source settings.foldStrategy) lines ∧
          (source.count '\n' < UInt32.size ->
            List.Forall₂ TellsOf lines (foldedLines settings source)) := by
  have hstretch : forall range,
      range ∈ foldRanges source settings.foldStrategy ->
        IsStretch source range :=
    fun range => isStretch_of_mem_foldRanges
  have hlines := forall₂_reportLines hstretch
  refine ⟨?_, ?_, _, ?_, hlines, ?_⟩
  · intro range hmem
    exact ⟨(hstretch range hmem).firstOnBoundary,
      (hstretch range hmem).lastOnBoundary⟩
  · rintro front rest rfl hcount hlength
    have hends := Position.marksEnd_behind hcount hlength
    rw [hends.ofOffset_eq]
    exact hends.lineColumn?_eq rest
  · rw [foldsReport_eq]
    split <;> rfl
  · intro hcount
    have htells := hlines.flip.imp fun line range hreports =>
      ReportsOn.tellsOf hreports hcount
    exact List.forall₂_map_right_iff.mpr htells

/-- The loop folds within the branch, behind characters of two bytes. -/
theorem foldsReport_tells_of_foldedLines_in_branch :
    let settings : EditorSettings := {}
    let source := "é\nIF ê\r\n FOR\n NEXT\nENDIF".toList
    IsBoundary source 8 ∧ lineColumn? source 8 = some (2, 5) ∧
      foldRanges source .nested = [⟨8, 26⟩, ⟨14, 20⟩] ∧
      foldedLines settings source = [⟨1, 4⟩, ⟨2, 3⟩] ∧
      exists line line',
        (foldsReport .nested source).output =
            [line, line'].flatMap (fun line => line ++ ['\n']) ∧
          TellsOf line ⟨1, 4⟩ ∧ TellsOf line' ⟨2, 3⟩ := by
  intro settings source
  have hranges : foldRanges source .nested = [⟨8, 26⟩, ⟨14, 20⟩] := by decide
  have hfolded : foldedLines settings source = [⟨1, 4⟩, ⟨2, 3⟩] := by decide
  rcases foldsReport_tells_of_foldedLines settings source with
    ⟨hboundary, hcolumn, lines, hreport, _, htell⟩
  have hfirst := (hboundary ⟨8, 26⟩ (by decide)).1
  have hplace := hcolumn "é\nIF ê".toList "\r\n FOR\n NEXT\nENDIF".toList
    (by decide) (by decide) (by decide)
  have htell := htell (by decide)
  rw [hfolded] at htell
  rw [if_neg (by decide)] at hreport
  rcases htell with _ | ⟨htells, _ | ⟨htells', _ | _⟩⟩
  exact ⟨hfirst, hplace, hranges, hfolded, _, _,
    congrArg Outcome.output hreport, htells, htells'⟩

/-!
# Where they differ
-/

theorem lineColumn?_lineFeeds (n : Nat) (rest : Text) :
    lineColumn? (List.replicate n '\n' ++ rest) n = some (n + 1, 1) := by
  have hplace := lineColumn?_append (List.replicate n '\n') rest
  rw [byteLength_lineFeeds, List.count_replicate_self, lastLine_lineFeeds]
    at hplace
  exact hplace

/-- The report on a document without blocks has a line.  Behind 2 ^ 32 line feeds
the line of the report is not the one that an editor is told. -/
theorem foldsReport_strays :
    (foldRanges [] .nested = [] ∧
      (foldsReport .nested []).output = "No foldable blocks\n".toList) ∧
    lineColumn? (List.replicate UInt32.size '\n' ++ ['x']) UInt32.size =
      some (UInt32.size + 1, 1) ∧
    Position.ofOffset (List.replicate UInt32.size '\n' ++ ['x']) UInt32.size =
      .origin :=
  ⟨⟨rfl, rfl⟩, lineColumn?_lineFeeds _ _, Position.ofOffset_lineFeeds _ _⟩

end PseudocodeTools
