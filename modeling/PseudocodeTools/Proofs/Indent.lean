import PseudocodeTools.Indent
import PseudocodeTools.Proofs.Text.Blank
import PseudocodeTools.Proofs.Text.Cut
import PseudocodeTools.Proofs.Text.Lines
/-!
# Indentation at a cursor

What a line break inserts depends on the text of the line before the cursor, and
not on a carriage return directly before it.
-/

namespace PseudocodeTools

theorem ne_nil_of_endsWithMarker {t : Text} (h : endsWithMarker t = true) :
    t ≠ [] := by
  rintro rfl
  exact absurd h (by decide)

theorem dropSuffix?_eq_some_iff {t suffix head : Text} :
    t.dropSuffix? suffix = some head ↔ head ++ suffix = t := by
  constructor
  · intro h
    unfold Text.dropSuffix? at h
    split at h
    · rename_i hsuffix
      rcases List.isSuffixOf_iff_suffix.mp hsuffix with ⟨front, rfl⟩
      rw [List.length_append, Nat.add_sub_cancel,
        List.take_left' rfl] at h
      rw [Option.some.inj h]
    · cases h
  · rintro rfl
    have hsuffix : suffix.isSuffixOf (head ++ suffix) = true :=
      List.isSuffixOf_iff_suffix.mpr (List.suffix_append head suffix)
    unfold Text.dropSuffix?
    rw [if_pos hsuffix, List.length_append, Nat.add_sub_cancel,
      List.take_left' rfl]

/-- The text ends with the marker, and no character before it makes a longer word
of it. -/
theorem endsWithMarker_iff {t : Text} :
    endsWithMarker t = true ↔
      exists head : Text, head ++ entryMarker = t ∧
        forall c, head.getLast? = some c -> joinsMarker c = false := by
  have hlast : forall head : Text,
      (!head.getLast?.any joinsMarker) = true ↔
        forall c, head.getLast? = some c -> joinsMarker c = false := by
    intro head
    cases head.getLast? <;> simp
  unfold endsWithMarker
  cases hdrop : t.dropSuffix? entryMarker with
  | none =>
      constructor
      · intro h
        cases h
      · rintro ⟨head, happend, _⟩
        rw [dropSuffix?_eq_some_iff.mpr happend] at hdrop
        cases hdrop
  | some head =>
      have happend := dropSuffix?_eq_some_iff.mp hdrop
      constructor
      · exact fun h => ⟨head, happend, (hlast head).mp h⟩
      · rintro ⟨head', happend', h⟩
        have hsame : head' = head :=
          List.append_cancel_right (happend'.trans happend.symm)
        rw [hsame] at h
        exact (hlast head).mpr h

theorem joinsMarker_of_isBlank {c : Char} (h : isBlank c = true) :
    joinsMarker c = false := by
  unfold joinsMarker
  rw [isAlphanumeric_of_isBlank h, Bool.false_or]
  refine beq_eq_false_iff_ne.mpr ?_
  rintro rfl
  exact absurd h (by decide)

/-- Blanks before the marker leave it a whole word. -/
theorem endsWithMarker_append_of_blanks {blanks t : Text}
    (hblanks : forall c, c ∈ blanks -> isBlank c = true)
    (h : endsWithMarker t = true) :
    endsWithMarker (blanks ++ t) = true := by
  rcases endsWithMarker_iff.mp h with ⟨head, rfl, hhead⟩
  refine endsWithMarker_iff.mpr
    ⟨blanks ++ head, List.append_assoc _ _ _, ?_⟩
  intro c hlast
  rw [List.getLast?_append] at hlast
  rcases Option.or_eq_some_iff.mp hlast with hc | ⟨_, hc⟩
  · exact hhead c hc
  · exact joinsMarker_of_isBlank (hblanks c (List.mem_of_getLast? hc))

/-- What a line break behind the given text inserts. -/
def insertionBehind? (front unit : Text) : Option Text :=
  if endsWithMarker front.lastLine.trimEnd then
    some ('\n' :: (front.lastLine.leadingBlanks ++ unit))
  else none

theorem autoIndent_append (front rest unit : Text) :
    autoIndent (front ++ rest) front.byteLength unit =
      (insertionBehind? front unit).map fun insert =>
        { offset := front.byteLength
          insert := insert
          cursor := front.byteLength + insert.byteLength } := by
  have hbefore : Text.before? (front ++ rest) front.byteLength = some front :=
    before?_eq_some_iff.mpr ⟨rest, rfl, rfl⟩
  unfold autoIndent insertionBehind?
  rw [hbefore]
  by_cases hmarker : endsWithMarker front.lastLine.trimEnd = true
  · simp only [Option.bind_eq_bind, Option.bind_some, if_pos hmarker]
    rfl
  · simp only [Option.bind_eq_bind, Option.bind_some, if_neg hmarker]
    rfl

theorem apply_at_end (front rest insert : Text) (cursor : Nat) :
    IndentEdit.apply
        { offset := front.byteLength, insert := insert, cursor := cursor }
        (front ++ rest) =
      some (front ++ insert ++ rest) := by
  unfold IndentEdit.apply
  rw [Text.cut?_append]
  rfl

theorem insertionBehind?_dropReturn (front unit : Text) :
    insertionBehind? front.dropReturn unit = insertionBehind? front unit := by
  rcases exists_dropReturn_append front with ⟨ending, hfront, hending⟩
  have hblank : forall c, c ∈ ending -> isBlank c = true := by
    intro c hmem
    rw [hending c hmem]
    decide
  have hline := lastLine_append front.dropReturn
    (lineFeed_notMem_of_returns hending)
  rw [hfront] at hline
  have htrim := trimEnd_append_blanks front.dropReturn.lastLine hblank
  unfold insertionBehind?
  rw [hline, htrim]
  by_cases hmarker :
      endsWithMarker front.dropReturn.lastLine.trimEnd = true
  · rw [if_pos hmarker, if_pos hmarker,
      leadingBlanks_append (ne_nil_of_endsWithMarker hmarker)]
  · rw [if_neg hmarker, if_neg hmarker]

/-- Before a carriage return the same is inserted as behind it. -/
theorem autoIndent_dropReturn (front rest unit : Text) :
    autoIndent (front ++ rest) front.dropReturn.byteLength unit =
      (insertionBehind? front unit).map fun insert =>
        { offset := front.dropReturn.byteLength
          insert := insert
          cursor := front.dropReturn.byteLength + insert.byteLength } := by
  rcases exists_dropReturn_append front with ⟨ending, hfront, _⟩
  have hcut : front ++ rest = front.dropReturn ++ (ending ++ rest) := by
    rw [← List.append_assoc, hfront]
  rw [hcut, autoIndent_append, insertionBehind?_dropReturn]

theorem dropWhile_lineFeed_cons {t : Text} (h : t.head? ≠ some '\n') :
    ('\n' :: t).dropWhile (· == '\n') = t := by
  cases t with
  | nil =>
      rfl
  | cons c t =>
      have hc : ¬ (c == '\n') = true := fun hc =>
        h (congrArg some (beq_iff_eq.mp hc))
      rw [List.dropWhile_cons, if_pos (beq_self_eq_true '\n'),
        List.dropWhile_cons, if_neg hc]

theorem lineFeed_notMem_leadingBlanks_lastLine (t : Text) :
    '\n' ∉ t.lastLine.leadingBlanks := fun hmem =>
  lineFeed_notMem_lastLine t ((List.takeWhile_prefix isBlank).subset hmem)

theorem eq_of_insertionBehind? {front unit insert : Text}
    (h : insertionBehind? front unit = some insert) :
    insert = '\n' :: (front.lastLine.leadingBlanks ++ unit) := by
  unfold insertionBehind? at h
  split at h
  · exact (Option.some.inj h).symm
  · cases h

/-- An insertion is one line feed and what goes on the new line, unless the
indent unit begins with a line feed itself. -/
theorem eq_lineFeed_cons_of_insertionBehind? {front unit insert : Text}
    (hunit : unit.head? ≠ some '\n')
    (h : insertionBehind? front unit = some insert) :
    insert = '\n' :: insert.dropWhile (· == '\n') := by
  rw [eq_of_insertionBehind? h, dropWhile_lineFeed_cons]
  have hfeed := lineFeed_notMem_leadingBlanks_lastLine front
  cases hblanks : front.lastLine.leadingBlanks with
  | nil =>
      exact hunit
  | cons c blanks =>
      rw [hblanks] at hfeed
      intro hhead
      cases hhead
      exact hfeed List.mem_cons_self

end PseudocodeTools
