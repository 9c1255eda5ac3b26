import PseudocodeTools.Proofs.Server.LineBreak
/-!
# Copied indentation

An editor may start a new line with a copy of the blanks of the line above.  The
edit after a line break takes the place of blanks and tabs only, so any other
blank in the copy is left standing behind the new indentation.
-/

namespace PseudocodeTools

/-- An edit of the blanks and tabs at the start of a new line leaves what else was
typed on the line. -/
theorem apply?_on_newLine {front typed : Text} {p : Position}
    (htyped : '\n' ∉ typed) (hposition : p.MarksEnd (front ++ '\n' :: typed))
    (rest text : Text) :
    DocumentEdit.apply?
        { range := .ofOffsets (front ++ '\n' :: (typed ++ rest))
            (front.byteLength + 1)
            (front.byteLength + 1 +
              Text.byteLength (typed.takeWhile isIndentation))
          text := text }
        (front ++ '\n' :: (typed ++ rest)) =
      some (front ++ '\n' :: text ++
        (typed.dropWhile isIndentation ++ rest)) := by
  have hparts : typed.takeWhile isIndentation ++
      typed.dropWhile isIndentation = typed :=
    List.takeWhile_append_dropWhile
  have hblanks : '\n' ∉ typed.takeWhile isIndentation :=
    fun hmem => htyped ((List.takeWhile_prefix isIndentation).mem hmem)
  have hothers : '\n' ∉ typed.dropWhile isIndentation :=
    fun hmem => htyped ((List.dropWhile_suffix isIndentation).mem hmem)
  -- The blanks and tabs end on the line of the position.
  rw [List.append_cons, ← hparts, ← List.append_assoc] at hposition
  have hends := (hposition.on_line hothers).1
  have happly := apply?_ofOffsets hends hblanks
    (typed.dropWhile isIndentation ++ rest) text
  rw [← List.append_assoc (typed.takeWhile isIndentation), hparts,
    ← List.append_cons, ← List.append_cons, Text.byteLength_append] at happly
  exact happly

/-- Where a line is broken that calls for indentation, and the editor has copied
the blanks of the line to the new one, the edit at the position behind the copy
puts the new indentation in the place of the blanks and tabs that the copy begins
with.  This gives the document that the line break would have given with its
indentation exactly if the line is indented with blanks and tabs only. -/
theorem lineBreakEdit_of_copied (settings : EditorSettings)
    {source front rest : Text} {cursor : Nat} {edit : IndentEdit}
    (hcut : source.cut? cursor = some (front, rest))
    (hunit : settings.indentUnit.head? ≠ some '\n')
    (hrest : forall c, rest.head? = some c -> isIndentation c = false)
    (hmade : autoIndent source cursor settings.indentUnit = some edit)
    {p : Position}
    (hposition : p.MarksEnd (front ++ '\n' :: front.lastLine.leadingBlanks)) :
    let copied := front.lastLine.leadingBlanks
    let broken := front ++ '\n' :: (copied ++ rest)
    let indented := front ++ '\n' :: (copied ++ settings.indentUnit)
    Position.ofOffset broken (cursor + 1 + copied.byteLength) = p ∧
      exists replacement, lineBreakEdit settings broken p = some replacement ∧
        edit.apply source = some (indented ++ rest) ∧
        replacement.apply? broken =
          some (indented ++ (copied.dropWhile isIndentation ++ rest)) ∧
        (edit.apply source = replacement.apply? broken ↔
          forall c, c ∈ copied -> isIndentation c = true) := by
  rcases Text.cut?_eq_some_iff.mp hcut with ⟨rfl, rfl⟩
  intro copied broken indented
  have hfeed : '\n' ∉ copied := lineFeed_notMem_leadingBlanks_lastLine front
  have hstop := hposition.ofOffset_eq rest
  rw [byteLength_line, List.append_assoc, List.cons_append] at hstop
  have hedit := lineBreakEdit_on_newLine settings hfeed rest hposition
  rw [takeWhile_append_of_stop hrest] at hedit
  rw [autoIndent_append] at hmade
  rcases Option.map_eq_some_iff.mp hmade with ⟨insert, hinsert, rfl⟩
  rw [hinsert, Option.map_some] at hedit
  have hline := eq_of_insertionBehind? hinsert
  have hdrop := eq_lineFeed_cons_of_insertionBehind? hunit hinsert
  have hkept : insert.dropWhile (· == '\n') =
      copied ++ settings.indentUnit :=
    (List.cons.inj (hdrop.symm.trans hline)).2
  rw [hkept] at hedit
  have hmade : IndentEdit.apply
      { offset := front.byteLength
        insert := insert
        cursor := front.byteLength + insert.byteLength } (front ++ rest) =
      some (indented ++ rest) := by
    rw [apply_at_end, hline]
  have happly := apply?_on_newLine hfeed hposition rest
    (copied ++ settings.indentUnit)
  refine ⟨hstop, _, hedit, hmade, happly, ?_⟩
  rw [happly, hmade, Option.some.injEq, List.append_cancel_left_eq,
    List.self_eq_append_left, List.dropWhile_eq_nil_iff]

/-- A loop is indented with a tab and a no-break space, and the latter is doubled
on the next line. -/
theorem lineBreakEdit_of_copied_tab :
    let source : Text := "\t\u00a0WHILE x DO\nEND".toList
    Text.cut? source 13 =
        some ("\t\u00a0WHILE x DO".toList, "\nEND".toList) ∧
      autoIndent source 13 defaultIndentUnit =
        some { offset := 13, insert := "\n\t\u00a0    ".toList, cursor := 21 } ∧
      Position.MarksEnd { line := 1, character := 2 }
        "\t\u00a0WHILE x DO\n\t\u00a0".toList ∧
      exists replacement,
        lineBreakEdit {} "\t\u00a0WHILE x DO\n\t\u00a0\nEND".toList
            { line := 1, character := 2 } =
          some replacement ∧
        replacement.apply? "\t\u00a0WHILE x DO\n\t\u00a0\nEND".toList =
          some "\t\u00a0WHILE x DO\n\t\u00a0    \u00a0\nEND".toList := by
  intro source
  have hcut : Text.cut? source 13 =
      some ("\t\u00a0WHILE x DO".toList, "\nEND".toList) := by decide +kernel
  have hmade : autoIndent source 13 defaultIndentUnit =
      some { offset := 13, insert := "\n\t\u00a0    ".toList, cursor := 21 } := by
    decide +kernel
  have hrest :
      forall c, "\nEND".toList.head? = some c -> isIndentation c = false := by
    rintro c ⟨⟩
    rfl
  have hposition : Position.MarksEnd { line := 1, character := 2 }
      "\t\u00a0WHILE x DO\n\t\u00a0".toList := ⟨by decide, by decide⟩
  rcases lineBreakEdit_of_copied {} hcut (by decide) hrest hmade hposition with
    ⟨_, replacement, hedit, _, happly, _⟩
  exact ⟨hcut, hmade, hposition, replacement, hedit, happly⟩

/-- A no-break space before a branch is doubled on the next line, where the line
break with its indentation would have kept it single. -/
theorem lineBreakEdit_doubles_noBreakSpace :
    let source : Text := "\u00a0IF x DO".toList
    let broken : Text := "\u00a0IF x DO\n\u00a0".toList
    exists edit replacement,
      autoIndent source 9 defaultIndentUnit = some edit ∧
      edit.apply source = some "\u00a0IF x DO\n\u00a0    ".toList ∧
      lineBreakEdit {} broken { line := 1, character := 1 } =
        some replacement ∧
      replacement.apply? broken =
        some "\u00a0IF x DO\n\u00a0    \u00a0".toList ∧
      replacement.apply? broken ≠ edit.apply source :=
  ⟨{ offset := 9, insert := "\n\u00a0    ".toList, cursor := 16 },
    { range := { start := { line := 1, character := 0 }
                 stop := { line := 1, character := 0 } }
      text := "\u00a0    ".toList },
    by decide +kernel, by decide +kernel, by decide +kernel,
    by decide +kernel, by decide +kernel⟩

end PseudocodeTools
