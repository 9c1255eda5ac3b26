import PseudocodeTools.Proofs.Indent
import PseudocodeTools.Proofs.Server.Position
import PseudocodeTools.Proofs.Text.Run
import PseudocodeTools.Server.Session
/-!
# Line breaks in an editor

An editor that has broken a line and indented the new one asks for an edit
afterwards.  The edit leads to the document that the line break would have given
if it had brought its indentation with it.
-/

namespace PseudocodeTools

/-- The document after an edit, if its range stands for a stretch of the
document. -/
def DocumentEdit.apply? (edit : DocumentEdit) (source : Text) : Option Text := do
  let first ← edit.range.start.toOffset? source
  let last ← edit.range.stop.toOffset? source
  let front ← source.before? first
  let rest ← source.after? last
  return front ++ edit.text ++ rest

theorem lineFeed_notMem_indentation {indentation : Text}
    (h : forall c, c ∈ indentation -> isIndentation c = true) :
    '\n' ∉ indentation := by
  intro hmem
  exact absurd (h '\n' hmem) (by decide)

section NewLine

variable {front typed : Text} {p : Position}

/-- Behind what was typed on a new line, the edit replaces the blanks and tabs at
the start of the line by what a line break before it would have inserted, without
its line feed. -/
theorem lineBreakEdit_on_newLine (settings : EditorSettings)
    (htyped : '\n' ∉ typed) (rest : Text)
    (hposition : p.MarksEnd (front ++ '\n' :: typed)) :
    lineBreakEdit settings (front ++ '\n' :: (typed ++ rest)) p =
      (insertionBehind? front settings.indentUnit).map fun insert =>
        { range := .ofOffsets (front ++ '\n' :: (typed ++ rest))
            (front.byteLength + 1)
            (front.byteLength + 1 +
              Text.byteLength ((typed ++ rest).takeWhile isIndentation))
          text := insert.dropWhile (· == '\n') } := by
  generalize hbroken : front ++ '\n' :: typed = before at hposition
  have hsource : front ++ '\n' :: (typed ++ rest) = before ++ rest := by
    rw [← hbroken, List.append_assoc, List.cons_append]
  have hbefore : Text.before? (before ++ rest) before.byteLength =
      some before := before?_eq_some_iff.mpr ⟨rest, rfl, rfl⟩
  have hline : before.lastLine = typed := by
    rw [← hbroken]
    exact lastLine_append_lineFeed front htyped
  have hcontains : before.contains '\n' = true := by
    rw [List.contains_iff_mem, ← hbroken]
    exact List.mem_append_right front List.mem_cons_self
  have habove : before.take (before.length - typed.length - 1) = front := by
    have hlength : before.length - typed.length - 1 = front.length := by
      rw [← hbroken, List.length_append, List.length_cons]
      omega
    rw [hlength, ← hbroken, List.take_left]
  have hstart : before.byteLength - typed.byteLength =
      front.byteLength + 1 := by
    rw [← hbroken, byteLength_line, Nat.add_sub_cancel]
  have hafter : Text.after? (before ++ rest) (front.byteLength + 1) =
      some (typed ++ rest) := by
    refine after?_eq_some_iff.mpr ⟨front ++ ['\n'], ?_, ?_⟩
    · rw [← hsource, List.append_assoc, List.singleton_append]
    · rw [Text.byteLength_append]
      rfl
  have hedit := autoIndent_dropReturn front ('\n' :: (typed ++ rest))
    settings.indentUnit
  rw [hsource] at hedit ⊢
  unfold lineBreakEdit EditorSettings.autoIndent
  simp only [hposition.toOffset?_eq rest, hbefore, hline, hcontains, habove,
    hedit, hstart, hafter, Option.bind_eq_bind, Option.bind_some, if_true]
  cases insertionBehind? front settings.indentUnit <;> rfl

end NewLine

/-!
# Documents after an edit
-/

section Stretch

variable {front middle : Text} {p : Position}
  (hposition : p.MarksEnd (front ++ middle)) (hmiddle : '\n' ∉ middle)
include hposition hmiddle

/-- The range of a stretch of a line leads back to the stretch. -/
theorem toOffset?_ofOffsets (rest : Text) :
    let source := front ++ (middle ++ rest)
    let range := DocumentRange.ofOffsets source front.byteLength
      (front.byteLength + middle.byteLength)
    range.stop = p ∧
      range.start.toOffset? source = some front.byteLength ∧
      range.stop.toOffset? source =
        some (front.byteLength + middle.byteLength) := by
  rcases hposition.on_line hmiddle with ⟨hfirst, _⟩
  have hlast := hposition.ofOffset_eq rest
  rw [Text.byteLength_append, List.append_assoc] at hlast
  refine ⟨hlast, ?_, ?_⟩
  · unfold DocumentRange.ofOffsets
    rw [hfirst.ofOffset_eq, hfirst.toOffset?_eq]
  · unfold DocumentRange.ofOffsets
    rw [hlast, ← List.append_assoc, hposition.toOffset?_eq,
      Text.byteLength_append]

/-- An edit of a stretch of a line puts the new text in its place. -/
theorem apply?_ofOffsets (rest text : Text) :
    DocumentEdit.apply?
        { range := .ofOffsets (front ++ (middle ++ rest)) front.byteLength
            (front.byteLength + middle.byteLength)
          text := text }
        (front ++ (middle ++ rest)) =
      some (front ++ text ++ rest) := by
  rcases toOffset?_ofOffsets hposition hmiddle rest with ⟨_, hfirst, hlast⟩
  have hbefore : Text.before? (front ++ (middle ++ rest)) front.byteLength =
      some front := before?_eq_some_iff.mpr ⟨middle ++ rest, rfl, rfl⟩
  have hafter : Text.after? (front ++ (middle ++ rest))
      (front.byteLength + middle.byteLength) = some rest := by
    refine after?_eq_some_iff.mpr ⟨front ++ middle, ?_, ?_⟩
    · exact List.append_assoc front middle rest
    · exact Text.byteLength_append front middle
  unfold DocumentEdit.apply?
  simp only [hfirst, hlast, hbefore, hafter, Option.bind_eq_bind,
    Option.bind_some]
  rfl

end Stretch

end PseudocodeTools
