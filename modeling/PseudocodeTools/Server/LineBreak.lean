import PseudocodeTools.EditorSettings
import PseudocodeTools.Server.Position
/-!
# Blocks and line breaks in an editor

Blocks fold by whole lines.  After a line break the new line gets the
indentation that the line above calls for, in place of whatever indentation the
editor has given it.
-/

namespace PseudocodeTools

/-!
# Folding
-/

/-- The first and the last line of a block. -/
structure FoldedLines where
  first : UInt32
  last : UInt32
deriving DecidableEq, Repr

def foldedLines (settings : EditorSettings) (source : Text) : List FoldedLines :=
  (settings.foldRanges source).map fun range =>
    { first := (Position.ofOffset source range.first).line
      last := (Position.ofOffset source range.last).line }

/-!
# Line breaks
-/

/-- A text to put in the place of a stretch of a document. -/
structure DocumentEdit where
  range : DocumentRange
  text : Text
deriving DecidableEq, Repr

/-- The blanks that indentation in an editor consists of. -/
def isIndentation (c : Char) : Bool :=
  c == ' ' || c == '\t'

/-- The indentation of the line with the given position, when it was started by
a line break after a block header. -/
def lineBreakEdit (settings : EditorSettings) (source : Text) (p : Position) :
    Option DocumentEdit := do
  let offset ← p.toOffset? source
  let before ← source.before? offset
  let line := before.lastLine
  if before.contains '\n' then
    let above : Text := before.take (before.length - line.length - 1)
    let edit ← settings.autoIndent source above.dropReturn.byteLength
    let lineStart := before.byteLength - line.byteLength
    let rest ← source.after? lineStart
    let existing := Text.byteLength (rest.takeWhile isIndentation)
    some
      { range := .ofOffsets source lineStart (lineStart + existing)
        text := edit.insert.dropWhile (· == '\n') }
  else
    none

end PseudocodeTools
