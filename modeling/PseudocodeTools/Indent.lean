import PseudocodeTools.Text.Alphanumeric
import PseudocodeTools.Text.Blank
/-!
# Indentation after a block header

A line break directly after a header that ends in the word `DO` starts a line
that is indented one unit deeper than the header.  Any other line break is left
to the editor.
-/

namespace PseudocodeTools

/-- The word at the end of a line after which a block begins. -/
def entryMarker : Text :=
  "DO".toList

/-- Four blanks. -/
def defaultIndentUnit : Text :=
  [' ', ' ', ' ', ' ']

/-- Characters that make a longer word of the marker when they stand before
it. -/
def joinsMarker (c : Char) : Bool :=
  isAlphanumeric c || c == '_'

/-- Whether a text ends with the marker as a whole word. -/
def endsWithMarker (t : Text) : Bool :=
  match t.dropSuffix? entryMarker with
  | none => false
  | some head => !head.getLast?.any joinsMarker

/-- An insertion at a byte offset, and the offset of the cursor after it. -/
structure IndentEdit where
  offset : Nat
  insert : Text
  cursor : Nat
deriving DecidableEq, Repr

/-- The text with the insertion made, if the offset can be cut at. -/
def IndentEdit.apply (edit : IndentEdit) (source : Text) : Option Text :=
  (source.cut? edit.offset).map fun (head, tail) => head ++ edit.insert ++ tail

/-- What a line break at byte offset `cursor` inserts, when the text of the
line up to the cursor is a block header. -/
def autoIndent (source : Text) (cursor : Nat) (unit : Text) :
    Option IndentEdit := do
  let before ← source.before? cursor
  let line := before.lastLine
  if endsWithMarker line.trimEnd then
    let insert := '\n' :: (line.leadingBlanks ++ unit)
    some
      { offset := cursor
        insert := insert
        cursor := cursor + Text.byteLength insert }
  else
    none

end PseudocodeTools
