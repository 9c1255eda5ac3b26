import PseudocodeTools.Indent
/-!
# Typing

A document in which someone types, with a cursor at a byte offset.  Text goes in
at the cursor, and a line break brings the indentation with it that the header
before the cursor calls for.
-/

namespace PseudocodeTools

structure Typing where
  source : Text
  cursor : Nat
deriving DecidableEq, Repr

namespace Typing

/-- A document with the cursor at its end. -/
def atEnd (source : Text) : Typing :=
  { source := source, cursor := source.byteLength }

def moveTo (state : Typing) (cursor : Nat) : Typing :=
  { state with cursor := cursor }

/-- The state after an edit; the text stays as it is when the edit has no place
in it. -/
def perform (state : Typing) (edit : IndentEdit) : Typing :=
  { source := (edit.apply state.source).getD state.source
    cursor := edit.cursor }

/-- Inserts a text at the cursor, which moves behind it. -/
def write (state : Typing) (t : Text) : Typing :=
  state.perform
    { offset := state.cursor, insert := t
      cursor := state.cursor + t.byteLength }

/-- The state after a line break that brings indentation with it, if there is
any to bring. -/
def indented? (state : Typing) (unit : Text) : Option Typing :=
  (autoIndent state.source state.cursor unit).map state.perform

/-- The state after a line break. -/
def breakLine (state : Typing) (unit : Text) : Typing :=
  (state.indented? unit).getD (state.write ['\n'])

end Typing
end PseudocodeTools
