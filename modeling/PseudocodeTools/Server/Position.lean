import PseudocodeTools.Text.Basic
/-!
# Positions in a document

Editors speak of places in a document as lines and characters, both counted
from zero in 32 bits.  The character of a position may lie beyond the end of its
line, and then stands for the end of the line; a line that does not exist stands
for no place.
-/

namespace PseudocodeTools

/-- A count in 32 bits starts again from zero behind the greatest number. -/
instance coeNatUInt32 : Coe Nat UInt32 where
  coe := UInt32.ofNat

structure Position where
  line : UInt32
  character : UInt32
deriving DecidableEq, Repr

namespace Position

/-- The start of a document. -/
def origin : Position :=
  { line := 0, character := 0 }

/-- The position after the next character. -/
def advance (p : Position) (c : Char) : Position :=
  if c = '\n' then { line := p.line + 1, character := 0 }
  else { line := p.line, character := p.character + 1 }

/-- The position behind a text that begins at the given position. -/
def behind (p : Position) (t : Text) : Position :=
  t.foldl advance p

/-- The position of byte offset `n` in a text that begins at the given
position.  An offset inside a character counts as the one after it, and an
offset beyond the end as the end. -/
def ofOffsetFrom (p : Position) : Text -> Nat -> Position
  | [], _ => p
  | c :: t, n =>
      if n = 0 then p
      else ofOffsetFrom (p.advance c) t (n - c.utf8Size)

def ofOffset (source : Text) (offset : Nat) : Position :=
  ofOffsetFrom origin source offset

/-- The byte offset at which a walk comes to position `p` or to the end of its
line.  The walk has come to byte offset `n`, at position `here`. -/
def toOffsetFrom? (p here : Position) (n : Nat) : Text -> Option Nat
  | [] => if here.line = p.line then some n else none
  | c :: t =>
      if here = p then some n
      else if c = '\n' ∧ here.line = p.line then some n
      else toOffsetFrom? p (here.advance c) (n + c.utf8Size) t

def toOffset? (source : Text) (p : Position) : Option Nat :=
  toOffsetFrom? p origin 0 source

end Position

/-- A stretch of a document from one position to another. -/
structure DocumentRange where
  start : Position
  stop : Position
deriving DecidableEq, Repr

def DocumentRange.ofOffsets (source : Text) (first last : Nat) : DocumentRange :=
  { start := .ofOffset source first, stop := .ofOffset source last }

end PseudocodeTools
