import PseudocodeTools.Block.Line
/-!
# Fold ranges

A block that can be folded away runs from the end of its opening line to the
end of its closing line.  Which line closes a block depends on the strategy: it
is the first closing line after the opener, or the one at which as many blocks
have been closed as were opened.
-/

namespace PseudocodeTools

/-- How openers are paired with closers. -/
inductive FoldStrategy where
  /-- Every closer ends the innermost open block. -/
  | nested
  /-- The first closer after an opener ends its block. -/
  | firstCloser
deriving DecidableEq, Repr

/-- Byte offsets of the ends of the opening and of the closing line. -/
structure FoldRange where
  first : Nat
  last : Nat
deriving DecidableEq, Repr

/-- The end of the closing line among the lines from byte offset `start` on,
when `depth` blocks are open. -/
def closingEnd (strategy : FoldStrategy) (depth start : Nat) :
    List Text -> Option Nat
  | [] => none
  | line :: rest =>
      let content := line.dropReturn
      let next := start + line.byteLength + 1
      if closesBlock content then
        if strategy = .firstCloser || depth ≤ 1 then
          some (start + content.byteLength)
        else
          closingEnd strategy (depth - 1) next rest
      else if opensBlock content then
        closingEnd strategy (depth + 1) next rest
      else
        closingEnd strategy depth next rest

/-- The range of the block that the line between two byte offsets opens. -/
def matchFold (source : Text) (lineStart lineEnd : Nat)
    (strategy : FoldStrategy) : Option FoldRange := do
  let line ← source.slice? lineStart lineEnd
  if opensBlock line then
    let rest ← source.after? lineEnd
    match rest.lines with
    | [] => none
    | remainder :: following =>
        let start := lineEnd + remainder.byteLength + 1
        let last ← closingEnd strategy 1 start following
        if lineEnd < last then
          some { first := lineEnd, last := last }
        else
          none
  else
    none

/-- Ranges of the blocks that the given lines open, the first of which stands
at byte offset `start`. -/
def foldRangesFrom (source : Text) (strategy : FoldStrategy) (start : Nat) :
    List Text -> List FoldRange
  | [] => []
  | line :: rest =>
      let contentEnd := start + line.dropReturn.byteLength
      let following :=
        foldRangesFrom source strategy (start + line.byteLength + 1) rest
      match matchFold source start contentEnd strategy with
      | some range => range :: following
      | none => following

/-- The ranges of all blocks, by opening line. -/
def foldRanges (source : Text) (strategy : FoldStrategy) : List FoldRange :=
  foldRangesFrom source strategy 0 source.lines

end PseudocodeTools
