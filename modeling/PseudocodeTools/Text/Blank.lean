import PseudocodeTools.Text.Basic
import PseudocodeTools.Text.CodeRanges
/-!
# Blanks

The characters with the Unicode property `White_Space`, and the texts that are
left when blanks are trimmed from one end or from both.
-/

namespace PseudocodeTools

/-- Code points with the property `White_Space`. -/
def blankRanges : CodeRanges :=
  [(0x9, 0xD), (0x20, 0x20), (0x85, 0x85), (0xA0, 0xA0), (0x1680, 0x1680),
    (0x2000, 0x200A), (0x2028, 0x2029), (0x202F, 0x202F), (0x205F, 0x205F),
    (0x3000, 0x3000)]

def isBlank (c : Char) : Bool :=
  blankRanges.contains c

namespace Text

def trimStart (t : Text) : Text :=
  t.dropWhile isBlank

def trimEnd (t : Text) : Text :=
  (t.reverse.dropWhile isBlank).reverse

def trim (t : Text) : Text :=
  trimEnd (trimStart t)

/-- The blanks that a text begins with. -/
def leadingBlanks (t : Text) : Text :=
  t.takeWhile isBlank

end Text
end PseudocodeTools
