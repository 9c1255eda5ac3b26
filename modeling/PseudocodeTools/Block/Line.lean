import PseudocodeTools.Text.Blank
/-!
# Block lines

A line opens a block when its leading word is one of the opener words, and
closes a block when it begins with one of the closer words, blanks aside.  The
leading word must be a whole word; a closer may be the beginning of one, so
that `ENDWHILE` and `END_IF` close blocks too.  The case of ASCII letters makes
no difference.
-/

namespace PseudocodeTools

def blockOpeners : List Text :=
  ["FUNCTION", "PROCEDURE", "FOR", "WHILE", "REPEAT", "IF", "BEGIN"].map
    String.toList

def blockClosers : List Text :=
  ["END", "ENDIF", "NEXT", "UNTIL"].map String.toList

/-- The ASCII letters, digits and underscores at the start of a line, after its
blanks. -/
def leadingWord (line : Text) : Text :=
  line.trimStart.takeWhile fun c => c.isAlphanum || c == '_'

def opensBlock (line : Text) : Bool :=
  blockOpeners.any fun word => word.equalIgnoringCase (leadingWord line)

def closesBlock (line : Text) : Bool :=
  blockClosers.any fun word => line.trimStart.startsIgnoringCase word

end PseudocodeTools
