import PseudocodeTools.Server.Position
import PseudocodeTools.Token
/-!
# Highlighting

For highlighting, each token is described relative to the one before it: by how
many lines it is further down, and by how many characters it is further right,
counted from the start of that token if both are on one line and from the start
of the line otherwise.  The positions come from one walk over the document, which
counts lines and characters from each token to the next.
-/

namespace PseudocodeTools

/-- The name of a kind of token in the legend of the highlighting. -/
def TokenKind.legendName : TokenKind -> String
  | keyword => "keyword"
  | boolean => "enumMember"
  | number => "number"
  | string => "string"
  | comment => "comment"
  | operator => "operator"
  | identifier => "variable"
  | invalid => "invalid"

/-- The place of a kind of token in the legend. -/
def TokenKind.legendIndex (kind : TokenKind) : UInt32 :=
  all.idxOf kind

/-- A token described relative to the one before it. -/
structure RelativeToken where
  lines : UInt32
  characters : UInt32
  length : UInt32
  kind : TokenKind
deriving DecidableEq, Repr

namespace RelativeToken

/-- How to get from the start of one token to the start of another. -/
def ofPositions (previous here : Position) (token : Token) : RelativeToken :=
  let lines := here.line - previous.line
  { lines := lines
    characters :=
      if lines = 0 then here.character - previous.character
      else here.character
    length := token.text.length
    kind := token.kind }

/-- Describes each token relative to the one before it, which starts at
`previous`.  The walk over the document has come to byte offset `offset`, at
position `here`. -/
def chain? (source : Text) (offset : Nat) (here previous : Position) :
    List Token -> Option (List RelativeToken)
  | [] => some []
  | token :: rest => do
      let gap ← source.slice? offset token.start
      let start := here.behind gap
      let following ← chain? source token.start start start rest
      return ofPositions previous start token :: following

/-- The five numbers of a token; no token has a modifier. -/
def numbers (token : RelativeToken) : List UInt32 :=
  [token.lines, token.characters, token.length, token.kind.legendIndex, 0]

end RelativeToken

/-- The highlighting of a document; none if its tokens were out of order. -/
def highlight (source : Text) : Option (List RelativeToken) :=
  RelativeToken.chain? source 0 .origin .origin (tokens source)

end PseudocodeTools
