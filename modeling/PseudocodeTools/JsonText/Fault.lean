import PseudocodeTools.Text.Basic
/-!
# Faults in JSON text

A reader reports a fault together with the number of bytes that were left at
the place where it was found.  From this the line and the column are counted:
lines from one, columns in bytes from the start of the line.
-/

namespace PseudocodeTools

/-- Why a text is no JSON value. -/
inductive SyntaxFault where
  | endOfValue
  | endOfList
  | endOfObject
  | endOfString
  | expectedValue
  | expectedWord
  | expectedColon
  | expectedCommaOrBracket
  | expectedCommaOrBrace
  | keyNotString
  | trailingComma
  | trailingCharacters
  | invalidNumber
  | numberOutOfRange
  | controlCharacter
  | invalidEscape
  | loneSurrogate
  | unpairedEscape
  | tooDeep
deriving DecidableEq, Repr

def SyntaxFault.message : SyntaxFault -> String
  | endOfValue => "EOF while parsing a value"
  | endOfList => "EOF while parsing a list"
  | endOfObject => "EOF while parsing an object"
  | endOfString => "EOF while parsing a string"
  | expectedValue => "expected value"
  | expectedWord => "expected ident"
  | expectedColon => "expected `:`"
  | expectedCommaOrBracket => "expected `,` or `]`"
  | expectedCommaOrBrace => "expected `,` or `\x7d`"
  | keyNotString => "key must be a string"
  | trailingComma => "trailing comma"
  | trailingCharacters => "trailing characters"
  | invalidNumber => "invalid number"
  | numberOutOfRange => "number out of range"
  | controlCharacter =>
      "control character (\\u0000-\\u001F) found while parsing a string"
  | invalidEscape => "invalid escape"
  | loneSurrogate => "lone leading surrogate in hex escape"
  | unpairedEscape => "unexpected end of hex escape"
  | tooDeep => "recursion limit exceeded"

/-- A cause with the number of bytes left where it was found. -/
structure Located (ε : Type) where
  cause : ε
  left : Nat
deriving DecidableEq, Repr

/-- A cause with its line and column. -/
structure Placed (ε : Type) where
  cause : ε
  line : Nat
  column : Nat
deriving DecidableEq, Repr

/-- Line and column after `n` more bytes, counted on from the given ones.  An
offset inside a character counts the bytes of the character before it. -/
def lineColumnFrom (line column : Nat) : Text -> Nat -> Nat × Nat
  | [], _ => (line, column)
  | c :: t, n =>
      if n < c.utf8Size then (line, column + n)
      else if c = '\n' then lineColumnFrom (line + 1) 0 t (n - c.utf8Size)
      else lineColumnFrom line (column + c.utf8Size) t (n - c.utf8Size)

/-- Where a located cause stands in the text. -/
def Located.place {ε : Type} (source : Text) (fault : Located ε) : Placed ε :=
  let (line, column) :=
    lineColumnFrom 1 0 source (source.byteLength - fault.left)
  { cause := fault.cause, line := line, column := column }

/-- The message of a placed cause, with the line and the column at its end. -/
def Placed.message {ε : Type} (describe : ε -> String) (fault : Placed ε) :
    String :=
  describe fault.cause ++ " at line " ++ String.ofList (Text.ofNat fault.line) ++
    " column " ++ String.ofList (Text.ofNat fault.column)

end PseudocodeTools
