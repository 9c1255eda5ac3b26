import PseudocodeTools.JsonText.Fault
/-!
# Readers of JSON text

A reader takes characters off the front of a text.  It stops at the first fault
and reports it either at the place that was reached or one byte further on,
which is inside the first character that does not fit.
-/

namespace PseudocodeTools

/-- A function that takes its result from the front of a text. -/
abbrev Reader (ε α : Type) :=
  StateT Text (Except (Located ε)) α

namespace Reader

variable {ε α : Type}

/-- A fault at the place that was reached. -/
def failHere (cause : ε) : Reader ε α :=
  fun t => .error { cause := cause, left := t.byteLength }

/-- A fault at the next character, the first byte of which is counted. -/
def failAhead (cause : ε) : Reader ε α :=
  fun t => .error { cause := cause, left := t.byteLength - 1 }

def peek : Reader ε (Option Char) :=
  fun t => .ok (t.head?, t)

def advance : Reader ε Unit :=
  fun t => .ok ((), t.drop 1)

/-- The four characters that may stand between the parts of a JSON text. -/
def isSpacing (c : Char) : Bool :=
  c == ' ' || c == '\t' || c == '\n' || c == '\r'

def skipSpacing : Reader ε Unit :=
  fun t => .ok ((), t.dropWhile isSpacing)

/-- The next character that is no spacing; it is not taken. -/
def peekToken : Reader ε (Option Char) := do
  skipSpacing
  peek

/-- The same reader with its faults seen as faults of another kind. -/
def mapFault {ε' : Type} (f : ε -> ε') (read : Reader ε α) : Reader ε' α :=
  fun t =>
    match read t with
    | .ok result => .ok result
    | .error fault => .error { cause := f fault.cause, left := fault.left }

/-!
# Punctuation of lists and objects
-/

/-- Whether a list has one more item.  The comma before an item is taken, the
closing bracket is not. -/
def moreItems (isFirst : Bool) : Reader SyntaxFault Bool := do
  match ← peekToken with
  | none => failHere .endOfList
  | some ']' => return false
  | some c =>
      if isFirst then
        return true
      else if c = ',' then
        advance
        match ← peekToken with
        | none => failHere .endOfValue
        | some ']' => failAhead .trailingComma
        | some _ => return true
      else
        failAhead .expectedCommaOrBracket

/-- Whether an object has one more member.  The comma before the member and the
quote that opens its key are taken, the closing brace is not. -/
def moreMembers (isFirst : Bool) : Reader SyntaxFault Bool := do
  match ← peekToken with
  | none => failHere .endOfObject
  | some '\x7d' => return false
  | some c =>
      if isFirst then
        if c = '"' then
          advance
          return true
        else
          failAhead .keyNotString
      else if c = ',' then
        advance
        match ← peekToken with
        | none => failHere .endOfValue
        | some '"' =>
            advance
            return true
        | some '\x7d' => failAhead .trailingComma
        | some _ => failAhead .keyNotString
      else
        failAhead .expectedCommaOrBrace

/-- The colon between a key and its value. -/
def colon : Reader SyntaxFault Unit := do
  match ← peekToken with
  | none => failHere .endOfObject
  | some ':' => advance
  | some _ => failAhead .expectedColon

/-- The bracket at the end of a list. -/
def closeList : Reader SyntaxFault Unit := do
  match ← peekToken with
  | none => failHere .endOfList
  | some ']' => advance
  | some ',' =>
      advance
      match ← peekToken with
      | some ']' => failAhead .trailingComma
      | _ => failAhead .trailingCharacters
  | some _ => failAhead .trailingCharacters

/-- The brace at the end of an object. -/
def closeObject : Reader SyntaxFault Unit := do
  match ← peekToken with
  | none => failHere .endOfObject
  | some '\x7d' => advance
  | some ',' => failAhead .trailingComma
  | some _ => failAhead .trailingCharacters

/-- The end of the text. -/
def endOfText : Reader SyntaxFault Unit := do
  match ← peekToken with
  | none => return ()
  | some _ => failAhead .trailingCharacters

/-- The rest of a word of which the first letter was taken. -/
def word : Text -> Reader SyntaxFault Unit
  | [] => return ()
  | c :: rest => do
      match ← peek with
      | none => failHere .endOfValue
      | some d =>
          if d = c then
            advance
            word rest
          else
            failAhead .expectedWord

/-!
# Repetition

A list has fewer items than its text has characters, which bounds the number of
rounds.
-/

/-- The items of a list, at most as many as there are rounds. -/
def itemsWithin (item : Reader ε α) (more : Bool -> Reader ε Bool) :
    Nat -> Bool -> Reader ε (List α)
  | 0, _ => return []
  | rounds + 1, isFirst => do
      if ← more isFirst then
        let x ← item
        let xs ← itemsWithin item more rounds false
        return x :: xs
      else
        return []

/-- The items of a list up to its closing bracket, or the members of an object
up to its closing brace. -/
def items (item : Reader ε α) (more : Bool -> Reader ε Bool) :
    Reader ε (List α) :=
  fun t => itemsWithin item more (t.length + 1) true t

end Reader
end PseudocodeTools
