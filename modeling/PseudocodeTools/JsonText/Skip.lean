import PseudocodeTools.JsonText.Scalar
/-!
# Passing over a JSON value

A value of which nothing is needed is passed over.  This is more lenient than
reading it: it may be nested to any depth, the size of its numbers does not
matter, and surrogates need no partner.
-/

namespace PseudocodeTools
namespace Reader

/-!
# Strings
-/

/-- What follows the closing quote of a string. -/
def afterString : Text -> Except (Located SyntaxFault) Text
  | [] => .error { cause := .endOfString, left := 0 }
  | '"' :: t => .ok t
  | ['\\'] => .error { cause := .endOfString, left := 0 }
  | '\\' :: 'u' :: a :: b :: c :: d :: t =>
      match codeUnit? a b c d with
      | some _ => afterString t
      | none => .error (badCodeUnit (a :: b :: c :: d :: t))
  | '\\' :: 'u' :: t => .error (badCodeUnit t)
  | '\\' :: c :: t =>
      match escaped? c with
      | some _ => afterString t
      | none =>
          .error
            { cause := .invalidEscape, left := Text.byteLength (c :: t) - 1 }
  | c :: t =>
      if c.toNat < 0x20 then
        .error { cause := .controlCharacter, left := Text.byteLength (c :: t) }
      else
        afterString t

/-- Passes over a string of which the opening quote was taken. -/
def skipString : Reader SyntaxFault Unit :=
  fun t =>
    match afterString t with
    | .ok rest => .ok ((), rest)
    | .error fault => .error fault

/-!
# Numbers
-/

/-- Passes over digits, of which there must be one. -/
def skipDigits : Reader SyntaxFault Unit :=
  fun t =>
    if t.head?.any Char.isDigit then .ok ((), t.dropWhile Char.isDigit)
    else failAhead .invalidNumber t

/-- Passes over one character that is in a list, if it comes next. -/
def skipOneOf (chars : Text) : Reader SyntaxFault Unit :=
  fun t =>
    if t.head?.any chars.contains then .ok ((), t.drop 1) else .ok ((), t)

/-- Passes over the exponent of a number, if there is one. -/
def skipExponent : Reader SyntaxFault Unit := do
  match ← peek with
  | some 'e' | some 'E' =>
      advance
      skipOneOf ['+', '-']
      skipDigits
  | _ => return ()

/-- Passes over the fraction of a number, if there is one. -/
def skipFraction : Reader SyntaxFault Unit := do
  match ← peek with
  | some '.' =>
      advance
      skipDigits
  | _ => return ()

/-- Passes over the digits before the point.  A zero stands alone. -/
def skipWhole : Reader SyntaxFault Unit := do
  match ← peek with
  | some '0' =>
      advance
      if (← peek).any Char.isDigit then failAhead .invalidNumber
  | _ => skipDigits

/-- Passes over a number of which the minus sign, if it has one, was taken. -/
def skipNumber : Reader SyntaxFault Unit := do
  skipWhole
  skipFraction
  skipExponent

/-!
# Lists and objects
-/

/-- Whether one more item is to be passed over.  The comma before it is taken,
the closing bracket is not. -/
def moreToSkip (isFirst : Bool) : Reader SyntaxFault Bool := do
  match ← peekToken with
  | none => failHere .endOfList
  | some ']' => return false
  | some c =>
      if isFirst then
        return true
      else if c = ',' then
        advance
        return true
      else
        failAhead .expectedCommaOrBracket

/-- The quote that opens a key. -/
def keyQuote : Reader SyntaxFault Unit := do
  match ← peekToken with
  | none => failHere .endOfObject
  | some '"' => advance
  | some _ => failAhead .keyNotString

/-- Whether one more member is to be passed over.  The comma before it and the
quote that opens its key are taken, the closing brace is not. -/
def moreMembersToSkip (isFirst : Bool) : Reader SyntaxFault Bool := do
  match ← peekToken with
  | none => failHere .endOfObject
  | some '\x7d' => return false
  | some c =>
      if isFirst then
        keyQuote
        return true
      else if c = ',' then
        advance
        keyQuote
        return true
      else
        failAhead .expectedCommaOrBrace

def skipList (item : Reader SyntaxFault Unit) : Reader SyntaxFault Unit := do
  advance
  let _ ← items item moreToSkip
  advance

def skipObject (item : Reader SyntaxFault Unit) : Reader SyntaxFault Unit := do
  advance
  let _ ← items (do skipString; colon; item) moreMembersToSkip
  advance

/-- Passes over a value, with the given readers for lists and objects. -/
def skipWith (list object : Reader SyntaxFault Unit) :
    Reader SyntaxFault Unit := do
  match ← peekToken with
  | none => failHere .endOfValue
  | some 'n' =>
      advance
      word ['u', 'l', 'l']
  | some 't' =>
      advance
      word ['r', 'u', 'e']
  | some 'f' =>
      advance
      word ['a', 'l', 's', 'e']
  | some '-' =>
      advance
      skipNumber
  | some '"' =>
      advance
      skipString
  | some '[' => list
  | some '\x7b' => object
  | some c =>
      if c.isDigit then skipNumber else failAhead .expectedValue

/-- Passes over a value with at most `depth` brackets and braces open. -/
def skipWithin : Nat -> Reader SyntaxFault Unit
  | 0 => skipWith (failAhead .tooDeep) (failAhead .tooDeep)
  | depth + 1 =>
      skipWith (skipList (skipWithin depth)) (skipObject (skipWithin depth))

/-- Passes over a value.  No value is nested deeper than its text is long. -/
def skipValue : Reader SyntaxFault Unit :=
  fun t => skipWithin t.length t

end Reader
end PseudocodeTools
