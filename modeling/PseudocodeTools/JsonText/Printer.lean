import PseudocodeTools.Binary64.Digits
import PseudocodeTools.Json.Basic
import PseudocodeTools.Text.Quoted
/-!
# Compact JSON text

The text of a value without any spacing.  In a string only the quote, the
backslash and the controls are escaped.
-/

namespace PseudocodeTools
namespace Json

/-- How a character is written in a string. -/
def printedChar (c : Char) : Text :=
  if c = '"' then ['\\', '"']
  else if c = '\\' then ['\\', '\\']
  else if c = '\x08' then ['\\', 'b']
  else if c = '\x0c' then ['\\', 'f']
  else if c = '\n' then ['\\', 'n']
  else if c = '\r' then ['\\', 'r']
  else if c = '\t' then ['\\', 't']
  else if c.toNat < 0x10 then ['\\', 'u', '0', '0', '0'] ++ Text.ofNatHex c.toNat
  else if c.toNat < 0x20 then ['\\', 'u', '0', '0'] ++ Text.ofNatHex c.toNat
  else [c]

def printedString (s : String) : Text :=
  '"' :: (s.toList.flatMap printedChar ++ ['"'])

def printedInteger (n : Int) : Text :=
  if n < 0 then '-' :: Text.ofNat n.natAbs else Text.ofNat n.natAbs

def printedNumber : JsonNumber -> Text
  | .integer value _ => printedInteger value
  | .real value _ => value.literalText

mutual
/-- The compact text of a value. -/
def print : Json -> Text
  | null => ['n', 'u', 'l', 'l']
  | boolean true => ['t', 'r', 'u', 'e']
  | boolean false => ['f', 'a', 'l', 's', 'e']
  | number n => printedNumber n
  | string s => printedString s
  | array items => '[' :: (printItems items ++ [']'])
  | object members => '\x7b' :: (printMembers members ++ ['\x7d'])
termination_by structural value => value

/-- The items of a list with commas between them. -/
def printItems : List Json -> Text
  | [] => []
  | [item] => print item
  | item :: rest => print item ++ ',' :: printItems rest
termination_by structural items => items

/-- The members of an object with commas between them. -/
def printMembers : List (String × Json) -> Text
  | [] => []
  | [(key, value)] => printedString key ++ ':' :: print value
  | (key, value) :: rest =>
      printedString key ++ ':' :: (print value ++ ',' :: printMembers rest)
termination_by structural members => members
end

end Json
end PseudocodeTools
