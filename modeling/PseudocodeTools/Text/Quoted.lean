import PseudocodeTools.Text.Basic
import PseudocodeTools.Text.Printable
/-!
# Quoted texts

A text between double quotes in which every character can be seen: quotes and
backslashes are escaped, the common controls have short names, and any other
character that does not print is written by its code point.
-/

namespace PseudocodeTools
namespace Text

/-- Hexadecimal digits of a natural number, in lower case. -/
def ofNatHex (n : Nat) : Text :=
  Nat.toDigits 16 n

/-- How a character is written between the quotes. -/
def quotedChar (c : Char) : Text :=
  if c = '\x00' then ['\\', '0']
  else if c = '\t' then ['\\', 't']
  else if c = '\n' then ['\\', 'n']
  else if c = '\r' then ['\\', 'r']
  else if c = '\\' then ['\\', '\\']
  else if c = '"' then ['\\', '"']
  else if isPrintable c then [c]
  else ['\\', 'u', '\x7b'] ++ ofNatHex c.toNat ++ ['\x7d']

def quoted (t : Text) : Text :=
  ['"'] ++ t.flatMap quotedChar ++ ['"']

end Text
end PseudocodeTools
