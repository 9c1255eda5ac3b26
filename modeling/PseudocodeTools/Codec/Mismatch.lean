import PseudocodeTools.Binary64.Digits
import PseudocodeTools.Json.Basic
import PseudocodeTools.JsonText.Fault
import PseudocodeTools.Text.Quoted
/-!
# Mismatches between values and formats

When a JSON value does not have the format of what it should stand for, the
mismatch says what was found and what was expected instead.
-/

namespace PseudocodeTools

/-!
# What was found
-/

/-- A scalar itself, or the sort of a compound value. -/
inductive Found where
  | null
  | boolean (value : Bool)
  | number (value : JsonNumber)
  | string (value : String)
  | array
  | object
deriving DecidableEq, Repr

namespace Found

def ofJson : Json -> Found
  | .null => null
  | .boolean b => boolean b
  | .number n => number n
  | .string s => string s
  | .array _ => array
  | .object _ => object

/-- A text between backticks. -/
def marked (t : Text) : Text :=
  '\x60' :: (t ++ ['\x60'])

/-- What was found, in a sentence. -/
def phrase : Found -> Text
  | null => "null".toList
  | boolean true => "boolean ".toList ++ marked "true".toList
  | boolean false => "boolean ".toList ++ marked "false".toList
  | number (.integer value _) =>
      let digits := Text.ofNat value.natAbs
      "integer ".toList ++ marked (if value < 0 then '-' :: digits else digits)
  | number (.real value _) =>
      "floating point ".toList ++ marked value.literalText
  | string s => "string ".toList ++ Text.quoted s.toList
  | array => "sequence".toList
  | object => "map".toList

end Found

/-!
# What was expected
-/

inductive Expected where
  | flag
  | text
  | number
  | word32
  | list
  | object
  | record (name : String)
  | choice
  | choiceName
  | singleMember
  | nothing
deriving DecidableEq, Repr

def Expected.phrase : Expected -> String
  | flag => "a boolean"
  | text => "a string"
  | number => "f64"
  | word32 => "u32"
  | list => "a sequence"
  | object => "a map"
  | record name => "struct " ++ name
  | choice => "string or map"
  | choiceName => "variant identifier"
  | singleMember => "map with a single key"
  | nothing => "unit"

/-- Names of a choice in a sentence: two are joined, more are listed. -/
def namesPhrase : List String -> Text
  | [a, b] =>
      "expected ".toList ++ Found.marked a.toList ++ " or ".toList ++
        Found.marked b.toList
  | names =>
      "expected one of ".toList ++
        [',', ' '].intercalate (names.map fun name => Found.marked name.toList)

/-!
# Mismatches
-/

inductive Mismatch where
  /-- A value of a sort that cannot stand for what is expected. -/
  | wrongType (found : Found) (expected : Expected)
  /-- A value of the right sort that is out of range. -/
  | wrongValue (found : Found) (expected : Expected)
  /-- A list that ends before the required field at a position. -/
  | tooShort (position : Nat) (name : String) (size : Nat)
  /-- A list with more items than the record has fields. -/
  | tooLong (length : Nat)
  | unknownName (found : String) (names : List String)
  | missingField (key : String)
  | duplicateField (key : String)
deriving DecidableEq, Repr

namespace Mismatch

def elements (n : Nat) : Text :=
  Text.ofNat n ++ (if n = 1 then " element" else " elements").toList

def message : Mismatch -> Text
  | wrongType found expected =>
      "invalid type: ".toList ++ found.phrase ++ ", expected ".toList ++
        expected.phrase.toList
  | wrongValue found expected =>
      "invalid value: ".toList ++ found.phrase ++ ", expected ".toList ++
        expected.phrase.toList
  | tooShort position name size =>
      "invalid length ".toList ++ Text.ofNat position ++
        ", expected struct ".toList ++ name.toList ++ " with ".toList ++
        elements size
  | tooLong length =>
      "invalid length ".toList ++ Text.ofNat length ++
        ", expected fewer elements in array".toList
  | unknownName found names =>
      "unknown variant ".toList ++ Found.marked found.toList ++ ", ".toList ++
        namesPhrase names
  | missingField key => "missing field ".toList ++ Found.marked key.toList
  | duplicateField key => "duplicate field ".toList ++ Found.marked key.toList

end Mismatch

/-!
# Faults of a text
-/

/-- Why a text does not stand for anything of a format. -/
inductive FormatFault where
  | syntactic (fault : SyntaxFault)
  | mismatch (fault : Mismatch)
deriving DecidableEq, Repr

def FormatFault.message : FormatFault -> String
  | syntactic fault => fault.message
  | mismatch fault => String.ofList fault.message

end PseudocodeTools
