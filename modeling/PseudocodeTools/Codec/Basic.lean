import PseudocodeTools.Codec.Mismatch
import PseudocodeTools.JsonText.Value
/-!
# Codecs

A codec relates the values of a type to JSON in three ways: it reads a JSON
value, it reads a text from left to right, and it writes a JSON value.  Reading
from a text reports the first fault together with its place, where a fault of
the text comes before a mismatch only if it stands before it.
-/

namespace PseudocodeTools

structure Codec (α : Type) where
  /-- What a JSON value stands for. -/
  ofJson : Json -> Except Mismatch α
  /-- What the front of a text stands for, when at most the given number of
  brackets and braces may be open at a time. -/
  ofText : Nat -> Reader FormatFault α
  /-- The JSON value that stands for a value of the type. -/
  toJson : α -> Json

/-!
# Reading a text with mismatches
-/

namespace Reader

variable {α : Type}

def syntactic (read : Reader SyntaxFault α) : Reader FormatFault α :=
  mapFault .syntactic read

def mismatchHere (fault : Mismatch) : Reader FormatFault α :=
  failHere (.mismatch fault)

/-- The first character of the value that follows, which is not taken. -/
def startOfValue : Reader FormatFault Char := do
  match ← peekToken with
  | none => failHere (.syntactic .endOfValue)
  | some c => return c

/-- A number that starts with the given character. -/
def numberAt (first : Char) : Reader FormatFault JsonNumber :=
  if first = '-' then do
    advance
    syntactic (number true)
  else
    syntactic (number false)

def startsNumber (c : Char) : Bool :=
  c == '-' || c.isDigit

/-- Reports that the value which starts with the given character is not what is
expected.  A scalar is read to its end before that, so that a fault in it is
reported instead. -/
def reject (expected : Expected) (first : Char) : Reader FormatFault α := do
  match first with
  | 'n' =>
      advance
      syntactic (word ['u', 'l', 'l'])
      mismatchHere (.wrongType .null expected)
  | 't' =>
      advance
      syntactic (word ['r', 'u', 'e'])
      mismatchHere (.wrongType (.boolean true) expected)
  | 'f' =>
      advance
      syntactic (word ['a', 'l', 's', 'e'])
      mismatchHere (.wrongType (.boolean false) expected)
  | '"' =>
      advance
      let s ← syntactic string
      mismatchHere (.wrongType (.string s) expected)
  | '[' => mismatchHere (.wrongType .array expected)
  | '\x7b' => mismatchHere (.wrongType .object expected)
  | c =>
      if startsNumber c then
        let n ← numberAt c
        mismatchHere (.wrongType (.number n) expected)
      else
        failAhead (.syntactic .expectedValue)

/-- Takes an opening bracket or brace and goes on inside it, one level
deeper. -/
def enter (depth : Nat) (inside : Nat -> Reader FormatFault α) :
    Reader FormatFault α :=
  match depth with
  | 0 => failAhead (.syntactic .tooDeep)
  | depth + 1 => do
      advance
      inside depth

/-- The result of a judgement about what was just read. -/
def judge : Except Mismatch α -> Reader FormatFault α
  | .ok x => return x
  | .error fault => mismatchHere fault

end Reader

/-!
# Scalars
-/

namespace Codec

open Reader (startOfValue startsNumber numberAt reject enter judge syntactic
  advance)

variable {α β : Type}

def wrongType (expected : Expected) (value : Json) : Except Mismatch α :=
  .error (.wrongType (.ofJson value) expected)

def flag : Codec Bool where
  ofJson
    | .boolean b => .ok b
    | value => wrongType .flag value
  ofText _ := do
    match ← startOfValue with
    | 't' =>
        advance
        syntactic (Reader.word ['r', 'u', 'e'])
        return true
    | 'f' =>
        advance
        syntactic (Reader.word ['a', 'l', 's', 'e'])
        return false
    | c => reject .flag c
  toJson := .boolean

def text : Codec String where
  ofJson
    | .string s => .ok s
    | value => wrongType .text value
  ofText _ := do
    match ← startOfValue with
    | '"' =>
        advance
        syntactic Reader.string
    | c => reject .text c
  toJson := .string

/-- A floating-point number; an integer stands for the nearest one. -/
def number : Codec Binary64 where
  ofJson
    | .number n => .ok n.toBinary64
    | value => wrongType .number value
  ofText _ := do
    let c ← startOfValue
    if startsNumber c then
      let n ← numberAt c
      return n.toBinary64
    else
      reject .number c
  toJson := .ofBinary64

/-- The word of 32 bits that a number is. -/
def word32OfNumber (n : JsonNumber) : Except Mismatch UInt32 :=
  match n, n.toUInt32? with
  | _, some k => .ok k
  | .integer .., none => .error (.wrongValue (.number n) .word32)
  | .real .., none => .error (.wrongType (.number n) .word32)

/-- An integer of 32 bits without a sign. -/
def word32 : Codec UInt32 where
  ofJson
    | .number n => word32OfNumber n
    | value => wrongType .word32 value
  ofText _ := do
    let c ← startOfValue
    if startsNumber c then
      judge (word32OfNumber (← numberAt c))
    else
      reject .word32 c
  toJson k := .number (.ofUInt32 k)

/-- Any value, as it is. -/
def raw : Codec Json where
  ofJson value := .ok value
  ofText depth := syntactic (Reader.value depth)
  toJson value := value

/-!
# Compound values
-/

/-- The members of an object, whatever they are. -/
def object : Codec Json.Members where
  ofJson
    | .object members => .ok members
    | value => wrongType .object value
  ofText depth := do
    match ← startOfValue with
    | '\x7b' =>
        enter depth fun depth => syntactic do
          let members ←
            Reader.items (Reader.member (Reader.value depth)) Reader.moreMembers
          Reader.closeObject
          return Json.Members.insertAll [] members
    | c => reject .object c
  toJson := .object

/-- A value or null. -/
def optional (codec : Codec α) : Codec (Option α) where
  ofJson
    | .null => .ok none
    | value => (codec.ofJson value).map some
  ofText depth := do
    match ← Reader.peekToken with
    | some 'n' =>
        advance
        syntactic (Reader.word ['u', 'l', 'l'])
        return none
    | _ => return some (← codec.ofText depth)
  toJson
    | none => .null
    | some x => codec.toJson x

def list (codec : Codec α) : Codec (List α) where
  ofJson
    | .array items => items.mapM codec.ofJson
    | value => wrongType .list value
  ofText depth := do
    match ← startOfValue with
    | '[' =>
        enter depth fun depth => do
          let xs ←
            Reader.items (codec.ofText depth) fun isFirst =>
              syntactic (Reader.moreItems isFirst)
          syntactic Reader.closeList
          return xs
    | c => reject .list c
  toJson xs := .array (xs.map codec.toJson)

/-- The same values in another representation. -/
def iso (codec : Codec α) (pack : α -> β) (unpack : β -> α) : Codec β where
  ofJson value := (codec.ofJson value).map pack
  ofText depth := do return pack (← codec.ofText depth)
  toJson x := codec.toJson (unpack x)

/-!
# Choices

A choice among named values is written as the name.  It may also be read from
an object whose only member has the name for its key and is null.
-/

/-- The value of the given name. -/
def chosen (all : List α) (name : α -> String) (found : String) :
    Except Mismatch α :=
  match all.find? fun x => name x == found with
  | some x => .ok x
  | none => .error (.unknownName found (all.map name))

/-- The object form of a choice. -/
def choiceOfMembers (pick : String -> Except Mismatch α) :
    Json.Members -> Except Mismatch α
  | [(key, value)] => do
      let x ← pick key
      match value with
      | .null => return x
      | _ => wrongType .nothing value
  | _ => .error (.wrongValue .object .singleMember)

/-- The name of a choice in its object form. -/
def choiceKey : Reader FormatFault String := do
  match ← startOfValue with
  | '"' =>
      advance
      syntactic Reader.string
  | c => reject .choiceName c

/-- The null of a choice in its object form. -/
def choiceNull : Reader FormatFault Unit := do
  match ← startOfValue with
  | 'n' =>
      advance
      syntactic (Reader.word ['u', 'l', 'l'])
  | c => reject .nothing c

/-- The object form of a choice after its opening brace. -/
def choiceInside (pick : String -> Except Mismatch α) : Reader FormatFault α := do
  let key ← choiceKey
  let x ← judge (pick key)
  syntactic Reader.colon
  choiceNull
  match ← Reader.peekToken with
  | none => Reader.failHere (.syntactic .endOfObject)
  | some '\x7d' =>
      advance
      return x
  | some _ => Reader.failHere (.syntactic .expectedValue)

def choice (all : List α) (name : α -> String) : Codec α where
  ofJson
    | .string s => chosen all name s
    | .object members => choiceOfMembers (chosen all name) members
    | value => wrongType .choice value
  ofText depth := do
    match ← startOfValue with
    | '"' =>
        advance
        let s ← syntactic Reader.string
        judge (chosen all name s)
    | '\x7b' => enter depth fun _ => choiceInside (chosen all name)
    | _ => Reader.failAhead (.syntactic .expectedValue)
  toJson x := .string (name x)

/-!
# Whole texts
-/

/-- What a whole text stands for, or the first fault in it with its place. -/
def read (codec : Codec α) (source : Text) : Except (Placed FormatFault) α :=
  let whole : Reader FormatFault α := do
    let x ← codec.ofText nestingLimit
    syntactic Reader.endOfText
    return x
  match whole source with
  | .ok (x, _) => .ok x
  | .error fault => .error (fault.place source)

end Codec
end PseudocodeTools
