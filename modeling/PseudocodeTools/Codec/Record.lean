import PseudocodeTools.Codec.Basic
import PseudocodeTools.JsonText.Skip
/-!
# Records

A record is written as an object with a member for each field.  It is read from
such an object, in which unknown members are ignored, or from an array with the
values of the fields in their order.

In an object the members are judged in the order in which they come, and only
then is it asked, field by field, whether one is missing.
-/

namespace PseudocodeTools
namespace Codec

/-!
# Fields
-/

structure Field (α : Type) where
  key : String
  codec : Codec α
  /-- The value of the field when it is left out, unless it is required. -/
  fallback : Option α
  /-- The values for which the field is not written. -/
  omits : α -> Bool

namespace Field

variable {α : Type}

def required (key : String) (codec : Codec α) : Field α :=
  { key := key, codec := codec, fallback := none, omits := fun _ => false }

def withDefault (key : String) (codec : Codec α) (value : α) : Field α :=
  { key := key, codec := codec, fallback := some value, omits := fun _ => false }

/-- An optional value that is written as null when there is none. -/
def nullable (key : String) (codec : Codec α) : Field (Option α) :=
  withDefault key codec.optional none

/-- An optional value that is left out when there is none. -/
def omittable (key : String) (codec : Codec α) : Field (Option α) :=
  { key := key, codec := codec.optional, fallback := some none,
    omits := Option.isNone }

/-- The value of a field that was left out. -/
def whenMissing (field : Field α) (fault : Mismatch) : Except Mismatch α :=
  match field.fallback with
  | some x => .ok x
  | none => .error fault

end Field

/-- The fields of a record whose values form a row of the given type. -/
inductive Fields : Type -> Type 1 where
  | nil : Fields Unit
  | cons {α ρ : Type} (field : Field α) (rest : Fields ρ) : Fields (α × ρ)

namespace Fields

def size {ρ : Type} : Fields ρ -> Nat
  | nil => 0
  | cons _ rest => rest.size + 1

/-!
# Reading members
-/

/-- Judges the member of an object with the given key. -/
def check {ρ : Type} (key : String) (value : Json) :
    Fields ρ -> Except Mismatch Unit
  | nil => .ok ()
  | cons field rest =>
      if key = field.key then
        match field.codec.ofJson value with
        | .ok _ => .ok ()
        | .error fault => .error fault
      else
        rest.check key value

/-- Judges the members of an object one after the other. -/
def checkAll {ρ : Type} (fields : Fields ρ) :
    List (String × Json) -> Except Mismatch Unit
  | [] => .ok ()
  | (key, value) :: members =>
      match fields.check key value with
      | .ok () => fields.checkAll members
      | .error fault => .error fault

/-- The row of the values that the members of an object give. -/
def fill {ρ : Type} (members : Json.Members) : Fields ρ -> Except Mismatch ρ
  | nil => .ok ()
  | cons field rest => do
      let x ←
        match members.get? field.key with
        | some value => field.codec.ofJson value
        | none => field.whenMissing (.missingField field.key)
      let row ← rest.fill members
      return (x, row)

def ofMembers {ρ : Type} (fields : Fields ρ) (members : Json.Members) :
    Except Mismatch ρ := do
  fields.checkAll members
  fields.fill members

/-!
# Reading items
-/

/-- The row of the values that items give, from the field at a position on, and
the items that are left. -/
def takeItems {ρ : Type} (tooShort : Nat -> Mismatch) :
    Fields ρ -> Nat -> List Json -> Except Mismatch (ρ × List Json)
  | nil, _, items => .ok ((), items)
  | cons field rest, position, [] => do
      let x ← field.whenMissing (tooShort position)
      let (row, left) ← rest.takeItems tooShort (position + 1) []
      return ((x, row), left)
  | cons field rest, position, item :: items => do
      let x ← field.codec.ofJson item
      let (row, left) ← rest.takeItems tooShort (position + 1) items
      return ((x, row), left)

def ofItems {ρ : Type} (name : String) (fields : Fields ρ) (items : List Json) :
    Except Mismatch ρ := do
  let (row, left) ←
    fields.takeItems (fun position => .tooShort position name fields.size) 0 items
  if left.isEmpty then
    return row
  else
    .error (.tooLong items.length)

/-!
# Writing
-/

def toMembers {ρ : Type} : Fields ρ -> ρ -> List (String × Json)
  | nil, () => []
  | cons field rest, (x, row) =>
      if field.omits x then rest.toMembers row
      else (field.key, field.codec.toJson x) :: rest.toMembers row

/-!
# Reading members from a text

The values of the fields are put into slots as they come.
-/

/-- A slot for each field. -/
def Slots {ρ : Type} : Fields ρ -> Type
  | nil => Unit
  | cons (α := α) _ rest => Option α × rest.Slots

def emptySlots {ρ : Type} : (fields : Fields ρ) -> fields.Slots
  | nil => ()
  | cons _ rest => (none, rest.emptySlots)

/-- What is left after spacing and the given bracket, if that comes next. -/
def afterBracket (bracket : Char) (t : Text) : Text :=
  match t.dropWhile Reader.isSpacing with
  | [] => []
  | c :: rest => if c = bracket then rest else c :: rest

/-- Reports a mismatch of a record as a whole where the record ends. -/
def mismatchAfter {α : Type} (bracket : Char) (fault : Mismatch) :
    Reader FormatFault α :=
  fun t => Reader.mismatchHere fault (afterBracket bracket t)

/-- Reads the member of which the key was read, and puts it into its slot. -/
def takeMember {ρ : Type} (depth : Nat) (key : String) :
    (fields : Fields ρ) -> fields.Slots -> Reader FormatFault fields.Slots
  | nil, () =>
      Reader.syntactic do
        Reader.colon
        Reader.skipValue
  | cons field rest, slots =>
      if key = field.key then
        match slots.1 with
        | some _ => mismatchAfter '\x7d' (.duplicateField key)
        | none => do
            Reader.syntactic Reader.colon
            let x ← field.codec.ofText depth
            return (some x, slots.2)
      else do
        let others ← rest.takeMember depth key slots.2
        return (slots.1, others)

/-- Reads members up to the closing brace, in at most as many rounds as
given. -/
def takeMembers {ρ : Type} (depth : Nat) (fields : Fields ρ) :
    Nat -> Bool -> fields.Slots -> Reader FormatFault fields.Slots
  | 0, _, slots => return slots
  | rounds + 1, isFirst, slots => do
      if ← Reader.syntactic (Reader.moreMembers isFirst) then
        let key ← Reader.syntactic Reader.string
        let slots ← fields.takeMember depth key slots
        fields.takeMembers depth rounds false slots
      else
        return slots

/-- The row of the values in the slots. -/
def ofSlots {ρ : Type} : (fields : Fields ρ) -> fields.Slots -> Except Mismatch ρ
  | nil, () => .ok ()
  | cons field rest, slots => do
      let x ←
        match slots.1 with
        | some x => .ok x
        | none => field.whenMissing (.missingField field.key)
      let row ← rest.ofSlots slots.2
      return (x, row)

/-- The row of a record written as an object, after its opening brace. -/
def objectInside {ρ : Type} (fields : Fields ρ) (depth : Nat) :
    Reader FormatFault ρ :=
  fun t =>
    let read : Reader FormatFault ρ := do
      let slots ← fields.takeMembers depth (t.length + 1) true fields.emptySlots
      match fields.ofSlots slots with
      | .error fault => mismatchAfter '\x7d' fault
      | .ok row =>
          Reader.syntactic Reader.closeObject
          return row
    read t

/-!
# Reading items from a text
-/

/-- The row of the values that the items of an array give, from the field at a
position on. -/
def takeTextItems {ρ : Type} (depth : Nat) (tooShort : Nat -> Mismatch) :
    Fields ρ -> Nat -> Bool -> Reader FormatFault ρ
  | nil, _, _ => return ()
  | cons field rest, position, isFirst => do
      if ← Reader.syntactic (Reader.moreItems isFirst) then
        let x ← field.codec.ofText depth
        let row ← rest.takeTextItems depth tooShort (position + 1) false
        return (x, row)
      else
        match field.whenMissing (tooShort position) with
        | .error fault => mismatchAfter ']' fault
        | .ok x =>
            let row ← rest.takeTextItems depth tooShort (position + 1) isFirst
            return (x, row)

/-- The row of a record written as an array, after its opening bracket. -/
def arrayInside {ρ : Type} (name : String) (fields : Fields ρ) (depth : Nat) :
    Reader FormatFault ρ := do
  let row ←
    fields.takeTextItems depth
      (fun position => .tooShort position name fields.size) 0 true
  Reader.syntactic Reader.closeList
  return row

end Fields

/-!
# Records
-/

/-- A row of field values as a record of the given name. -/
def record {ρ : Type} (name : String) (fields : Fields ρ) : Codec ρ where
  ofJson
    | .object members => fields.ofMembers members
    | .array items => fields.ofItems name items
    | value => wrongType (.record name) value
  ofText depth := do
    match ← Reader.startOfValue with
    | '[' => Reader.enter depth (fields.arrayInside name)
    | '\x7b' => Reader.enter depth fields.objectInside
    | c => Reader.reject (.record name) c
  toJson row := .ofPairs (fields.toMembers row)

end Codec
end PseudocodeTools
