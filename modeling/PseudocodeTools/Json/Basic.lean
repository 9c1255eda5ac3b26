import PseudocodeTools.Binary64.Basic
/-!
# JSON values

A number is an integer of the common range of signed and unsigned 64-bit words,
or a finite binary floating-point number.  The members of an object are kept in
the order of their keys, by code points, and each key occurs once: the functions
of this module build objects in that form only.
-/

namespace PseudocodeTools

inductive JsonNumber where
  | integer (value : Int)
      (inRange : -0x8000000000000000 ≤ value ∧ value < 0x10000000000000000)
  | real (value : Binary64) (finite : value.isFinite = true)
deriving DecidableEq, Repr

namespace JsonNumber

/-- The nearest floating-point number. -/
def toBinary64 : JsonNumber -> Binary64
  | integer value _ => Binary64.ofInt value
  | real value _ => value

def ofUInt32 (n : UInt32) : JsonNumber :=
  integer n.toNat (by
    have h : n.toNat < 0x100000000 := n.toNat_lt
    omega)

/-- The number as a word of 32 bits, if it is an integer of that range. -/
def toUInt32? : JsonNumber -> Option UInt32
  | integer value _ =>
      if 0 ≤ value ∧ value < 0x100000000 then
        some (UInt32.ofNat value.toNat)
      else
        none
  | real _ _ => none

theorem toUInt32?_ofUInt32 (n : UInt32) : (ofUInt32 n).toUInt32? = some n := by
  have h : n.toNat < 0x100000000 := n.toNat_lt
  have hupper : (n.toNat : Int) < 4294967296 := by omega
  simp [ofUInt32, toUInt32?, hupper]

end JsonNumber

inductive Json where
  | null
  | boolean (value : Bool)
  | number (value : JsonNumber)
  | string (value : String)
  | array (items : List Json)
  | object (members : List (String × Json))
deriving Inhabited

namespace Json

/-- The members of an object. -/
abbrev Members :=
  List (String × Json)

/-!
# Kinds of values
-/

inductive Kind where
  | null
  | boolean
  | number
  | string
  | array
  | object
deriving DecidableEq, Repr

def kind : Json -> Kind
  | null => .null
  | boolean _ => .boolean
  | number _ => .number
  | string _ => .string
  | array _ => .array
  | object _ => .object

/-- A kind of value in a sentence. -/
def Kind.phrase : Kind -> String
  | null => "null"
  | boolean => "a boolean"
  | number => "a number"
  | string => "a string"
  | array => "an array"
  | object => "an object"

def isNull : Json -> Bool
  | null => true
  | _ => false

/-- A finite number as a value; there is none for an infinity. -/
def ofBinary64 (x : Binary64) : Json :=
  if h : x.isFinite = true then number (.real x h) else null

/-- An integer as a value; one out of range is rounded. -/
def ofInt (n : Int) : Json :=
  if h : -0x8000000000000000 ≤ n ∧ n < 0x10000000000000000 then
    number (.integer n h)
  else
    ofBinary64 (.ofInt n)

/-- A natural number as a value; one out of range is rounded. -/
def ofNat (n : Nat) : Json :=
  ofInt n

/-- A list of characters as a string. -/
def ofText (t : List Char) : Json :=
  string (String.ofList t)

/-!
# Members by key
-/

namespace Members

def get? (members : Members) (key : String) : Option Json :=
  members.lookup key

def hasKey (members : Members) (key : String) : Bool :=
  (members.get? key).isSome

/-- Puts a value in the place of its key, instead of the one that was there. -/
def insert (key : String) (value : Json) : Members -> Members
  | [] => [(key, value)]
  | (k, v) :: rest =>
      if key < k then (key, value) :: (k, v) :: rest
      else if key = k then (key, value) :: rest
      else (k, v) :: insert key value rest

/-- Puts a value in the place of its key, unless there is one already. -/
def insertMissing (key : String) (value : Json) (members : Members) : Members :=
  if members.hasKey key then members else members.insert key value

/-- The members with the given pairs put in one after the other. -/
def insertAll (members : Members) (pairs : Members) : Members :=
  pairs.foldl (fun (ms : Members) (key, value) => ms.insert key value) members

/-- The members with those of the given pairs put in whose keys are missing. -/
def insertAllMissing (members : Members) (pairs : Members) : Members :=
  pairs.foldl (fun (ms : Members) (key, value) => ms.insertMissing key value)
    members

end Members

/-- An object with the given members, in any order. -/
def ofPairs (pairs : Members) : Json :=
  object (Members.insertAll [] pairs)

/-!
# Values in canonical form

The predicate says that the keys of every object in a value are increasing.
-/

mutual
/-- Every object in the value has its members in increasing order of keys. -/
def Ordered : Json -> Prop
  | array items => OrderedItems items
  | object members =>
      members.Pairwise (fun a b => a.1 < b.1) ∧ OrderedMembers members
  | _ => True
termination_by structural value => value

/-- The items of an array are in canonical form. -/
def OrderedItems : List Json -> Prop
  | [] => True
  | item :: rest => Ordered item ∧ OrderedItems rest
termination_by structural items => items

/-- The values of an object's members are in canonical form. -/
def OrderedMembers : List (String × Json) -> Prop
  | [] => True
  | (_, value) :: rest => Ordered value ∧ OrderedMembers rest
termination_by structural members => members
end

/-!
# Equality
-/

mutual
def decEq : (a b : Json) -> Decidable (a = b)
  | null, null => isTrue rfl
  | boolean a, boolean b =>
      if h : a = b then isTrue (h ▸ rfl) else isFalse (by simp [h])
  | number a, number b =>
      if h : a = b then isTrue (h ▸ rfl) else isFalse (by simp [h])
  | string a, string b =>
      if h : a = b then isTrue (h ▸ rfl) else isFalse (by simp [h])
  | array a, array b =>
      match decEqItems a b with
      | isTrue h => isTrue (h ▸ rfl)
      | isFalse h => isFalse (by simp [h])
  | object a, object b =>
      match decEqMembers a b with
      | isTrue h => isTrue (h ▸ rfl)
      | isFalse h => isFalse (by simp [h])
  | null, boolean _ | null, number _ | null, string _
  | null, array _ | null, object _
  | boolean _, null | boolean _, number _ | boolean _, string _
  | boolean _, array _ | boolean _, object _
  | number _, null | number _, boolean _ | number _, string _
  | number _, array _ | number _, object _
  | string _, null | string _, boolean _ | string _, number _
  | string _, array _ | string _, object _
  | array _, null | array _, boolean _ | array _, number _
  | array _, string _ | array _, object _
  | object _, null | object _, boolean _ | object _, number _
  | object _, string _ | object _, array _ => isFalse (by simp)
termination_by structural a => a

def decEqItems : (a b : List Json) -> Decidable (a = b)
  | [], [] => isTrue rfl
  | [], _ :: _ | _ :: _, [] => isFalse (by simp)
  | x :: xs, y :: ys =>
      match decEq x y, decEqItems xs ys with
      | isTrue h, isTrue k => isTrue (by rw [h, k])
      | isFalse h, _ => isFalse (by simp [h])
      | _, isFalse h => isFalse (by simp [h])
termination_by structural a => a

def decEqMembers : (a b : List (String × Json)) -> Decidable (a = b)
  | [], [] => isTrue rfl
  | [], _ :: _ | _ :: _, [] => isFalse (by simp)
  | (i, x) :: xs, (j, y) :: ys =>
      if e : i = j then
        match decEq x y, decEqMembers xs ys with
        | isTrue h, isTrue k => isTrue (by rw [e, h, k])
        | isFalse h, _ => isFalse (by simp [h])
        | _, isFalse h => isFalse (by simp [h])
      else
        isFalse (by simp [e])
termination_by structural a => a
end

instance : DecidableEq Json :=
  decEq

end Json
end PseudocodeTools
