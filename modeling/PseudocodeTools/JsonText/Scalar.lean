import PseudocodeTools.Binary64.Basic
import PseudocodeTools.Json.Basic
import PseudocodeTools.JsonText.Reader
/-!
# Strings and numbers in JSON text

A string is read up to its closing quote.  A character beyond the range of one
hexadecimal escape is written as two of them, a leading and a trailing
surrogate, and neither may stand alone.

A number is an integer when it has neither a point nor an exponent and fits the
range of integers, and is rounded to a floating-point number otherwise.
-/

namespace PseudocodeTools
namespace Reader

/-!
# Strings
-/

def hexDigit? (c : Char) : Option Nat :=
  if '0' ≤ c ∧ c ≤ '9' then some (c.toNat - '0'.toNat)
  else if 'a' ≤ c ∧ c ≤ 'f' then some (c.toNat - 'a'.toNat + 10)
  else if 'A' ≤ c ∧ c ≤ 'F' then some (c.toNat - 'A'.toNat + 10)
  else none

/-- The code unit of four hexadecimal digits. -/
def codeUnit? (a b c d : Char) : Option Nat := do
  return (((← hexDigit? a) * 16 + (← hexDigit? b)) * 16 + (← hexDigit? c)) * 16 +
    (← hexDigit? d)

def isLeadingSurrogate (n : Nat) : Bool :=
  0xD800 ≤ n && n ≤ 0xDBFF

def isTrailingSurrogate (n : Nat) : Bool :=
  0xDC00 ≤ n && n ≤ 0xDFFF

/-- The character of a leading and a trailing surrogate. -/
def surrogatePair (leading trailing : Nat) : Char :=
  Char.ofNat (0x10000 + (leading - 0xD800) * 0x400 + (trailing - 0xDC00))

/-- The character of a one-letter escape. -/
def escaped? : Char -> Option Char
  | '"' => some '"'
  | '\\' => some '\\'
  | '/' => some '/'
  | 'b' => some '\x08'
  | 'f' => some '\x0c'
  | 'n' => some '\n'
  | 'r' => some '\r'
  | 't' => some '\t'
  | _ => none

/-- What is wrong when a text does not begin with four hexadecimal digits.
Four bytes are passed before they are judged. -/
def badCodeUnit (t : Text) : Located SyntaxFault :=
  if Text.byteLength t < 4 then { cause := .endOfString, left := 0 }
  else { cause := .invalidEscape, left := Text.byteLength t - 4 }

/-- What is wrong when no second escape follows a leading surrogate. -/
def badPair : Text -> Located SyntaxFault
  | [] => { cause := .endOfString, left := 0 }
  | ['\\'] => { cause := .endOfString, left := 0 }
  | '\\' :: 'u' :: t => badCodeUnit t
  | '\\' :: t => { cause := .unpairedEscape, left := Text.byteLength t - 1 }
  | t => { cause := .unpairedEscape, left := Text.byteLength t - 1 }

/-- Puts a character in front of what was read. -/
def withChar (c : Char) :
    Except (Located SyntaxFault) (Text × Text) ->
      Except (Located SyntaxFault) (Text × Text)
  | .ok (s, rest) => .ok (c :: s, rest)
  | .error fault => .error fault

/-- The characters up to the closing quote, and what follows the quote. -/
def stringRest : Text -> Except (Located SyntaxFault) (Text × Text)
  | [] => .error { cause := .endOfString, left := 0 }
  | '"' :: t => .ok ([], t)
  | ['\\'] => .error { cause := .endOfString, left := 0 }
  | '\\' :: 'u' :: a :: b :: c :: d :: t =>
      match codeUnit? a b c d with
      | none => .error (badCodeUnit (a :: b :: c :: d :: t))
      | some n =>
          if isTrailingSurrogate n then
            .error { cause := .loneSurrogate, left := Text.byteLength t }
          else if isLeadingSurrogate n then
            match t with
            | '\\' :: 'u' :: e :: f :: g :: h :: u =>
                match codeUnit? e f g h with
                | none => .error (badCodeUnit (e :: f :: g :: h :: u))
                | some m =>
                    if isTrailingSurrogate m then
                      withChar (surrogatePair n m) (stringRest u)
                    else
                      .error { cause := .loneSurrogate, left := Text.byteLength u }
            | other => .error (badPair other)
          else
            withChar (Char.ofNat n) (stringRest t)
  | '\\' :: 'u' :: t => .error (badCodeUnit t)
  | '\\' :: c :: t =>
      match escaped? c with
      | some x => withChar x (stringRest t)
      | none =>
          .error
            { cause := .invalidEscape, left := Text.byteLength (c :: t) - 1 }
  | c :: t =>
      if c.toNat < 0x20 then
        .error { cause := .controlCharacter, left := Text.byteLength t }
      else
        withChar c (stringRest t)

/-- A string of which the opening quote was taken. -/
def string : Reader SyntaxFault String :=
  fun t =>
    match stringRest t with
    | .ok (s, rest) => .ok (String.ofList s, rest)
    | .error fault => .error fault

/-!
# Numbers
-/

def digitValue (c : Char) : Nat :=
  c.toNat - '0'.toNat

/-- The value of a run of decimal digits. -/
def digitsValue (digits : Text) : Nat :=
  digits.foldl (fun n c => n * 10 + digitValue c) 0

/-- The number nearest to `digits` times ten to the power `exponent`, which
must not be infinite. -/
def finiteNumber (negative : Bool) (digits : Nat) (exponent : Int) (rest : Text) :
    Except (Located SyntaxFault) (JsonNumber × Text) :=
  let x := Binary64.ofDecimal negative digits exponent
  if h : x.isFinite = true then .ok (.real x h, rest)
  else .error { cause := .numberOutOfRange, left := Text.byteLength rest }

/-- An integer without its sign.  Minus zero is no integer. -/
def wholeNumber (negative : Bool) (n : Nat) (rest : Text) :
    Except (Located SyntaxFault) (JsonNumber × Text) :=
  if negative then
    if h : 0 < n ∧ n ≤ 0x8000000000000000 then
      .ok (.integer (-(n : Int)) (by omega), rest)
    else
      finiteNumber negative n 0 rest
  else
    if h : n < 0x10000000000000000 then
      .ok (.integer n (by omega), rest)
    else
      finiteNumber negative n 0 rest

/-- The greatest exponent that is read to its end. -/
def exponentLimit : Nat :=
  0x7FFFFFFF

/-- The value of the digits of an exponent, and what follows them.  There is no
value once it passes the limit, and the digits after that are left. -/
def exponentDigits (value : Nat) : Text -> Option Nat × Text
  | [] => (some value, [])
  | c :: t =>
      if c.isDigit then
        let next := value * 10 + digitValue c
        if exponentLimit < next then (none, t) else exponentDigits next t
      else
        (some value, c :: t)

/-- The number whose digits, `places` of them after the point, are followed by
the exponent that begins the text. -/
def scaledNumber (negative : Bool) (digits places : Nat) (exponentSign : Bool)
    (t : Text) : Except (Located SyntaxFault) (JsonNumber × Text) :=
  match t with
  | [] => .error { cause := .endOfValue, left := 0 }
  | c :: _ =>
      if c.isDigit then
        match exponentDigits 0 t with
        | (some e, rest) =>
            let exponent : Int := if exponentSign then -(e : Int) else e
            finiteNumber negative digits (exponent - places) rest
        | (none, rest) =>
            if digits ≠ 0 ∧ !exponentSign then
              .error { cause := .numberOutOfRange, left := Text.byteLength rest }
            else
              finiteNumber negative 0 0 (rest.dropWhile Char.isDigit)
      else
        .error { cause := .invalidNumber, left := Text.byteLength t - 1 }

/-- The exponent of a number, after its `e`. -/
def exponentRest (negative : Bool) (digits places : Nat) :
    Text -> Except (Located SyntaxFault) (JsonNumber × Text)
  | '+' :: t => scaledNumber negative digits places false t
  | '-' :: t => scaledNumber negative digits places true t
  | t => scaledNumber negative digits places false t

/-- What follows the point of a number with the given digits before it. -/
def fractionRest (negative : Bool) (whole t : Text) :
    Except (Located SyntaxFault) (JsonNumber × Text) :=
  let places := t.takeWhile Char.isDigit
  let digits := digitsValue (whole ++ places)
  match places, t.dropWhile Char.isDigit with
  | [], [] => .error { cause := .endOfValue, left := 0 }
  | [], rest => .error { cause := .invalidNumber, left := Text.byteLength rest - 1 }
  | _, 'e' :: rest => exponentRest negative digits places.length rest
  | _, 'E' :: rest => exponentRest negative digits places.length rest
  | _, rest => finiteNumber negative digits (-(places.length : Int)) rest

/-- A number after its sign, and what follows it. -/
def numberRest (negative : Bool) (t : Text) :
    Except (Located SyntaxFault) (JsonNumber × Text) :=
  let whole := t.takeWhile Char.isDigit
  match whole, t.dropWhile Char.isDigit with
  | [], [] => .error { cause := .endOfValue, left := 0 }
  | [], rest => .error { cause := .invalidNumber, left := Text.byteLength rest - 1 }
  | '0' :: _ :: _, _ =>
      .error { cause := .invalidNumber, left := Text.byteLength t - 2 }
  | _, '.' :: rest => fractionRest negative whole rest
  | _, 'e' :: rest => exponentRest negative (digitsValue whole) 0 rest
  | _, 'E' :: rest => exponentRest negative (digitsValue whole) 0 rest
  | _, rest => wholeNumber negative (digitsValue whole) rest

/-- A number of which the minus sign, if it has one, was taken. -/
def number (negative : Bool) : Reader SyntaxFault JsonNumber :=
  fun t => numberRest negative t

end Reader
end PseudocodeTools
