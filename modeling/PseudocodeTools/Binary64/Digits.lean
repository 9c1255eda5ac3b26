import PseudocodeTools.Binary64.Basic
import PseudocodeTools.Text.Basic
/-!
# Decimal digits of a number

The decimal form of a finite number has the fewest digits with which it is read
back as the same number, and among these the digits nearest to it.  The forms
in which these digits are written differ in where the point stands and in
whether there is an exponent.
-/

namespace PseudocodeTools

/-- A natural number times a power of ten. -/
structure Decimal where
  digits : Nat
  exponent : Int
deriving DecidableEq, Repr

/-- The same value without zeros at the end of the digits. -/
def Decimal.reduce (d : Decimal) : Decimal :=
  if _h : d.digits ≠ 0 ∧ d.digits % 10 = 0 then
    Decimal.reduce { digits := d.digits / 10, exponent := d.exponent + 1 }
  else
    d
termination_by d.digits
decreasing_by omega

namespace Binary64

/-!
# Shortest digits

A finite positive number stands for the interval of reals that round to it.
The interval is measured in quarters of the unit of the significand, and its
ends belong to it when the significand is even.
-/

/-- A quarter of the unit of the significand, as a ratio to ten to the power
`k`. -/
def quarter (x : Binary64) (k : Int) : Nat × Nat :=
  let e := x.exponent - 2
  (Nat.pow 10 (-k).toNat <<< e.toNat, Nat.pow 10 k.toNat <<< (-e).toNat)

/-- Quarters from the number down to the lower end of its interval.  The gap
below a power of two is half as wide as the one above. -/
def quartersBelow (x : Binary64) : Nat :=
  if x.significand = 0x10000000000000 ∧ 0x20000000000000 ≤ x.magnitude then 1
  else 2

/-- Whether `d` times ten to the power `k` lies in the interval of `x`. -/
def stands (x : Binary64) (k : Int) (d : Nat) : Bool :=
  let (n, u) := x.quarter k
  let low := (4 * x.significand - x.quartersBelow) * n
  let high := (4 * x.significand + 2) * n
  if x.significand % 2 = 0 then
    low ≤ d * u && d * u ≤ high
  else
    low < d * u && d * u < high

/-- The nearer of the multiples of ten to the power `k` next to `x` that lie in
its interval; the upper one of two that are equally near. -/
def nearestOnGrid (x : Binary64) (k : Int) : Option Nat :=
  let (n, u) := x.quarter k
  let value := 4 * x.significand * n
  let d := value / u
  if x.stands k d && d ≠ 0 then
    if x.stands k (d + 1) && (2 * d + 1) * u ≤ 2 * value then some (d + 1)
    else some d
  else if x.stands k (d + 1) then some (d + 1)
  else none

/-- The least exponent of a power of ten above the number. -/
def decimalTop (x : Binary64) : Int :=
  let scaled := (x.significand * Nat.pow 10 400) <<< x.exponent.toNat >>>
    (-x.exponent).toNat
  (Nat.toDigits 10 scaled).length - 400

/-- The number itself, with as many digits as it takes. -/
def exactDecimal (x : Binary64) : Decimal :=
  { digits :=
      x.significand <<< x.exponent.toNat * Nat.pow 5 (-x.exponent).toNat
    exponent := min x.exponent 0 }

/-- Grids of `used`, `used + 1`, … digits are searched for the first that has a
point in the interval. -/
def shortestFrom (x : Binary64) (used : Nat) : Nat -> Decimal
  | 0 => x.exactDecimal
  | more + 1 =>
      let k := x.decimalTop - used
      match x.nearestOnGrid k with
      | some d => { digits := d, exponent := k }
      | none => shortestFrom x (used + 1) more

/-- The shortest decimal that is read back as the finite number `x`, without
its sign. -/
def shortest (x : Binary64) : Decimal :=
  if x.significand = 0 then { digits := 0, exponent := 0 }
  else (shortestFrom x 1 17).reduce

/-!
# Written forms
-/

/-- Digits with a point where the exponent puts it, and zeros up to it. -/
def positional (d : Decimal) : Text :=
  let digits := Text.ofNat d.digits
  let point := d.exponent + digits.length
  if 0 ≤ d.exponent then
    digits ++ List.replicate d.exponent.toNat '0'
  else if 0 < point then
    digits.take point.toNat ++ '.' :: digits.drop point.toNat
  else
    '0' :: '.' :: List.replicate (-point).toNat '0' ++ digits

/-- One digit before the point, and an exponent with its sign. -/
def scientific (d : Decimal) : Text :=
  let digits := Text.ofNat d.digits
  let power := d.exponent + digits.length - 1
  let fraction := if digits.length ≤ 1 then [] else '.' :: digits.drop 1
  let sign := if power < 0 then '-' else '+'
  digits.take 1 ++ fraction ++ 'e' :: sign :: Text.ofNat power.natAbs

def withSign (x : Binary64) (t : Text) : Text :=
  if x.negative then '-' :: t else t

/-- How infinities and non-numbers are written. -/
def nonfiniteText (x : Binary64) : Text :=
  if x.isNaN then ['N', 'a', 'N'] else x.withSign ['i', 'n', 'f']

/-- The plain form: no exponent, and no fraction for a whole number. -/
def plainText (x : Binary64) : Text :=
  if x.isFinite then x.withSign (positional x.shortest) else x.nonfiniteText

/-- The literal form, which shows that the number is no integer: it has an
exponent below a hundred-thousandth and from ten to the power sixteen on, and
otherwise a point. -/
def literalText (x : Binary64) : Text :=
  if x.isFinite then
    let d := x.shortest
    let point := d.exponent + (Text.ofNat d.digits).length
    x.withSign <|
      if point ≤ -5 || 16 < point then scientific d
      else if 0 ≤ d.exponent then positional d ++ ['.', '0']
      else positional d
  else
    x.nonfiniteText

/-- The form with two places after the point, rounded to the nearest and a tie
to the even last digit. -/
def twoPlaces (x : Binary64) : Text :=
  if x.isFinite then
    let hundredths := roundDiv ((100 * x.significand) <<< x.exponent.toNat)
      (1 <<< (-x.exponent).toNat)
    let places := Text.ofNat (hundredths % 100)
    x.withSign <|
      Text.ofNat (hundredths / 100) ++
        '.' :: List.replicate (2 - places.length) '0' ++ places
  else
    x.nonfiniteText

end Binary64
end PseudocodeTools
