/-!
# Binary floating-point numbers of 64 bits

A number is its bit pattern: a sign, an exponent field of eleven bits and a
fraction of fifty-two.  All reading, comparing and rounding is exact arithmetic
on natural numbers.
-/

namespace PseudocodeTools

structure Binary64 where
  bits : UInt64
deriving DecidableEq, Repr

namespace Binary64

/-- Whether the sign bit is set. -/
def negative (x : Binary64) : Bool :=
  0x8000000000000000 ≤ x.bits.toNat

/-- The pattern without the sign bit.  It grows with the absolute value. -/
def magnitude (x : Binary64) : Nat :=
  x.bits.toNat % 0x8000000000000000

/-- The magnitude of the infinities; those of finite numbers are below it. -/
def infiniteMagnitude : Nat :=
  0x7FF0000000000000

def isFinite (x : Binary64) : Bool :=
  x.magnitude < infiniteMagnitude

def isNaN (x : Binary64) : Bool :=
  infiniteMagnitude < x.magnitude

def ofMagnitude (negative : Bool) (magnitude : Nat) : Binary64 :=
  ⟨UInt64.ofNat (magnitude + if negative then 0x8000000000000000 else 0)⟩

/-- The place of a number in the order of all numbers; both zeros have place
zero. -/
def rank (x : Binary64) : Int :=
  if x.negative then -(x.magnitude : Int) else x.magnitude

/-- The order of numbers, which holds of nothing that is not a number. -/
def atMost (x y : Binary64) : Bool :=
  !x.isNaN && !y.isNaN && x.rank ≤ y.rank

/-!
# The value of a finite number

The absolute value is a natural number, the significand, times a power of two.
-/

def significand (x : Binary64) : Nat :=
  if x.magnitude < 0x10000000000000 then x.magnitude
  else x.magnitude % 0x10000000000000 + 0x10000000000000

def exponent (x : Binary64) : Int :=
  if x.magnitude < 0x10000000000000 then -1074
  else (x.magnitude / 0x10000000000000 : Nat) - 1075

/-!
# Rounding

A positive ratio is rounded to the nearest number with a significand of at most
fifty-three bits, a tie to the even significand.
-/

/-- The quotient rounded to the nearest natural number, a tie to the even one. -/
def roundDiv (n d : Nat) : Nat :=
  let q := n / d
  let r := n % d
  if 2 * r < d then q
  else if d < 2 * r then q + 1
  else if q % 2 = 0 then q
  else q + 1

/-- The numerator and the denominator of `n / d` divided by two to the power
`e`. -/
def shiftRatio (n d : Nat) (e : Int) : Nat × Nat :=
  (n <<< (-e).toNat, d <<< e.toNat)

/-- The greatest `e` such that two to the power `e` is at most `n / d`. -/
def floorLog2 (n d : Nat) : Int :=
  let e : Int := n.log2 - d.log2
  let (a, b) := shiftRatio n d e
  if a < b then e - 1 else e

/-- The number nearest to `n / d`, with the given sign; an infinity when there
is none in range. -/
def ofRatio (negative : Bool) (n d : Nat) : Binary64 :=
  if n = 0 then
    ofMagnitude negative 0
  else
    let e := max (-1074) (floorLog2 n d - 52)
    let (a, b) := shiftRatio n d e
    let magnitude := (e + 1074).toNat * 0x10000000000000 + roundDiv a b
    ofMagnitude negative (min magnitude infiniteMagnitude)

def ofInt (n : Int) : Binary64 :=
  ofRatio (n < 0) n.natAbs 1

/-- The number nearest to `digits` times ten to the power `exponent`.  Far
outside the range of finite numbers no power of ten is computed. -/
def ofDecimal (negative : Bool) (digits : Nat) (exponent : Int) : Binary64 :=
  let top := exponent + (Nat.toDigits 10 digits).length
  if digits = 0 then ofMagnitude negative 0
  else if top < -330 then ofMagnitude negative 0
  else if 330 < top then ofMagnitude negative infiniteMagnitude
  else
    ofRatio negative (digits * Nat.pow 10 exponent.toNat)
      (Nat.pow 10 (-exponent).toNat)

/-!
# Constants
-/

def zero : Binary64 :=
  ofInt 0

def half : Binary64 :=
  ofRatio false 1 2

def one : Binary64 :=
  ofInt 1

end Binary64
end PseudocodeTools
