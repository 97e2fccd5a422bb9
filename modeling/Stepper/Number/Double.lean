/-!
Binary floating-point numbers with 53 bits of precision, computed exactly:
each operation takes the exact result and rounds it once, to the nearest
number, a half going to the even mantissa.
-/

namespace Stepper

/-- A finite number is `± mantissa * 2 ^ exponent`. Rounding leaves it in the
form with the least exponent, so equal numbers are equal terms, the two zeros
apart. -/
inductive Double where
  | nan
  | infinite (negative : Bool)
  | finite (negative : Bool) (mantissa : Nat) (exponent : Int)
deriving DecidableEq

namespace Double

def precision : Nat := 53
def minExponent : Int := -1074
def maxExponent : Int := 971

def zero : Double := .finite false 0 minExponent

/-- `mantissa / 2 ^ places` to the nearest integer, a half to the even one. -/
def roundShift (mantissa places : Nat) : Nat :=
  let unit := Nat.pow 2 places
  let quotient := mantissa / unit
  let twice := 2 * (mantissa % unit)
  if unit < twice ∨ (twice = unit ∧ quotient % 2 = 1) then quotient + 1
  else quotient

/-- The number nearest to `± mantissa * 2 ^ exponent`. -/
def ofDyadic (negative : Bool) (mantissa : Nat) (exponent : Int) : Double :=
  if mantissa = 0 then .finite negative 0 minExponent
  else
    let length : Int := Nat.log2 mantissa + 1
    let target := max (exponent + length - precision) minExponent
    let rounded :=
      if target ≤ exponent then mantissa * Nat.pow 2 (exponent - target).toNat
      else roundShift mantissa (target - exponent).toNat
    -- rounding up may give one bit too many
    let carried := rounded = Nat.pow 2 precision
    let target := if carried then target + 1 else target
    let rounded := if carried then Nat.pow 2 (precision - 1) else rounded
    if maxExponent < target then .infinite negative else .finite negative rounded target

/-- The number nearest to an integer; infinite when that lies out of range. -/
def ofInt (n : Int) : Double :=
  ofDyadic (decide (n < 0)) n.natAbs 0

/-- The number nearest to `± numerator / denominator`. The quotient keeps more
bits than the result, and a last odd bit stands for the remainder. -/
def ofRatio (negative : Bool) (numerator denominator : Nat) : Double :=
  let places := Nat.log2 denominator + 66 - Nat.log2 numerator
  let scaled := numerator * Nat.pow 2 places
  let sticky := if scaled % denominator = 0 then 0 else 1
  ofDyadic negative (2 * (scaled / denominator) + sticky) (-(places : Int) - 1)

def decimalLength (n : Nat) : Nat :=
  (Nat.toDigits 10 n).length

/-- The number nearest to `± digits * 10 ^ exponent`. Beyond the range of the
format the power of ten is not computed. -/
def ofDecimal (negative : Bool) (digits : Nat) (exponent : Int) : Double :=
  let magnitude : Int := decimalLength digits + exponent
  if digits = 0 ∨ magnitude < -330 then .finite negative 0 minExponent
  else if 310 < magnitude then .infinite negative
  else if 0 ≤ exponent then ofDyadic negative (digits * Nat.pow 10 exponent.toNat) 0
  else ofRatio negative digits (Nat.pow 10 (-exponent).toNat)

def signed (negative : Bool) (mantissa : Nat) : Int :=
  if negative then -(mantissa : Int) else mantissa

def neg : Double → Double
  | .nan => .nan
  | .infinite negative => .infinite !negative
  | .finite negative mantissa exponent => .finite (!negative) mantissa exponent

/-- A sum that is exactly zero is negative only if both terms are. -/
def add : Double → Double → Double
  | .nan, _ => .nan
  | _, .nan => .nan
  | .infinite left, .infinite right => if left = right then .infinite left else .nan
  | .infinite left, .finite .. => .infinite left
  | .finite .., .infinite right => .infinite right
  | .finite left leftMantissa leftExponent, .finite right rightMantissa rightExponent =>
    let exponent := min leftExponent rightExponent
    let total :=
      signed left leftMantissa * Int.pow 2 (leftExponent - exponent).toNat +
        signed right rightMantissa * Int.pow 2 (rightExponent - exponent).toNat
    if total = 0 then .finite (left && right) 0 minExponent
    else ofDyadic (decide (total < 0)) total.natAbs exponent

def sub (left right : Double) : Double :=
  left.add right.neg

def mul : Double → Double → Double
  | .nan, _ => .nan
  | _, .nan => .nan
  | .infinite left, .infinite right => .infinite (left != right)
  | .infinite left, .finite right mantissa _ =>
    if mantissa = 0 then .nan else .infinite (left != right)
  | .finite left mantissa _, .infinite right =>
    if mantissa = 0 then .nan else .infinite (left != right)
  | .finite left leftMantissa leftExponent, .finite right rightMantissa rightExponent =>
    ofDyadic (left != right) (leftMantissa * rightMantissa) (leftExponent + rightExponent)

/-- Equality of numbers: the zeros are equal, and `nan` equals nothing. -/
def same : Double → Double → Bool
  | .infinite left, .infinite right => left == right
  | .finite left leftMantissa leftExponent, .finite right rightMantissa rightExponent =>
    (leftMantissa == 0 && rightMantissa == 0) ||
      (left == right && leftMantissa == rightMantissa && leftExponent == rightExponent)
  | _, _ => false

/-- Exact comparison with an integer. -/
def sameInt (n : Int) : Double → Bool
  | .finite negative mantissa exponent =>
    decide (signed negative mantissa * Int.pow 2 exponent.toNat =
      n * Int.pow 2 (-exponent).toNat)
  | _ => false

/-- Whether the number is at most `n`, exactly; `nan` is not. -/
def atMost (n : Int) : Double → Bool
  | .nan => false
  | .infinite negative => negative
  | .finite negative mantissa exponent =>
    decide (signed negative mantissa * Int.pow 2 exponent.toNat ≤
      n * Int.pow 2 (-exponent).toNat)

def isNan : Double → Bool
  | .nan => true
  | _ => false

def isZero : Double → Bool
  | .finite _ mantissa _ => mantissa == 0
  | _ => false

/-- The integer that the number is, if it is one. -/
def toInt? : Double → Option Int
  | .finite negative mantissa exponent =>
    let unit := Nat.pow 2 (-exponent).toNat
    if mantissa % unit = 0 then
      some (signed negative (mantissa / unit * Nat.pow 2 exponent.toNat))
    else none
  | _ => none

end Double

end Stepper
