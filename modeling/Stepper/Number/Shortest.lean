import Stepper.Number.Double

/-!
The fewest decimal digits that read back as a given floating-point number.
-/

namespace Stepper.Double

/-- A positive decimal `d.ddd * 10 ^ exponent`, `digits` being the row of all
its digits. -/
structure Decimal where
  digits : List Char
  exponent : Int

/-- The digits of `n` without the zeros at their end. -/
def significantDigits (n : Nat) : List Char :=
  match ((Nat.toDigits 10 n).reverse.dropWhile (· == '0')).reverse with
  | [] => ['0']
  | digits => digits

def Decimal.ofScaled (n : Nat) (power : Int) : Decimal :=
  ⟨significantDigits n, decimalLength n - 1 + power⟩

/-- The exponent of the leading decimal digit of `numerator / denominator`. -/
def leadingExponent (numerator denominator : Nat) : Int :=
  if denominator ≤ numerator then (decimalLength (numerator / denominator) : Int) - 1
  else -(decimalLength ((denominator - 1) / numerator) : Int)

/-- Of the two decimals next to `numerator / denominator` whose last digit
counts `10 ^ -places`, the nearer one that reads back as `number`. -/
def nearestOnGrid? (number : Double) (numerator denominator : Nat) (places : Int) :
    Option Decimal :=
  let scaled := numerator * Nat.pow 10 places.toNat
  let unit := denominator * Nat.pow 10 (-places).toNat
  let lower := scaled / unit
  let twice := 2 * (scaled % unit)
  let readsBack (n : Nat) : Bool := decide (ofDecimal false n (-places) = number)
  let nearer := if twice < unit ∨ (twice = unit ∧ lower % 2 = 0) then lower else lower + 1
  let farther := if nearer = lower then lower + 1 else lower
  if readsBack nearer then some (.ofScaled nearer (-places))
  else if readsBack farther then some (.ofScaled farther (-places))
  else none

/-- The shortest decimal that reads back as `mantissa * 2 ^ exponent`: grids of
one digit, two digits and so on are tried in turn, and seventeen always do. -/
def shortest (mantissa : Nat) (exponent : Int) : Decimal :=
  let numerator := mantissa * Nat.pow 2 exponent.toNat
  let denominator := Nat.pow 2 (-exponent).toNat
  let leading := leadingExponent numerator denominator
  let grids := (List.range 17).map fun (extra : Nat) => (extra : Int) - leading
  (grids.findSome? (nearestOnGrid? (.finite false mantissa exponent) numerator denominator)).getD
    (.ofScaled mantissa 0)

/-- Which powers of ten are written out, the others taking an exponent mark. -/
structure Layout where
  least : Int
  beyond : Int

/-- Numbers from `0.0001` up to sixteen whole digits are written out. -/
def Layout.standard : Layout := ⟨-4, 16⟩

/-- At least two digits of a decimal exponent, after its sign. -/
def exponentMark (exponent : Int) : List Char :=
  let digits := Nat.toDigits 10 exponent.natAbs
  'e' :: (if exponent < 0 then '-' else '+') ::
    (List.replicate (2 - digits.length) '0' ++ digits)

/-- A decimal as text: a number written out always has a point. -/
def Layout.write (layout : Layout) (decimal : Decimal) : List Char :=
  if layout.least ≤ decimal.exponent ∧ decimal.exponent < layout.beyond then
    if decimal.exponent < 0 then
      '0' :: '.' :: (List.replicate (-decimal.exponent - 1).toNat '0' ++ decimal.digits)
    else
      let whole := decimal.exponent.toNat + 1
      let fraction := decimal.digits.drop whole
      decimal.digits.take whole ++ List.replicate (whole - decimal.digits.length) '0' ++
        '.' :: (if fraction.isEmpty then ['0'] else fraction)
  else
    match decimal.digits with
    | [] => []
    | [lead] => lead :: exponentMark decimal.exponent
    | lead :: fraction => lead :: '.' :: fraction ++ exponentMark decimal.exponent

/-- The number as text, in the fewest digits that read back. -/
def text : Double → String
  | .nan => "nan"
  | .infinite negative => if negative then "-inf" else "inf"
  | .finite negative mantissa exponent =>
    let magnitude :=
      if mantissa = 0 then "0.0".toList else Layout.standard.write (shortest mantissa exponent)
    String.ofList (if negative then '-' :: magnitude else magnitude)

end Stepper.Double
