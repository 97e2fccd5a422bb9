import Stepper.Failure
import Stepper.Number.Shortest

/-!
Numbers: integers of any size and floating-point numbers, kept apart.
-/

namespace Stepper

inductive Number where
  | int (n : Int)
  | double (x : Double)
deriving DecidableEq

/-- The digits of an integer, after a minus sign if it is negative. -/
def integerDigits (n : Int) : String :=
  String.ofList (if n < 0 then '-' :: Nat.toDigits 10 n.natAbs else Nat.toDigits 10 n.natAbs)

/-- The first number with more than `maxDigits` digits. -/
def integerBound : Nat := Nat.pow 10 maxDigits

/-- The text of an integer, which may not have more than `maxDigits` digits. -/
def integerText (n : Int) : Except Failure String :=
  if n.natAbs < integerBound then .ok (integerDigits n)
  else .error (.badValue .longInteger)

namespace Number

def nan : Number := .double .nan

/-- Mixed arithmetic is done in floating point. -/
def toDouble : Number → Except Failure Double
  | .double x => .ok x
  | .int n =>
    match Double.ofInt n with
    | .infinite _ => .error (.outOfRange .double)
    | x => .ok x

/-- An operation on two numbers, exact on integers. -/
def combine (onInts : Int → Int → Int) (onDoubles : Double → Double → Double) :
    Number → Number → Except Failure Number
  | .int left, .int right => .ok (.int (onInts left right))
  | left, right => do
    let x ← left.toDouble
    let y ← right.toDouble
    return .double (onDoubles x y)

def add : Number → Number → Except Failure Number :=
  combine (· + ·) Double.add

def sub : Number → Number → Except Failure Number :=
  combine (· - ·) Double.sub

def mul : Number → Number → Except Failure Number :=
  combine (· * ·) Double.mul

/-- Equality of the numbers themselves, exact between the two sorts. -/
def same : Number → Number → Bool
  | .int left, .int right => decide (left = right)
  | .int left, .double right => right.sameInt left
  | .double left, .int right => left.sameInt right
  | .double left, .double right => left.same right

def atMost (n : Int) : Number → Bool
  | .int m => decide (m ≤ n)
  | .double x => x.atMost n

/-- The sum from left to right, starting from the integer zero. -/
def sum (numbers : List Number) : Except Failure Number :=
  numbers.foldlM add (.int 0)

/-- The product from left to right, starting from the integer one. -/
def product (numbers : List Number) : Except Failure Number :=
  numbers.foldlM mul (.int 1)

end Number

end Stepper
