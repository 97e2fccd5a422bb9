import Stepper.Text.Blank
import Stepper.Text.Digit
import Stepper.Text.UpperCase
import Stepper.Failure

/-!
Settings, taken from named variables. A variable that is missing, empty or not
an integer leaves the default in force.
-/

namespace Stepper

open Text

abbrev Variables : Type := String → Option String

/-- A row of digits in which single underscores may stand between two digits.
`afterDigit` tells whether the last character was a digit. -/
def groupedDigits? : Bool → List Char → Option (List Nat)
  | afterDigit, [] => if afterDigit then some [] else none
  | afterDigit, c :: rest =>
    match digitValue? c with
    | some digit => (groupedDigits? true rest).map (digit :: ·)
    | none => if c = '_' ∧ afterDigit then groupedDigits? false rest else none

/-- The value of a row of grouped digits of bounded length. -/
def groupedNat? (text : List Char) : Option Nat :=
  match groupedDigits? false text with
  | some digits => if digits.length ≤ maxDigits then some (digitsToNat digits) else none
  | none => none

/-- The integer that a text without blanks around it spells. -/
def integer? : List Char → Option Int
  | '+' :: rest => (groupedNat? rest).map Int.ofNat
  | '-' :: rest => (groupedNat? rest).map fun n => -(n : Int)
  | text => (groupedNat? text).map Int.ofNat

namespace Settings

/-- The integer in the variable `name`, or `default`. -/
def integer (vars : Variables) (name : String) (default : Int) : Int :=
  match vars name with
  | none => default
  | some raw => (integer? (trim raw.toList)).getD default

def maxExpansions (vars : Variables) : Int :=
  integer vars "STEPWISE_MAX_EXPANSIONS" 100

def recursionLimit (vars : Variables) : Int :=
  integer vars "STEPWISE_RECURSION_LIMIT" 20000

/-- The name of the least severity that is reported, in upper case. -/
def logLevel (vars : Variables) : String :=
  match vars "STEPWISE_LOG_LEVEL" with
  | none => "WARNING"
  | some raw =>
    let name := trim raw.toList
    if name.isEmpty then "WARNING" else upperCase (String.ofList name)

end Settings

end Stepper
