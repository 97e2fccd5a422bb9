import Stepper.Number.Basic
import Stepper.Text.Blank
import Stepper.Text.Digit

/-!
Numerals: the texts that spell numbers. A row of digits is an integer; a
fraction or an exponent makes it a floating-point number, and so does the word
`Infinity`. Every other text is a symbol.
-/

namespace Stepper

open Text

inductive Numeral where
  | integer (negative : Bool) (digits : List Nat)
  | decimal (negative : Bool) (whole fraction : List Nat) (exponent : Int)
  | infinity (negative : Bool)
deriving DecidableEq

namespace Numeral

/-- An optional sign, and what follows it. -/
def takeSign : List Char → Bool × List Char
  | '+' :: rest => (false, rest)
  | '-' :: rest => (true, rest)
  | rest => (false, rest)

/-- An optional fraction: a point and the digits after it, if any. -/
def takeFraction : List Char → List Nat × List Char
  | '.' :: rest => spanDigits rest
  | rest => ([], rest)

/-- An optional exponent up to the end of the text. -/
def exponent? : List Char → Option Int
  | [] => some 0
  | mark :: rest =>
    if mark = 'e' ∨ mark = 'E' then
      match spanDigits (takeSign rest).2 with
      | ([], _) => none
      | (digits, []) => some (Double.signed (takeSign rest).1 (digitsToNat digits))
      | _ => none
    else none

def unsigned? (negative : Bool) (body : List Char) : Option Numeral :=
  if body = "Infinity".toList then some (.infinity negative)
  else
    let (whole, rest) := spanDigits body
    if rest = [] ∧ whole ≠ [] then some (.integer negative whole)
    else
      let (fraction, rest) := takeFraction rest
      if whole = [] ∧ fraction = [] then none
      else (exponent? rest).map (.decimal negative whole fraction ·)

/-- The numeral that a text without blanks around it spells, if it spells one. -/
def parse? (text : List Char) : Option Numeral :=
  unsigned? (takeSign text).1 (takeSign text).2

/-- The number that a numeral denotes. An integer may not have more than
`maxDigits` digits, leading zeros included. -/
def value : Numeral → Except Failure Number
  | .integer negative digits =>
    if maxDigits < digits.length then .error (.badValue (.longNumeral digits.length))
    else .ok (.int (Double.signed negative (digitsToNat digits)))
  | .decimal negative whole fraction exponent =>
    .ok (.double (Double.ofDecimal negative (digitsToNat (whole ++ fraction))
      (exponent - fraction.length)))
  | .infinity negative => .ok (.double (.infinite negative))

end Numeral

/-- The number that `text` spells, blanks around it aside; `none` for a symbol. -/
def Number.parse (text : String) : Except Failure (Option Number) :=
  match Numeral.parse? (trim text.toList) with
  | none => .ok none
  | some numeral => numeral.value.map some

/-- The number that `text` spells, and `nan` for a symbol. -/
def Number.ofText (text : String) : Except Failure Number :=
  match Numeral.parse? (trim text.toList) with
  | none => .ok .nan
  | some numeral => numeral.value

end Stepper
