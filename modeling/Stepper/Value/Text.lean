import Stepper.Value.Basic

/-!
Values as text: `format` writes a value as source text, `inspect` shows it in
a message.
-/

namespace Stepper.Value

def procedureText (name : String) : String :=
  "#<procedure " ++ name ++ ">"

mutual
/-- A value as messages show it, texts in quotes. -/
def inspect : Value → Except Failure String
  | .nil => .ok "None"
  | .bool truth => .ok (if truth then "True" else "False")
  | .int n => integerText n
  | .double x => .ok x.text
  | .text spelling => .ok (Text.quoted spelling)
  | .unbound => .ok "unbound"
  | .list items => do
    let shown ← inspectAll items
    return "[" ++ ", ".intercalate shown ++ "]"
  | .builtin operation => .ok (procedureText operation.label)
  | .procedure _ definition => .ok (procedureText definition.name)

def inspectAll : List Value → Except Failure (List String)
  | [] => .ok []
  | value :: rest => do
    let shown ← value.inspect
    let others ← inspectAll rest
    return shown :: others
end

/-- A value as messages show it, a text as it stands. -/
def display : Value → Except Failure String
  | .text spelling => .ok spelling
  | value => value.inspect

/-- A floating-point number as source text: integral ones without a point. -/
def formatDouble (x : Double) : Except Failure String :=
  match x with
  | .nan => .ok "NaN"
  | .infinite negative => .ok (if negative then "-Infinity" else "Infinity")
  | .finite .. =>
    match x.toInt? with
    | some n => integerText n
    | none => .ok x.text

/-- A value as it is written back into source text. -/
def format : Value → Except Failure String
  | .nil => .ok "nil"
  | .bool truth => .ok (if truth then "#t" else "#f")
  | .double x => formatDouble x
  | .text spelling => .ok spelling
  | value => value.inspect

end Stepper.Value
