import Stepper.Value.Text

/-!
Trees as source text, and the levels of the stack that writing one takes. Only
`renderWithin` looks at the stack; `render` takes it to be deep enough.
-/

namespace Stepper.Node

/-- Items between parentheses, with single spaces. -/
def parenthesized (items : List String) : String :=
  "(" ++ " ".intercalate items ++ ")"

mutual
/-- A tree as source text. It fails only on a literal that is too long an integer. -/
def render : Form → Except Failure String
  | .blank => .ok "None"
  | .literal value _ => value.format
  | .operator name _ => .ok name
  | .expression children _ => do
    let items ← renderAll children
    return parenthesized items

def renderAll : List Form → Except Failure (List String)
  | [] => .ok []
  | node :: rest => do
    let item ← render node
    let items ← renderAll rest
    return item :: items
end

mutual
/-- The levels of the stack that writing a tree takes: four for each pair of
parentheses around the item that takes most. -/
def textLevels : Form → Nat
  | .blank => 1
  | .operator .. => 2
  | .literal .. => 3
  | .expression children _ => 4 + textLevelsOfAll children

def textLevelsOfAll : List Form → Nat
  | [] => 0
  | node :: rest => max node.textLevels (textLevelsOfAll rest)
end

/-- What needs `levels` levels of the stack, if `room` are left. -/
def onStack {α : Type} (room levels : Nat) (result : Except Failure α) : Except Failure α :=
  if room < levels then .error .stackOverflow else result

mutual
/-- A tree as source text, written while `room` levels of the stack are left. -/
def renderWithin (room : Nat) : Form → Except Failure String
  | .blank => onStack room 1 (.ok "None")
  | .literal value _ => onStack room 3 value.format
  | .operator name _ => onStack room 2 (.ok name)
  | .expression children _ => onStack room 4 do
    let items ← renderAllWithin (room - 4) children
    return parenthesized items

def renderAllWithin (room : Nat) : List Form → Except Failure (List String)
  | [] => .ok []
  | node :: rest => do
    let item ← renderWithin room node
    let items ← renderAllWithin room rest
    return item :: items
end

end Stepper.Node
