import Stepper.Evaluation.Basic

/-!
Views of a tree between its text and its value: at a level, the expressions
nested at least that deep are replaced by their values. The recursion limit holds
for the calls that evaluation makes, not for the nesting of the tree in view.
-/

namespace Stepper

/-- A literal as text, or what it is bound to in `table`, unless that is a
procedure. -/
def renderLiteral (table : Table) (value : Value) : Except Failure String :=
  match table.resolve value with
  | none => value.format
  | some bound => if bound.isProcedure then value.format else bound.format

mutual
/-- The view of a tree at `level`. Only a tree that is itself a literal has its
binding shown. -/
def explain (limit home : Nat) (level : Number) : Form → Eval String
  | .blank => throw (.badOperand (.notNode "None"))
  | .literal value _ => do
    let state ← get
    Eval.ofExcept (renderLiteral (state.table home .numeric) value)
  | .operator name _ => pure name
  | .expression children frame =>
    if level.atMost (frame.depth + 1) then do
      let value ← evaluate limit home false (.expression children frame)
      Eval.ofExcept value.format
    else do
      let items ← explainChildren limit home level children
      return Node.parenthesized items

def explainChildren (limit home : Nat) (level : Number) : List Form → Eval (List String)
  | [] => pure []
  | .blank :: rest => explainChildren limit home level rest
  | .literal value _ :: rest => do
    let item ← Eval.ofExcept value.format
    let items ← explainChildren limit home level rest
    return item :: items
  | .operator name _ :: rest => do
    let items ← explainChildren limit home level rest
    return name :: items
  | .expression children frame :: rest => do
    let item ← explain limit home level (.expression children frame)
    let items ← explainChildren limit home level rest
    return item :: items
end

/-- The views at the levels `count`, `count - 1`, … down to 1. -/
def explainDown (limit home : Nat) (node : Form) : Nat → Eval (List String)
  | 0 => pure []
  | level + 1 => do
    let view ← explain limit home (.int (level + 1 : Nat)) node
    let views ← explainDown limit home node level
    return view :: views

/-- The unreduced text of a tree, then its view at each level from its height
down to its value. -/
def explainSteps (limit home : Nat) (node : Form) : Eval (List String) := do
  let unreduced ← explain limit home (.double (.infinite false)) node
  let views ← explainDown limit home node (node.height?.getD 0).toNat
  return unreduced :: views

end Stepper
