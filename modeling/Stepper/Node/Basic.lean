/-!
Trees of forms. A form in parentheses is an expression; its first child is
what gets applied.
-/

namespace Stepper

/-- What is noted about an expression. `depth` is the nesting at which it was
read. `height` counts the levels of parentheses of a whole tree, and is kept at
its root only. An expression that is kept to be changed later has an `anchor`,
by which those who share it find its changes. -/
structure Frame where
  depth : Int
  height : Int := 1
  anchor : Option Nat := none
deriving DecidableEq

/-- A tree whose literals carry values of `α`, with the nesting at which each
node was read. The blank node is what the empty text reads as. -/
inductive Node (α : Type) where
  | blank
  | literal (value : α) (depth : Int)
  | operator (name : String) (depth : Int)
  | expression (children : List (Node α)) (frame : Frame)

namespace Node

variable {α : Type}

/-- The name in function position, unless something else stands there. -/
def operatorName? : Node α → Option String
  | .expression (.operator name _ :: _) _ => some name
  | _ => none

def isDefine (node : Node α) : Bool :=
  node.operatorName? == some "define"

def isCond (node : Node α) : Bool :=
  node.operatorName? == some "cond"

def isLiteral : Node α → Bool
  | .literal .. => true
  | _ => false

/-- The levels to explain, one per level of parentheses; the blank node has none. -/
def height? : Node α → Option Int
  | .blank => none
  | .literal .. => some 1
  | .operator .. => some 1
  | .expression _ frame => some frame.height

end Node

end Stepper
