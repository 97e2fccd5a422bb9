import Stepper.Value.Basic

/-!
Revisions: what a step changed in a kept tree. Procedures that were defined
from forms of the tree share these forms, so they too see what was changed.
-/

namespace Stepper

/-- The expression with this anchor got these children. -/
structure Revision where
  anchor : Nat
  children : List Form

mutual
/-- A tree whose expressions have anchors of their own; the state is the next
anchor that is free. -/
def Node.anchored : Form → StateM Nat Form
  | .expression children frame => do
    let next ← get
    set (next + 1)
    let children ← anchoredAll children
    return .expression children { frame with anchor := some next }
  | node => pure node

def anchoredAll : List Form → StateM Nat (List Form)
  | [] => pure []
  | node :: rest => do
    let node ← node.anchored
    let rest ← anchoredAll rest
    return node :: rest
end

mutual
def Node.revised (revision : Revision) : Form → Form
  | .expression children frame =>
    if frame.anchor = some revision.anchor then .expression revision.children frame
    else .expression (revisedAll revision children) frame
  | node => node

def revisedAll (revision : Revision) : List Form → List Form
  | [] => []
  | node :: rest => node.revised revision :: revisedAll revision rest
end

def Clause.revised (revision : Revision) (clause : Clause Value) : Clause Value :=
  ⟨clause.test.revised revision, clause.result.revised revision⟩

/-- Clauses after revisions, of which the latest comes first. Each is made on
the tree as the earlier ones left it. -/
def Clause.upToDate (revisions : List Revision) (clauses : List (Clause Value)) :
    List (Clause Value) :=
  revisions.foldr (fun revision clauses => clauses.map (·.revised revision)) clauses

end Stepper
