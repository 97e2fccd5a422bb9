import Stepper.Builtin
import Stepper.Log
import Stepper.Node.Revision
import Stepper.Table

/-!
What evaluation works on: the workspaces, each with one table for each reading
of its definitions, the changes made to kept trees, and the log.
-/

namespace Stepper

structure Workspace where
  numeric : Table
  symbolic : Table

namespace Workspace

/-- The builtins are bound in the numeric table; the symbolic one is empty. -/
def fresh : Workspace where
  numeric := ⟨Builtin.all.map fun operation => (.text operation.symbol, .builtin operation)⟩
  symbolic := .empty

def table (workspace : Workspace) : Reading → Table
  | .numeric => workspace.numeric
  | .symbolic => workspace.symbolic

def setTable (workspace : Workspace) (reading : Reading) (table : Table) : Workspace :=
  match reading with
  | .numeric => { workspace with numeric := table }
  | .symbolic => { workspace with symbolic := table }

end Workspace

/-- `revisions` holds the latest first. Events that rank at least `threshold`
are reported; without one, none are. -/
structure State where
  workspaces : List (Nat × Workspace) := []
  revisions : List Revision := []
  procedureCount : Nat := 0
  anchorCount : Nat := 0
  threshold : Option Nat := none
  log : Array Report := #[]

namespace State

/-- The tables of a workspace, which is fresh until it is first changed. -/
def workspace (state : State) (home : Nat) : Workspace :=
  (state.workspaces.lookup home).getD .fresh

/-- Replace the workspace `home`, or add it at the end. -/
def putWorkspace (home : Nat) (workspace : Workspace) :
    List (Nat × Workspace) → List (Nat × Workspace)
  | [] => [(home, workspace)]
  | entry :: rest =>
    if entry.1 = home then (home, workspace) :: rest
    else entry :: putWorkspace home workspace rest

def setWorkspace (state : State) (home : Nat) (workspace : Workspace) : State :=
  { state with workspaces := putWorkspace home workspace state.workspaces }

def table (state : State) (home : Nat) (reading : Reading) : Table :=
  (state.workspace home).table reading

def setTable (state : State) (home : Nat) (reading : Reading) (table : Table) : State :=
  state.setWorkspace home ((state.workspace home).setTable reading table)

/-- Note that the expression with an anchor got other children; one without an
anchor is shared by nobody. -/
def revise (state : State) (anchor : Option Nat) (children : List Form) : State :=
  match anchor with
  | none => state
  | some anchor => { state with revisions := ⟨anchor, children⟩ :: state.revisions }

/-- The clauses of a procedure as they are now. -/
def clauses (state : State) (definition : CondProcedure Value) : List (Clause Value) :=
  Clause.upToDate state.revisions definition.clauses

/-- Whether events of a severity are reported. -/
def wants (state : State) (severity : Severity) : Bool :=
  state.threshold.any fun rank => decide (rank ≤ severity.rank)

/-- A tree with anchors that are new to the state. -/
def anchor (state : State) (node : Form) : Form × State :=
  let (node, count) := node.anchored.run state.anchorCount
  (node, { state with anchorCount := count })

end State

/-- A computation on the state that may fail. What it changed before failing
stays changed. -/
abbrev Eval : Type → Type := EStateM Failure State

namespace Eval

def ofExcept {α : Type} : Except Failure α → Eval α
  | .ok a => pure a
  | .error failure => throw failure

/-- Report an event if it ranks high enough; it fails if there are no words for it. -/
def report (event : Event) : Eval Unit := do
  let state ← get
  if state.wants event.severity then
    let report ← ofExcept event.report
    set { state with log := state.log.push report }
  else pure ()

def resolve (home : Nat) (reading : Reading) (key : Value) : Eval (Option Value) :=
  return ((← get).table home reading).resolve key

def define (home : Nat) (reading : Reading) (key value : Value) : Eval Unit := do
  let state ← get
  let table ← ofExcept ((state.table home reading).define key value)
  set (state.setTable home reading table)

/-- A serial that no procedure has yet. -/
def newSerial : Eval Nat := do
  let state ← get
  set { state with procedureCount := state.procedureCount + 1 }
  return state.procedureCount

end Eval

end Stepper
