import Stepper.Proofs.Stepping
import Stepper.Proofs.ViewValues

/-!
Traces of arithmetic without definitions. The first step evaluates every operand
that is an expression, and the next one applies the operation, so a trace has
at most two steps.
-/

namespace Stepper

/-- A workspace without definitions. -/
structure State.Undefined (state : State) (home : Nat) : Prop where
  numeric : (state.table home .numeric).HoldsOnly fun _ => none
  symbolic : ∀ key, (state.table home .symbolic).resolve key = none

theorem State.Undefined.of_tables {state other : State} {home : Nat}
    (undefined : state.Undefined home)
    (same : ∀ reading, other.table home reading = state.table home reading) :
    other.Undefined home where
  numeric := by
    rw [same]
    exact undefined.numeric
  symbolic key := by
    rw [same]
    exact undefined.symbolic key

theorem Interpreter.IsFresh.undefined {interpreter : Interpreter} {state : State}
    (fresh : interpreter.IsFresh state) : state.Undefined interpreter.home where
  numeric := by
    rw [State.table, fresh]
    exact Table.HoldsOnly.fresh
  symbolic key := by
    rw [State.table, fresh]
    rfl

namespace Node

/-- The integer that a tree of arithmetic denotes, with no constants. -/
abbrev integer? (node : Form) : Option Int :=
  node.amount fun _ => none

/-- What the first step puts in the place of an operand. -/
def reduced : Form → Form
  | .expression children frame =>
    .literal (.int ((Node.expression children frame).integer?.getD 0)) frame.depth
  | node => node

end Node

section Steps

variable {limit home : Nat} {state : State}

end Steps

section Traces

variable {limit home : Nat} {state : State} {cap : Int} {remaining : Nat} {operands : List Form}
variable {numbers : List Int} {place : Int} {frame : Frame}

end Traces

end Stepper
