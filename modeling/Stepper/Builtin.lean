import Stepper.Value.Basic

/-!
What the builtin procedures compute. Arithmetic reads each argument as a
number, so a symbol without a value makes the result `nan`.
-/

namespace Stepper

/-- The first number minus the sum of the others. -/
def Number.difference : List Number → Except Failure Number
  | [] => .ok (.int 0)
  | first :: rest => do
    let taken ← Number.sum rest
    first.sub taken

def Builtin.apply (operation : Builtin) (arguments : List Value) : Except Failure Value :=
  match operation with
  | .add => do
    let numbers ← arguments.mapM Value.toNumber
    let total ← Number.sum numbers
    return .ofNumber total
  | .subtract => do
    let numbers ← arguments.mapM Value.toNumber
    let rest ← Number.difference numbers
    return .ofNumber rest
  | .multiply => do
    let numbers ← arguments.mapM Value.toNumber
    let product ← Number.product numbers
    return .ofNumber product
  | .equals =>
    match arguments with
    | [left, right] => do
      let x ← left.toNumber
      let y ← right.toNumber
      return .bool (x.same y)
    | _ => .error (.arity "=" 2 arguments.length)
  | .otherwise => .ok (.bool true)
  | .define => .ok .nil

end Stepper
