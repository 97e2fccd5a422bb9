import Stepper.Value.Text

/-!
Tables bind keys to values, in the order in which the keys were first bound.
-/

namespace Stepper

structure Table where
  bindings : List (Value × Value)

namespace Table

def empty : Table := ⟨[]⟩

/-- The value bound to `key`, whatever it is. -/
def get? (table : Table) (key : Value) : Option Value :=
  (table.bindings.find? fun binding => binding.1.sameKey key).map (·.2)

def contains (table : Table) (key : Value) : Bool :=
  table.bindings.any fun binding => binding.1.sameKey key

def size (table : Table) : Nat :=
  table.bindings.length

/-- Replace the value of the first binding of `key`, or add a binding at the
end. A key keeps its first spelling and its place. -/
def insertInto (key value : Value) : List (Value × Value) → List (Value × Value)
  | [] => [(key, value)]
  | binding :: rest =>
    if binding.1.sameKey key then (binding.1, value) :: rest
    else binding :: insertInto key value rest

def insert (table : Table) (key value : Value) : Table :=
  ⟨insertInto key value table.bindings⟩

/-- Bind `key` to `value`. A list cannot be a key. -/
def define (table : Table) (key value : Value) : Except Failure Table :=
  match key with
  | .list _ => .error (.badOperand .listKey)
  | _ => .ok (table.insert key value)

def defineAll (table : Table) (pairs : List (Value × Value)) : Except Failure Table :=
  pairs.foldlM (fun table pair => table.define pair.1 pair.2) table

/-- Bind all of `pairs` or, if one has a list as its key, none. -/
def update (table : Table) (pairs : List (Value × Value)) : Except Failure Table := do
  let mapping ← empty.defineAll pairs
  table.defineAll mapping.bindings

/-- The value that `key` stands for. A missing key, one bound to `nil` and a
formal without a value stand for none. -/
def resolve (table : Table) (key : Value) : Option Value :=
  match table.get? key with
  | none => none
  | some .nil => none
  | some .unbound => none
  | some value => some value

def renderBinding (binding : Value × Value) : Except Failure String := do
  let key ← binding.1.display
  let value ← binding.2.inspect
  return key ++ ": " ++ value

/-- The bindings in order, between braces. -/
def render (table : Table) : Except Failure String := do
  let shown ← table.bindings.mapM renderBinding
  return "\x7b" ++ ", ".intercalate shown ++ "\x7d"

/-- A table as messages show it. -/
def inspect (table : Table) : Except Failure String := do
  let shown ← table.render
  return "<Environment " ++ shown ++ ">"

end Table

end Stepper
