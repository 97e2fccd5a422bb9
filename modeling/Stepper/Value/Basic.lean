import Stepper.Node.Basic
import Stepper.Number.Numeral

/-!
Values: what literals carry, tables bind and evaluation returns.
-/

namespace Stepper

inductive Builtin where
  | add
  | subtract
  | multiply
  | equals
  | otherwise
  | define
deriving DecidableEq

/-- The name by which a builtin is called. -/
def Builtin.symbol : Builtin → String
  | .add => "+"
  | .subtract => "-"
  | .multiply => "*"
  | .equals => "="
  | .otherwise => "else"
  | .define => "define"

/-- The name under which a builtin is shown. -/
def Builtin.label : Builtin → String
  | .add => "add"
  | .subtract => "sub"
  | .multiply => "mul"
  | .equals => "equals"
  | .otherwise => "else_"
  | .define => "define_placeholder"

/-- The builtins in the order in which a session binds them. -/
def Builtin.all : List Builtin :=
  [.add, .subtract, .multiply, .equals, .otherwise, .define]

/-- The two readings of a definition: the numeric one computes the value of a
call, the symbolic one selects the form that replaces it. -/
inductive Reading where
  | numeric
  | symbolic
deriving DecidableEq

structure Clause (α : Type) where
  test : Node α
  result : Node α

/-- A procedure defined by the clauses of a `cond`. No two have the same
`serial`; `home` is the workspace whose tables its calls use. -/
structure CondProcedure (α : Type) where
  serial : Nat
  home : Nat
  name : String
  formals : List α
  clauses : List (Clause α)

inductive Value where
  | nil
  | bool (truth : Bool)
  | int (n : Int)
  | double (x : Double)
  | text (spelling : String)
  /-- A formal parameter before a call supplies its value. -/
  | unbound
  | list (items : List Value)
  | builtin (operation : Builtin)
  | procedure (reading : Reading) (definition : CondProcedure Value)

abbrev Form : Type := Node Value

namespace Value

def ofNumber : Number → Value
  | .int n => .int n
  | .double x => .double x

/-- The number that a number or a truth value is. -/
def number? : Value → Option Number
  | .bool truth => some (.int truth.toNat)
  | .int n => some (.int n)
  | .double x => some (.double x)
  | _ => none

/-- The number that a value stands for: texts are read as numerals, and
whatever spells no number is `nan`. -/
def toNumber (value : Value) : Except Failure Number :=
  match value with
  | .text spelling => Number.ofText spelling
  | _ => .ok (value.number?.getD .nan)

/-- Whether a value is `nan`, as a number or by its text. -/
def isNan : Value → Bool
  | .double x => x.isNan
  | .text spelling => spelling == "NaN"
  | _ => false

/-- Whether a value is there at all: zeros, empty texts and lists, `nil` and
unbound formals are not. -/
def isPresent : Value → Bool
  | .nil => false
  | .unbound => false
  | .bool truth => truth
  | .int n => n != 0
  | .double x => !x.isZero
  | .text spelling => spelling != ""
  | .list items => !items.isEmpty
  | .builtin _ => true
  | .procedure .. => true

/-- Whether a value satisfies a guard, which `nan` never does. -/
def isTruthy : Value → Bool
  | .double x => !x.isZero && !x.isNan
  | value => value.isPresent

def isProcedure : Value → Bool
  | .builtin _ => true
  | .procedure .. => true
  | _ => false

/-- Whether two values are one key of a table. Numbers and truth values are
one key if they are equal as numbers. A list and `nan` are the same key as
nothing. -/
def sameKey (left right : Value) : Bool :=
  match left, right with
  | .nil, .nil => true
  | .unbound, .unbound => true
  | .text left, .text right => left == right
  | .builtin left, .builtin right => left == right
  | .procedure _ left, .procedure _ right => left.serial == right.serial
  | left, right =>
    match left.number?, right.number? with
    | some left, some right => left.same right
    | _, _ => false

end Value

end Stepper
