import Stepper.Evaluation.Definition

/-!
Evaluation of trees in the numeric table of a workspace. Arguments are
evaluated from left to right. Formals are bound in the one table that all calls
share, that of the workspace in which the procedure was defined.

The evaluator recurses on the tree; what a call of a defined procedure does is
a parameter. The calls themselves recurse on the levels that are left: the
limit counts levels of nested evaluation, and a tree lies one level below the
call that evaluates it, a head one level below its form, an operand two.

Only the parts of procedures are held to the limit (`evalWithin`). The tree that
`evaluate` starts from is not: nested deeper than the limit, it still gets the
value that a deep enough stack gives it, and never fails as `tooDeep` by itself.
-/

namespace Stepper

/-- What calling a defined procedure on some arguments does, at a level of the
tree that is being evaluated. -/
abbrev CallModel : Type := Nat → CondProcedure Value → List Value → Eval Value

/-- The value in function position, if it can be applied. -/
def applicable (head : Form) (value : Value) : Eval Unit :=
  if !value.isTruthy then do
    let shown ← Eval.ofExcept head.render
    throw (.notFound (.unknown shown))
  else if !value.isProcedure then do
    let shown ← Eval.ofExcept head.render
    let bound ← Eval.ofExcept value.inspect
    throw (.notFound (.notProcedure shown bound))
  else pure ()

def Value.apply (call : CallModel) (level : Nat) (procedure : Value) (arguments : List Value) :
    Eval Value :=
  match procedure with
  | .builtin operation => Eval.ofExcept (operation.apply arguments)
  | .procedure _ definition => call level definition arguments
  | _ => pure .nil

mutual
/-- Evaluate a tree in the workspace `home` at a level. With `both`, a
definition reached on the way is entered under both readings, else under the
numeric one only. -/
def Node.eval (call : CallModel) (home : Nat) (both : Bool) (level : Nat) : Form → Eval Value
  | .blank => throw (.badOperand (.notNode "None"))
  | .literal value _ => do
    let bound ← Eval.resolve home .numeric value
    let number ← Eval.ofExcept (bound.getD value).toNumber
    return .ofNumber number
  | .operator name _ => do
    let bound ← Eval.resolve home .numeric (.text name)
    return bound.getD .nil
  | .expression [] _ => throw (.notFound .emptyForm)
  | .expression (head :: operands) frame => do
    let form : Form := .expression (head :: operands) frame
    if form.isDefine then
      -- each reading evaluates the value of a constant anew
      enterDefinition home .numeric form (evalLast call home (level + 4) operands)
      if both then enterDefinition home .symbolic form (evalLast call home (level + 4) operands)
      return .nil
    else
      let procedure ← Node.eval call home both (level + 1) head
      applicable head procedure
      let arguments ← evalAll call home both (level + 2) operands
      procedure.apply call level arguments

def evalAll (call : CallModel) (home : Nat) (both : Bool) (level : Nat) :
    List Form → Eval (List Value)
  | [] => pure []
  | node :: rest => do
    let value ← Node.eval call home both level node
    let values ← evalAll call home both level rest
    return value :: values

def evalLast (call : CallModel) (home : Nat) (level : Nat) : List Form → Eval Value
  | [] => pure .nil
  | node :: rest =>
    if rest.isEmpty then Node.eval call home false level node else evalLast call home level rest
end

/-- Bind formals to arguments under each of `readings`; a formal without an
argument is unbound. -/
def bindFormals (home : Nat) (readings : List Reading) : List Value → List Value → Eval Unit
  | [], _ => pure ()
  | formal :: formals, arguments => do
    readings.forM fun reading => Eval.define home reading formal (arguments.head?.getD .unbound)
    bindFormals home readings formals arguments.tail

/-- The result of the first clause whose test, evaluated by `eval`, holds. -/
def selectClause (eval : Form → Eval Value) (name : String) : List (Clause Value) → Eval Form
  | [] => throw (.noClause name)
  | clause :: rest => do
    let tested ← eval clause.test
    if tested.isTruthy then return clause.result else selectClause eval name rest

mutual
/-- The levels that evaluating a tree takes, calls of defined procedures aside.
A builtin takes four levels below its form. -/
def Node.levels : Form → Nat
  | .blank => 1
  | .literal .. => 2
  | .operator .. => 2
  | .expression [] _ => 1
  | .expression (head :: operands) _ =>
    max (max (1 + head.levels) (2 + levelsOfAll operands))
      (match head with
        | .operator name _ => if Builtin.all.any (·.symbol == name) then 5 else 1
        | _ => 1)

def levelsOfAll : List Form → Nat
  | [] => 0
  | node :: rest => max node.levels (levelsOfAll rest)
end

/-- Evaluate part of a procedure at `level`, if its levels fit into `room`. -/
def evalWithin (limit : Nat) (call : CallModel) (home room level : Nat) (node : Form) :
    Eval Value :=
  if room < level + node.levels then throw (.tooDeep limit) else node.eval call home false level

/-- Calls of defined procedures while `room` levels are left. A call that finds
none binds its formals and fails before it tests a clause. -/
def callWithin (limit : Nat) : Nat → CallModel
  | 0, _, definition, arguments => do
    bindFormals definition.home [.numeric] definition.formals arguments
    throw (.tooDeep limit)
  | room + 1, level + 1, definition, arguments => callWithin limit room level definition arguments
  | room + 1, 0, definition, arguments => do
    bindFormals definition.home [.numeric] definition.formals arguments
    let clauses := (← get).clauses definition
    let eval := evalWithin limit (callWithin limit room) definition.home room
    -- a test lies two levels below the call, the result one
    let result ← selectClause (eval 2) definition.name clauses
    eval 1 result

def callModel (limit : Nat) : CallModel :=
  callWithin limit limit

def evaluate (limit home : Nat) (both : Bool) (node : Form) : Eval Value :=
  node.eval (callModel limit) home both 0

/-- What evaluating the last operand of a definition gives. -/
def constantValue (limit home : Nat) : Form → Eval Value
  | .expression children _ => evalLast (callModel limit) home 0 children
  | _ => pure .nil

/-- Enter a definition into a table; other forms are passed over. -/
def define (limit home : Nat) (reading : Reading) (form : Form) : Eval Unit :=
  if form.isDefine then enterDefinition home reading form (constantValue limit home form)
  else pure ()

end Stepper
