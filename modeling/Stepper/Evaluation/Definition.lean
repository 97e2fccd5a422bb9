import Stepper.Evaluation.State

/-!
Definitions. `(define name value)` binds a constant; a header
`(name formal …)` with a `cond` body binds a procedure, and with any other body
gives the name what the operator of the body stands for.
-/

namespace Stepper

/-- The clauses of a `cond` body, each a form `(test result)`. -/
def condClauses : List Form → Except Failure (List (Clause Value))
  | [] => .ok []
  | .expression [test, result] _ :: rest => do
    let clauses ← condClauses rest
    return ⟨test, result⟩ :: clauses
  | clause :: _ => do
    let shown ← clause.render
    throw (.malformed (.condClause shown))

/-- The formals of a header, which are literals. -/
def headerFormals : List Form → Except Failure (List Value)
  | [] => .ok []
  | .literal formal _ :: rest => do
    let formals ← headerFormals rest
    return formal :: formals
  | node :: _ => do
    let shown ← node.render
    throw (.malformed (.formalNotSymbol shown))

/-- The key under which the operator of a form is looked up. -/
def operatorKey (node : Form) : Value :=
  match node.operatorName? with
  | some name => .text name
  | none => .nil

/-- Bind a procedure header to a body. The formals are bound first, without a
value. -/
def defineProcedure (home : Nat) (reading : Reading) (name : String) (formals : List Value)
    (body : Form) : Eval Unit := do
  formals.forM fun formal => Eval.define home reading formal .unbound
  match body with
  | .expression children _ =>
    if body.isCond then
      let clauses ← Eval.ofExcept (condClauses children.tail)
      let serial ← Eval.newSerial
      Eval.define home reading (.text name)
        (.procedure reading { serial, home, name, formals, clauses })
    else
      let target ← Eval.resolve home reading (operatorKey body)
      Eval.define home reading (.text name) (target.getD .nil)
  | _ =>
    let shown ← Eval.ofExcept body.render
    throw (.malformed (.bodyNotExpression name shown))

/-- Enter a definition into a table; `constant` evaluates its last operand.
Only the numeric reading reports it. -/
def enterDefinition (home : Nat) (reading : Reading) (form : Form) (constant : Eval Value) :
    Eval Unit := do
  match form with
  | .expression [_, .literal name _, body] _ =>
    -- a literal is bound as it is written
    let value ← match body with
      | .literal value _ => pure value
      | _ => constant
    Eval.define home reading name value
    if reading = .numeric then Eval.report (.definedConstant name)
  | .expression [_, target@(.expression header _), body] _ =>
    match header with
    | .operator name _ :: rest =>
      let formals ← Eval.ofExcept (headerFormals rest)
      defineProcedure home reading name formals body
      if reading = .numeric then Eval.report (.definedProcedure name formals)
    | _ =>
      let shown ← Eval.ofExcept target.render
      throw (.malformed (.headerName shown))
  | .expression [_, target, _] _ =>
    let shown ← Eval.ofExcept target.render
    throw (.malformed (.undefinable shown))
  | _ =>
    let shown ← Eval.ofExcept form.render
    throw (.malformed (.defineOperands shown))

end Stepper
