import Stepper.Explanation
import Stepper.Node.Outline
import Stepper.Node.Reader

/-!
Expansion: one step of the substitution model. A call on literals becomes the
form that the symbolic reading of its procedure selects, or its value when it
has no symbolic reading. A call on other arguments has these reduced first, by
one step where their operator has a symbolic reading and fully otherwise.

A step changes the tree it works on, also when it fails. If the tree is kept,
each change is noted as soon as it is made: what the step evaluates next may
call a procedure that shares the changed form.

As in evaluation, the recursion limit holds for the calls of procedures only. A
step takes a tree of any nesting, and so does `expandAll` on the texts it rereads.
-/

namespace Stepper

mutual
/-- A tree as source text, with literals replaced by what they are bound to in
the symbolic table. -/
def flatten (symbolic : Table) : Form → Except Failure String
  | .blank => .error (.badOperand (.notNode "None"))
  | .literal value _ => renderLiteral symbolic value
  | .operator name _ => .ok name
  | .expression children _ => do
    let items ← flattenAll symbolic children
    return Node.parenthesized items

def flattenAll (symbolic : Table) : List Form → Except Failure (List String)
  | [] => .ok []
  | node :: rest => do
    let item ← flatten symbolic node
    let items ← flattenAll symbolic rest
    return item :: items
end

/-- The source text of a tree in the symbolic table as it now is. -/
def flattenNow (home : Nat) (node : Form) : Eval Value := do
  let state ← get
  let source ← Eval.ofExcept (flatten (state.table home .symbolic) node)
  return .text source

/-- The number that a literal stands for, or the literal as it is, with a
warning, if that is no number. -/
def literalOrNumber (limit home : Nat) (value : Value) (depth : Int) : Eval Value := do
  let number ← evaluate limit home false (.literal value depth)
  if number.isNan then
    let outline ← Eval.ofExcept (Outline.ofNode (.literal value depth))
    Eval.report (.keptLiteral (outline.toJson (some 2)))
    return value
  else return number

/-- The arguments of a call, if all of them are literals. -/
def literalArguments? : List Form → Option (List (Value × Int))
  | [] => some []
  | .literal value depth :: rest => (literalArguments? rest).map ((value, depth) :: ·)
  | _ => none

def actuals (limit home : Nat) : List (Value × Int) → Eval (List Value)
  | [] => pure []
  | (value, depth) :: rest => do
    let actual ← literalOrNumber limit home value depth
    let others ← actuals limit home rest
    return actual :: others

/-- Why the result of a numeric procedure is not a form. -/
def notForm {α : Type} (value : Value) : Eval α := do
  let shown ← Eval.ofExcept value.inspect
  throw (.badOperand (.notNode shown))

/-- Apply what the symbolic table binds an operator to. -/
def expandSymbolic (limit home : Nat) (procedure : Value) (arguments : List Value) :
    Eval Value :=
  match procedure with
  | .procedure .symbolic definition => do
    bindFormals definition.home [.numeric, .symbolic] definition.formals arguments
    let clauses := (← get).clauses definition
    let result ← selectClause (evaluate limit definition.home false) definition.name clauses
    flattenNow home result
  | _ => do
    let value ← procedure.apply (callModel limit) 0 arguments
    notForm value

/-- A step on a call of literals; `head` is what stands in function position. -/
def expandCall (limit home : Nat) (key : Value) (head : Option Form) (arguments : List Value) :
    Eval Value := do
  let symbolic ← Eval.resolve home .symbolic key
  let numeric ← Eval.resolve home .numeric key
  match symbolic with
  | some procedure =>
    if procedure.isProcedure then expandSymbolic limit home procedure arguments
    else expandNumeric numeric
  | none => expandNumeric numeric
where
  expandNumeric : Option Value → Eval Value
    | some procedure =>
      if procedure.isProcedure then procedure.apply (callModel limit) 0 arguments
      else notFound
    | none => notFound
  notFound : Eval Value := do
    let shown ← Eval.ofExcept ((head.getD .blank).render)
    throw (.notFound (.unknown shown))

/-- A tree as a step left it, and what the step gave. -/
structure Stepped (α : Type) where
  node : Form
  result : Except Failure α

/-- Run a computation and keep its failure as a value. -/
def attempt {α : Type} (action : Eval α) : StateM State (Except Failure α) := fun state =>
  match action.run state with
  | .ok a state => (.ok a, state)
  | .error failure state => (.error failure, state)

def reread (value : Value) : Except Failure Form := do
  let source ← value.format
  Node.read source

/-- A tree for a place below an expression with this anchor: with anchors of
its own, if the expression has one. -/
def settle (anchor : Option Nat) (node : Form) : StateM State Form := fun state =>
  if anchor.isSome then state.anchor node else (node, state)

/-- Reduce one argument of an expression with this anchor; `step` is one step
on the argument. -/
def reduceArgument (limit home : Nat) (anchor : Option Nat) (step : StateM State (Stepped Value))
    (node : Form) : StateM State (Form × Option Failure) :=
  match node with
  | .blank => pure (node, some (.noOperatorName "NoneType"))
  | .operator .. => pure (node, some (.noOperatorName "Operator"))
  | .literal .. => pure (node, none)
  | .expression _ frame => do
    let state ← get
    let symbolic := (state.table home .symbolic).resolve (operatorKey node)
    if (symbolic.map Value.isPresent).getD false then
      let step ← step
      match step.result >>= reread with
      | .ok reduced =>
        let reduced ← settle anchor reduced
        return (reduced, none)
      | .error failure => return (step.node, some failure)
    else
      match ← attempt (evaluate limit home false node) with
      | .ok value => return (.literal value frame.depth, none)
      | .error failure => return (node, some failure)

mutual
def expand (limit home : Nat) : Form → StateM State (Stepped Value)
  | .blank => pure ⟨.blank, .error (.badOperand (.notExpandable "None"))⟩
  | .literal value depth => do
    let result ← attempt (literalOrNumber limit home value depth)
    return ⟨.literal value depth, result⟩
  | .operator name depth =>
    let shown := "Operator(name=" ++ Text.quoted name ++ ", depth=" ++ integerDigits depth ++ ")"
    pure ⟨.operator name depth, .error (.badOperand (.notExpandable shown))⟩
  | .expression [] frame => do
    let node : Form := .expression [] frame
    let result ← attempt (expandCall limit home (operatorKey node) none [])
    return ⟨node, result⟩
  | .expression (head :: operands) frame => do
    let node : Form := .expression (head :: operands) frame
    match literalArguments? operands with
    | some literals =>
      let result ← attempt do
        let arguments ← actuals limit home literals
        expandCall limit home (operatorKey node) (some head) arguments
      return ⟨node, result⟩
    | none =>
      let (children, failure) ← reduceArguments limit home frame.anchor [head] operands
      let node : Form := .expression children frame
      match failure with
      | some failure => return ⟨node, .error failure⟩
      | none =>
        let result ← attempt (flattenNow home node)
        return ⟨node, result⟩

/-- Reduce the arguments that are not literals, from left to right, up to the
first failure. `before` holds the children to their left; the result has all
children. -/
def reduceArguments (limit home : Nat) (anchor : Option Nat) (before : List Form) :
    List Form → StateM State (List Form × Option Failure)
  | [] => pure (before, none)
  | node :: rest => do
    let (reduced, failure) ← reduceArgument limit home anchor (expand limit home node) node
    match failure with
    | some failure => return (before ++ reduced :: rest, some failure)
    | none =>
      -- the arguments still to come may call a procedure that shares this form
      if !node.isLiteral then modify (·.revise anchor (before ++ reduced :: rest))
      reduceArguments limit home anchor (before ++ [reduced]) rest
end

/-- Report what a step on `node` gave, and read it back unless it is `nan`. -/
def readOn (node : Form) (value : Value) : Eval (Option Form) := do
  Eval.report (.expanded value)
  if value.isNan then
    Eval.report (.producedNan node)
    return none
  else
    let next ← Eval.ofExcept (reread value)
    return some next

/-- Step again and again on the text of each step, until it is no longer an
expression, a step gives `nan`, or `remaining` steps are done. -/
def expandAll (limit home : Nat) (cap : Int) :
    Nat → Form → StateM State (Stepped (List Value))
  | remaining, .expression children frame => do
    let node : Form := .expression children frame
    match remaining with
    | 0 =>
      let reported ← attempt (Eval.report (.stopped cap))
      return ⟨node, reported.map fun () => []⟩
    | remaining + 1 =>
      let step ← expand limit home node
      match step.result with
      | .error failure => return ⟨step.node, .error failure⟩
      | .ok value =>
        match ← attempt (readOn step.node value) with
        | .error failure => return ⟨step.node, .error failure⟩
        | .ok none => return ⟨step.node, .ok []⟩
        | .ok (some next) =>
          let later ← expandAll limit home cap remaining next
          return ⟨step.node, later.result.map (value :: ·)⟩
  | _, node => pure ⟨node, .ok []⟩

/-- The values of all steps from a tree on, at most `cap` of them. -/
def trace (limit home : Nat) (cap : Int) (node : Form) : StateM State (Stepped (List Value)) :=
  expandAll limit home cap cap.toNat node

end Stepper
