import Stepper.Interpreter
import Stepper.Proofs.State

/-!
What one step of evaluation does, and what a task on a text does. Later proofs
use these laws and do not open the evaluator again.
-/

namespace Stepper

variable {call : CallModel} {home level : Nat} {both : Bool} {name : String} {depth : Int}
variable {operands : List Form} {frame : Frame} {state after : State} {value : Value}

theorem eval_literal :
    Node.eval call home both level (.literal value depth) state =
      match (((state.table home .numeric).resolve value).getD value).toNumber with
      | .ok number => .ok (.ofNumber number) state
      | .error failure => .error failure state := by
  rw [Node.eval, Eval.bind_ok (Eval.resolve_run ..)]
  cases (((state.table home .numeric).resolve value).getD value).toNumber with
  | ok number => rfl
  | error failure => rfl

/-- A number that is no key is its own value. -/
theorem eval_number {number : Number}
    (unbound : (state.table home .numeric).resolve (.ofNumber number) = none) :
    Node.eval call home both level (.literal (.ofNumber number) depth) state =
      .ok (.ofNumber number) state := by
  have itself : (Value.ofNumber number).toNumber = .ok number := by
    cases number <;> rfl
  rw [eval_literal, unbound, Option.getD_none, itself]

theorem eval_operator :
    Node.eval call home both level (.operator name depth) state =
      .ok (((state.table home .numeric).resolve (.text name)).getD .nil) state := by
  rw [Node.eval, Eval.bind_ok (Eval.resolve_run ..)]
  rfl

theorem isDefine_operator (notDefine : name ≠ "define") :
    Node.isDefine (.expression (.operator name depth :: operands) frame : Form) = false := by
  simp [Node.isDefine, Node.operatorName?, notDefine]

/-- Why a name with a value that is no procedure cannot be called. -/
def refusal (name : String) (value : Value) : Failure :=
  if value.isTruthy then
    match value.inspect with
    | .ok shown => .notFound (.notProcedure name shown)
    | .error failure => failure
  else .notFound (.unknown name)

theorem isTruthy_of_isProcedure (procedure : value.isProcedure = true) :
    value.isTruthy = true := by
  cases value with
  | builtin operation => rfl
  | procedure reading definition => rfl
  | _ => cases procedure

theorem applicable_run :
    applicable (.operator name depth) value state =
      if value.isProcedure = true then .ok () state else .error (refusal name value) state := by
  rw [applicable, refusal]
  cases procedure : value.isProcedure with
  | true =>
      simp only [isTruthy_of_isProcedure procedure, Bool.not_true, Bool.false_eq_true, if_false]
      rfl
  | false =>
      cases value.isTruthy with
      | false => rfl
      | true => cases value.inspect <;> rfl

/-- A call runs its operands, then what its name is bound to, if that is a
procedure. -/
theorem eval_application (notDefine : name ≠ "define") :
    Node.eval call home both level (.expression (.operator name depth :: operands) frame) state =
      if (((state.table home .numeric).resolve (.text name)).getD .nil).isProcedure = true then
        (evalAll call home both (level + 2) operands >>=
          (((state.table home .numeric).resolve (.text name)).getD .nil).apply call level) state
      else .error (refusal name (((state.table home .numeric).resolve (.text name)).getD .nil))
        state := by
  have fits : applicable (.operator name depth)
      (((state.table home .numeric).resolve (.text name)).getD .nil) state = _ := applicable_run
  rw [Node.eval]
  simp only [isDefine_operator notDefine, Bool.false_eq_true, if_false]
  rw [Eval.bind_ok eval_operator]
  split at fits
  · rename_i procedure
    rw [Eval.bind_ok fits, if_pos procedure]
  · rename_i procedure
    rw [Eval.bind_error fits, if_neg procedure]

theorem eval_call (notDefine : name ≠ "define")
    (bound : (state.table home .numeric).resolve (.text name) = some value)
    (procedure : value.isProcedure = true) :
    Node.eval call home both level (.expression (.operator name depth :: operands) frame) state =
      (evalAll call home both (level + 2) operands >>= value.apply call level) state := by
  rw [eval_application notDefine, bound, Option.getD_some, if_pos procedure]

theorem evalAll_cons {node : Form} {rest : List Form} :
    evalAll call home both level (node :: rest) state =
      (do
        let value ← Node.eval call home both level node
        let values ← evalAll call home both level rest
        return value :: values : Eval (List Value)) state := by
  rw [evalAll]

namespace Interpreter

variable {interpreter : Interpreter} {limit : Nat} {source : String} {form : Form}

/-- Whether the tables of an interpreter are as at its start. -/
def IsFresh (interpreter : Interpreter) (state : State) : Prop :=
  state.workspace interpreter.home = .fresh

theorem start_isFresh (vars : Variables) (limit : Nat) (options : Options) (state : State)
    (bare : options.prelude = none) :
    (start vars limit options state).interpreter.IsFresh (start vars limit options state).state := by
  have nothing : ∀ limit, ((⟨state.workspaces.length,
      options.cap.getD (Settings.maxExpansions vars)⟩ : Interpreter).load limit "").run
        (state.setWorkspace state.workspaces.length .fresh) =
      .ok () (state.setWorkspace state.workspaces.length .fresh) := fun limit => rfl
  simp only [start, bare, Option.getD_none, nothing]
  split <;> exact State.workspace_setWorkspace ..

theorem attempt_onText {action : Form → StateM State (Stepped Reply)}
    (read : Node.readForm source = .ok form) :
    attempt (onText action source) state =
      ((action form state).1.result, (action form state).2) := by
  rw [attempt, EStateM.run, onText, read, Eval.bind_ok (Eval.ofExcept_ok ..), Eval.bind_get]
  rcases action form state with ⟨⟨node, failure | reply⟩, after⟩
  · rfl
  · rfl

theorem onText_unread {action : Form → StateM State (Stepped Reply)} {failure : Failure}
    (read : Node.readForm source = .error failure) :
    onText action source state = .error failure state := by
  rw [onText, read]
  rfl

/-- A task that leaves its form alone does its action on the form that is read. -/
theorem perform_keeping {task : Task} {action : Eval Reply}
    (read : Node.readForm source = .ok form)
    (keeps : interpreter.performOn limit task form = keeping form action) :
    interpreter.perform limit task source state = action state := by
  rw [perform, onText, read, Eval.bind_ok (Eval.ofExcept_ok ..), keeps]
  simp only [bind, EStateM.bind, keeping, attempt, StateT.bind, get, getThe, MonadStateOf.get,
    EStateM.get, set, pure, StateT.pure, EStateM.run]
  cases action state with
  | ok reply after => rfl
  | error failure after => rfl

theorem perform_evaluate (read : Node.readForm source = .ok form) :
    interpreter.perform limit .evaluate source state =
      (do
        let value ← evaluate limit interpreter.home true form
        return .value value : Eval Reply) state :=
  perform_keeping read rfl

end Interpreter

end Stepper
