import Stepper.Expansion
import Stepper.Settings

/-!
Interpreters: each has a workspace of its own, whose tables persist from one
task to the next. A task that fails keeps what it changed before. The recursion
limit is shared by all interpreters; starting one can only raise it.

The limit bounds calls of defined procedures, and a task that exceeds it there
fails as `tooDeep`. How deep the tree of a task is nested itself is left aside by
`perform` and `performOn`: on a tree nested deeper than the limit they give what a
deep enough stack would. Only the record with which a trace begins is held to the
limit, by `announce`; that record is made before anything tells of the depth.
-/

namespace Stepper

/-- The recursion limit before any interpreter starts. -/
def initialLimit : Nat := 1000

/-- The largest limit that can be set. -/
def largestLimit : Int := 2147483647

/-- Raise the recursion limit to what is asked for; never lower it. -/
def raiseLimit (limit : Nat) (asked : Int) : Except Failure Nat :=
  if asked ≤ limit then .ok limit
  else if asked ≤ largestLimit then .ok asked.toNat
  else .error (.outOfRange .limit)

inductive Task where
  | evaluate
  /-- Enter a definition under both readings. -/
  | define
  /-- Enter a definition under the symbolic reading only. -/
  | defineSymbolic
  | explain (level : Number)
  | explainSteps
  | expand
  | trace

inductive Reply where
  | done
  | value (value : Value)
  | view (text : String)
  | views (texts : List String)
  | steps (values : List Value)

/-- What an interpreter may be asked to do with a text. -/
inductive Request where
  | perform (task : Task) (source : String)
  | load (source : String)

/-- Works in the workspace `home`; its traces take at most `cap` steps. -/
structure Interpreter where
  home : Nat
  cap : Int

namespace Interpreter

/-- A computation that leaves its form as it is. -/
def keeping (form : Form) (action : Eval Reply) : StateM State (Stepped Reply) := do
  let result ← attempt action
  return ⟨form, result⟩

def performOn (interpreter : Interpreter) (limit : Nat) (task : Task) (form : Form) :
    StateM State (Stepped Reply) :=
  let home := interpreter.home
  match task with
  | .evaluate => keeping form do
    let value ← evaluate limit home true form
    return .value value
  | .define => keeping form do
    define limit home .numeric form
    define limit home .symbolic form
    return .done
  | .defineSymbolic => keeping form do
    define limit home .symbolic form
    return .done
  | .explain level => keeping form do
    let view ← explain limit home level form
    return .view view
  | .explainSteps => keeping form do
    let views ← explainSteps limit home form
    return .views views
  | .expand => do
    let step ← expand limit home form
    return ⟨step.node, step.result.map .value⟩
  | .trace => do
    let step ← trace limit home interpreter.cap form
    return ⟨step.node, step.result.map .steps⟩

/-- Report that the trace of a form begins. Where this is reported, the form has
to be written, and that takes levels of the stack. -/
def announce (interpreter : Interpreter) (limit : Nat) (form : Form) : Eval Unit := do
  if (← get).wants .debug then
    let shown ← Eval.ofExcept (form.renderWithin limit)
    Eval.report (.expanding shown interpreter.cap)

/-- Do a task; a trace is announced first. -/
def serveOn (interpreter : Interpreter) (limit : Nat) (task : Task) (form : Form) :
    StateM State (Stepped Reply) :=
  match task with
  | .trace => do
    match ← attempt (interpreter.announce limit form) with
    | .error failure => return ⟨form, .error failure⟩
    | .ok () => interpreter.performOn limit .trace form
  | task => interpreter.performOn limit task form

/-- Act on the form that a text spells. -/
def onText (action : Form → StateM State (Stepped Reply)) (source : String) : Eval Reply := do
  let form ← Eval.ofExcept (Node.readForm source)
  let state ← get
  let (step, state) := action form state
  set state
  Eval.ofExcept step.result

def perform (interpreter : Interpreter) (limit : Nat) (task : Task) (source : String) :
    Eval Reply :=
  onText (interpreter.performOn limit task) source

def evalForms (interpreter : Interpreter) (limit : Nat) : List Form → Eval Unit
  | [] => pure ()
  | form :: rest => do
    let _ ← evaluate limit interpreter.home true form
    interpreter.evalForms limit rest

/-- Evaluate every tree of a text in order, up to the first that cannot be read. -/
def load (interpreter : Interpreter) (limit : Nat) (source : String) : Eval Unit := do
  let (forms, failure) := Node.readAll source
  interpreter.evalForms limit forms
  match failure with
  | none => pure ()
  | some failure => throw failure

/-- Do what is asked for, as `serveOn` does it. -/
def serve (interpreter : Interpreter) (limit : Nat) : Request → Eval Reply
  | .perform task source => onText (interpreter.serveOn limit task) source
  | .load source => do
    interpreter.load limit source
    return .done

structure Options where
  prelude : Option String := none
  cap : Option Int := none
  limit : Option Int := none

/-- A new interpreter, the limit and the state after its start, and how the
start went. -/
structure Started where
  interpreter : Interpreter
  limit : Nat
  state : State
  result : Except Failure Unit

/-- Start an interpreter in a new workspace: the limit is raised, then the
prelude is loaded. -/
def start (vars : Variables) (limit : Nat) (options : Options) (state : State) : Started :=
  let home := state.workspaces.length
  let interpreter := ⟨home, options.cap.getD (Settings.maxExpansions vars)⟩
  let state := state.setWorkspace home .fresh
  match raiseLimit limit (options.limit.getD (Settings.recursionLimit vars)) with
  | .error failure => ⟨interpreter, limit, state, .error failure⟩
  | .ok limit =>
    match (interpreter.load limit (options.prelude.getD "")).run state with
    | .ok () state => ⟨interpreter, limit, state, .ok ()⟩
    | .error failure state => ⟨interpreter, limit, state, .error failure⟩

end Interpreter

end Stepper
