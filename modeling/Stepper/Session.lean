import Stepper.Interpreter

/-!
Sessions: interpreters by name, and slots that keep trees. A task on the tree
of a slot leaves the slot with the tree as the task changed it.
-/

namespace Stepper

inductive Subject where
  | source (text : String)
  | slot (name : String)
  | tree (form : Form)

structure Session where
  limit : Nat := initialLimit
  state : State := {}
  interpreters : List (String × Interpreter) := []
  slots : List (String × Form) := []

namespace Session

/-- A computation on a session that may fail. What it changed before failing
stays changed. -/
abbrev Action : Type → Type := EStateM Failure Session

/-- Give `name` to an entry, in place of one that has it. -/
def put {α : Type} (name : String) (entry : α) (entries : List (String × α)) :
    List (String × α) :=
  (name, entry) :: entries.filter fun other => other.1 != name

def interpreter? (session : Session) (name : String) : Option Interpreter :=
  session.interpreters.lookup name

/-- The tree in a slot; a slot that was never filled is blank. -/
def slot (session : Session) (name : String) : Form :=
  (session.slots.lookup name).getD .blank

def fill (session : Session) (name : String) (form : Form) : Session :=
  -- later tasks can change the tree, and procedures that share it see the change
  let (form, state) := session.state.anchor form
  { session with state, slots := put name form session.slots }

/-- Let an interpreter work on the state. -/
def lift {α : Type} (action : Eval α) : Action α := fun session =>
  match action.run session.state with
  | .ok a state => .ok a { session with state }
  | .error failure state => .error failure { session with state }

/-- Start an interpreter. It gets its name only if its start succeeds. -/
def start (vars : Variables) (name : String) (options : Interpreter.Options) : Action Unit :=
  fun session =>
    let started := Interpreter.start vars session.limit options session.state
    let session := { session with limit := started.limit, state := started.state }
    match started.result with
    | .error failure => .error failure session
    | .ok () =>
      let interpreters := put name started.interpreter session.interpreters
      .ok () { session with interpreters }

/-- Do a task on a tree; also returns the tree as the task left it. -/
def performOn (interpreter : Interpreter) (task : Task) (form : Form) (session : Session) :
    Stepped Reply × Session :=
  let (step, state) := interpreter.serveOn session.limit task form session.state
  (step, { session with state })

def perform (interpreter : Interpreter) (task : Task) (subject : Subject) : Action Reply :=
  fun session =>
    match subject with
    | .source text => lift (interpreter.serve session.limit (.perform task text)) session
    | .slot name =>
      let (step, session) := session.performOn interpreter task (session.slot name)
      let session := { session with slots := put name step.node session.slots }
      finish step session
    | .tree form =>
      let (step, session) := session.performOn interpreter task form
      finish step session
where
  finish (step : Stepped Reply) (session : Session) : EStateM.Result Failure Session Reply :=
    match step.result with
    | .ok reply => .ok reply session
    | .error failure => .error failure session

def load (interpreter : Interpreter) (source : String) : Action Unit := fun session =>
  lift (interpreter.load session.limit source) session

end Session

end Stepper
