import Stepper.CommandLine.Arguments
import Stepper.CommandLine.Path
import Stepper.CommandLine.Usage
import Stepper.Interpreter

/-!
A run of the command: from arguments, variables and files to what is printed
and the exit code.
-/

namespace Stepper.CommandLine

open Text (quoted upperCase)

structure Outcome where
  code : Nat
  output : String
  errors : String

/-- The least rank that is reported under each level name. -/
def levelRanks : List (String × Nat) :=
  [("CRITICAL", 50), ("FATAL", 50), ("ERROR", 40), ("WARN", 30), ("WARNING", 30), ("INFO", 20),
   ("DEBUG", 10), ("NOTSET", 0)]

/-- The least rank that a run reports. -/
def threshold (vars : Variables) (arguments : Arguments) : Except Failure Nat :=
  let asked := arguments.logLevel.getD ""
  let name := upperCase (if asked = "" then Settings.logLevel vars else asked)
  match levelRanks.lookup name with
  | some rank => .ok rank
  | none => .error (.badValue (.logLevel name))

/-- Why a run ends early: a failure of the session, or a file that cannot be read. -/
inductive Trouble where
  | failure (cause : Failure)
  | file (message : String)

/-- Whether a failure is told to the user; the others break off the run. -/
def isTold : Failure → Bool
  | .malformed _ => true
  | .notFound _ => true
  | .noClause _ => true
  | .arity .. => true
  | .tooDeep _ => true
  | _ => false

def fileText (readFile : String → FileRead) (path : String) : Except Trouble String :=
  let path := plainPath path
  let refused (number : String) (reason : String) : Except Trouble String :=
    .error (.file ("[Errno " ++ number ++ "] " ++ reason ++ ": " ++ quoted path))
  if '\x00' ∈ path.toList then .error (.failure (.badValue .pathWithNul))
  else
    match readFile path with
    | .contents text => .ok (String.ofList (unixLines text.toList))
    | .missing => refused "2" "No such file or directory"
    | .directory => refused "21" "Is a directory"
    | .notDirectory => refused "20" "Not a directory"
    | .nameTooLong => refused "36" "File name too long"
    | .failed reason => .error (.file reason)

def preludeText (readFile : String → FileRead) : Setting String → Except Trouble String
  | .unset => .ok ""
  | .empty => .error (.failure .emptyPrelude)
  | .value path => fileText readFile path

def Mode.task : Mode → Task
  | .eval => .evaluate
  | .explain => .explainSteps
  | .expand => .expand
  | .trace => .trace

/-- The lines for a reply; a trace starts with the expression itself. -/
def replyLines (source : String) : Reply → Except Failure (List String)
  | .done => .ok []
  | .value value => value.format.map fun line => [line]
  | .view line => .ok [line]
  | .views lines => .ok lines
  | .steps values => (values.mapM Value.format).map (source :: ·)

/-- What a trace without a usable cap gives: it fails as soon as there is a step
to take. -/
def traceUncapped (source : String) : Eval Reply := do
  match ← Eval.ofExcept (Node.readForm source) with
  | .expression .. => throw (.badOperand .emptyCap)
  | _ => return .steps []

def expressionLines (interpreter : Interpreter) (limit : Nat) (cap : Setting Int) (mode : Mode)
    (source : String) : Eval (List String) := do
  let reply ←
    match mode, cap with
    | .trace, .empty => traceUncapped source
    | mode, _ => interpreter.serve limit (.perform mode.task source)
  Eval.ofExcept (replyLines source reply)

/-- The prelude, then the definitions, then the lines for the expressions. -/
def allLines (interpreter : Interpreter) (limit : Nat) (prelude : String)
    (arguments : Arguments) : Eval (List String) := do
  interpreter.load limit prelude
  arguments.definitions.forM fun source => do
    let _ ← interpreter.serve limit (.perform .define source)
  match arguments.mode with
  | none => return []
  | some mode =>
    let lines ← arguments.expressions.mapM
      (expressionLines interpreter limit arguments.maxExpansions mode)
    return lines.flatten

/-- The lines that a run prints, and the state it leaves. -/
def runLines (started : Interpreter.Started) (prelude : Except Trouble String)
    (arguments : Arguments) : Except Trouble (List String) × State :=
  match prelude with
  | .error trouble => (.error trouble, started.state)
  | .ok source =>
    match (allLines started.interpreter started.limit source arguments).run started.state with
    | .ok lines state => (.ok lines, state)
    | .error failure state => (.error (.failure failure), state)

def reportLine (report : Report) : String :=
  report.severity.name ++ " " ++ report.channel ++ ": " ++ report.message ++ "\n"

/-- Run the command. A failure that is not told to the user is the result. -/
def runArguments (vars : Variables) (readFile : String → FileRead)
    (arguments : Arguments) : Except Failure Outcome := do
  let rank ← threshold vars arguments
  let options : Interpreter.Options := { cap := arguments.maxExpansions.value? }
  let started := Interpreter.start vars initialLimit options { threshold := some rank }
  started.result
  let prelude := preludeText readFile arguments.prelude
  let (result, state) := runLines started prelude arguments
  let reports := String.join (state.log.toList.map reportLine)
  let told (message : String) : Outcome := ⟨1, "", reports ++ "error: " ++ message ++ "\n"⟩
  match result with
  | .ok lines => return ⟨0, String.join (lines.map (· ++ "\n")), reports⟩
  | .error (.file message) => return told message
  | .error (.failure cause) => if isTold cause then return told cause.message else throw cause

def run (vars : Variables) (readFile : String → FileRead) (texts : List String) :
    Except Failure Outcome :=
  match parse texts with
  | .error .help => .ok ⟨0, help, ""⟩
  | .error (.usage message) => .ok ⟨2, "", usage ++ "stepwise: error: " ++ message ++ "\n"⟩
  | .ok arguments => runArguments vars readFile arguments

end Stepper.CommandLine
