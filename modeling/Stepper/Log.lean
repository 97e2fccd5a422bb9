import Stepper.Node.Render

/-!
What an interpreter reports while it works.
-/

namespace Stepper

inductive Severity where
  | debug
  | warning
deriving DecidableEq

/-- The rank of a severity; a threshold lets through what ranks no lower. -/
def Severity.rank : Severity → Nat
  | .debug => 10
  | .warning => 30

def Severity.name : Severity → String
  | .debug => "DEBUG"
  | .warning => "WARNING"

inductive Event where
  | definedConstant (name : Value)
  | definedProcedure (name : String) (formals : List Value)
  | expanding (shown : String) (cap : Int)
  | expanded (value : Value)
  | keptLiteral (outline : String)
  | stopped (cap : Int)
  | producedNan (node : Form)

structure Report where
  severity : Severity
  channel : String
  message : String
deriving DecidableEq

namespace Event

def severity : Event → Severity
  | .definedConstant _ => .debug
  | .definedProcedure .. => .debug
  | .expanding .. => .debug
  | .expanded _ => .debug
  | .keptLiteral _ => .warning
  | .stopped _ => .warning
  | .producedNan _ => .warning

def channel : Event → String
  | .definedConstant _ => "stepwise.evaluation.special_forms.define_form"
  | .definedProcedure .. => "stepwise.evaluation.special_forms.define_form"
  | .expanding .. => "stepwise.interpreter"
  | .expanded _ => "stepwise.evaluation.expand"
  | .keptLiteral _ => "stepwise.evaluation.expand"
  | .stopped _ => "stepwise.evaluation.expand"
  | .producedNan _ => "stepwise.evaluation.expand"

/-- The words for an event. There are none for too long an integer. -/
def message : Event → Except Failure String
  | .definedConstant name => do
    let shown ← name.display
    return "defined constant " ++ shown
  | .definedProcedure name formals => do
    let shown ← (Value.list formals).inspect
    return "defined procedure " ++ name ++ " " ++ shown
  | .expanding shown cap => .ok ("expanding " ++ shown ++ " (cap " ++ integerDigits cap ++ ")")
  | .expanded value => do
    let shown ← value.display
    return "expanded = " ++ shown
  | .keptLiteral outline => .ok ("Evaluation error for " ++ outline ++ ", keeping the literal text")
  | .stopped cap => .ok ("Stopped expanding after " ++ integerDigits cap ++ " steps")
  | .producedNan node => do
    let shown ← node.render
    return "Expansion of " ++ shown ++ " produced NaN, stopping"

def report (event : Event) : Except Failure Report := do
  let message ← event.message
  return ⟨event.severity, event.channel, message⟩

end Event

end Stepper
