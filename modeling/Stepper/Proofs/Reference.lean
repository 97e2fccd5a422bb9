import Stepper.Proofs.Definitions

/-!
A reference evaluator that gives each call a frame of its own, and what it means
that a run follows it.
-/

namespace Stepper

section Reference

variable {α : Type} (program : Program)
variable (call : Procedure → List Value → Except Failure Value) (look : α → Except Failure Number)

def Callee.apply : Callee → List Value → Except Failure Value
  | .builtin operation, arguments => operation.apply arguments
  | .procedure definition, arguments => call definition arguments

namespace Term

mutual
/-- The value of a term whose leaves are read by `look`. -/
def value : Term α → Except Failure Value
  | .leaf a => do
    let number ← look a
    return .ofNumber number
  | .call name operands =>
    match program.meaning name with
    | none => .error (.notFound (.unknown name))
    | some callee => do
      let arguments ← values operands
      callee.apply call arguments

def values : List (Term α) → Except Failure (List Value)
  | [] => .ok []
  | operand :: rest => do
    let first ← value operand
    let others ← values rest
    return first :: others
end

end Term

/-- Whether a guard holds. A word holds if it stands for anything. -/
def Guard.holds (look : String → Except Failure Number) : Guard → Except Failure Bool
  | .word name => .ok (program.meaning name).isSome
  | .test term => do
    let tested ← term.value program call look
    return tested.isTruthy

/-- The value of the first clause whose guard holds. -/
def Procedure.valueOf (look : String → Except Failure Number) (name : String) :
    List (Guard × Term String) → Except Failure Value
  | [] => .error (.noClause name)
  | clause :: rest => do
    if ← clause.1.holds program call look then clause.2.value program call look
    else Procedure.valueOf look name rest

end Reference

/-- A name in the frame of a call: a formal stands for its argument, any other
name for itself. -/
def lookIn (formals : List String) (arguments : List Value) (name : String) :
    Except Failure Number :=
  (((supplied name formals arguments).bind Value.bound?).getD (.text name)).toNumber

namespace Program

/-- What a call gives, with at most `depth` calls inside each other. -/
def call (program : Program) : Nat → Procedure → List Value → Except Failure Value
  | 0, _, _ => .error (.tooDeep 0)
  | depth + 1, procedure, arguments =>
    Procedure.valueOf program (call program depth) (lookIn procedure.formals arguments)
      procedure.name procedure.clauses

/-- The value of a term outside all procedures. -/
def evaluate (program : Program) (depth : Nat) (term : Term String) : Except Failure Value :=
  term.value program (program.call depth) (lookIn [] [])

end Program

/-- The kinds of failure, their causes aside. -/
inductive Failure.Kind where
  | malformed
  | notFound
  | noClause
  | arity
  | tooDeep
  | badValue
  | outOfRange
  | badOperand
  | noOperatorName
  | emptyPrelude
  | beforeText
  | stackOverflow
deriving DecidableEq

def Failure.kind : Failure → Failure.Kind
  | .malformed _ => .malformed
  | .notFound _ => .notFound
  | .noClause _ => .noClause
  | .arity .. => .arity
  | .tooDeep _ => .tooDeep
  | .badValue _ => .badValue
  | .outOfRange _ => .outOfRange
  | .badOperand _ => .badOperand
  | .noOperatorName _ => .noOperatorName
  | .emptyPrelude => .emptyPrelude
  | .beforeText => .beforeText
  | .stackOverflow => .stackOverflow

/-- The failure that a run ends with, if it fails. -/
def failure? {α : Type} : EStateM.Result Failure State α → Option Failure
  | .ok .. => none
  | .error failure _ => some failure

def expectedFailure? {α : Type} : Except Failure α → Option Failure
  | .ok _ => none
  | .error failure => some failure

/-- A run that gives what is expected or fails in the same kind. It may also
fail as `tolerated`; with `short`, what is expected may run out of depth. -/
inductive Follows {α : Type} (tolerated : Failure → Prop) (short : Prop) :
    EStateM.Result Failure State α → Except Failure α → Prop where
  | ok (a : α) (after : State) : Follows tolerated short (.ok a after) (.ok a)
  | error {failure expected : Failure} (after : State) (same : failure.kind = expected.kind) :
      Follows tolerated short (.error failure after) (.error expected)
  | tolerated {failure : Failure} (after : State) (expected : Except Failure α)
      (tolerable : tolerated failure) : Follows tolerated short (.error failure after) expected
  | short {expected : Failure} (run : EStateM.Result Failure State α) (isShort : short)
      (deep : expected.kind = .tooDeep) : Follows tolerated short run (.error expected)

theorem Follows.bind {α β : Type} {tolerated : Failure → Prop} {short : Prop} {action : Eval α}
    {expected : Except Failure α} {next : α → Eval β} {expectedNext : α → Except Failure β}
    {state : State} (first : Follows tolerated short (action state) expected)
    (second : ∀ a after, action state = .ok a after →
      Follows tolerated short (next a after) (expectedNext a)) :
    Follows tolerated short ((action >>= next) state) (expected >>= expectedNext) := by
  generalize ran : action state = run at first second
  cases first with
  | ok a after =>
      rw [Eval.bind_ok ran]
      exact second a after rfl
  | error after same =>
      rw [Eval.bind_error ran]
      exact .error after same
  | tolerated after expected tolerable =>
      rw [Eval.bind_error ran]
      exact .tolerated after _ tolerable
  | short run isShort deep => exact .short _ isShort deep

end Stepper
