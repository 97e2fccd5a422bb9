import Stepper.Proofs.Agreement
import Stepper.Proofs.Expansion

/-!
What was reported before has no influence, and what is reported is settled from
the start. Two states that differ in their logs only are told apart by nothing
that an interpreter is asked to do, and the threshold stays as it is.
-/

namespace Stepper

/-- States with a threshold that differ in what was reported at most. -/
def State.Relogged (threshold : Option Nat) (one other : State) : Prop :=
  one.threshold = threshold ∧ ∃ log, other = { one with log }

theorem State.relogged_self (state : State) : State.Relogged state.threshold state state :=
  ⟨rfl, state.log, rfl⟩

variable {threshold : Option Nat}

/-- Computations that keep the threshold and end alike whatever was reported before
them. -/
abbrev Unheard {α : Type} (threshold : Option Nat) (action : Eval α) : Prop :=
  Pairs (fun _ => True) (State.Relogged threshold) (State.Relogged threshold) Eq action action

namespace Unheard

variable {α β : Type}

theorem pure (a : α) : Unheard threshold (pure a) :=
  Pairs.pure rfl

theorem throw (failure : Failure) : Unheard threshold (throw failure : Eval α) :=
  Pairs.throw trivial

theorem ofExcept (action : Except Failure α) : Unheard threshold (Eval.ofExcept action) :=
  Pairs.mono (.ofExcept fun _ _ => trivial) fun _ _ => And.left

theorem bind {action : Eval α} {next : α → Eval β} (first : Unheard threshold action)
    (second : ∀ a, Unheard threshold (next a)) : Unheard threshold (action >>= next) := by
  refine Pairs.bind first fun a b same => ?_
  rw [← same]
  exact second a

theorem forM {items : List α} {action : α → Eval Unit}
    (each : ∀ item, Unheard threshold (action item)) : Unheard threshold (items.forM action) :=
  Pairs.mono (.forM fun item _ => (each item).mono fun _ _ _ => trivial) fun _ _ _ => rfl

/-- A computation that looks at the state, but not at its log. -/
theorem get {next : State → Eval α} (go : ∀ state, Unheard threshold (next state))
    (same : ∀ state log, next { state with log } = next state) :
    Unheard threshold (MonadState.get >>= next) := by
  refine Pairs.get ?_
  rintro state _ ⟨_, log, rfl⟩
  rw [same state log]
  exact go state

end Unheard

theorem resolve_unheard {home : Nat} {reading : Reading} {key : Value} :
    Unheard threshold (Eval.resolve home reading key) := by
  rintro one _ ⟨kept, log, rfl⟩
  exact .ok ⟨kept, log, rfl⟩ rfl

theorem define_unheard {home : Nat} {reading : Reading} {key value : Value} :
    Unheard threshold (Eval.define home reading key value) := by
  rintro one _ ⟨kept, log, rfl⟩
  cases key with
  | list items => exact .error ⟨kept, log, rfl⟩ trivial
  | _ => exact .ok ⟨kept, log, rfl⟩ rfl

theorem newSerial_unheard : Unheard threshold Eval.newSerial := by
  rintro one _ ⟨kept, log, rfl⟩
  exact .ok ⟨kept, log, rfl⟩ rfl

/-- The threshold alone decides whether an event is put into words. -/
theorem report_unheard {event : Event} : Unheard threshold (Eval.report event) := by
  refine Pairs.get ?_
  rintro one _ ⟨kept, log, rfl⟩
  have wants : ({ one with log } : State).wants event.severity = one.wants event.severity := rfl
  rw [wants]
  split
  · refine Pairs.bind (Unheard.ofExcept event.report) ?_
    rintro report _ rfl _ _ _
    exact .ok ⟨kept, _, rfl⟩ rfl
  · exact Unheard.pure ()

section Definitions

variable {home : Nat} {reading : Reading}

theorem refuse_unheard {α : Type} {node : Form} {failure : String → Failure} :
    Unheard threshold (do
      let shown ← Eval.ofExcept node.render
      throw (failure shown) : Eval α) :=
  .bind (.ofExcept node.render) fun shown => .throw (failure shown)

theorem defineProcedure_unheard {name : String} {formals : List Value} {body : Form} :
    Unheard threshold (defineProcedure home reading name formals body) := by
  refine .bind (.forM fun _ => define_unheard) fun _ => ?_
  cases body with
  | expression children frame =>
      dsimp only
      split
      · refine .bind (.ofExcept _) fun clauses => .bind newSerial_unheard fun serial => ?_
        exact define_unheard
      · exact .bind resolve_unheard fun target => define_unheard
  | _ => exact refuse_unheard

theorem enterDefinition_unheard {form : Form} {constant : Eval Value}
    (evaluates : Unheard threshold constant) :
    Unheard threshold (enterDefinition home reading form constant) := by
  unfold enterDefinition
  split
  · rename_i head name depth body frame
    have bound : ∀ value, Unheard threshold (do
        Eval.define home reading name value
        if reading = .numeric then Eval.report (.definedConstant name)) := by
      intro value
      refine .bind define_unheard fun _ => ?_
      split
      · exact report_unheard
      · exact .pure ()
    cases body with
    | literal value depth => exact .bind (.pure value) bound
    | _ => exact .bind evaluates bound
  · split
    · refine .bind (.ofExcept _) fun formals => ?_
      refine .bind defineProcedure_unheard fun _ => ?_
      split
      · exact report_unheard
      · exact .pure ()
    · exact refuse_unheard
  · exact refuse_unheard
  · exact refuse_unheard

end Definitions

/-- Calls that end alike whatever was reported before them. -/
def CallModel.Unheard (threshold : Option Nat) (call : CallModel) : Prop :=
  ∀ level definition arguments, Stepper.Unheard threshold (call level definition arguments)

section Evaluation

variable {call : CallModel} {home : Nat}

theorem applicable_unheard {head : Form} {value : Value} :
    Unheard threshold (applicable head value) := by
  unfold applicable
  split
  · exact refuse_unheard
  · split
    · refine .bind (.ofExcept _) fun shown => .bind (.ofExcept _) fun bound => ?_
      exact .throw _
    · exact .pure ()

theorem apply_unheard (calls : call.Unheard threshold) {level : Nat} {procedure : Value}
    {arguments : List Value} : Unheard threshold (procedure.apply call level arguments) := by
  cases procedure with
  | builtin operation => exact .ofExcept _
  | procedure reading definition => exact calls level definition arguments
  | _ => exact .pure Value.nil

mutual
theorem eval_unheard (calls : call.Unheard threshold) (both : Bool) (level : Nat) (node : Form) :
    Unheard threshold (node.eval call home both level) := by
  cases node with
  | blank => exact .throw _
  | literal value depth =>
      rw [Node.eval]
      refine .bind resolve_unheard fun bound => .bind (.ofExcept _) fun number => ?_
      exact .pure _
  | operator name depth =>
      rw [Node.eval]
      exact .bind resolve_unheard fun bound => .pure _
  | expression children frame =>
      cases children with
      | nil => exact .throw _
      | cons head operands =>
          have entered : ∀ reading, Unheard threshold (enterDefinition home reading
              (.expression (head :: operands) frame) (evalLast call home (level + 4) operands)) :=
            fun reading =>
              enterDefinition_unheard (evalLast_unheard calls (level + 4) operands)
          rw [Node.eval]
          dsimp only
          split
          · refine .bind (entered .numeric) fun _ => ?_
            split
            · exact .bind (entered .symbolic) fun _ => .pure _
            · exact .pure _
          · refine .bind (eval_unheard calls both (level + 1) head) fun procedure => ?_
            refine .bind applicable_unheard fun _ => ?_
            refine .bind (evalAll_unheard calls both (level + 2) operands) fun arguments => ?_
            exact apply_unheard calls

theorem evalAll_unheard (calls : call.Unheard threshold) (both : Bool) (level : Nat)
    (nodes : List Form) : Unheard threshold (evalAll call home both level nodes) := by
  cases nodes with
  | nil => exact .pure _
  | cons node rest =>
      rw [evalAll]
      refine .bind (eval_unheard calls both level node) fun value => ?_
      exact .bind (evalAll_unheard calls both level rest) fun values => .pure _

theorem evalLast_unheard (calls : call.Unheard threshold) (level : Nat) (nodes : List Form) :
    Unheard threshold (evalLast call home level nodes) := by
  cases nodes with
  | nil => exact .pure _
  | cons node rest =>
      rw [evalLast]
      split
      · exact eval_unheard calls false level node
      · exact evalLast_unheard calls level rest
end

theorem bindFormals_unheard {readings : List Reading} {formals arguments : List Value} :
    Unheard threshold (bindFormals home readings formals arguments) := by
  induction formals generalizing arguments with
  | nil => exact .pure ()
  | cons formal rest ih =>
      exact .bind (.forM fun _ => define_unheard) fun _ => ih

theorem selectClause_unheard {eval : Form → Eval Value}
    (evals : ∀ node, Unheard threshold (eval node)) (name : String)
    (clauses : List (Clause Value)) :
    Unheard threshold (selectClause eval name clauses) := by
  induction clauses with
  | nil => exact .throw _
  | cons clause rest ih =>
      refine .bind (evals clause.test) fun tested => ?_
      split
      · exact .pure _
      · exact ih

theorem evalWithin_unheard (calls : call.Unheard threshold) (limit room level : Nat) (node : Form) :
    Unheard threshold (evalWithin limit call home room level node) := by
  unfold evalWithin
  split
  · exact .throw _
  · exact eval_unheard calls false level node

theorem callWithin_unheard (limit room : Nat) : (callWithin limit room).Unheard threshold := by
  induction room with
  | zero =>
      intro level definition arguments
      rw [callWithin]
      exact .bind bindFormals_unheard fun _ => .throw _
  | succ room ih =>
      intro level definition arguments
      cases level with
      | succ level => exact ih level definition arguments
      | zero =>
          rw [callWithin]
          refine .bind bindFormals_unheard fun _ => .get (fun state => ?_) fun _ _ => rfl
          refine .bind (selectClause_unheard (evalWithin_unheard ih limit room 2) _ _) ?_
          exact evalWithin_unheard ih limit room 1

theorem evaluate_unheard {limit home : Nat} {both : Bool} {node : Form} :
    Unheard threshold (evaluate limit home both node) :=
  eval_unheard (callWithin_unheard limit limit) both 0 node

end Evaluation

/-- As `Unheard`, of computations that keep their failure as a value. -/
def Overlooks {α : Type} (threshold : Option Nat) (action : StateM State α) : Prop :=
  ∀ one other : State, State.Relogged threshold one other →
    (action other).1 = (action one).1 ∧
      State.Relogged threshold (action one).2 (action other).2

namespace Overlooks

variable {α β : Type}

theorem pure (a : α) : Overlooks threshold (pure a) :=
  fun _ _ related => ⟨rfl, related⟩

theorem bind {action : StateM State α} {next : α → StateM State β}
    (first : Overlooks threshold action) (second : ∀ a, Overlooks threshold (next a)) :
    Overlooks threshold (action >>= next) := by
  intro one other related
  obtain ⟨same, kept⟩ := first one other related
  change (next (action other).1 (action other).2).1 = (next (action one).1 (action one).2).1 ∧
    State.Relogged threshold (next (action one).1 (action one).2).2
      (next (action other).1 (action other).2).2
  rw [same]
  exact second _ _ _ kept

/-- A computation that looks at the state, but not at its log. -/
theorem get {next : State → StateM State α} (go : ∀ state, Overlooks threshold (next state))
    (same : ∀ state log, next { state with log } = next state) :
    Overlooks threshold (MonadState.get >>= next) := by
  rintro state _ ⟨kept, log, rfl⟩
  change (next { state with log } { state with log }).1 = (next state state).1 ∧
    State.Relogged threshold (next state state).2 (next { state with log } { state with log }).2
  rw [same]
  exact go state _ _ ⟨kept, log, rfl⟩

theorem attempt {action : Eval α} (unheard : Unheard threshold action) :
    Overlooks threshold (attempt action) := by
  intro one other related
  have ends := unheard one other related
  rw [Stepper.attempt, Stepper.attempt, EStateM.run, EStateM.run]
  generalize action one = run, action other = runOther at ends
  cases ends with
  | ok keeps same => exact ⟨by rw [same], keeps⟩
  | error keeps _ => exact ⟨rfl, keeps⟩

end Overlooks

section Steps

variable {limit home : Nat}

theorem literalOrNumber_unheard {value : Value} {depth : Int} :
    Unheard threshold (literalOrNumber limit home value depth) := by
  refine .bind evaluate_unheard fun number => ?_
  split
  · refine .bind (.ofExcept _) fun outline => ?_
    exact .bind (report_unheard) fun _ => .pure _
  · exact .pure _

theorem actuals_unheard {literals : List (Value × Int)} :
    Unheard threshold (actuals limit home literals) := by
  induction literals with
  | nil => exact .pure []
  | cons literal rest ih =>
      refine .bind literalOrNumber_unheard fun actual => ?_
      exact .bind ih fun others => .pure _

theorem flattenNow_unheard {node : Form} : Unheard threshold (flattenNow home node) :=
  .get (fun _ => .bind (.ofExcept _) fun _ => .pure _) fun _ _ => rfl

theorem expandSymbolic_unheard {procedure : Value} {arguments : List Value} :
    Unheard threshold (expandSymbolic limit home procedure arguments) := by
  unfold expandSymbolic
  split
  · refine .bind bindFormals_unheard fun _ => .get (fun state => ?_) fun _ _ => rfl
    refine .bind (selectClause_unheard (fun _ => evaluate_unheard) _ _) fun result => ?_
    exact flattenNow_unheard
  · refine .bind (apply_unheard (callWithin_unheard limit limit)) fun value => ?_
    exact .bind (.ofExcept _) fun shown => .throw _

theorem expandCall_unheard {key : Value} {head : Option Form} {arguments : List Value} :
    Unheard threshold (expandCall limit home key head arguments) := by
  have byValue : ∀ numeric,
      Unheard threshold (expandCall.expandNumeric limit head arguments numeric) := by
    intro numeric
    cases numeric with
    | none => exact refuse_unheard
    | some procedure =>
        rw [expandCall.expandNumeric]
        split
        · exact apply_unheard (callWithin_unheard limit limit)
        · exact refuse_unheard
  refine .bind resolve_unheard fun symbolic => .bind resolve_unheard fun numeric => ?_
  cases symbolic with
  | none => exact byValue numeric
  | some procedure =>
      dsimp only
      split
      · exact expandSymbolic_unheard
      · exact byValue numeric

theorem settle_overlooks {anchor : Option Nat} {node : Form} :
    Overlooks threshold (settle anchor node) := by
  rintro one _ ⟨kept, log, rfl⟩
  unfold settle
  split
  · exact ⟨rfl, kept, log, rfl⟩
  · exact ⟨rfl, kept, log, rfl⟩

theorem revise_overlooks {anchor : Option Nat} {children : List Form} :
    Overlooks threshold (modify (·.revise anchor children) : StateM State Unit) := by
  rintro one _ ⟨kept, log, rfl⟩
  cases anchor with
  | none => exact ⟨rfl, kept, log, rfl⟩
  | some anchor => exact ⟨rfl, kept, log, rfl⟩

theorem reduceArgument_overlooks {anchor : Option Nat} {step : StateM State (Stepped Value)}
    (steps : Overlooks threshold step) {node : Form} :
    Overlooks threshold (reduceArgument limit home anchor step node) := by
  cases node with
  | expression children frame =>
      refine .get (fun state => ?_) fun _ _ => rfl
      dsimp only
      split
      · refine .bind steps fun step => ?_
        cases step.result >>= reread with
        | ok reduced => exact .bind settle_overlooks fun _ => .pure _
        | error failure => exact .pure _
      · refine .bind (.attempt evaluate_unheard) fun result => ?_
        cases result with
        | ok value => exact .pure _
        | error failure => exact .pure _
  | _ => exact .pure _

mutual
theorem expand_overlooks (node : Form) : Overlooks threshold (expand limit home node) := by
  cases node with
  | blank => exact .pure _
  | literal value depth =>
      exact .bind (.attempt literalOrNumber_unheard) fun result => .pure _
  | operator name depth => exact .pure _
  | expression children frame =>
      cases children with
      | nil => exact .bind (.attempt expandCall_unheard) fun result => .pure _
      | cons head operands =>
          rw [expand]
          split
          · refine .bind (.attempt ?_) fun result => .pure _
            exact .bind actuals_unheard fun arguments => expandCall_unheard
          · refine .bind (reduceArguments_overlooks operands) fun reduced => ?_
            obtain ⟨children, failure⟩ := reduced
            cases failure with
            | some failure => exact .pure _
            | none => exact .bind (.attempt flattenNow_unheard) fun result => .pure _

theorem reduceArguments_overlooks {anchor : Option Nat} {before : List Form} (nodes : List Form) :
    Overlooks threshold (reduceArguments limit home anchor before nodes) := by
  cases nodes with
  | nil => exact .pure _
  | cons node rest =>
      rw [reduceArguments]
      refine .bind (reduceArgument_overlooks (expand_overlooks node)) fun reduced => ?_
      obtain ⟨reduced, failure⟩ := reduced
      cases failure with
      | some failure => exact .pure _
      | none =>
          dsimp only
          split
          · exact .bind revise_overlooks fun _ => reduceArguments_overlooks rest
          · exact reduceArguments_overlooks rest
end

theorem readOn_unheard {node : Form} {value : Value} : Unheard threshold (readOn node value) := by
  refine .bind report_unheard fun _ => ?_
  split
  · exact .bind report_unheard fun _ => .pure _
  · exact .bind (.ofExcept _) fun next => .pure _

theorem expandAll_overlooks {cap : Int} {remaining : Nat} (node : Form) :
    Overlooks threshold (expandAll limit home cap remaining node) := by
  induction remaining generalizing node with
  | zero =>
      cases node with
      | expression children frame =>
          exact .bind (.attempt report_unheard) fun reported => .pure _
      | _ => exact .pure _
  | succ remaining ih =>
      cases node with
      | expression children frame =>
          rw [expandAll]
          refine .bind (expand_overlooks _) fun step => ?_
          split
          · exact .pure _
          · refine .bind (.attempt readOn_unheard) fun result => ?_
            split
            · exact .pure _
            · exact .pure _
            · exact .bind (ih _) fun later => .pure _
      | _ => exact .pure _

end Steps

section Views

variable {limit home : Nat}

mutual
theorem explain_unheard (level : Number) (node : Form) :
    Unheard threshold (explain limit home level node) := by
  cases node with
  | blank => exact .throw _
  | literal value depth => exact .get (fun _ => .ofExcept _) fun _ _ => rfl
  | operator name depth => exact .pure _
  | expression children frame =>
      rw [explain]
      split
      · exact .bind evaluate_unheard fun value => .ofExcept _
      · exact .bind (explainChildren_unheard level children) fun items => .pure _

theorem explainChildren_unheard (level : Number) (children : List Form) :
    Unheard threshold (explainChildren limit home level children) := by
  cases children with
  | nil => exact .pure _
  | cons node rest =>
      have others := explainChildren_unheard level rest
      cases node with
      | blank => exact others
      | literal value depth =>
          exact .bind (.ofExcept _) fun item => .bind others fun items => .pure _
      | operator name depth => exact .bind others fun items => .pure _
      | expression inner frame =>
          rw [explainChildren]
          refine .bind (explain_unheard level (.expression inner frame)) fun item => ?_
          exact .bind others fun items => .pure _
end

theorem explainDown_unheard {node : Form} (count : Nat) :
    Unheard threshold (explainDown limit home node count) := by
  induction count with
  | zero => exact .pure _
  | succ level ih => exact .bind (explain_unheard _ node) fun view => .bind ih fun views => .pure _

theorem explainSteps_unheard {node : Form} : Unheard threshold (explainSteps limit home node) :=
  .bind (explain_unheard _ node) fun _ => .bind (explainDown_unheard _) fun _ => .pure _

theorem defineForm_unheard {reading : Reading} {form : Form} :
    Unheard threshold (define limit home reading form) := by
  unfold define
  split
  · refine enterDefinition_unheard ?_
    cases form with
    | expression children frame =>
        exact evalLast_unheard (callWithin_unheard limit limit) 0 children
    | _ => exact .pure _
  · exact .pure ()

end Views

namespace Interpreter

variable {interpreter : Interpreter} {limit : Nat}

theorem keeping_overlooks {form : Form} {action : Eval Reply} (unheard : Unheard threshold action) :
    Overlooks threshold (keeping form action) :=
  .bind (.attempt unheard) fun _ => .pure _

theorem performOn_overlooks (task : Task) (form : Form) :
    Overlooks threshold (interpreter.performOn limit task form) := by
  cases task with
  | evaluate => exact keeping_overlooks (.bind evaluate_unheard fun value => .pure _)
  | define =>
      refine keeping_overlooks (.bind defineForm_unheard fun _ => ?_)
      exact .bind defineForm_unheard fun _ => .pure _
  | defineSymbolic => exact keeping_overlooks (.bind defineForm_unheard fun _ => .pure _)
  | explain level =>
      exact keeping_overlooks (.bind (explain_unheard level form) fun view => .pure _)
  | explainSteps => exact keeping_overlooks (.bind explainSteps_unheard fun views => .pure _)
  | expand => exact .bind (expand_overlooks form) fun step => .pure _
  | trace => exact .bind (expandAll_overlooks form) fun step => .pure _

end Interpreter

end Stepper
