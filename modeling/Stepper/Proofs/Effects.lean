import Stepper.Proofs.Definitions

/-!
What evaluation changes: a run of a term gives a number and binds only names
that one of its calls can bind, and only to numbers. Terms are numbers, words
and calls; definitions are left out.
-/

namespace Stepper

namespace Term

theorem revised_node (revision : Revision) (depth : Nat) (term : Term Value) :
    (term.node depth).revised revision = term.node depth := by
  induction term generalizing depth with
  | leaf value => rfl
  | call name operands ih =>
      have same : revisedAll revision (nodes (depth + 1) operands) = nodes (depth + 1) operands := by
        induction operands with
        | nil => rfl
        | cons operand rest inner =>
            rw [nodes, revisedAll, ih operand (by simp),
              inner fun operand member => ih operand (by simp [member])]
      simp only [node, Node.revised, reduceCtorEq, if_false, revisedAll, same]

end Term

theorem Guard.revised_node (revision : Revision) (depth : Nat) (guard : Guard) :
    (guard.node depth).revised revision = guard.node depth := by
  cases guard with
  | word name => rfl
  | test term => exact Term.revised_node revision depth _

/-- The clauses of a program are never revised. -/
theorem upToDate_clauseNodes (revisions : List Revision) (clauses : List (Guard × Term String)) :
    Clause.upToDate revisions (Procedure.clauseNodes clauses) = Procedure.clauseNodes clauses := by
  induction revisions with
  | nil => rfl
  | cons revision revisions ih =>
      rw [Clause.upToDate, List.foldr_cons, ← Clause.upToDate, ih, Procedure.clauseNodes,
        List.map_map]
      refine List.map_congr_left fun clause _ => ?_
      simp only [Function.comp, Clause.revised, Guard.revised_node, Term.revised_node]

/-- What a name is bound to in the numeric table. -/
def State.binding (state : State) (home : Nat) (name : String) : Option Value :=
  (state.table home .numeric).resolve (.text name)

section Runs

variable {call : CallModel} {home level : Nat} {both : Bool} {name : String} {depth : Int}
variable {operands : List Form} {frame : Frame} {state after : State} {value : Value}

/-- A call that succeeds looked its name up, then ran its operands, then the
procedure. -/
theorem eval_call_ok (notDefine : name ≠ "define")
    (done : Node.eval call home both level
      (.expression (.operator name depth :: operands) frame) state = .ok value after) :
    ∃ procedure arguments middle, state.binding home name = some procedure ∧
      procedure.isProcedure = true ∧
      evalAll call home both (level + 2) operands state = .ok arguments middle ∧
      procedure.apply call level arguments middle = .ok value after := by
  rw [eval_application notDefine] at done
  split at done
  · rename_i isProcedure
    obtain ⟨arguments, middle, ran, applied⟩ := Eval.of_bind_ok done
    cases bound : (state.table home .numeric).resolve (.text name) with
    | none =>
        rw [bound] at isProcedure
        cases isProcedure
    | some procedure =>
        rw [bound] at isProcedure applied
        exact ⟨procedure, arguments, middle, bound, isProcedure, ran, applied⟩
  · cases done

theorem evalAll_cons_ok {node : Form} {rest : List Form} {values : List Value}
    (done : evalAll call home both level (node :: rest) state = .ok values after) :
    ∃ value middle others, Node.eval call home both level node state = .ok value middle ∧
      evalAll call home both level rest middle = .ok others after ∧ values = value :: others := by
  rw [evalAll] at done
  obtain ⟨value, middle, first, more⟩ := Eval.of_bind_ok done
  obtain ⟨others, last, ran, finished⟩ := Eval.of_bind_ok more
  cases finished
  exact ⟨value, middle, others, first, ran, rfl⟩

theorem evalWithin_ok {limit room : Nat} {node : Form}
    (done : evalWithin limit call home room level node state = .ok value after) :
    level + node.levels ≤ room ∧ node.eval call home false level state = .ok value after := by
  rw [evalWithin] at done
  split at done
  · cases done
  · rename_i fits
    exact ⟨by omega, done⟩

theorem evalWithin_run {limit room : Nat} {node : Form} (fits : level + node.levels ≤ room) :
    evalWithin limit call home room level node state =
      node.eval call home false level state := by
  rw [evalWithin, if_neg (by omega)]

end Runs

/-- A state after a call bound its formals in the numeric table. -/
structure State.Binds (home : Nat) (formals : List String) (arguments : List Value)
    (before after : State) : Prop where
  numeric : Table.Binds formals arguments (before.table home .numeric) (after.table home .numeric)
  symbolic : after.table home .symbolic = before.table home .symbolic

theorem Table.Binds.binding_formal {home : Nat} {formals : List String} {arguments : List Value}
    {before after : State}
    (binds : Table.Binds formals arguments (before.table home .numeric) (after.table home .numeric))
    {name : String} {value : Value} (given : supplied name formals arguments = some value) :
    after.binding home name = value.bound? := by
  rw [State.binding, binds.resolve, given]

theorem Table.Binds.binding_other {home : Nat} {formals : List String} {arguments : List Value}
    {before after : State}
    (binds : Table.Binds formals arguments (before.table home .numeric) (after.table home .numeric))
    {name : String} (notFormal : name ∉ formals) :
    after.binding home name = before.binding home name := by
  rw [State.binding, binds.resolve, supplied_eq_none_iff.mpr notFormal]
  rfl

namespace Procedure

/-- What a call does after its formals are bound, while `room` levels are left. -/
def run (procedure : Procedure) (limit home room : Nat) : Eval Value := do
  let eval := evalWithin limit (callWithin limit room) home room
  let result ← selectClause (eval 2) procedure.name (clauseNodes procedure.clauses)
  eval 1 result

end Procedure

section Calls

variable (limit home serial : Nat) (procedure : Procedure) (arguments : List Value)
variable (state : State)

theorem callWithin_zero (level : Nat) :
    ∃ after, callWithin limit 0 level (procedure.compiled home serial) arguments state =
      .error (.tooDeep limit) after := by
  have alone : [Reading.numeric].Nodup := by decide
  obtain ⟨bound, run, _⟩ := bindFormals_run home alone procedure.formals arguments state
  refine ⟨bound, ?_⟩
  rw [callWithin, Procedure.compiled, Eval.bind_ok run]
  rfl

theorem callWithin_succ (room : Nat) :
    ∃ bound, State.Binds home procedure.formals arguments state bound ∧
      callWithin limit (room + 1) 0 (procedure.compiled home serial) arguments state =
        procedure.run limit home room bound := by
  have alone : [Reading.numeric].Nodup := by decide
  obtain ⟨bound, run, tables⟩ := bindFormals_run home alone procedure.formals arguments state
  refine ⟨bound, ⟨by simpa using tables .numeric, by simpa using tables .symbolic⟩, ?_⟩
  have clauses : bound.clauses (procedure.compiled home serial) =
      Procedure.clauseNodes procedure.clauses := upToDate_clauseNodes ..
  rw [callWithin, Procedure.compiled, Eval.bind_ok run, Eval.bind_get, ← Procedure.compiled,
    clauses]
  rfl

end Calls

theorem callWithin_level (limit room level : Nat) :
    callWithin limit room level = callWithin limit (room - level) 0 := by
  induction level generalizing room with
  | zero => rfl
  | succ level ih =>
      cases room with
      | zero =>
          rw [Nat.zero_sub]
          funext definition arguments
          rw [callWithin, callWithin]
      | succ room =>
          have down : callWithin limit (room + 1) (level + 1) = callWithin limit room level := by
            funext definition arguments
            rw [callWithin]
          rw [down, ih, Nat.add_sub_add_right]

theorem Value.IsNumber.not_procedure {value : Value} (isNumber : value.IsNumber) :
    value.isProcedure = false := by
  cases value <;> first | rfl | cases isNumber

theorem Value.IsNumber.bound?_eq {value : Value} (isNumber : value.IsNumber) :
    value.bound? = some value := by
  cases value <;> first | rfl | cases isNumber

theorem Builtin.apply_isNumber {operation : Builtin} {arguments : List Value} {value : Value}
    (notDefine : operation ≠ .define) (applied : operation.apply arguments = .ok value) :
    value.IsNumber := by
  cases operation with
  | add | subtract | multiply =>
      obtain ⟨numbers, _, rest⟩ := of_except_bind_ok applied
      obtain ⟨total, _, rest⟩ := of_except_bind_ok rest
      cases rest
      exact Value.isNumber_ofNumber total
  | equals =>
      rw [apply.eq_def] at applied
      simp only at applied
      split at applied
      · obtain ⟨x, _, rest⟩ := of_except_bind_ok applied
        obtain ⟨y, _, rest⟩ := of_except_bind_ok rest
        cases rest
        rfl
      · cases applied
  | otherwise =>
      cases applied
      rfl
  | define => exact absurd rfl notDefine

/-- A table in which only names with the property `rebound` are bound anew, to
numbers. -/
structure Table.Drifts (rebound : String → Prop) (before after : Table) : Prop where
  keeps : ∀ name, ¬ rebound name → after.resolve (.text name) = before.resolve (.text name)
  origin : ∀ name value, after.resolve (.text name) = some value →
    before.resolve (.text name) = some value ∨ value.IsNumber
  named : before.Named → after.Named

namespace Table.Drifts

variable {rebound wider : String → Prop} {before middle after : Table}

theorem refl (table : Table) : Drifts rebound table table :=
  ⟨fun _ _ => rfl, fun _ _ bound => .inl bound, id⟩

theorem trans (first : Drifts rebound before middle) (second : Drifts rebound middle after) :
    Drifts rebound before after where
  keeps name kept := (second.keeps name kept).trans (first.keeps name kept)
  origin name value bound := (second.origin name value bound).elim (first.origin name value) .inr
  named := second.named ∘ first.named

theorem mono (drifts : Drifts rebound before after)
    (wide : ∀ name, rebound name → wider name) : Drifts wider before after :=
  { drifts with keeps := fun name kept => drifts.keeps name fun bound => kept (wide name bound) }

/-- Procedures are only taken away. -/
theorem procedure (drifts : Drifts rebound before after) {name : String} {value : Value}
    (bound : after.resolve (.text name) = some value) (isProcedure : value.isProcedure = true) :
    before.resolve (.text name) = some value := by
  rcases drifts.origin name value bound with earlier | isNumber
  · exact earlier
  · rw [isNumber.not_procedure] at isProcedure
    cases isProcedure

end Table.Drifts

/-- A name that a program gives no meaning, and that nothing rebinds, stays unbound. -/
theorem Table.Shows.resolve_free {program : Program} {home : Nat} {reading : Reading}
    {rebound : String → Prop} {table later : Table} (shows : table.Shows program home reading)
    (drifts : Table.Drifts rebound table later) {name : String}
    (free : program.meaning name = none) (kept : ¬ rebound name) :
    later.resolve (.text name) = none :=
  (drifts.keeps name kept).trans (shows.resolve_eq_none free)

theorem Table.Binds.drifts {formals : List String} {arguments : List Value} {before after : Table}
    (binds : Table.Binds formals arguments before after)
    (numbers : ∀ argument ∈ arguments, argument.IsNumber) :
    Table.Drifts (· ∈ formals) before after where
  keeps name notFormal := by
    rw [binds.resolve, supplied_eq_none_iff.mpr notFormal]
  origin name value bound := by
    rw [binds.resolve] at bound
    cases given : supplied name formals arguments with
    | none =>
        simp only [given] at bound
        exact .inl bound
    | some argument =>
        simp only [given] at bound
        rcases supplied_member given with member | rfl
        · have isNumber := numbers argument member
          rw [isNumber.bound?_eq] at bound
          cases bound
          exact .inr isNumber
        · cases bound
  named := binds.named

/-- What a run changes: names with the property `rebound` in the numeric table. -/
structure Changes (home : Nat) (rebound : String → Prop) (before after : State) : Prop where
  numeric : Table.Drifts rebound (before.table home .numeric) (after.table home .numeric)
  symbolic : after.table home .symbolic = before.table home .symbolic

namespace Changes

variable {home : Nat} {rebound wider : String → Prop} {before middle after : State}

theorem refl (state : State) : Changes home rebound state state :=
  ⟨.refl _, rfl⟩

theorem trans (first : Changes home rebound before middle)
    (second : Changes home rebound middle after) : Changes home rebound before after :=
  ⟨first.numeric.trans second.numeric, second.symbolic.trans first.symbolic⟩

theorem mono (changes : Changes home rebound before after)
    (wide : ∀ name, rebound name → wider name) : Changes home wider before after :=
  ⟨changes.numeric.mono wide, changes.symbolic⟩

theorem keeps (changes : Changes home rebound before after) (name : String)
    (kept : ¬ rebound name) : after.binding home name = before.binding home name :=
  changes.numeric.keeps name kept

theorem origin (changes : Changes home rebound before after) (name : String) (value : Value)
    (bound : after.binding home name = some value) :
    before.binding home name = some value ∨ value.IsNumber :=
  changes.numeric.origin name value bound

theorem widen {α β : Type} {program : Program} {actions : List (Action α)}
    {wider : List (Action β)} (changes : Changes home (program.Touches actions) before after)
    (inside : ∀ callee, .call callee ∈ actions → .call callee ∈ wider) :
    Changes home (program.Touches wider) before after :=
  changes.mono fun _ => .mono inside

/-- Runs one after the other touch what one of them touches. -/
theorem append {α : Type} {program : Program} {actions later : List (Action α)}
    (first : Changes home (program.Touches actions) before middle)
    (second : Changes home (program.Touches later) middle after) :
    Changes home (program.Touches (actions ++ later)) before after :=
  .trans (first.widen fun _ => List.mem_append_left _)
    (second.widen fun _ => List.mem_append_right _)

end Changes

theorem State.Binds.changes {home : Nat} {formals : List String} {arguments : List Value}
    {before after : State} (binds : State.Binds home formals arguments before after)
    (numbers : ∀ argument ∈ arguments, argument.IsNumber) :
    Changes home (· ∈ formals) before after :=
  ⟨binds.numeric.drifts numbers, binds.symbolic⟩

/-- Whether the procedures that a state binds are those of a program. -/
def Program.Governs (program : Program) (home : Nat) (state : State) : Prop :=
  ∀ name value, state.binding home name = some value → value.isProcedure = true →
    Stands home .numeric (program.meaning name) (some value)

theorem Table.Shows.governs {program : Program} {home : Nat} {state : State}
    (shows : (state.table home .numeric).Shows program home .numeric) :
    program.Governs home state := by
  intro name value bound isProcedure
  rw [← bound]
  exact shows.stands name

theorem Program.Governs.drift {program : Program} {home : Nat} {rebound : String → Prop}
    {before after : State} (governs : program.Governs home before)
    (drifts : Table.Drifts rebound (before.table home .numeric) (after.table home .numeric)) :
    program.Governs home after :=
  fun name value bound isProcedure =>
    governs name value (drifts.procedure bound isProcedure) isProcedure

theorem Program.Governs.after {program : Program} {home : Nat} {rebound : String → Prop}
    {before after : State} (governs : program.Governs home before)
    (changes : Changes home rebound before after) : program.Governs home after :=
  governs.drift changes.numeric

/-- Calls that give numbers and bind only what the program says. -/
def Framed (program : Program) (home : Nat) (call : CallModel) : Prop :=
  ∀ (level serial : Nat) (procedure : Procedure) (arguments : List Value) (state after : State)
    (value : Value), program.Has procedure → program.Governs home state →
    (∀ argument ∈ arguments, argument.IsNumber) →
    call level (procedure.compiled home serial) arguments state = .ok value after →
    value.IsNumber ∧ Changes home (program.Rebinds procedure.name) state after

section Frame

variable {program : Program} {call : CallModel} {home : Nat} {both : Bool}

theorem eval_leaf_ok {level : Nat} {leaf : Value} {depth : Int} {state after : State} {value : Value}
    (done : Node.eval call home both level (.literal leaf depth) state = .ok value after) :
    after = state ∧ ∃ number, value = .ofNumber number ∧
      (((state.table home .numeric).resolve leaf).getD leaf).toNumber = .ok number := by
  rw [eval_literal] at done
  split at done
  · rename_i number read
    cases done
    exact ⟨rfl, number, rfl, read⟩
  · cases done

/-- What applying the value of a name does. -/
theorem apply_changes (framed : Framed program home call) {level : Nat} {name : String}
    {procedure value : Value} {arguments : List Value} {state after : State}
    (notDefine : name ≠ "define") (governs : program.Governs home state)
    (stands : Stands home .numeric (program.meaning name) (some procedure))
    (numbers : ∀ argument ∈ arguments, argument.IsNumber)
    (done : procedure.apply call level arguments state = .ok value after) :
    value.IsNumber ∧ Changes home (program.Rebinds name) state after := by
  generalize means : program.meaning name = callee at stands
  cases stands with
  | builtin operation =>
      have known : operation ≠ .define := by
        rintro rfl
        exact notDefine (Program.builtin_of_meaning means).symm
      rw [Value.apply] at done
      cases applied : operation.apply arguments with
      | error failure =>
          rw [applied] at done
          cases done
      | ok result =>
          rw [applied] at done
          cases done
          exact ⟨Builtin.apply_isNumber known applied, .refl _⟩
  | procedure _ definition serial =>
      obtain ⟨rfl, has⟩ := Program.has_of_meaning means
      exact framed level serial definition arguments state after value has governs numbers done

mutual
theorem eval_changes (framed : Framed program home call) (term : Term Value) {level depth : Nat}
    {state after : State} {value : Value} (plain : .call "define" ∉ term.actions)
    (governs : program.Governs home state)
    (done : Node.eval call home both level (term.node depth) state = .ok value after) :
    value.IsNumber ∧ Changes home (program.Touches term.actions) state after := by
  cases term with
  | leaf leaf =>
      obtain ⟨rfl, number, rfl, _⟩ := eval_leaf_ok done
      exact ⟨Value.isNumber_ofNumber number, .refl _⟩
  | call name operands =>
      simp only [Term.actions, List.mem_append, List.mem_singleton, Action.call.injEq,
        not_or] at plain
      obtain ⟨procedure, arguments, middle, bound, isProcedure, ran, applied⟩ :=
        eval_call_ok (Ne.symm plain.2) done
      obtain ⟨numbers, first⟩ := evalAll_changes framed operands plain.1 governs ran
      have stands := governs name procedure bound isProcedure
      obtain ⟨isNumber, second⟩ := apply_changes framed (Ne.symm plain.2) (governs.after first)
        stands numbers applied
      let applied : List (Action Value) := [.call name]
      have called : Changes home (program.Touches applied) middle after :=
        second.mono fun other rebinds => ⟨name, List.mem_singleton.mpr rfl, rebinds⟩
      exact ⟨isNumber, first.append called⟩

theorem evalAll_changes (framed : Framed program home call) (operands : List (Term Value))
    {level depth : Nat} {state after : State} {values : List Value}
    (plain : .call "define" ∉ Term.actionsOfAll operands) (governs : program.Governs home state)
    (done : evalAll call home both level (Term.nodes depth operands) state = .ok values after) :
    (∀ value ∈ values, value.IsNumber) ∧
      Changes home (program.Touches (Term.actionsOfAll operands)) state after := by
  cases operands with
  | nil =>
      cases done
      exact ⟨fun value member => absurd member List.not_mem_nil, .refl _⟩
  | cons operand rest =>
      simp only [Term.actionsOfAll, List.mem_append, not_or] at plain
      obtain ⟨value, middle, others, ran, more, rfl⟩ := evalAll_cons_ok done
      obtain ⟨isNumber, first⟩ := eval_changes framed operand plain.1 governs ran
      obtain ⟨numbers, second⟩ := evalAll_changes framed rest plain.2 (governs.after first) more
      exact ⟨List.forall_mem_cons.mpr ⟨isNumber, numbers⟩, first.append second⟩
end

theorem eval_text_changes (framed : Framed program home call) (term : Term String)
    {level depth : Nat} {state after : State} {value : Value}
    (plain : .call "define" ∉ term.actions) (governs : program.Governs home state)
    (done : Node.eval call home both level ((term.map .text).node depth) state =
      .ok value after) :
    value.IsNumber ∧ Changes home (program.Touches term.actions) state after := by
  obtain ⟨isNumber, changes⟩ := eval_changes framed (term.map .text)
    (fun calls => plain ((Term.call_mem_actions_map _ _ term).mp calls)) governs done
  exact ⟨isNumber, changes.widen fun callee => (Term.call_mem_actions_map _ callee term).mp⟩

theorem guard_changes (framed : Framed program home call) (guard : Guard) {level depth : Nat}
    {state after : State} {value : Value} (plain : .call "define" ∉ guard.actions)
    (governs : program.Governs home state)
    (done : Node.eval call home both level (guard.node depth) state = .ok value after) :
    Changes home (program.Touches guard.actions) state after := by
  cases guard with
  | word name =>
      rw [Guard.node, eval_operator] at done
      cases done
      exact .refl _
  | test term => exact (eval_text_changes framed term plain governs done).2

/-- The clause that is selected, and what the guards up to it change. -/
theorem selectClause_changes (framed : Framed program home call) {eval : Form → Eval Value}
    {level : Nat}
    (runs : ∀ node state value after, eval node state = .ok value after →
      Node.eval call home both level node state = .ok value after)
    {name : String} {clauses : List (Guard × Term String)} {state after : State} {result : Form}
    (plain : .call "define" ∉ Procedure.guardActions clauses)
    (governs : program.Governs home state)
    (done : selectClause eval name (Procedure.clauseNodes clauses) state = .ok result after) :
    ∃ earlier chosen later, clauses = earlier ++ chosen :: later ∧
      result = (chosen.2.map .text).node 3 ∧
      Changes home (program.Touches (Procedure.guardActions (earlier ++ [chosen]))) state after := by
  induction clauses generalizing state with
  | nil => cases done
  | cons clause clauses ih =>
      simp only [Procedure.guardActions, List.flatMap_cons, List.mem_append, not_or] at plain
      rw [Procedure.clauseNodes, List.map_cons, selectClause] at done
      obtain ⟨tested, middle, test, rest⟩ := Eval.of_bind_ok done
      have first := guard_changes framed clause.1 plain.1 governs (runs _ _ _ _ test)
      split at rest
      · cases rest
        refine ⟨[], clause, clauses, rfl, rfl, first.widen fun callee calls => ?_⟩
        simpa [Procedure.guardActions] using calls
      · -- the guard failed, yet what its calls bound stays
        obtain ⟨earlier, chosen, later, rfl, selected, second⟩ :=
          ih plain.2 (governs.after first) rest
        exact ⟨clause :: earlier, chosen, later, rfl, selected, first.append second⟩

/-- A call that succeeds selected a clause, then ran its result. -/
theorem run_ok {limit room : Nat} (plain : program.Plain)
    (framed : Framed program home (callWithin limit room)) {procedure : Procedure}
    (has : program.Has procedure) {state after : State} {value : Value}
    (governs : program.Governs home state)
    (done : procedure.run limit home room state = .ok value after) :
    ∃ earlier chosen later middle, procedure.clauses = earlier ++ chosen :: later ∧
      selectClause (evalWithin limit (callWithin limit room) home room 2) procedure.name
        (Procedure.clauseNodes procedure.clauses) state =
        .ok ((chosen.2.map .text).node 3) middle ∧
      Changes home (program.Touches (Procedure.guardActions (earlier ++ [chosen]))) state middle ∧
      1 + ((chosen.2.map .text).node 3).levels ≤ room ∧
      Node.eval (callWithin limit room) home false 1 ((chosen.2.map .text).node 3) middle =
        .ok value after := by
  obtain ⟨result, middle, selected, rest⟩ := Eval.of_bind_ok done
  obtain ⟨earlier, chosen, later, split, rfl, changes⟩ := selectClause_changes framed
    (fun _ _ _ _ within => (evalWithin_ok within).2) (plain.guards has) governs selected
  obtain ⟨fits, ran⟩ := evalWithin_ok rest
  exact ⟨earlier, chosen, later, middle, split, selected, changes, fits, ran⟩

theorem run_changes {limit room : Nat} (plain : program.Plain)
    (framed : Framed program home (callWithin limit room)) {procedure : Procedure}
    (has : program.Has procedure) {state after : State} {value : Value}
    (governs : program.Governs home state)
    (done : procedure.run limit home room state = .ok value after) :
    value.IsNumber ∧ Changes home (program.Touches procedure.actions) state after := by
  obtain ⟨earlier, chosen, later, middle, split, _, first, _, ran⟩ :=
    run_ok plain framed has governs done
  have inside : chosen ∈ procedure.clauses := by simp [split]
  obtain ⟨isNumber, second⟩ := eval_text_changes framed chosen.2 (plain.result has inside)
    (governs.after first) ran
  have before : ∀ clause ∈ earlier ++ [chosen], clause ∈ procedure.clauses := by
    intro clause member
    rw [split, List.append_cons]
    exact List.mem_append_left _ member
  exact ⟨isNumber, .trans (first.widen fun callee => Procedure.guard_mem_actions before)
    (second.widen fun callee => Procedure.result_mem_actions inside)⟩

/-- Calls bind only the formals of the procedures that they reach. -/
theorem callWithin_framed (plain : program.Plain) (limit room : Nat) :
    Framed program home (callWithin limit room) := by
  induction room with
  | zero =>
      intro level serial procedure arguments state after value has governs numbers done
      obtain ⟨failed, run⟩ := callWithin_zero limit home serial procedure arguments state level
      rw [run] at done
      cases done
  | succ room ih =>
      intro level serial procedure arguments state after value has governs numbers done
      cases level with
      | succ level =>
          rw [callWithin] at done
          exact ih level serial procedure arguments state after value has governs numbers done
      | zero =>
          obtain ⟨bound, binds, run⟩ :=
            callWithin_succ limit home serial procedure arguments state room
          rw [run] at done
          have first := binds.changes numbers
          obtain ⟨isNumber, second⟩ := run_changes plain ih has (governs.after first) done
          refine ⟨isNumber, .trans (first.mono fun name formal => .formal has formal)
            (second.mono ?_)⟩
          rintro other ⟨callee, calls, rebinds⟩
          exact .through has calls rebinds

end Frame

end Stepper
