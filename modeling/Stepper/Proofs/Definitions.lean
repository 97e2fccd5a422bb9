import Stepper.Proofs.Evaluation
import Stepper.Proofs.Program
import Stepper.Proofs.Reading

/-!
What definitions leave in the tables of an interpreter: after the definitions
of a program, each name stands in both tables for what it means in the program.
-/

namespace Stepper

/-- What a call gives a name: the argument of the last formal of that name. -/
def supplied (name : String) : List String → List Value → Option Value
  | [], _ => none
  | formal :: formals, arguments =>
    (supplied name formals arguments.tail).or
      (if name = formal then some (arguments.head?.getD .unbound) else none)

/-- A table after formals were bound to arguments. -/
structure Table.Binds (formals : List String) (arguments : List Value) (before after : Table) :
    Prop where
  named : before.Named → after.Named
  get? : ∀ name, after.get? (.text name) =
    (supplied name formals arguments).or (before.get? (.text name))

namespace Table.Binds

variable {formals : List String} {arguments : List Value} {before after : Table}

theorem resolve (binds : Binds formals arguments before after) (name : String) :
    after.resolve (.text name) =
      match supplied name formals arguments with
      | some value => value.bound?
      | none => before.resolve (.text name) := by
  rw [resolve_eq_bind, binds.get?, resolve_eq_bind]
  cases supplied name formals arguments with
  | none => rfl
  | some value => rfl

end Table.Binds

theorem supplied_eq_none_iff {name : String} {formals : List String} {arguments : List Value} :
    supplied name formals arguments = none ↔ name ∉ formals := by
  induction formals generalizing arguments with
  | nil => simp [supplied]
  | cons formal formals ih => simp [supplied, ih, and_comm]

/-- A formal gets one of the arguments, or none is left for it. -/
theorem supplied_member {name : String} {formals : List String} {arguments : List Value}
    {value : Value} (given : supplied name formals arguments = some value) :
    value ∈ arguments ∨ value = .unbound := by
  induction formals generalizing arguments with
  | nil => cases given
  | cons formal formals ih =>
      rw [supplied] at given
      cases later : supplied name formals arguments.tail with
      | some other =>
          rw [later] at given
          cases given
          exact (ih later).imp List.mem_of_mem_tail id
      | none =>
          rw [later, Option.none_or] at given
          split at given
          · cases given
            cases arguments with
            | nil => exact .inr rfl
            | cons first rest => exact .inl (List.mem_cons_self ..)
          · cases given

/-- With enough arguments each formal gets one of them. -/
theorem supplied_of_length {name : String} {formals : List String} {arguments : List Value}
    {value : Value} (enough : formals.length ≤ arguments.length)
    (given : supplied name formals arguments = some value) : value ∈ arguments := by
  induction formals generalizing arguments with
  | nil => cases given
  | cons formal formals ih =>
      cases arguments with
      | nil => simp at enough
      | cons first rest =>
          rw [supplied, List.tail_cons, List.head?_cons, Option.getD_some] at given
          cases later : supplied name formals rest with
          | some other =>
              rw [later] at given
              cases given
              exact List.mem_cons_of_mem _ (ih (by simpa using enough) later)
          | none =>
              rw [later, Option.none_or] at given
              split at given
              · cases given
                exact List.mem_cons_self ..
              · cases given

theorem forM_define_run (home : Nat) {readings : List Reading} (distinct : readings.Nodup)
    (name : String) (value : Value) (state : State) :
    ∃ after, (readings.forM fun reading => Eval.define home reading (.text name) value) state =
        .ok () after ∧
      ∀ reading, after.table home reading =
        if reading ∈ readings then (state.table home reading).insert (.text name) value
        else state.table home reading := by
  induction readings generalizing state with
  | nil => exact ⟨state, rfl, fun reading => rfl⟩
  | cons first rest ih =>
      obtain ⟨after, done, tables⟩ := ih (List.nodup_cons.mp distinct).2
        (state.setTable home first ((state.table home first).insert (.text name) value))
      refine ⟨after, ?_, fun reading => ?_⟩
      · rw [List.forM, Eval.bind_ok (Eval.define_run ..)]
        exact done
      · rw [tables]
        by_cases same : reading = first
        · subst same
          simp [(List.nodup_cons.mp distinct).1]
        · simp [same, State.table_setTable_other _ _ same]

/-- Binding formals changes the tables of the given readings, and only these. -/
theorem bindFormals_run (home : Nat) {readings : List Reading} (distinct : readings.Nodup)
    (formals : List String) (arguments : List Value) (state : State) :
    ∃ after, bindFormals home readings (formals.map .text) arguments state = .ok () after ∧
      ∀ reading, if reading ∈ readings
        then Table.Binds formals arguments (state.table home reading) (after.table home reading)
        else after.table home reading = state.table home reading := by
  induction formals generalizing arguments state with
  | nil =>
      refine ⟨state, rfl, fun reading => ?_⟩
      split
      · exact ⟨id, fun name => rfl⟩
      · rfl
  | cons formal formals ih =>
      obtain ⟨middle, first, defined⟩ := forM_define_run home distinct formal
        (arguments.head?.getD .unbound) state
      obtain ⟨after, done, tables⟩ := ih arguments.tail middle
      refine ⟨after, ?_, fun reading => ?_⟩
      · rw [List.map_cons, bindFormals, Eval.bind_ok first]
        exact done
      · have bound := tables reading
        rw [defined reading] at bound
        split
        · rename_i among
          simp only [among, if_true] at bound
          refine ⟨fun named => bound.named (named.insert _ _), fun name => ?_⟩
          rw [bound.get?, Table.get?_insert, supplied]
          cases supplied name formals arguments.tail with
          | some value => rfl
          | none => by_cases same : name = formal <;> simp [same]
        · rename_i among
          simpa only [among, if_false] using bound

theorem forM_define_unbound (home : Nat) (reading : Reading) (formals : List Value) :
    (formals.forM fun formal => Eval.define home reading formal .unbound) =
      bindFormals home [reading] formals [] := by
  induction formals with
  | nil => rfl
  | cons formal formals ih =>
      rw [List.forM, ih, bindFormals, List.forM, List.forM, bind_pure_unit]
      rfl

theorem headerFormals_arguments (depth : Nat) (formals : List String) :
    headerFormals (Phrase.nodes depth (formals.map .argument)) = .ok (formals.map .text) := by
  induction formals with
  | nil => rfl
  | cons formal formals ih =>
      simp only [List.map_cons, Phrase.nodes, Phrase.node, headerFormals, ih]
      rfl

theorem condClauses_clauses (clauses : List (Guard × Term String)) :
    condClauses (Phrase.nodes 2
        (clauses.map fun clause => .form [clause.1.phrase, clause.2.phrase])) =
      .ok (Procedure.clauseNodes clauses) := by
  induction clauses with
  | nil => rfl
  | cons clause clauses ih =>
      simp only [List.map_cons, Phrase.nodes, Phrase.node, condClauses, ih, Guard.node_phrase,
        Term.node_phrase]
      rfl

theorem defineProcedure_cond {home : Nat} {reading : Reading} {name : String}
    {formals : List Value} {depth : Int} {rest : List Form} {frame : Frame}
    {clauses : List (Clause Value)} (read : condClauses rest = .ok clauses) :
    defineProcedure home reading name formals
        (.expression (.operator "cond" depth :: rest) frame) = (do
      bindFormals home [reading] formals []
      let serial ← Eval.newSerial
      Eval.define home reading (.text name)
        (.procedure reading { serial, home, name, formals, clauses })) := by
  have isCond : Node.isCond (.expression (.operator "cond" depth :: rest) frame : Form) = true := rfl
  rw [defineProcedure, forM_define_unbound]
  simp only [isCond, if_true, List.tail_cons, read]
  rfl

theorem defineProcedure_run (home : Nat) (reading : Reading) (procedure : Procedure)
    (state : State) :
    ∃ cleared serial after,
      defineProcedure home reading procedure.name (procedure.formals.map .text)
          (procedure.body.node 1) state = .ok () after ∧
      Table.Binds procedure.formals [] (state.table home reading) cleared ∧
      after.table home reading =
        cleared.insert (.text procedure.name) (.procedure reading (procedure.compiled home serial)) ∧
      ∀ other, other ≠ reading → after.table home other = state.table home other := by
  have alone : [reading].Nodup := by simp
  obtain ⟨middle, unbound, tables⟩ := bindFormals_run home alone procedure.formals [] state
  let numbered : State := { middle with procedureCount := middle.procedureCount + 1 }
  let value : Value := .procedure reading (procedure.compiled home middle.procedureCount)
  refine ⟨middle.table home reading, middle.procedureCount, numbered.setTable home reading
    ((numbered.table home reading).insert (.text procedure.name) value), ?_, ?_, ?_, ?_⟩
  · rw [Procedure.body, Phrase.node, Phrase.nodes, Phrase.node,
      defineProcedure_cond (condClauses_clauses procedure.clauses), Eval.bind_ok unbound]
    rfl
  · simpa using tables reading
  · rw [State.table_setTable]
    rfl
  · intro other different
    rw [State.table_setTable_other _ _ different]
    have same := tables other
    simp only [List.mem_singleton, different, if_false] at same
    exact same

/-- What a name stands for in the table of a reading. Builtins have no symbolic
reading. -/
inductive Stands (home : Nat) : Reading → Option Callee → Option Value → Prop where
  | nothing (reading : Reading) : Stands home reading none none
  | builtin (operation : Builtin) :
      Stands home .numeric (some (.builtin operation)) (some (.builtin operation))
  | hidden (operation : Builtin) : Stands home .symbolic (some (.builtin operation)) none
  | procedure (reading : Reading) (procedure : Procedure) (serial : Nat) :
      Stands home reading (some (.procedure procedure))
        (some (.procedure reading (procedure.compiled home serial)))

/-- A table in which each name stands for what it means in a program. -/
structure Table.Shows (program : Program) (home : Nat) (reading : Reading) (table : Table) :
    Prop where
  named : table.Named
  stands : ∀ name, Stands home reading (program.meaning name) (table.resolve (.text name))

theorem Table.Shows.resolve_eq_none {program : Program} {home : Nat} {reading : Reading}
    {table : Table} (shows : table.Shows program home reading) {name : String}
    (free : program.meaning name = none) : table.resolve (.text name) = none := by
  have stands := shows.stands name
  rw [free] at stands
  generalize table.resolve (.text name) = binding at stands
  cases stands
  rfl

theorem Table.Shows.define {program : Program} {home serial : Nat} {reading : Reading}
    {table cleared : Table} (shows : table.Shows program home reading) (procedure : Procedure)
    (binds : Table.Binds procedure.formals [] table cleared) :
    (cleared.insert (.text procedure.name)
      (.procedure reading (procedure.compiled home serial))).Shows
        (procedure :: program) home reading := by
  refine ⟨(binds.named shows.named).insert _ _, fun name => ?_⟩
  rw [resolve_eq_bind, get?_insert, Program.meaning]
  by_cases same : name = procedure.name
  · simp only [same, if_true]
    exact .procedure reading procedure serial
  · simp only [same, if_false]
    rw [← resolve_eq_bind, binds.resolve]
    by_cases formal : name ∈ procedure.formals
    · cases given : supplied name procedure.formals [] with
      | none => exact absurd formal (supplied_eq_none_iff.mp given)
      | some value =>
          have unbound : value = .unbound := (supplied_member given).resolve_left (by simp)
          simp only [formal, if_true, unbound, Value.bound?]
          exact .nothing reading
    · simp only [supplied_eq_none_iff.mpr formal, formal, if_false]
      exact shows.stands name

theorem inspectAll_texts (names : List String) :
    Value.inspectAll (names.map .text) = .ok (names.map Text.quoted) := by
  induction names with
  | nil => rfl
  | cons name names ih =>
      simp only [List.map_cons, Value.inspectAll, Value.inspect, ih]
      rfl

theorem report_definedProcedure (name : String) (formals : List String) :
    ∃ report, (Event.definedProcedure name (formals.map .text)).report = .ok report := by
  simp only [Event.report, Event.message, Value.inspect, inspectAll_texts]
  exact ⟨_, rfl⟩

theorem define_tree (limit home : Nat) (reading : Reading) (procedure : Procedure)
    (state : State) :
    ∃ cleared serial after,
      define limit home reading
        (Phrase.tree [.operator "define", procedure.header, procedure.body]) state = .ok () after ∧
      Table.Binds procedure.formals [] (state.table home reading) cleared ∧
      after.table home reading =
        cleared.insert (.text procedure.name) (.procedure reading (procedure.compiled home serial)) ∧
      ∀ other, other ≠ reading → after.table home other = state.table home other := by
  have steps : define limit home reading
      (Phrase.tree [.operator "define", procedure.header, procedure.body]) = (do
        let formals ← Eval.ofExcept
          (headerFormals (Phrase.nodes 2 (procedure.formals.map .argument)))
        defineProcedure home reading procedure.name formals (procedure.body.node 1)
        if reading = .numeric then Eval.report (.definedProcedure procedure.name formals)) := rfl
  obtain ⟨cleared, serial, defined, run, binds, table, others⟩ :=
    defineProcedure_run home reading procedure state
  obtain ⟨report, words⟩ := report_definedProcedure procedure.name procedure.formals
  obtain ⟨reported, reports, same⟩ := Eval.report_run words defined
  rw [steps, headerFormals_arguments, Eval.bind_ok (Eval.ofExcept_ok ..), Eval.bind_ok run]
  cases reading with
  | numeric =>
      refine ⟨cleared, serial, reported, reports, binds, (same ..).trans table, ?_⟩
      exact fun other different => (same ..).trans (others other different)
  | symbolic => exact ⟨cleared, serial, defined, rfl, binds, table, others⟩

namespace Interpreter

open Token (content)

/-- A definition gives its name a meaning in both tables. -/
theorem perform_define (interpreter : Interpreter) (limit : Nat) {program : Program}
    {state : State} {source : String} {procedure : Procedure}
    (spelled : content source = procedure.phrase.tokens)
    (shows : ∀ reading,
      (state.table interpreter.home reading).Shows program interpreter.home reading) :
    ∃ after, interpreter.perform limit .define source state = .ok .done after ∧
      ∀ reading, (after.table interpreter.home reading).Shows (procedure :: program)
        interpreter.home reading := by
  obtain ⟨first, serial, middle, numeric, binds, table, others⟩ :=
    define_tree limit interpreter.home .numeric procedure state
  obtain ⟨second, later, after, symbolic, bindsLater, tableLater, othersLater⟩ :=
    define_tree limit interpreter.home .symbolic procedure middle
  refine ⟨after, ?_, fun reading => ?_⟩
  · rw [perform_keeping (Node.readForm_form spelled) rfl, Eval.bind_ok numeric, Eval.bind_ok symbolic]
    rfl
  · cases reading with
    | numeric =>
        rw [othersLater .numeric (by decide), table]
        exact (shows .numeric).define procedure binds
    | symbolic =>
        rw [others .symbolic (by decide)] at bindsLater
        rw [tableLater]
        exact (shows .symbolic).define procedure bindsLater

/-- The states of a session in which an interpreter, fresh at first, was given
the definitions of a program. -/
inductive Defined (interpreter : Interpreter) : Program → State → Prop where
  | start {state : State} (fresh : interpreter.IsFresh state) : Defined interpreter [] state
  | define {program : Program} {state after : State} {limit : Nat} {source : String}
      {procedure : Procedure} {reply : Reply} (earlier : Defined interpreter program state)
      (spelled : content source = procedure.phrase.tokens)
      (done : interpreter.perform limit .define source state = .ok reply after) :
      Defined interpreter (procedure :: program) after

theorem Defined.shows {interpreter : Interpreter} {program : Program} {state : State}
    (defined : interpreter.Defined program state) (reading : Reading) :
    (state.table interpreter.home reading).Shows program interpreter.home reading := by
  induction defined generalizing reading with
  | @start state fresh =>
      have tables : state.table interpreter.home reading = Workspace.fresh.table reading := by
        rw [State.table, fresh]
      rw [tables]
      cases reading with
      | numeric =>
          refine ⟨Workspace.named_fresh, fun name => ?_⟩
          rw [Workspace.table, Workspace.resolve_fresh, Program.meaning]
          cases Builtin.named? name with
          | none => exact .nothing _
          | some operation => exact .builtin operation
      | symbolic =>
          refine ⟨fun binding member => absurd member List.not_mem_nil, fun name => ?_⟩
          rw [Program.meaning]
          cases Builtin.named? name with
          | none => exact .nothing _
          | some operation => exact .hidden operation
  | @define program state after limit source procedure reply earlier spelled done ih =>
      obtain ⟨defined, run, shows⟩ := interpreter.perform_define limit spelled ih
      rw [run] at done
      cases done
      exact shows reading

end Interpreter

end Stepper
