import Mathlib
import Stepper.Evaluation.State

/-!
Laws of tables, states and computations. A binding replaces what its key stood
for and leaves every other key alone; a change of one table of a workspace
leaves the other table alone.
-/

namespace Stepper

namespace Value

/-- The value that a binding gives its key, if it gives one. -/
def bound? : Value → Option Value
  | .nil => none
  | .unbound => none
  | value => some value

/-- The values that evaluation gives: numbers and truth values. -/
def IsNumber (value : Value) : Prop :=
  value.number?.isSome = true

theorem isNumber_ofNumber (number : Number) : (Value.ofNumber number).IsNumber := by
  cases number <;> rfl

theorem sameKey_text_iff {key : Value} {name : String} :
    key.sameKey (.text name) = true ↔ key = .text name := by
  cases key with
  | text spelling => simp [sameKey]
  | _ => simp [sameKey, number?]

end Value

namespace Table

theorem resolve_eq_bind (table : Table) (key : Value) :
    table.resolve key = (table.get? key).bind Value.bound? := by
  rw [resolve]
  cases table.get? key with
  | none => rfl
  | some value => cases value <;> rfl

theorem get?_insert (table : Table) (name other : String) (value : Value) :
    (table.insert (.text name) value).get? (.text other) =
      if other = name then some value else table.get? (.text other) := by
  obtain ⟨bindings⟩ := table
  simp only [insert, get?]
  induction bindings with
  | nil =>
      by_cases same : other = name
      · simp [insertInto, same, Value.sameKey]
      · have different : name ≠ other := fun equal => same equal.symm
        simp [insertInto, same, different, Value.sameKey]
  | cons binding rest ih =>
      by_cases here : binding.1.sameKey (.text name) = true
      · have key := Value.sameKey_text_iff.mp here
        rw [insertInto, if_pos here]
        by_cases same : other = name
        · simp [same, key, Value.sameKey]
        · have different : name ≠ other := fun equal => same equal.symm
          simp [same, different, key, Value.sameKey]
      · rw [insertInto, if_neg here]
        by_cases found : binding.1.sameKey (.text other) = true
        · have different : other ≠ name := by
            rintro rfl
            exact here found
          simp [found, different]
        · simpa [found] using ih

/-- A table whose keys are all texts. -/
def Named (table : Table) : Prop :=
  ∀ binding ∈ table.bindings, ∃ name, binding.1 = .text name

theorem Named.insert {table : Table} (named : table.Named) (name : String) (value : Value) :
    (table.insert (.text name) value).Named := by
  obtain ⟨bindings⟩ := table
  simp only [Named, Table.insert] at named ⊢
  induction bindings with
  | nil => simp [insertInto]
  | cons binding rest ih =>
      have first := named binding (by simp)
      have others := ih fun binding member => named binding (by simp [member])
      rw [insertInto]
      split
      · intro entry member
        rcases List.mem_cons.mp member with rfl | member
        · exact first
        · exact named entry (by simp [member])
      · intro entry member
        rcases List.mem_cons.mp member with rfl | member
        · exact first
        · exact others entry member

theorem Named.resolve_eq_none {table : Table} (named : table.Named) {key : Value}
    (notText : ∀ name, (Value.text name).sameKey key = false) : table.resolve key = none := by
  have missing : table.bindings.find? (fun binding => binding.1.sameKey key) = none := by
    rw [List.find?_eq_none]
    intro binding member
    obtain ⟨name, isName⟩ := named binding member
    simp [isName, notText name]
  rw [resolve_eq_bind, get?, missing]
  rfl

/-- Tables whose keys are texts bind no number. -/
theorem Named.resolve_number {table : Table} (named : table.Named) (value : Value)
    (isNumber : value.IsNumber) : table.resolve value = none := by
  refine named.resolve_eq_none fun name => ?_
  cases value <;> first | rfl | cases isNumber

end Table

/-- The builtin that is called by a name. -/
def Builtin.named? (name : String) : Option Builtin :=
  Builtin.all.find? fun operation => operation.symbol == name

theorem Builtin.named?_symbol (operation : Builtin) :
    Builtin.named? operation.symbol = some operation := by
  cases operation <;> rfl

theorem Builtin.symbol_of_named? {name : String} {operation : Builtin}
    (named : Builtin.named? name = some operation) : operation.symbol = name := by
  simpa using List.find?_some named

namespace Workspace

theorem resolve_fresh (name : String) :
    fresh.numeric.resolve (.text name) = (Builtin.named? name).map .builtin := by
  rw [Table.resolve_eq_bind, Table.get?, fresh, List.find?_map]
  change ((((Builtin.named? name).map _).map _).bind _) = _
  cases Builtin.named? name with
  | none => rfl
  | some operation => rfl

theorem named_fresh : fresh.numeric.Named := by
  intro binding member
  obtain ⟨operation, _, rfl⟩ := List.mem_map.mp member
  exact ⟨operation.symbol, rfl⟩

end Workspace

namespace State

theorem workspace_setWorkspace (state : State) (home : Nat) (workspace : Workspace) :
    (state.setWorkspace home workspace).workspace home = workspace := by
  have found : ∀ entries : List (Nat × Workspace),
      (putWorkspace home workspace entries).lookup home = some workspace := by
    intro entries
    induction entries with
    | nil => simp [putWorkspace]
    | cons entry rest ih =>
        rw [putWorkspace]
        split
        · simp
        · rename_i other
          have different : (home == entry.1) = false := by
            simpa using fun equal => other (Eq.symm equal)
          rw [List.lookup_cons, different]
          exact ih
  simp [State.workspace, setWorkspace, found]

@[simp] theorem table_setTable (state : State) (home : Nat) (reading : Reading) (table : Table) :
    (state.setTable home reading table).table home reading = table := by
  rw [State.table, setTable, workspace_setWorkspace]
  cases reading <;> rfl

theorem table_setTable_other (state : State) (home : Nat) {reading other : Reading}
    (different : other ≠ reading) (table : Table) :
    (state.setTable home reading table).table home other = state.table home other := by
  rw [State.table, setTable, workspace_setWorkspace]
  cases reading <;> cases other <;> first | rfl | exact absurd rfl different

end State

theorem of_except_bind_ok {α β : Type} {action : Except Failure α} {next : α → Except Failure β}
    {b : β} (done : (action >>= next) = .ok b) : ∃ a, action = .ok a ∧ next a = .ok b := by
  cases action with
  | ok a => exact ⟨a, rfl, done⟩
  | error failure => cases done

namespace Eval

variable {α β : Type} {state after : State}

theorem bind_ok {action : Eval α} {next : α → Eval β} {a : α}
    (done : action state = .ok a after) : (action >>= next) state = next a after := by
  simp only [bind, EStateM.bind, done]

theorem bind_error {action : Eval α} {next : α → Eval β} {failure : Failure}
    (failed : action state = .error failure after) :
    (action >>= next) state = .error failure after := by
  simp only [bind, EStateM.bind, failed]

/-- A run of two computations in order has a state between them. -/
theorem of_bind_ok {action : Eval α} {next : α → Eval β} {b : β}
    (done : (action >>= next) state = .ok b after) :
    ∃ a middle, action state = .ok a middle ∧ next a middle = .ok b after := by
  simp only [bind, EStateM.bind] at done
  cases first : action state with
  | ok a middle =>
      rw [first] at done
      exact ⟨a, middle, rfl, done⟩
  | error failure middle =>
      rw [first] at done
      cases done

theorem resolve_run (home : Nat) (reading : Reading) (key : Value) (state : State) :
    resolve home reading key state = .ok ((state.table home reading).resolve key) state := rfl

theorem bind_get (next : State → Eval β) (state : State) :
    (get >>= next) state = next state state := rfl

theorem ofExcept_ok (a : α) (state : State) :
    (ofExcept (.ok a) : Eval α) state = .ok a state := rfl

/-- Reporting changes the log at most. -/
theorem report_relogs {event : Event} (done : report event state = .ok () after) :
    ∃ log, after = { state with log } := by
  obtain ⟨seen, middle, found, rest⟩ := of_bind_ok done
  obtain ⟨rfl, rfl⟩ : seen = state ∧ middle = state := by
    cases found
    exact ⟨rfl, rfl⟩
  split at rest
  · obtain ⟨report, middle, words, kept⟩ := of_bind_ok rest
    cases reported : event.report with
    | error failure =>
        rw [reported] at words
        cases words
    | ok written =>
        rw [reported] at words
        cases words
        cases kept
        exact ⟨_, rfl⟩
  · cases rest
    exact ⟨_, rfl⟩

theorem report_keeps_tables {event : Event} (done : report event state = .ok () after)
    (home : Nat) (reading : Reading) : after.table home reading = state.table home reading := by
  obtain ⟨log, rfl⟩ := report_relogs done
  rfl

theorem report_run {event : Event} {report : Report} (words : event.report = .ok report)
    (state : State) : ∃ after, Eval.report event state = .ok () after ∧
      ∀ home reading, after.table home reading = state.table home reading := by
  by_cases ranks : state.wants event.severity = true
  · refine ⟨{ state with log := state.log.push report }, ?_, fun _ _ => rfl⟩
    simp only [Eval.report, bind, EStateM.bind, get, getThe, MonadStateOf.get, EStateM.get, ranks,
      if_true, words]
    rfl
  · refine ⟨state, ?_, fun _ _ => rfl⟩
    simp only [Eval.report, bind, EStateM.bind, get, getThe, MonadStateOf.get, EStateM.get, ranks]
    rfl

theorem define_run (home : Nat) (reading : Reading) (name : String) (value : Value)
    (state : State) :
    define home reading (.text name) value state =
      .ok () (state.setTable home reading ((state.table home reading).insert (.text name) value)) :=
  rfl

end Eval

end Stepper
