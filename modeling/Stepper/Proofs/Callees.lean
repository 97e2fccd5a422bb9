import Stepper.Proofs.Confinement
import Stepper.Proofs.Constants

/-!
What evaluating a form can call: the procedures that its operators stand for, and
those that the operators in their clauses stand for. A name that none of these
binds, be it as a formal or by a definition in a clause, keeps its binding.
-/

namespace Stepper

/-- The names that evaluating a form can call, in a table. -/
inductive Table.Calls (table : Table) (form : Form) : String → Prop where
  | here {callee : String} (member : callee ∈ form.callees) : Calls table form callee
  | through {caller callee : String} {definition : CondProcedure Value}
      (earlier : Calls table form caller) (bound : definition ∈ table.procedure? caller)
      (member : callee ∈ definition.callees) : Calls table form callee

/-- No procedure that evaluating a form can call binds `name`. -/
def Table.Spares (table : Table) (form : Form) (name : String) : Prop :=
  ∀ callee definition, table.Calls form callee → definition ∈ table.procedure? callee →
    .text name ∉ definition.targets

theorem Table.Calls.mem_of_closed {table : Table} {form : Form} {callee : String}
    {callees : List String} (calls : table.Calls form callee)
    (start : ∀ callee ∈ form.callees, callee ∈ callees)
    (closed : ∀ caller ∈ callees, ∀ definition ∈ table.procedure? caller,
      ∀ callee ∈ definition.callees, callee ∈ callees) : callee ∈ callees := by
  induction calls with
  | here member => exact start _ member
  | through _ bound member ih => exact closed _ ih _ bound _ member

/-- It is enough to look at a list of names that no call leads out of. -/
theorem Table.spares_of_closed {table : Table} {form : Form} {name : String} (callees : List String)
    (start : ∀ callee ∈ form.callees, callee ∈ callees)
    (closed : ∀ caller ∈ callees, ∀ definition ∈ table.procedure? caller,
      ∀ callee ∈ definition.callees, callee ∈ callees)
    (spares : ∀ caller ∈ callees, ∀ definition ∈ table.procedure? caller,
      (definition.targets.all fun key => !key.sameKey (.text name)) = true) :
    table.Spares form name := by
  intro callee definition calls bound
  have inside := calls.mem_of_closed start closed
  intro target
  have differs := List.all_eq_true.mp (spares callee inside definition bound) _ target
  simp [Value.sameKey] at differs

theorem Value.eq_text_of_sameKey {word : String} {key : Value}
    (same : (Value.text word).sameKey key = true) : key = .text word := by
  cases key with
  | text spelling =>
      have equal : word = spelling := by simpa [sameKey] using same
      rw [equal]
  | _ => simp [sameKey, number?] at same

/-- A table that holds what texts can put there binds words only. -/
theorem Table.Sound.exists_word {home : Nat} {reading : Reading} {table : Table}
    (sound : table.Sound home reading) {key value : Value}
    (bound : table.resolve key = some value) : ∃ word, key = .text word := by
  rw [resolve_eq_bind] at bound
  obtain ⟨_, got, _⟩ := Option.bind_eq_some_iff.mp bound
  obtain ⟨binding, first, _⟩ := Option.map_eq_some_iff.mp got
  obtain ⟨word, isText, _⟩ := sound.keys binding (List.mem_of_find?_eq_some first)
  have same := List.find?_some first
  rw [isText] at same
  exact ⟨word, Value.eq_text_of_sameKey same⟩

theorem Table.of_resolve_insert {table : Table} {word : String} {value key found : Value}
    (bound : (table.insert (.text word) value).resolve key = some found) :
    found = value ∨ table.resolve key = some found := by
  by_cases same : key = .text word
  · subst same
    rw [Table.resolve_eq_bind, Table.get?_insert, if_pos rfl, Option.bind_some] at bound
    unfold Value.bound? at bound
    split at bound
    · cases bound
    · cases bound
    · exact .inl (Option.some.inj bound).symm
  · rw [Table.resolve_eq_bind, Table.get?_insert_other _ same, ← Table.resolve_eq_bind] at bound
    exact .inr bound

/-- What a form can call heeds the bounds, if what it binds is allowed. -/
theorem Table.Sound.heeds {home : Nat} {table : Table} {form : Form} {allowed : Value → Prop}
    (sound : table.Sound home .numeric)
    (targets : ∀ callee definition, table.Calls form callee →
      definition ∈ table.procedure? callee → ∀ key ∈ definition.targets, allowed key)
    {key value : Value} (isCallable : key.IsCallable (table.Calls form))
    (bound : table.resolve key = some value) : value.Heeds home (table.Calls form) allowed := by
  cases sound.resolve_fits bound with
  | datum isDatum => exact isDatum.heeds
  | word isWord =>
      obtain ⟨text, rfl, _⟩ := isWord
      trivial
  | unbound => trivial
  | builtin operation => trivial
  | @procedure _ definition procedureSound =>
      obtain ⟨word, rfl⟩ := sound.exists_word bound
      have isProcedure := Table.mem_procedure?.mpr bound
      have calls := isCallable word rfl
      exact ⟨procedureSound, fun callee member => .through calls isProcedure member,
        targets word definition calls isProcedure⟩

/-! ### One name -/

/-- A value that, if it is a procedure, calls callable names only and does not
bind `name`. -/
def Value.Spares (home : Nat) (callable : String → Prop) (name : String) : Value → Prop
  | .procedure _ definition => definition.Sound home ∧
      (∀ callee ∈ definition.callees, callable callee) ∧ .text name ∉ definition.targets
  | _ => True

section OneName

variable {home : Nat} {callable : String → Prop} {name : String} {standing : Option Value}

theorem Value.heeds_eq_spares :
    Value.Heeds home callable (· ≠ .text name) = Value.Spares home callable name := by
  funext value
  cases value with
  | procedure reading definition =>
      have apart : (∀ key ∈ definition.targets, key ≠ .text name) ↔
          .text name ∉ definition.targets := by
        constructor
        · intro differs member
          exact differs _ member rfl
        · intro outside key member same
          exact outside (same ▸ member)
      simp only [Heeds, Spares, apart]
  | _ => rfl

/-- A state in which `name` is bound to `standing` and no procedure that a callable
name stands for changes that. -/
structure Sparing (home : Nat) (callable : String → Prop) (name : String)
    (standing : Option Value) (state : State) : Prop where
  procedures : ∀ key value, key.IsCallable callable →
    (state.table home .numeric).resolve key = some value → value.Spares home callable name
  stands : (state.table home .numeric).get? (.text name) = standing

namespace Sparing

variable {state : State}

theorem of_tables {after : State} (sparing : Sparing home callable name standing state)
    (same : ∀ reading, after.table home reading = state.table home reading) :
    Sparing home callable name standing after := by
  refine ⟨?_, ?_⟩
  · rw [same]
    exact sparing.procedures
  · rw [same]
    exact sparing.stands

theorem procedures_insert (sparing : Sparing home callable name standing state) {value : Value}
    (spares : value.Spares home callable name) {word : String} {key found : Value}
    (isCallable : key.IsCallable callable)
    (bound : ((state.table home .numeric).insert (.text word) value).resolve key = some found) :
    found.Spares home callable name := by
  rcases Table.of_resolve_insert bound with rfl | before
  · exact spares
  · exact sparing.procedures key found isCallable before

theorem bind (sparing : Sparing home callable name standing state) {word : String} {value : Value}
    (apart : word ≠ name) (spares : value.Spares home callable name) :
    Sparing home callable name standing (state.setTable home .numeric
      ((state.table home .numeric).insert (.text word) value)) := by
  refine ⟨fun key found isCallable bound => ?_, ?_⟩
  · rw [State.table_setTable] at bound
    exact sparing.procedures_insert spares isCallable bound
  · rw [State.table_setTable, Table.get?_insert, if_neg apart.symm]
    exact sparing.stands

/-- The name itself may be bound anew. -/
theorem rebind (sparing : Sparing home callable name standing state) {value : Value}
    (spares : value.Spares home callable name) :
    Sparing home callable name (some value) (state.withBinding home .numeric name value) := by
  rw [State.withBinding]
  refine ⟨fun key found isCallable bound => ?_, ?_⟩
  · rw [State.table_setTable] at bound
    exact sparing.procedures_insert spares isCallable bound
  · rw [State.table_setTable, Table.get?_insert, if_pos rfl]

theorem of_sound {form : Form} (sound : state.Sound home)
    (spares : (state.table home .numeric).Spares form name) :
    Sparing home ((state.table home .numeric).Calls form) name
      ((state.table home .numeric).get? (.text name)) state := by
  refine ⟨fun key value isCallable bound => ?_, rfl⟩
  rw [← Value.heeds_eq_spares]
  refine (sound .numeric).heeds (fun callee definition calls has key member same => ?_)
    isCallable bound
  exact spares callee definition calls has (same ▸ member)

theorem guards :
    Guards home callable (· ≠ .text name) (Sparing home callable name standing) where
  of_tables := of_tables
  resolves := by
    intro state key value sparing isCallable bound
    rw [Value.heeds_eq_spares]
    exact sparing.procedures key value isCallable bound
  binds := by
    intro state word value sparing apart heeds
    rw [Value.heeds_eq_spares] at heeds
    exact sparing.bind (fun same => apart (by rw [same])) heeds

end Sparing

theorem evaluate_spares (limit : Nat) {first : Bool} {node : Form} (written : node.WrittenAt first)
    (outside : .text name ∉ node.targets) (inside : ∀ callee ∈ node.callees, callable callee) :
    Maintains (Sparing home callable name standing) (Value.Spares home callable name)
      (evaluate limit home false node) := by
  have apart : ∀ key ∈ node.targets, key ≠ .text name := by
    intro key member same
    exact outside (same ▸ member)
  rw [← Value.heeds_eq_spares]
  exact evaluate_heeds Sparing.guards limit (by simp) written apart inside

end OneName

end Stepper
