import Stepper.Proofs.Invariants

/-!
What evaluation can write. It binds the targets of definitions and the formals
of procedures, and nothing else: keys never go away and never change places,
and every other key keeps its binding. This holds also where a failure breaks
an evaluation off, and for procedures that the evaluation itself defines.
-/

namespace Stepper

/-! ### What may be bound -/

def Value.targets : Value → List Value
  | .procedure _ definition => definition.targets
  | _ => []

/-- What calls of the procedures in a table can bind. -/
def Table.targets (table : Table) : List Value :=
  table.bindings.flatMap fun binding => binding.2.targets

def Table.keys (table : Table) : List Value :=
  table.bindings.map (·.1)

/-- A value that, if it is a procedure, belongs to the workspace `home` and binds
allowed keys only. -/
def Value.Within (home : Nat) (allowed : Value → Prop) : Value → Prop
  | .procedure _ definition => definition.Sound home ∧ ∀ key ∈ definition.targets, allowed key
  | _ => True

theorem Value.within_eq_heeds {home : Nat} {allowed : Value → Prop} :
    Value.Within home allowed = Value.Heeds home (fun _ => True) allowed := by
  funext value
  cases value with
  | procedure reading definition => simp [Within, Heeds]
  | _ => rfl

theorem Value.IsDatum.within {home : Nat} {allowed : Value → Prop} {value : Value}
    (isDatum : value.IsDatum) : value.Within home allowed := by
  rw [Value.within_eq_heeds]
  exact isDatum.heeds

/-- A state to which evaluation can lead from `start`: only allowed keys of the
numeric table are bound anew. Without `both` the symbolic table is as it was. -/
structure Confined (home : Nat) (both : Bool) (allowed : Value → Prop) (start state : State) :
    Prop where
  values : ∀ binding ∈ (state.table home .numeric).bindings, binding.2.Within home allowed
  keys : (start.table home .numeric).keys <+: (state.table home .numeric).keys
  others : ∀ key, ¬ allowed key →
    (state.table home .numeric).get? key = (start.table home .numeric).get? key
  symbolic : both = false → state.table home .symbolic = start.table home .symbolic

namespace Table

theorem keys_insert (table : Table) (key value : Value) :
    table.keys <+: (table.insert key value).keys := by
  obtain ⟨bindings⟩ := table
  simp only [keys, insert]
  induction bindings with
  | nil => exact List.nil_prefix
  | cons binding rest ih =>
      rw [insertInto]
      split
      · exact List.prefix_rfl
      · exact (List.prefix_cons_inj _).mpr ih

theorem get?_insert_other (table : Table) {name : String} {value key : Value}
    (other : key ≠ .text name) : (table.insert (.text name) value).get? key = table.get? key := by
  have apart : (Value.text name).sameKey key = false := by
    cases key with
    | text spelling =>
        have different : name ≠ spelling := fun same => other (same ▸ rfl)
        simp [Value.sameKey, different]
    | _ => simp [Value.sameKey, Value.number?]
  obtain ⟨bindings⟩ := table
  simp only [insert, get?]
  induction bindings with
  | nil => simp [insertInto, apart]
  | cons binding rest ih =>
      rw [insertInto]
      split
      · rename_i here
        simp [Value.sameKey_text_iff.mp here, apart]
      · cases found : binding.1.sameKey key with
        | true => simp [found]
        | false => simpa [found] using ih

theorem resolve_within {table : Table} {home : Nat} {allowed : Value → Prop}
    (values : ∀ binding ∈ table.bindings, binding.2.Within home allowed) (key : Value) :
    ((table.resolve key).getD .nil).Within home allowed := by
  rw [resolve_eq_bind, get?]
  cases found : table.bindings.find? fun binding => binding.1.sameKey key with
  | none => trivial
  | some binding =>
      have within := values binding (List.mem_of_find?_eq_some found)
      simp only [Option.map_some, Option.bind_some]
      unfold Value.bound?
      split
      · trivial
      · trivial
      · exact within

end Table

namespace Confined

variable {home : Nat} {both : Bool} {allowed : Value → Prop} {start state : State}

theorem of_tables {after : State} (confined : Confined home both allowed start state)
    (same : ∀ reading, after.table home reading = state.table home reading) :
    Confined home both allowed start after := by
  refine ⟨?_, ?_, ?_, ?_⟩
  · rw [same]
    exact confined.values
  · rw [same]
    exact confined.keys
  · rw [same]
    exact confined.others
  · rw [same]
    exact confined.symbolic

theorem bind (confined : Confined home both allowed start state) {name : String} {value : Value}
    (isAllowed : allowed (.text name)) (within : value.Within home allowed) :
    Confined home both allowed start (state.setTable home .numeric
      ((state.table home .numeric).insert (.text name) value)) := by
  refine ⟨?_, ?_, ?_, ?_⟩
  · rw [State.table_setTable]
    intro binding member
    rcases Table.Sound.mem_insertInto member with inside | ⟨rfl, _⟩
    · exact confined.values binding inside
    · exact within
  · rw [State.table_setTable]
    exact confined.keys.trans (Table.keys_insert ..)
  · intro key other
    rw [State.table_setTable, Table.get?_insert_other, confined.others key other]
    rintro rfl
    exact other isAllowed
  · rw [State.table_setTable_other _ _ (by decide)]
    exact confined.symbolic

theorem bindSymbolic (confined : Confined home true allowed start state) (table : Table) :
    Confined home true allowed start (state.setTable home .symbolic table) := by
  refine ⟨?_, ?_, ?_, fun alone => by cases alone⟩
  · rw [State.table_setTable_other _ _ (by decide)]
    exact confined.values
  · rw [State.table_setTable_other _ _ (by decide)]
    exact confined.keys
  · rw [State.table_setTable_other _ _ (by decide)]
    exact confined.others

end Confined

section Evaluation

variable {home : Nat} {both : Bool} {allowed : Value → Prop} {start : State}

/-- Whether a run from a confined state ends in one. -/
abbrev Confines {α : Type} (home : Nat) (both : Bool) (allowed : Value → Prop) (start : State)
    (gives : α → Prop) (action : Eval α) : Prop :=
  Maintains (Confined home both allowed start) gives action

theorem Confined.guards :
    Guards home (fun _ => True) allowed (Confined home both allowed start) where
  of_tables := Confined.of_tables
  resolves := by
    intro state key value confined _ bound
    rw [← Value.within_eq_heeds]
    have within := Table.resolve_within confined.values key
    rwa [bound] at within
  binds := by
    intro state name value confined isAllowed heeds
    rw [← Value.within_eq_heeds] at heeds
    exact confined.bind isAllowed heeds

theorem evaluate_confines_written (limit : Nat) {first : Bool} {node : Form}
    (written : node.WrittenAt first) (inside : ∀ key ∈ node.targets, allowed key) :
    Confines home both allowed start (Value.Within home allowed)
      (evaluate limit home both node) := by
  rw [Value.within_eq_heeds]
  refine evaluate_heeds Confined.guards limit (fun enters => ?_) written inside fun _ _ => trivial
  obtain rfl := enters
  exact fun state table confined => confined.bindSymbolic table

theorem evaluate_confines (limit : Nat) {node : Form} (isRead : node.IsRead)
    (inside : ∀ key ∈ node.targets, allowed key) :
    Confines home both allowed start (Value.Within home allowed)
      (evaluate limit home both node) := by
  rcases isRead with ⟨number, depth, rfl⟩ | written
  · have looks : Confines home both allowed start (fun _ => True)
        (Eval.resolve home .numeric (.ofNumber number)) := fun _ confined => ⟨trivial, confined⟩
    rw [evaluate, Node.eval]
    refine .bind looks fun bound _ => .bind (.ofExcept fun _ _ => trivial) ?_
    exact fun number (_ : True) => .pure (Value.isDatum_ofNumber number).within
  · exact evaluate_confines_written limit written inside

end Evaluation

/-! ### Sessions -/

theorem Value.Fits.within {home : Nat} {reading : Reading} {allowed : Value → Prop} {value : Value}
    (fits : value.Fits home reading) (inside : ∀ key ∈ value.targets, allowed key) :
    value.Within home allowed := by
  cases fits with
  | datum isDatum => exact isDatum.within
  | word isWord =>
      obtain ⟨text, rfl, _⟩ := isWord
      trivial
  | procedure sound => exact ⟨sound, inside⟩
  | _ => trivial

theorem Confined.of_sound {home : Nat} {state : State} (sound : state.Sound home) (both : Bool)
    {allowed : Value → Prop} (inside : ∀ key ∈ (state.table home .numeric).targets, allowed key) :
    Confined home both allowed state state where
  values := fun binding member =>
    ((sound .numeric).values binding member).within
      (List.forall_mem_flatMap.mp inside binding member)
  keys := List.prefix_rfl
  others := fun _ _ => rfl
  symbolic := fun _ => rfl

theorem evaluate_confined {home : Nat} {state : State} (sound : state.Sound home) (limit : Nat)
    (both : Bool) {form : Form} (isRead : form.IsRead) {allowed : Value → Prop}
    (inTable : ∀ key ∈ (state.table home .numeric).targets, allowed key)
    (inForm : ∀ key ∈ form.targets, allowed key) :
    Confined home both allowed state (attempt (evaluate limit home both form) state).2 :=
  (evaluate_confines limit isRead inForm).attempt (.of_sound sound both inTable)

/-- Whether it succeeds or fails, an evaluation takes no key from the numeric
table and adds new ones at the end. It binds only formals of the procedures that
the table holds and targets of the definitions in their clauses or in the form.
Unless it enters both readings, it leaves the symbolic table alone. -/
theorem evaluation_binds_targets_only {interpreter : Interpreter} {state : State}
    (reached : interpreter.Reached state) {source : String} {form : Form}
    (read : Node.read source = .ok form ∨ form ∈ (Node.readAll source).1) (limit : Nat)
    (both : Bool) :
    let before := state.table interpreter.home
    let after := (attempt (evaluate limit interpreter.home both form) state).2.table
      interpreter.home
    (before .numeric).keys <+: (after .numeric).keys ∧
      (∀ key, key ∉ (before .numeric).targets ++ form.targets →
        (after .numeric).get? key = (before .numeric).get? key) ∧
      (both = false → after .symbolic = before .symbolic) := by
  by_cases isBlank : form = .blank
  · subst isBlank
    exact ⟨List.prefix_rfl, fun _ _ => rfl, fun _ => rfl⟩
  · have isRead : form.IsRead := by
      rcases read with read | member
      · refine Node.isRead_of_read (fun empty => isBlank ?_) read
        subst empty
        exact (Except.ok.inj read).symm
      · exact Node.isRead_of_readAll form member
    have confined := evaluate_confined reached.sound limit both isRead
      (fun _ => List.mem_append_left form.targets) fun _ => List.mem_append_right _
    exact ⟨confined.keys, confined.others, confined.symbolic⟩

/-- A call that defines a constant on the way, and then one of a word that stands
for no procedure. -/
theorem evaluation_binds_targets_only_unknown :
    let interpreter : Interpreter := ⟨0, 10⟩
    let state := (attempt (interpreter.serve 50 (.load
      "(define z 9) (define (f n) (cond ((= n 0) (define k 5)) (else (f (- n 1)))))")) {}).2
    let form : Form := .expression [.operator "+" 1,
      .expression [.operator "f" 2, .literal (.text "2") 2] ⟨1, 1, none⟩,
      .expression [.operator "g" 2, .literal (.text "1") 2] ⟨1, 1, none⟩] ⟨0, 2, none⟩
    let outcome := attempt (evaluate 50 0 false form) state
    interpreter.Reached state ∧
      Node.read "(+ (f 2) (g 1))" = .ok form ∧
      outcome.1.isOk = false ∧
      ((state.table 0 .numeric).get? (.text "k")).isSome = false ∧
      ((outcome.2.table 0 .numeric).get? (.text "k")).isSome = true ∧
      (state.table 0 .numeric).keys <+: (outcome.2.table 0 .numeric).keys ∧
      ((state.table 0 .numeric).get? (.text "z")).isSome = true ∧
      (outcome.2.table 0 .numeric).get? (.text "z") = (state.table 0 .numeric).get? (.text "z") ∧
      outcome.2.table 0 .symbolic = state.table 0 .symbolic := by
  intro interpreter state form outcome
  have reached : interpreter.Reached state := .serve 50 _ (.start rfl)
  have read : Node.read "(+ (f 2) (g 1))" = .ok form := rfl
  have apart : ((state.table 0 .numeric).targets ++ form.targets).all
      (fun key => !key.sameKey (.text "z")) = true := by decide +kernel
  obtain ⟨keys, others, symbolic⟩ := evaluation_binds_targets_only reached (.inl read) 50 false
  refine ⟨reached, read, by decide +kernel, by decide +kernel, by decide +kernel, keys,
    by decide +kernel, others (.text "z") fun member => ?_, symbolic rfl⟩
  have differs := List.all_eq_true.mp apart _ member
  cases differs

end Stepper
