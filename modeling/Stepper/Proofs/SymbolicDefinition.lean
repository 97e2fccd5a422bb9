import Stepper.Proofs.Callees
import Stepper.Proofs.Rejection

/-!
What a definition under the symbolic reading does to the numeric table. Entering
it writes the symbolic table alone. The value form of a constant is evaluated
under the numeric reading all the same, and this may bind the targets of the
definitions in the form and what the procedures that it calls bind.
-/

namespace Stepper

/-! ### Entering the definition -/

/-- Whether an action leaves the numeric table as it is, be it that it fails. -/
def KeepsNumeric {α : Type} (home : Nat) (action : Eval α) : Prop :=
  ∀ table, Maintains (fun state => state.table home .numeric = table) (fun _ => True) action

section Entry

variable {home : Nat} {state : State}

theorem KeepsNumeric.bind {α β : Type} {action : Eval α} {next : α → Eval β}
    (first : KeepsNumeric home action) (second : ∀ a, KeepsNumeric home (next a)) :
    KeepsNumeric home (action >>= next) :=
  fun table => .bind (first table) fun a _ => second a table

theorem KeepsNumeric.pure {α : Type} {a : α} : KeepsNumeric home (pure a) :=
  fun _ => .pure trivial

theorem KeepsNumeric.ofExcept {α : Type} {action : Except Failure α} :
    KeepsNumeric home (Eval.ofExcept action) :=
  fun _ => .ofExcept fun _ _ => trivial

theorem KeepsNumeric.attempt {α : Type} {action : Eval α} (keeps : KeepsNumeric home action) :
    (attempt action state).2.table home .numeric = state.table home .numeric :=
  Maintains.attempt (keeps _) rfl

/-- What comes after an action and keeps the table can be left out. -/
theorem KeepsNumeric.attempt_bind {α β : Type} {action : Eval α} {next : α → Eval β}
    (keeps : ∀ a, KeepsNumeric home (next a)) :
    (Stepper.attempt (action >>= next) state).2.table home .numeric =
      (Stepper.attempt action state).2.table home .numeric := by
  cases ran : action state with
  | ok a middle =>
      have after : (Stepper.attempt (next a) middle).2.table home .numeric =
          middle.table home .numeric := (keeps a).attempt
      simp only [Stepper.attempt, EStateM.run] at after ⊢
      rw [Eval.bind_ok ran, after, ran]
  | error failure middle =>
      simp only [Stepper.attempt, EStateM.run]
      rw [Eval.bind_error ran, ran]

theorem define_symbolic_keeps (key value : Value) :
    KeepsNumeric home (Eval.define home .symbolic key value) := by
  intro table
  refine .get fun state holds => .bind (.ofExcept fun _ _ => trivial) fun written (_ : True) => ?_
  intro _ _
  exact ⟨trivial, (State.table_setTable_other state home (by decide) written).trans holds⟩

theorem defineProcedure_symbolic_keeps (name : String) (formals : List Value) (body : Form) :
    KeepsNumeric home (defineProcedure home .symbolic name formals body) := by
  have unbinds : KeepsNumeric home
      (formals.forM fun formal => Eval.define home .symbolic formal .unbound) :=
    fun table => .forM fun formal _ => define_symbolic_keeps formal _ table
  have counts : KeepsNumeric home Eval.newSerial := fun _ _ holds => ⟨trivial, holds⟩
  have looks : ∀ key, KeepsNumeric home (Eval.resolve home .symbolic key) :=
    fun _ _ _ holds => ⟨trivial, holds⟩
  refine unbinds.bind fun _ => ?_
  cases body with
  | expression children frame =>
      dsimp only
      split
      · refine KeepsNumeric.ofExcept.bind fun clauses => ?_
        exact counts.bind fun serial => define_symbolic_keeps _ _
      · exact (looks _).bind fun target => define_symbolic_keeps _ _
  | _ => exact fun _ => .refuse

/-- A definition that evaluates nothing is entered under the symbolic reading without
a trace in the numeric table. -/
theorem enterDefinition_symbolic_keeps {form : Form} {constant : Eval Value}
    (literal : ∀ head name depth body frame,
      form = .expression [head, .literal name depth, body] frame → body.isLiteral = true) :
    KeepsNumeric home (enterDefinition home .symbolic form constant) := by
  rcases enterDefinition_cases form with ⟨head, name, depth, body, frame, rfl⟩ |
    ⟨head, name, depth, nodes, inner, body, frame, formals, rfl, header⟩ | refuses
  · have isLiteral := literal head name depth body frame rfl
    cases body with
    | literal value depth =>
        exact KeepsNumeric.pure.bind fun _ => (define_symbolic_keeps _ _).bind fun _ => .pure
    | _ => cases isLiteral
  · rw [enterDefinition, header]
    refine KeepsNumeric.ofExcept.bind fun formals => ?_
    exact (defineProcedure_symbolic_keeps name formals body).bind fun _ => .pure
  · intro table state holds
    obtain ⟨failure, refused⟩ := refuses home .symbolic constant state
    rw [refused]
    exact holds

/-- A constant leaves the trace of its value form and no other. -/
theorem define_symbolic_constant {limit : Nat} {name : String} {body : Form} {outer inner : Int}
    {frame : Frame} (notLiteral : body.isLiteral = false) :
    (attempt (define limit home .symbolic (constantForm name body outer inner frame))
        state).2.table home .numeric =
      (attempt (evaluate limit home false body) state).2.table home .numeric := by
  have enters : ∀ value, KeepsNumeric home (do
      Eval.define home .symbolic (.text name) value
      if Reading.symbolic = .numeric then Eval.report (.definedConstant (.text name))) :=
    fun value => (define_symbolic_keeps (.text name) value).bind fun _ => .pure
  cases body with
  | literal => cases notLiteral
  | _ => exact KeepsNumeric.attempt_bind enters

end Entry

/-! ### What evaluating a form can bind -/

/-- The keys that evaluating a form can bind, in a table: the targets of the definitions
in the form, and what the procedures that it can call bind. -/
def Table.CanBind (table : Table) (form : Form) (key : Value) : Prop :=
  key ∈ form.targets ∨ ∃ callee definition, table.Calls form callee ∧
    definition ∈ table.procedure? callee ∧ key ∈ definition.targets

/-- Whether a key is one of some words. -/
def Value.isAmong (words : List String) (key : Value) : Bool :=
  words.any fun word => (Value.text word).sameKey key

/-- It is enough to look at a list of names that no call leads out of. -/
theorem Table.CanBind.exists_word {table : Table} {form : Form} {key : Value}
    (callees words : List String) (start : ∀ callee ∈ form.callees, callee ∈ callees)
    (targets : form.targets.all (Value.isAmong words) = true)
    (closed : ∀ caller ∈ callees, ∀ definition ∈ table.procedure? caller,
      (∀ callee ∈ definition.callees, callee ∈ callees) ∧
        definition.targets.all (Value.isAmong words) = true)
    (canBind : table.CanBind form key) : ∃ word ∈ words, key = .text word := by
  have among : Value.isAmong words key = true := by
    rcases canBind with member | ⟨callee, definition, calls, has, member⟩
    · exact List.all_eq_true.mp targets key member
    · have inside := calls.mem_of_closed start fun caller earlier definition bound =>
        (closed caller earlier definition bound).1
      exact List.all_eq_true.mp (closed callee inside definition has).2 key member
  obtain ⟨word, member, same⟩ := List.any_eq_true.mp among
  exact ⟨word, member, Value.eq_text_of_sameKey same⟩

/-- A state whose numeric table differs from `start` in allowed keys only. -/
structure Bounded (home : Nat) (callable : String → Prop) (allowed : Value → Prop)
    (start : Table) (state : State) : Prop where
  procedures : ∀ key value, key.IsCallable callable →
    (state.table home .numeric).resolve key = some value → value.Heeds home callable allowed
  keys : start.keys <+: (state.table home .numeric).keys
  others : ∀ key, ¬ allowed key → (state.table home .numeric).get? key = start.get? key
  idle : (∀ key, ¬ allowed key) → state.table home .numeric = start

namespace Bounded

variable {home : Nat} {callable : String → Prop} {allowed : Value → Prop} {start : Table}
variable {state : State}

theorem of_tables {after : State} (bounded : Bounded home callable allowed start state)
    (same : ∀ reading, after.table home reading = state.table home reading) :
    Bounded home callable allowed start after := by
  obtain ⟨procedures, keys, others, idle⟩ := bounded
  rw [← same] at procedures keys others idle
  exact ⟨procedures, keys, others, idle⟩

theorem bind (bounded : Bounded home callable allowed start state) {word : String} {value : Value}
    (isAllowed : allowed (.text word)) (heeds : value.Heeds home callable allowed) :
    Bounded home callable allowed start (state.setTable home .numeric
      ((state.table home .numeric).insert (.text word) value)) := by
  refine ⟨fun key found isCallable bound => ?_, ?_, fun key other => ?_, fun none => ?_⟩
  · rw [State.table_setTable] at bound
    rcases Table.of_resolve_insert bound with rfl | before
    · exact heeds
    · exact bounded.procedures key found isCallable before
  · rw [State.table_setTable]
    exact bounded.keys.trans (Table.keys_insert ..)
  · have apart : key ≠ .text word := by
      intro same
      rw [same] at other
      exact other isAllowed
    rw [State.table_setTable, Table.get?_insert_other _ apart, bounded.others key other]
  · exact absurd isAllowed (none _)

theorem guards : Guards home callable allowed (Bounded home callable allowed start) where
  of_tables := of_tables
  resolves := fun bounded isCallable bound => bounded.procedures _ _ isCallable bound
  binds := fun bounded isAllowed heeds => bounded.bind isAllowed heeds

theorem of_sound {form : Form} (sound : state.Sound home) :
    Bounded home ((state.table home .numeric).Calls form) ((state.table home .numeric).CanBind form)
      (state.table home .numeric) state where
  procedures := by
    intro key value isCallable bound
    refine (sound .numeric).heeds (fun callee definition calls has key member => ?_)
      isCallable bound
    exact .inr ⟨callee, definition, calls, has, member⟩
  keys := List.prefix_rfl
  others := fun _ _ => rfl
  idle := fun _ => rfl

/-- Evaluating a form, be it that it fails, binds only what it can bind. -/
theorem evaluate {form : Form} (sound : state.Sound home) (written : form.WrittenAt false)
    (limit : Nat) :
    Bounded home ((state.table home .numeric).Calls form) ((state.table home .numeric).CanBind form)
      (state.table home .numeric) (attempt (evaluate limit home false form) state).2 :=
  Maintains.attempt (evaluate_heeds guards limit (by simp) written
    (fun _ member => .inl member) (fun _ member => .here member)) (of_sound sound)

end Bounded

/-! ### The task -/

theorem perform_defineSymbolic_numeric {interpreter : Interpreter} {limit : Nat} {source : String}
    {form : Form} {state : State} (read : Node.readForm source = .ok form) :
    (attempt (interpreter.perform limit .defineSymbolic source) state).2.table interpreter.home
        .numeric =
      (attempt (define limit interpreter.home .symbolic form) state).2.table interpreter.home
        .numeric := by
  have performs : interpreter.perform limit .defineSymbolic source state =
      (do
        define limit interpreter.home .symbolic form
        return .done : Eval Reply) state := Interpreter.perform_keeping read rfl
  have ends : ∀ _ : Unit, KeepsNumeric interpreter.home (pure .done : Eval Reply) := fun _ => .pure
  rw [← KeepsNumeric.attempt_bind ends]
  simp only [attempt, EStateM.run, performs]

/-- A definition under the symbolic reading, be it that it fails, leaves the numeric
table as it was unless it is that of a constant with a compound value form. The table
is then as the evaluation of this form leaves it: its keys are kept, in their order,
and so are the bindings of all keys that the evaluation cannot bind. -/
theorem symbolic_definition_spares_numeric_table {interpreter : Interpreter} {state : State}
    (reached : interpreter.Reached state) (limit : Nat) (source : String) :
    let before := state.table interpreter.home .numeric
    let after := (attempt (interpreter.perform limit .defineSymbolic source) state).2.table
      interpreter.home .numeric
    ((∀ name body outer inner frame,
        Node.readForm source = .ok (constantForm name body outer inner frame) →
          body.isLiteral = true) → after = before) ∧
    ∀ name body outer inner frame,
      Node.readForm source = .ok (constantForm name body outer inner frame) →
      body.isLiteral = false →
        after = (attempt (evaluate limit interpreter.home false body) state).2.table
          interpreter.home .numeric ∧
        before.keys <+: after.keys ∧
        (∀ key, ¬ before.CanBind body key → after.get? key = before.get? key) ∧
        ((∀ key, ¬ before.CanBind body key) → after = before) := by
  intro before after
  refine ⟨fun literal => ?_, fun name body outer inner frame read notLiteral => ?_⟩
  · cases read : Node.readForm source with
    | error failure =>
        simp only [after, attempt, EStateM.run, Interpreter.perform,
          Interpreter.onText_unread read]
        rfl
    | ok form =>
        refine (perform_defineSymbolic_numeric read).trans (KeepsNumeric.attempt ?_)
        unfold define
        split
        · rename_i isDefine
          refine enterDefinition_symbolic_keeps fun head name depth body frame shape => ?_
          subst shape
          obtain ⟨outer, rfl⟩ := Node.head_of_isDefine isDefine
          obtain ⟨_, _, ⟨word, rfl, _⟩, _⟩ := (Node.isRead_of_readForm read).writtenAt
          exact literal word body outer depth frame read
        · exact .pure
  · have evaluated : after = (attempt (evaluate limit interpreter.home false body) state).2.table
        interpreter.home .numeric :=
      (perform_defineSymbolic_numeric read).trans (define_symbolic_constant notLiteral)
    obtain ⟨_, _, _, written, _⟩ := (Node.isRead_of_readForm read).writtenAt
    have bounded := Bounded.evaluate reached.sound written limit
    rw [evaluated]
    exact ⟨rfl, bounded.keys, bounded.others, bounded.idle⟩

theorem State.table_ne_of_isUnbound {one other : State} {home : Nat} {name : String}
    (differ : one.isUnbound home name ≠ other.isUnbound home name) :
    one.table home .numeric ≠ other.table home .numeric := by
  intro same
  rw [State.isUnbound, State.isUnbound, same] at differ
  exact differ rfl

theorem symbolic_definition_spares_numeric_table_nested :
    Interpreter.Reached ⟨0, 10⟩ uncalledSession ∧
      (attempt (Interpreter.perform ⟨0, 10⟩ 50 .defineSymbolic "(define (f y) 5)")
          uncalledSession).2.table 0 .numeric = uncalledSession.table 0 .numeric ∧
      let after := (attempt (Interpreter.perform ⟨0, 10⟩ 50 .defineSymbolic
        "(define f (+ (f 1) (define z 2)))") uncalledSession).2.table 0 .numeric
      after ≠ uncalledSession.table 0 .numeric ∧
      (uncalledSession.table 0 .numeric).keys <+: after.keys ∧
      ∀ word, word ∉ ["y", "z"] →
        after.get? (.text word) = (uncalledSession.table 0 .numeric).get? (.text word) := by
  have reached : Interpreter.Reached ⟨0, 10⟩ uncalledSession := .serve 50 _ (.start rfl)
  have procedure : Node.readForm "(define (f y) 5)" = .ok (.expression [.operator "define" 1,
      .expression [.operator "f" 2, .literal (.text "y") 2] ⟨1, 1, none⟩,
      .literal (.text "5") 1] ⟨0, 2, none⟩) := rfl
  have constant : Node.readForm "(define f (+ (f 1) (define z 2)))" = .ok (constantForm "f"
      (.expression [.operator "+" 2,
        .expression [.operator "f" 3, .literal (.text "1") 3] ⟨2, 1, none⟩,
        .expression [.operator "define" 3, .literal (.text "z") 3, .literal (.text "2") 3]
          ⟨2, 1, none⟩] ⟨1, 1, none⟩) 1 1 ⟨0, 3, none⟩) := rfl
  have binds : (attempt (Interpreter.perform ⟨0, 10⟩ 50 .defineSymbolic
      "(define f (+ (f 1) (define z 2)))") uncalledSession).2.isUnbound 0 "y" ≠
        uncalledSession.isUnbound 0 "y" := by decide +kernel
  obtain ⟨same, _⟩ := symbolic_definition_spares_numeric_table reached 50 "(define (f y) 5)"
  obtain ⟨_, compound⟩ := symbolic_definition_spares_numeric_table reached 50
    "(define f (+ (f 1) (define z 2)))"
  obtain ⟨_, keys, others, _⟩ := compound _ _ _ _ _ constant rfl
  refine ⟨reached, same ?_, State.table_ne_of_isUnbound binds, keys, fun word outside => ?_⟩
  · intro name body outer inner frame read
    cases procedure.symm.trans read
  · refine others (.text word) fun canBind => ?_
    obtain ⟨bound, member, equal⟩ := canBind.exists_word ["+", "f", "define", "else"] ["y", "z"]
      (by decide) (by decide) (by decide +kernel)
    cases equal
    exact outside member

/-- A call in the value form binds the formal of the procedure, be it that the
definition then fails. -/
theorem symbolic_definitions_can_bind_formals :
    Interpreter.Reached ⟨0, 10⟩ uncalledSession ∧
      ((attempt (Interpreter.perform ⟨0, 10⟩ 50 .defineSymbolic "(define k (f 1))")
          uncalledSession).1.isOk = true ∧
        (attempt (Interpreter.perform ⟨0, 10⟩ 50 .defineSymbolic "(define k (f 1))")
          uncalledSession).2.table 0 .numeric ≠ uncalledSession.table 0 .numeric) ∧
      (attempt (Interpreter.perform ⟨0, 10⟩ 50 .defineSymbolic "(define k (+ (f 1) (g 1)))")
          uncalledSession).1.isOk = false ∧
        (attempt (Interpreter.perform ⟨0, 10⟩ 50 .defineSymbolic "(define k (+ (f 1) (g 1)))")
          uncalledSession).2.table 0 .numeric ≠ uncalledSession.table 0 .numeric := by
  have runs : ((attempt (Interpreter.perform ⟨0, 10⟩ 50 .defineSymbolic "(define k (f 1))")
        uncalledSession).1.isOk = true ∧
      (attempt (Interpreter.perform ⟨0, 10⟩ 50 .defineSymbolic "(define k (f 1))")
        uncalledSession).2.isUnbound 0 "y" ≠ uncalledSession.isUnbound 0 "y") ∧
      (attempt (Interpreter.perform ⟨0, 10⟩ 50 .defineSymbolic "(define k (+ (f 1) (g 1)))")
        uncalledSession).1.isOk = false ∧
      (attempt (Interpreter.perform ⟨0, 10⟩ 50 .defineSymbolic "(define k (+ (f 1) (g 1)))")
        uncalledSession).2.isUnbound 0 "y" ≠ uncalledSession.isUnbound 0 "y" := by
    decide +kernel
  obtain ⟨⟨succeeds, binds⟩, fails, bindsToo⟩ := runs
  exact ⟨.serve 50 _ (.start rfl), ⟨succeeds, State.table_ne_of_isUnbound binds⟩, fails,
    State.table_ne_of_isUnbound bindsToo⟩

end Stepper
