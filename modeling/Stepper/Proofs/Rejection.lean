import Stepper.Proofs.Confinement
import Stepper.Proofs.Constants

/-!
What a rejected definition leaves behind. Its shape is checked before anything is
bound, with two exceptions: the formals of a procedure are bound, without a value,
before its body is looked at, and the value form of a constant is evaluated, which
may bind what it likes before it meets a definition that is rejected.
-/

namespace Stepper

/-- A table in which formals are bound, but to no value. -/
def Table.unbind (table : Table) (formals : List Value) : Table :=
  formals.foldl (fun table formal => table.insert formal .unbound) table

/-- Bodies that no procedure can have: what is no expression, and a `cond` with a
clause that is not a test and a result. -/
def Node.isRejectedBody (body : Form) : Bool :=
  match body with
  | .expression children _ => body.isCond && !(condClauses children.tail).isOk
  | _ => true

theorem Node.head_of_isDefine {head : Form} {operands : List Form} {frame : Frame}
    (defines : Node.isDefine (.expression (head :: operands) frame : Form) = true) :
    ∃ depth, head = .operator "define" depth := by
  cases head with
  | operator name depth =>
      simp only [isDefine, operatorName?, beq_iff_eq, Option.some.injEq] at defines
      exact ⟨depth, by rw [defines]⟩
  | _ => cases defines

/-- A run of two computations that fails does so in the first or in the second. -/
theorem Eval.of_bind_error {α β : Type} {state after : State} {action : Eval α} {next : α → Eval β}
    {failure : Failure} (failed : (action >>= next) state = .error failure after) :
    action state = .error failure after ∨
      ∃ a middle, action state = .ok a middle ∧ next a middle = .error failure after := by
  simp only [bind, EStateM.bind] at failed
  cases first : action state with
  | ok a middle =>
      rw [first] at failed
      exact .inr ⟨a, middle, rfl, failed⟩
  | error failure middle =>
      rw [first] at failed
      cases failed
      exact .inl rfl

section Entry

variable {home : Nat} {reading : Reading} {formals : List Value} {body : Form} {state after : State}

theorem refuse_run {α : Type} (node : Form) (failure : String → Failure) (state : State) :
    ∃ cause, (do
      let shown ← Eval.ofExcept node.render
      throw (failure shown) : Eval α) state = .error cause state := by
  cases node.render with
  | ok shown => exact ⟨failure shown, rfl⟩
  | error cause => exact ⟨cause, rfl⟩

theorem forM_define_unbind (home : Nat) (reading : Reading)
    (words : ∀ formal ∈ formals, formal.IsWord) (state : State) :
    ∃ after, (formals.forM fun formal => Eval.define home reading formal .unbound) state =
        .ok () after ∧
      after.table home reading = (state.table home reading).unbind formals ∧
      ∀ other, other ≠ reading → after.table home other = state.table home other := by
  induction formals generalizing state with
  | nil => exact ⟨state, rfl, rfl, fun _ _ => rfl⟩
  | cons formal rest ih =>
      obtain ⟨name, rfl, _⟩ := words formal List.mem_cons_self
      obtain ⟨after, ran, bound, others⟩ :=
        ih (fun other member => words other (List.mem_cons_of_mem _ member))
          (state.setTable home reading ((state.table home reading).insert (.text name) .unbound))
      refine ⟨after, ?_, ?_, fun other differs => ?_⟩
      · rw [List.forM, Eval.bind_ok (Eval.define_run ..)]
        exact ran
      · rw [bound, State.table_setTable]
        rfl
      · rw [others other differs, State.table_setTable_other _ _ differs]

/-- A state in which only the table of one reading changed, in that formals are
bound there to no value. -/
structure State.Unbinds (home : Nat) (reading : Reading) (formals : List Value)
    (state after : State) : Prop where
  bound : after.table home reading = (state.table home reading).unbind formals
  others : ∀ other, other ≠ reading → after.table home other = state.table home other

/-- The formals are bound before the body is looked at. -/
theorem defineProcedure_ends (home : Nat) (reading : Reading)
    (words : ∀ formal ∈ formals, formal.IsWord) (name : String) (body : Form) (state : State) :
    if body.isRejectedBody then
      ∃ failure after, defineProcedure home reading name formals body state = .error failure after ∧
        state.Unbinds home reading formals after
    else ∃ after, defineProcedure home reading name formals body state = .ok () after := by
  obtain ⟨bound, ran, tables, others⟩ := forM_define_unbind home reading words state
  have unbinds : state.Unbinds home reading formals bound := ⟨tables, others⟩
  cases body with
  | expression children frame =>
      rw [defineProcedure, Eval.bind_ok ran]
      cases isCond : Node.isCond (.expression children frame : Form) with
      | true =>
          cases split : condClauses children.tail with
          | ok clauses =>
              simp only [Node.isRejectedBody, isCond, split, Except.isOk, Except.toBool]
              exact ⟨_, rfl⟩
          | error failure =>
              simp only [Node.isRejectedBody, isCond, split, Except.isOk, Except.toBool]
              exact ⟨failure, bound, rfl, unbinds⟩
      | false =>
          simp only [Node.isRejectedBody, isCond]
          exact ⟨_, rfl⟩
  | _ =>
      obtain ⟨cause, refused⟩ := refuse_run _ (fun shown =>
        .malformed (.bodyNotExpression name shown)) bound
      exact ⟨cause, bound, (Eval.bind_ok ran).trans refused, unbinds⟩

/-- A definition is that of a constant or of a procedure, or it is refused before
anything is bound. -/
theorem enterDefinition_cases (form : Form) :
    (∃ head name depth body frame, form = .expression [head, .literal name depth, body] frame) ∨
    (∃ head name depth nodes inner body frame formals,
      form = .expression [head, .expression (.operator name depth :: nodes) inner, body] frame ∧
      headerFormals nodes = .ok formals) ∨
    ∀ home reading constant state,
      ∃ failure, enterDefinition home reading form constant state = .error failure state := by
  cases form with
  | expression children frame =>
      rcases children with _ | ⟨head, _ | ⟨target, _ | ⟨body, _ | ⟨more, rest⟩⟩⟩⟩
      · exact .inr (.inr fun _ _ _ state => refuse_run _ _ state)
      · exact .inr (.inr fun _ _ _ state => refuse_run _ _ state)
      · cases target <;> exact .inr (.inr fun _ _ _ state => refuse_run _ _ state)
      · cases target with
        | literal name depth => exact .inl ⟨head, name, depth, body, frame, rfl⟩
        | expression header inner =>
            rcases header with _ | ⟨first, nodes⟩
            · exact .inr (.inr fun _ _ _ state => refuse_run _ _ state)
            · cases first with
              | operator name depth =>
                  cases read : headerFormals nodes with
                  | ok formals =>
                      exact .inr (.inl ⟨head, name, depth, nodes, inner, body, frame, formals, rfl,
                        read⟩)
                  | error failure =>
                      refine .inr (.inr fun home reading constant state => ⟨failure, ?_⟩)
                      rw [enterDefinition, read]
                      rfl
              | _ => exact .inr (.inr fun _ _ _ state => refuse_run _ _ state)
        | _ => exact .inr (.inr fun _ _ _ state => refuse_run _ _ state)
      · cases target <;> exact .inr (.inr fun _ _ _ state => refuse_run _ _ state)
  | _ => exact .inr (.inr fun _ _ _ state => refuse_run _ _ state)

theorem enterDefinition_procedure_ends {form head : Form} {name : String} {depth : Int}
    {nodes : List Form} {inner frame : Frame} (home : Nat) (reading : Reading)
    (shape : form = .expression [head, .expression (.operator name depth :: nodes) inner, body] frame)
    (header : headerFormals nodes = .ok formals) (words : ∀ formal ∈ formals, formal.IsWord)
    (constant : Eval Value) (state : State) :
    if body.isRejectedBody then
      ∃ failure after, enterDefinition home reading form constant state = .error failure after ∧
        state.Unbinds home reading formals after
    else ∃ after, enterDefinition home reading form constant state = .ok () after := by
  have ends := defineProcedure_ends home reading words name body state
  rw [shape, enterDefinition, header, Eval.bind_ok (Eval.ofExcept_ok ..)]
  split at ends
  · rename_i rejected
    rw [if_pos rejected]
    obtain ⟨failure, after, failed, unbinds⟩ := ends
    exact ⟨failure, after, Eval.bind_error failed, unbinds⟩
  · rename_i accepted
    rw [if_neg accepted]
    obtain ⟨after, done⟩ := ends
    rw [Eval.bind_ok done]
    split
    · obtain ⟨report, words⟩ := report_definedWords name words
      obtain ⟨reported, ran, _⟩ := Eval.report_run words after
      exact ⟨reported, ran⟩
    · exact ⟨after, rfl⟩

/-- The definition of a constant fails only if its value form does. -/
theorem enterDefinition_constant_error {head : Form} {name : Value} {depth : Int} {frame : Frame}
    {constant : Eval Value} {failure : Failure} (isWord : name.IsWord)
    (failed : enterDefinition home reading (.expression [head, .literal name depth, body] frame)
      constant state = .error failure after) :
    body.isLiteral = false ∧ constant state = .error failure after := by
  -- once there is a value, entering and reporting it cannot fail
  have enters : ∀ value state, ∃ after, (do
      Eval.define home reading name value
      if reading = .numeric then Eval.report (.definedConstant name) : Eval Unit) state =
        .ok () after := by
    intro value state
    obtain ⟨report, words⟩ := report_definedConstant isWord
    obtain ⟨text, rfl, _⟩ := isWord
    rw [Eval.bind_ok (Eval.define_run ..)]
    split
    · obtain ⟨after, reported, _⟩ := Eval.report_run words _
      exact ⟨after, reported⟩
    · exact ⟨_, rfl⟩
  have fails : ∀ {evaluates : Eval Value}, (do
      let value ← evaluates
      Eval.define home reading name value
      if reading = .numeric then Eval.report (.definedConstant name) : Eval Unit) state =
        .error failure after → evaluates state = .error failure after := by
    intro evaluates failed
    rcases Eval.of_bind_error failed with first | ⟨value, middle, _, rest⟩
    · exact first
    · obtain ⟨last, entered⟩ := enters value middle
      rw [entered] at rest
      cases rest
  cases body with
  | literal value depth => cases fails failed
  | _ => exact ⟨rfl, fails failed⟩

end Entry

section Tasks

variable {interpreter : Interpreter} {limit : Nat} {source : String} {form : Form}
variable {failure : Failure} {state after : State}

/-- A definition fails as it is entered under the numeric reading or, once it is
entered there, under the symbolic one. -/
theorem perform_define_error (read : Node.readForm source = .ok form)
    (failed : interpreter.perform limit .define source state = .error failure after) :
    form.isDefine = true ∧
      (enterDefinition interpreter.home .numeric form (constantValue limit interpreter.home form)
          state = .error failure after ∨
        ∃ middle,
          enterDefinition interpreter.home .numeric form
            (constantValue limit interpreter.home form) state = .ok () middle ∧
          enterDefinition interpreter.home .symbolic form
            (constantValue limit interpreter.home form) middle = .error failure after) := by
  rw [Interpreter.perform_keeping read rfl] at failed
  cases isDefine : form.isDefine with
  | false =>
      simp only [define, isDefine] at failed
      cases failed
  | true =>
      simp only [define, isDefine, if_true] at failed
      refine ⟨rfl, ?_⟩
      rcases Eval.of_bind_error failed with first | ⟨_, middle, first, rest⟩
      · exact .inl first
      · rcases Eval.of_bind_error rest with second | ⟨_, last, _, finished⟩
        · exact .inr ⟨middle, first, second⟩
        · cases finished

/-- What the evaluation of the value form of a constant leads to if it fails, for
the first table or for the second. -/
def FailsOnValue (limit home : Nat) (name : String) (body : Form) (failure : Failure)
    (state after : State) : Prop :=
  evaluate limit home false body state = .error failure after ∨
    ∃ value once entered,
      evaluate limit home false body state = .ok value once ∧
      (∀ reading, entered.table home reading =
        (once.withBinding home .numeric name value).table home reading) ∧
      evaluate limit home false body entered = .error failure after

theorem perform_constant_error {name : String} {body : Form} {outer inner : Int} {frame : Frame}
    (read : Node.readForm source = .ok (constantForm name body outer inner frame))
    (failed : interpreter.perform limit .define source state = .error failure after) :
    body.isLiteral = false ∧ FailsOnValue limit interpreter.home name body failure state after := by
  have isWord : Value.IsWord (.text name) := (Node.isRead_of_readForm read).writtenAt.2.2.1
  obtain ⟨_, first | ⟨middle, first, second⟩⟩ := perform_define_error read failed
  · obtain ⟨notLiteral, evaluated⟩ := enterDefinition_constant_error isWord first
    exact ⟨notLiteral, .inl evaluated⟩
  · obtain ⟨notLiteral, evaluated⟩ := enterDefinition_constant_error isWord second
    obtain ⟨value, once, before, tables⟩ := enterDefinition_constant_ok first
    rw [constantOf_form notLiteral] at before
    exact ⟨notLiteral, .inr ⟨value, once, middle, before, tables, evaluated⟩⟩

/-- The definition of a procedure fails only for its body, and then before the
symbolic table is touched. -/
theorem perform_procedure_error {head : Form} {name : String} {depth : Int} {nodes : List Form}
    {inner frame : Frame} {body : Form} {formals : List Value}
    (read : Node.readForm source = .ok form)
    (shape : form = .expression [head, .expression (.operator name depth :: nodes) inner, body] frame)
    (header : headerFormals nodes = .ok formals) (words : ∀ formal ∈ formals, formal.IsWord)
    (failed : interpreter.perform limit .define source state = .error failure after) :
    body.isRejectedBody = true ∧ state.Unbinds interpreter.home .numeric formals after := by
  obtain ⟨_, first | ⟨middle, first, second⟩⟩ := perform_define_error read failed
  · have ends := enterDefinition_procedure_ends interpreter.home .numeric shape header words
      (constantValue limit interpreter.home form) state
    split at ends
    · rename_i isRejected
      obtain ⟨failure, last, refused, unbinds⟩ := ends
      cases first.symm.trans refused
      exact ⟨isRejected, unbinds⟩
    · obtain ⟨last, done⟩ := ends
      cases first.symm.trans done
  · have ends := enterDefinition_procedure_ends interpreter.home .numeric shape header words
      (constantValue limit interpreter.home form) state
    have again := enterDefinition_procedure_ends interpreter.home .symbolic shape header words
      (constantValue limit interpreter.home form) middle
    -- the checks are the same for both readings
    split at ends
    · obtain ⟨failure, last, refused, _⟩ := ends
      cases first.symm.trans refused
    · rename_i accepted
      rw [if_neg accepted] at again
      obtain ⟨last, done⟩ := again
      cases second.symm.trans done

/-- A value form that fails leaves the symbolic table alone and binds targets only. -/
theorem FailsOnValue.confined {home : Nat} {name : String} {body : Form} (sound : state.Sound home)
    (isRead : body.IsRead) (fails : FailsOnValue limit home name body failure state after) :
    Confined home false
      (· ∈ (state.table home .numeric).targets ++ .text name :: body.targets) state after := by
  have start : Confined home false
      (· ∈ (state.table home .numeric).targets ++ .text name :: body.targets) state state :=
    .of_sound sound false fun _ => List.mem_append_left _
  have evaluates : Confines home false
      (· ∈ (state.table home .numeric).targets ++ .text name :: body.targets) state
      (Value.Within home _) (evaluate limit home false body) :=
    evaluate_confines limit isRead fun key inside =>
      List.mem_append_right _ (List.mem_cons_of_mem _ inside)
  rcases fails with failed | ⟨value, once, entered, first, tables, failed⟩
  · have kept := evaluates state start
    rw [failed] at kept
    exact kept
  · have kept := evaluates state start
    rw [first] at kept
    have bound := kept.2.bind (List.mem_append_right _ List.mem_cons_self) kept.1
    have again := evaluates entered (bound.of_tables tables)
    rw [failed] at again
    exact again

end Tasks

/-- A rejected definition leaves the symbolic table as it was, and the numeric one
too with two exceptions. If the header of a procedure is in order and its body is
not, the formals are then bound to no value. If the value form of a constant has
to be evaluated, the numeric table is as this evaluation left it, which binds
targets only. -/
theorem rejected_definition_effects {interpreter : Interpreter} {state after : State}
    (reached : interpreter.Reached state) {limit : Nat} {source : String} {cause : Malformed}
    (rejected : interpreter.perform limit .define source state = .error (.malformed cause) after) :
    let before := state.table interpreter.home
    let now := after.table interpreter.home
    now .symbolic = before .symbolic ∧
      (now .numeric = before .numeric ∨
      (∃ head name depth nodes inner body frame formals,
        Node.readForm source = .ok (.expression
          [head, .expression (.operator name depth :: nodes) inner, body] frame) ∧
        headerFormals nodes = .ok formals ∧ body.isRejectedBody = true ∧
        now .numeric = (before .numeric).unbind formals) ∨
      ∃ name body outer inner frame,
        Node.readForm source = .ok (constantForm name body outer inner frame) ∧
        body.isLiteral = false ∧
        FailsOnValue limit interpreter.home name body (.malformed cause) state after ∧
        ∀ key, key ∉ (before .numeric).targets ++ .text name :: body.targets →
          (now .numeric).get? key = (before .numeric).get? key) := by
  intro before now
  cases read : Node.readForm source with
  | error failure =>
      rw [Interpreter.perform, Interpreter.onText_unread read] at rejected
      cases rejected
      exact ⟨rfl, .inl rfl⟩
  | ok form =>
      have isRead := Node.isRead_of_readForm read
      obtain ⟨isDefine, ends⟩ := perform_define_error read rejected
      rcases enterDefinition_cases form with ⟨head, name, inner, body, frame, rfl⟩ |
        ⟨head, name, depth, nodes, inner, body, frame, formals, rfl, header⟩ | refuses
      · rcases isRead with ⟨_, _, same⟩ | ⟨_, _, isWord, written, _⟩
        · cases same
        · obtain ⟨name, rfl, _⟩ := isWord
          obtain ⟨outer, rfl⟩ := Node.head_of_isDefine isDefine
          obtain ⟨notLiteral, fails⟩ := perform_constant_error read rejected
          have confined := fails.confined reached.sound (.inr written)
          exact ⟨confined.symbolic rfl, .inr (.inr ⟨name, body, outer, inner, frame, rfl, notLiteral,
            fails, confined.others⟩)⟩
      · have words : ∀ formal ∈ formals, formal.IsWord := by
          rcases isRead with ⟨_, _, same⟩ | ⟨_, _, ⟨_, _, written⟩, _⟩
          · cases same
          · exact headerFormals_words written header
        obtain ⟨isRejected, unbinds⟩ := perform_procedure_error read rfl header words rejected
        refine ⟨unbinds.others .symbolic (by decide), .inr (.inl ?_)⟩
        exact ⟨head, name, depth, nodes, inner, body, frame, formals, rfl, header, isRejected,
          unbinds.bound⟩
      · rcases ends with failed | ⟨middle, entered, _⟩
        · obtain ⟨failure, refused⟩ := refuses interpreter.home .numeric
            (constantValue limit interpreter.home form) state
          rw [refused] at failed
          cases failed
          exact ⟨rfl, .inl rfl⟩
        · obtain ⟨failure, refused⟩ := refuses interpreter.home .numeric
            (constantValue limit interpreter.home form) state
          rw [refused] at entered
          cases entered

/-- Whether a word is bound in the numeric table, but to no value. -/
def State.isUnbound (state : State) (home : Nat) (name : String) : Bool :=
  match (state.table home .numeric).get? (.text name) with
  | some .unbound => true
  | _ => false

/-- Whether a word is bound to no value once a definition was rejected. -/
def unboundBy (home : Nat) (name : String) : EStateM.Result Failure State Reply → Option Bool
  | .error (.malformed _) after => some (after.isUnbound home name)
  | _ => none

theorem of_unboundBy {home : Nat} {name : String} {unbound : Bool}
    {run : EStateM.Result Failure State Reply} (rejects : unboundBy home name run = some unbound) :
    ∃ cause after, run = .error (.malformed cause) after ∧
      after.isUnbound home name = unbound := by
  unfold unboundBy at rejects
  split at rejects
  · exact ⟨_, _, rfl, Option.some.inj rejects⟩
  · cases rejects

/-- A constant `x`. -/
def constantSession : State :=
  (attempt (Interpreter.serve ⟨0, 10⟩ 50 (.perform .define "(define x 5)")) {}).2

theorem rejected_definition_effects_clause :
    Interpreter.Reached ⟨0, 10⟩ constantSession ∧
      ∃ cause after,
        Interpreter.perform ⟨0, 10⟩ 50 .define "(define (f x) (cond (1 2 3)))" constantSession =
          .error (.malformed cause) after ∧
        after.table 0 .symbolic = constantSession.table 0 .symbolic ∧
        after.table 0 .numeric = (constantSession.table 0 .numeric).unbind [.text "x"] := by
  have reached : Interpreter.Reached ⟨0, 10⟩ constantSession := .serve 50 _ (.start rfl)
  have read : Node.readForm "(define (f x) (cond (1 2 3)))" = .ok (.expression
      [.operator "define" 1,
        .expression [.operator "f" 2, .literal (.text "x") 2] ⟨1, 1, none⟩,
        .expression [.operator "cond" 2, .expression [.operator "1" 3, .literal (.text "2") 3,
          .literal (.text "3") 3] ⟨2, 1, none⟩] ⟨1, 1, none⟩] ⟨0, 3, none⟩) := rfl
  have bound : constantSession.isUnbound 0 "x" = false := by decide +kernel
  have rejects : unboundBy 0 "x" (Interpreter.perform ⟨0, 10⟩ 50 .define
      "(define (f x) (cond (1 2 3)))" constantSession) = some true := by decide +kernel
  obtain ⟨cause, after, rejected, unbound⟩ := of_unboundBy rejects
  obtain ⟨symbolic, numeric⟩ := rejected_definition_effects reached rejected
  refine ⟨reached, cause, after, rejected, symbolic, ?_⟩
  rcases numeric with same | ⟨_, _, _, _, _, _, _, formals, form, header, _, unbinds⟩ |
    ⟨_, _, _, _, _, form, _⟩
  · have contradictory : after.isUnbound 0 "x" = constantSession.isUnbound 0 "x" := by
      rw [State.isUnbound, State.isUnbound, same]
    rw [bound, unbound] at contradictory
    cases contradictory
  · cases read.symm.trans form
    cases header
    exact unbinds
  · cases read.symm.trans form

/-- A procedure `f` of `y`, not called yet. -/
def uncalledSession : State :=
  (attempt (Interpreter.serve ⟨0, 10⟩ 50 (.perform .define "(define (f y) (cond (else y)))")) {}).2

/-- A rejected definition takes the value from a constant that has the name of a
formal. One that is rejected in its value form leaves the formals of the calls
there bound. -/
theorem rejected_definitions_leave_bindings :
    (Interpreter.Reached ⟨0, 10⟩ constantSession ∧ constantSession.isUnbound 0 "x" = false ∧
      ∃ cause after,
        Interpreter.perform ⟨0, 10⟩ 50 .define "(define (f x) 1)" constantSession =
          .error (.malformed cause) after ∧
        after.isUnbound 0 "x" = true) ∧
    (Interpreter.Reached ⟨0, 10⟩ uncalledSession ∧ uncalledSession.isUnbound 0 "y" = true ∧
      ∃ cause after,
        Interpreter.perform ⟨0, 10⟩ 50 .define "(define x (+ (f 1) (define z)))" uncalledSession =
          .error (.malformed cause) after ∧
        after.isUnbound 0 "y" = false) := by
  have body : unboundBy 0 "x" (Interpreter.perform ⟨0, 10⟩ 50 .define "(define (f x) 1)"
      constantSession) = some true := by decide +kernel
  have value : unboundBy 0 "y" (Interpreter.perform ⟨0, 10⟩ 50 .define
      "(define x (+ (f 1) (define z)))" uncalledSession) = some false := by decide +kernel
  exact ⟨⟨.serve 50 _ (.start rfl), by decide +kernel, of_unboundBy body⟩,
    .serve 50 _ (.start rfl), by decide +kernel, of_unboundBy value⟩

end Stepper
