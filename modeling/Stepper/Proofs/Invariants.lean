import Stepper.Proofs.Safety

/-!
Invariants that evaluation keeps, also where a failure breaks it off. What an
invariant has to meet is said once, by the names that may be called and the keys
that may be bound; one walk over the evaluator then serves every such invariant.
-/

namespace Stepper

/-- Whether an action keeps an invariant of the state, be it that it fails, and
what it then gives. -/
def Maintains {α : Type} (invariant : State → Prop) (gives : α → Prop) (action : Eval α) : Prop :=
  ∀ state, invariant state →
    match action state with
    | .ok a after => gives a ∧ invariant after
    | .error _ after => invariant after

namespace Maintains

variable {α β : Type} {invariant : State → Prop} {gives : α → Prop} {givesNext : β → Prop}

theorem pure {a : α} (given : gives a) : Maintains invariant gives (pure a) :=
  fun _ holds => ⟨given, holds⟩

theorem throw {failure : Failure} : Maintains invariant gives (throw failure) :=
  fun _ holds => holds

theorem bind {action : Eval α} {next : α → Eval β} (first : Maintains invariant gives action)
    (second : ∀ a, gives a → Maintains invariant givesNext (next a)) :
    Maintains invariant givesNext (action >>= next) := by
  intro state holds
  have kept := first state holds
  cases ran : action state with
  | ok a after =>
      rw [ran] at kept
      rw [Eval.bind_ok ran]
      exact second a kept.1 after kept.2
  | error failure after =>
      rw [ran] at kept
      rw [Eval.bind_error ran]
      exact kept

theorem mono {weaker : α → Prop} {action : Eval α} (maintains : Maintains invariant gives action)
    (weaken : ∀ a, gives a → weaker a) : Maintains invariant weaker action := by
  have weakened := maintains.bind fun a given => pure (weaken a given)
  rwa [bind_pure] at weakened

theorem ofExcept {action : Except Failure α} (given : ∀ a, action = .ok a → gives a) :
    Maintains invariant gives (Eval.ofExcept action) := by
  cases action with
  | ok a => exact pure (given a rfl)
  | error failure => exact throw

theorem get {next : State → Eval β}
    (go : ∀ state, invariant state → Maintains invariant givesNext (next state)) :
    Maintains invariant givesNext (MonadState.get >>= next) :=
  fun state holds => go state holds state holds

theorem forM {items : List α} {action : α → Eval Unit}
    (each : ∀ item ∈ items, Maintains invariant (fun _ => True) (action item)) :
    Maintains invariant (fun _ => True) (items.forM action) := by
  induction items with
  | nil => exact pure trivial
  | cons item rest ih =>
      exact bind (each item List.mem_cons_self) fun _ _ =>
        ih fun other member => each other (List.mem_cons_of_mem _ member)

/-- A failure that shows a form leaves the state alone. -/
theorem refuse {node : Form} {failure : String → Failure} :
    Maintains invariant gives
      (do let shown ← Eval.ofExcept node.render
          MonadExcept.throw (failure shown)) :=
  have shows : Maintains invariant (fun _ : String => True) (Eval.ofExcept node.render) :=
    ofExcept fun _ _ => trivial
  bind shows fun _ _ => throw

theorem attempt {action : Eval α} (maintains : Maintains invariant gives action) {state : State}
    (holds : invariant state) : invariant (attempt action state).2 := by
  have kept := maintains state holds
  rw [Stepper.attempt, EStateM.run]
  cases ran : action state with
  | ok a after =>
      rw [ran] at kept
      exact kept.2
  | error failure after =>
      rw [ran] at kept
      exact kept

theorem applicable (head : Form) (value : Value) :
    Maintains invariant (fun _ => True) (Stepper.applicable head value) := by
  unfold Stepper.applicable
  split
  · exact refuse
  · split
    · refine bind (ofExcept fun _ _ => trivial) fun _ (_ : True) => ?_
      exact bind (ofExcept fun _ _ => trivial) fun _ (_ : True) => throw
    · exact pure trivial

theorem bindFormals {home : Nat} {formals arguments : List Value}
    (defines : ∀ formal ∈ formals, ∀ value, value = .unbound ∨ value ∈ arguments →
      Maintains invariant (fun _ => True) (Eval.define home .numeric formal value)) :
    Maintains invariant (fun _ => True)
      (Stepper.bindFormals home [.numeric] formals arguments) := by
  induction formals generalizing arguments with
  | nil => exact pure trivial
  | cons formal rest ih =>
      obtain ⟨here, later⟩ := List.forall_mem_cons.mp defines
      refine bind (forM fun reading member => ?_) fun _ _ => ih fun formal member value given => ?_
      · obtain rfl := List.mem_singleton.mp member
        refine here _ ?_
        cases arguments with
        | nil => exact .inl rfl
        | cons argument others => exact .inr List.mem_cons_self
      · exact later formal member value (given.imp_right List.mem_of_mem_tail)

theorem selectClause {eval : Form → Eval Value} {clauses : List (Clause Value)}
    (holds : Value → Prop) (name : String)
    (tests : ∀ clause ∈ clauses, Maintains invariant holds (eval clause.test)) :
    Maintains invariant (fun node => ∃ clause ∈ clauses, clause.result = node)
      (Stepper.selectClause eval name clauses) := by
  induction clauses with
  | nil => exact throw
  | cons clause rest ih =>
      obtain ⟨test, others⟩ := List.forall_mem_cons.mp tests
      refine bind test fun tested _ => ?_
      split
      · exact pure ⟨clause, List.mem_cons_self, rfl⟩
      · refine (ih others).mono fun node => ?_
        rintro ⟨other, member, isResult⟩
        exact ⟨other, List.mem_cons_of_mem _ member, isResult⟩

theorem evalWithin {call : CallModel} {limit home room level : Nat} {node : Form}
    {given : Value → Prop}
    (evaluates : Maintains invariant given (node.eval call home false level)) :
    Maintains invariant given (Stepper.evalWithin limit call home room level node) := by
  unfold Stepper.evalWithin
  split
  · exact throw
  · exact evaluates

end Maintains

/-! ### What a form binds and calls -/

namespace Node

def word? : Form → Option Value
  | .literal value _ => some value
  | _ => none

/-- What a definition with this target binds: a constant, or a procedure and
its formals. -/
def heading : Form → List Value
  | .literal name _ => [name]
  | .expression (.operator name _ :: formals) _ => .text name :: formals.filterMap word?
  | _ => []

/-- What a form binds if it is a definition. -/
def defined (form : Form) : List Value :=
  match form with
  | .expression (_ :: target :: _) _ => if form.isDefine then target.heading else []
  | _ => []

mutual
/-- What the definitions in a tree bind, wherever in the tree they stand. -/
def targets : Form → List Value
  | .expression children frame =>
    defined (.expression children frame) ++ targetsOfAll children
  | _ => []

def targetsOfAll : List Form → List Value
  | [] => []
  | node :: rest => node.targets ++ targetsOfAll rest
end

mutual
/-- The names in function position in a tree, wherever in the tree they stand. -/
def callees : Form → List String
  | .operator name _ => [name]
  | .expression children _ => calleesOfAll children
  | _ => []

def calleesOfAll : List Form → List String
  | [] => []
  | node :: rest => node.callees ++ calleesOfAll rest
end

theorem mem_targetsOfAll {key : Value} {nodes : List Form} :
    key ∈ targetsOfAll nodes ↔ ∃ node ∈ nodes, key ∈ node.targets := by
  induction nodes with
  | nil => simp [targetsOfAll]
  | cons node rest ih => simp [targetsOfAll, ih]

theorem mem_calleesOfAll {callee : String} {nodes : List Form} :
    callee ∈ calleesOfAll nodes ↔ ∃ node ∈ nodes, callee ∈ node.callees := by
  induction nodes with
  | nil => simp [calleesOfAll]
  | cons node rest ih => simp [calleesOfAll, ih]

end Node

/-- What calls of a procedure can bind: its formals, and the targets of the
definitions in its clauses. -/
def CondProcedure.targets (definition : CondProcedure Value) : List Value :=
  definition.formals ++
    definition.clauses.flatMap fun clause => clause.test.targets ++ clause.result.targets

def CondProcedure.callees (definition : CondProcedure Value) : List String :=
  definition.clauses.flatMap fun clause => clause.test.callees ++ clause.result.callees

theorem headerFormals_eq {nodes : List Form} {formals : List Value}
    (read : headerFormals nodes = .ok formals) : formals = nodes.filterMap Node.word? := by
  induction nodes generalizing formals with
  | nil =>
      cases read
      rfl
  | cons node rest ih =>
      cases node with
      | literal value depth =>
          obtain ⟨later, ran, done⟩ := of_except_bind_ok read
          cases done
          rw [ih ran]
          rfl
      | _ =>
          obtain ⟨shown, _, failed⟩ := of_except_bind_ok read
          cases failed

theorem condClauses_targets {children : List Form} {clauses : List (Clause Value)}
    (split : condClauses children.tail = .ok clauses) :
    ∀ clause ∈ clauses, ∀ key ∈ clause.test.targets ++ clause.result.targets,
      key ∈ Node.targetsOfAll children := by
  intro clause member key inside
  obtain ⟨frame, among⟩ := exists_mem_of_condClauses split clause member
  refine Node.mem_targetsOfAll.mpr
    ⟨_, List.mem_of_mem_tail among, List.mem_append_right _ ?_⟩
  simpa [Node.targetsOfAll] using inside

theorem condClauses_callees {children : List Form} {clauses : List (Clause Value)}
    (split : condClauses children.tail = .ok clauses) :
    ∀ clause ∈ clauses, ∀ callee ∈ clause.test.callees ++ clause.result.callees,
      callee ∈ Node.calleesOfAll children := by
  intro clause member callee inside
  obtain ⟨frame, among⟩ := exists_mem_of_condClauses split clause member
  refine Node.mem_calleesOfAll.mpr ⟨_, List.mem_of_mem_tail among, ?_⟩
  simpa [Node.callees, Node.calleesOfAll] using inside

/-! ### Values and invariants that heed bounds -/

/-- A key that is a callable name, if it is a name at all. -/
def Value.IsCallable (callable : String → Prop) (key : Value) : Prop :=
  ∀ word, key = .text word → callable word

/-- A value that, if it is a procedure, belongs to the workspace `home`, calls
callable names only and binds allowed keys only. -/
def Value.Heeds (home : Nat) (callable : String → Prop) (allowed : Value → Prop) : Value → Prop
  | .procedure _ definition => definition.Sound home ∧
      (∀ callee ∈ definition.callees, callable callee) ∧ ∀ key ∈ definition.targets, allowed key
  | _ => True

theorem Value.IsDatum.heeds {home : Nat} {callable : String → Prop} {allowed : Value → Prop}
    {value : Value} (isDatum : value.IsDatum) : value.Heeds home callable allowed := by
  rcases isDatum with rfl | isNumber
  · trivial
  · cases value with
    | procedure => cases isNumber
    | _ => trivial

/-- What an invariant has to meet so that evaluation keeps it. It is about the tables
alone, what a callable name stands for heeds the bounds, and an allowed key may be
bound to what heeds them. -/
structure Guards (home : Nat) (callable : String → Prop) (allowed : Value → Prop)
    (invariant : State → Prop) : Prop where
  of_tables : ∀ {state after : State}, invariant state →
    (∀ reading, after.table home reading = state.table home reading) → invariant after
  resolves : ∀ {state : State} {key value : Value}, invariant state → key.IsCallable callable →
    (state.table home .numeric).resolve key = some value → value.Heeds home callable allowed
  binds : ∀ {state : State} {word : String} {value : Value}, invariant state →
    allowed (.text word) → value.Heeds home callable allowed →
    invariant (state.setTable home .numeric
      ((state.table home .numeric).insert (.text word) value))

/-- An invariant that says nothing about the symbolic table. Where evaluation enters
definitions under both readings, it keeps only such ones. -/
def IgnoresSymbolic (home : Nat) (invariant : State → Prop) : Prop :=
  ∀ state table, invariant state → invariant (state.setTable home .symbolic table)

/-- Calls of procedures that heed the bounds keep an invariant. -/
def CallModel.Heeds (home : Nat) (callable : String → Prop) (allowed : Value → Prop)
    (invariant : State → Prop) (call : CallModel) : Prop :=
  ∀ level reading definition arguments,
    (Value.procedure reading definition).Heeds home callable allowed →
    (∀ argument ∈ arguments, argument.Heeds home callable allowed) →
      Maintains invariant (Value.Heeds home callable allowed) (call level definition arguments)

/-! ### The walk -/

section Evaluation

variable {home : Nat} {callable : String → Prop} {allowed : Value → Prop}
variable {invariant : State → Prop} {reading : Reading}

theorem operatorKey_callable {body : Form} (inside : ∀ callee ∈ body.callees, callable callee) :
    (operatorKey body).IsCallable callable := by
  intro word same
  unfold operatorKey at same
  cases found : body.operatorName? with
  | none =>
      rw [found] at same
      cases same
  | some callee =>
      rw [found] at same
      cases same
      unfold Node.operatorName? at found
      split at found
      · cases found
        exact inside _ List.mem_cons_self
      · cases found

theorem apply_heeds {call : CallModel} (calls : call.Heeds home callable allowed invariant)
    (level : Nat) {procedure : Value} {arguments : List Value}
    (heeds : procedure.Heeds home callable allowed)
    (argumentsHeed : ∀ argument ∈ arguments, argument.Heeds home callable allowed) :
    Maintains invariant (Value.Heeds home callable allowed)
      (procedure.apply call level arguments) := by
  cases procedure with
  | builtin operation => exact .ofExcept fun _ applied => (Builtin.apply_isDatum applied).heeds
  | procedure reading definition =>
      exact calls level reading definition arguments heeds argumentsHeed
  | _ => exact .pure trivial

variable (guards : Guards home callable allowed invariant)
include guards

theorem resolve_heeds {key : Value} (isCallable : key.IsCallable callable) :
    Maintains invariant
      (fun found => reading = .numeric → (found.getD .nil).Heeds home callable allowed)
      (Eval.resolve home reading key) := by
  intro state holds
  rw [Eval.resolve_run]
  refine ⟨?_, holds⟩
  rintro rfl
  cases bound : (state.table home .numeric).resolve key with
  | none => trivial
  | some value => exact guards.resolves holds isCallable bound

theorem define_heeds (ignores : reading = .symbolic → IgnoresSymbolic home invariant)
    {key value : Value} (isWord : key.IsWord) (isAllowed : allowed key)
    (heeds : reading = .numeric → value.Heeds home callable allowed) :
    Maintains invariant (fun _ => True) (Eval.define home reading key value) := by
  obtain ⟨word, rfl, _⟩ := isWord
  intro state holds
  rw [Eval.define_run]
  refine ⟨trivial, ?_⟩
  cases reading with
  | numeric => exact guards.binds holds isAllowed (heeds rfl)
  | symbolic => exact ignores rfl _ _ holds

theorem newSerial_heeds : Maintains invariant (fun _ => True) Eval.newSerial :=
  fun _ holds => ⟨trivial, guards.of_tables holds fun _ => rfl⟩

theorem report_heeds (event : Event) :
    Maintains invariant (fun _ => True) (Eval.report event) := by
  refine .get fun state holds => ?_
  split
  · refine .bind (.ofExcept fun _ _ => trivial) fun report (_ : True) => ?_
    exact fun _ _ => ⟨trivial, guards.of_tables holds fun _ => rfl⟩
  · exact .pure trivial

/-- Only the numeric reading reports a definition. -/
theorem reportNumeric_heeds (event : Event) :
    Maintains invariant (fun _ => True)
      (if reading = .numeric then Eval.report event else pure ()) := by
  split
  · exact report_heeds guards event
  · exact .pure trivial

theorem defineProcedure_heeds (ignores : reading = .symbolic → IgnoresSymbolic home invariant)
    {name : String} {formals : List Value} {body : Form} (isRun : Token.IsRun name)
    (words : ∀ formal ∈ formals, formal.IsWord) (written : body.WrittenAt false)
    (isAllowed : ∀ key ∈ .text name :: formals, allowed key)
    (targets : ∀ key ∈ body.targets, allowed key)
    (inside : ∀ callee ∈ body.callees, callable callee) :
    Maintains invariant (fun _ => True) (defineProcedure home reading name formals body) := by
  have isWord : (Value.text name).IsWord := ⟨name, rfl, isRun⟩
  obtain ⟨nameAllowed, formalsAllowed⟩ := List.forall_mem_cons.mp isAllowed
  refine .bind (.forM fun formal member => ?_) fun _ _ => ?_
  · exact define_heeds guards ignores (words formal member) (formalsAllowed formal member)
      fun _ => trivial
  · cases body with
    | expression children frame =>
        dsimp only
        split
        · refine .bind (.ofExcept fun clauses split => split) fun clauses split => ?_
          refine .bind (newSerial_heeds guards) fun serial _ => ?_
          -- the clauses are parts of the body, so they call and bind what it may
          have clausesWritten := condClauses_written written.2.tail split
          have clausesCall := condClauses_callees split
          have clausesBind := condClauses_targets split
          refine define_heeds guards ignores isWord nameAllowed fun _ =>
            ⟨⟨rfl, words, clausesWritten⟩, ?_, List.forall_mem_append.mpr ⟨formalsAllowed, ?_⟩⟩
          · exact List.forall_mem_flatMap.mpr fun clause member callee calls =>
              inside callee (clausesCall clause member callee calls)
          · exact List.forall_mem_flatMap.mpr fun clause member key binds =>
              targets key (List.mem_append_right _ (clausesBind clause member key binds))
        · refine .bind (resolve_heeds guards (operatorKey_callable inside)) fun target heeds => ?_
          exact define_heeds guards ignores isWord nameAllowed heeds
    | _ => exact .refuse

theorem enterDefinition_heeds (ignores : reading = .symbolic → IgnoresSymbolic home invariant)
    {form : Form} {constant : Eval Value} (written : form.WrittenAt false)
    (isDefine : form.isDefine = true)
    (targets : ∀ key ∈ form.targets, allowed key)
    (inside : ∀ callee ∈ form.callees, callable callee)
    (evaluates : Maintains invariant (Value.Heeds home callable allowed) constant) :
    Maintains invariant (fun _ => True) (enterDefinition home reading form constant) := by
  unfold enterDefinition
  split
  · rename_i head key depth body frame
    obtain ⟨_, _, isWord, bodyWritten, _⟩ := written
    have isAllowed : allowed key := targets key (by
      simp [Node.targets, Node.defined, isDefine, Node.heading])
    have bound : ∀ value : Value, value.Heeds home callable allowed →
        Maintains invariant (fun _ => True)
          (do Eval.define home reading key value
              if reading = .numeric then Eval.report (.definedConstant key)) :=
      fun value heeds => .bind (define_heeds guards ignores isWord isAllowed fun _ => heeds)
        fun _ _ => reportNumeric_heeds guards _
    cases body with
    | literal value depth =>
        obtain ⟨text, rfl, _⟩ := bodyWritten
        exact .bind (.pure trivial) bound
    | _ => exact .bind evaluates bound
  · rename_i head header frame body frame'
    obtain ⟨_, _, ⟨_, headerWritten⟩, bodyWritten, _⟩ := written
    split
    · rename_i name depth rest
      obtain ⟨⟨_, isRun⟩, restWritten⟩ := headerWritten
      refine .bind (.ofExcept fun formals read => read) fun formals read => ?_
      have words := headerFormals_words restWritten read
      have headAllowed : ∀ key ∈ .text name :: formals, allowed key := by
        rw [headerFormals_eq read]
        refine fun key member => targets key (List.mem_append_left _ ?_)
        simpa [Node.defined, isDefine, Node.heading] using member
      have bodyAllowed : ∀ key ∈ body.targets, allowed key := by
        refine fun key member => targets key (List.mem_append_right _ ?_)
        simp [Node.targetsOfAll, member]
      have insideBody : ∀ callee ∈ body.callees, callable callee := by
        refine fun callee member => inside callee ?_
        simp [Node.callees, Node.calleesOfAll, member]
      refine .bind (defineProcedure_heeds guards ignores isRun words bodyWritten headAllowed
        bodyAllowed insideBody) ?_
      exact fun _ _ => reportNumeric_heeds guards _
    · exact .refuse
  · exact .refuse
  · exact .refuse

omit guards

mutual
theorem eval_heeds {call : CallModel} (guards : Guards home callable allowed invariant)
    (calls : call.Heeds home callable allowed invariant) {both : Bool}
    (ignores : both = true → IgnoresSymbolic home invariant) (level : Nat) {first : Bool}
    (node : Form) (written : node.WrittenAt first) (targets : ∀ key ∈ node.targets, allowed key)
    (inside : ∀ callee ∈ node.callees, callable callee) :
    Maintains invariant (Value.Heeds home callable allowed) (node.eval call home both level) := by
  cases node with
  | blank => exact .throw
  | literal value depth =>
      -- a literal is no procedure, whatever it stands for
      have looks : Maintains invariant (fun _ => True) (Eval.resolve home .numeric value) :=
        fun _ holds => ⟨trivial, holds⟩
      rw [Node.eval]
      refine .bind looks fun bound _ => .bind (.ofExcept fun _ _ => trivial) ?_
      exact fun number (_ : True) => .pure (Value.isDatum_ofNumber number).heeds
  | operator callee depth =>
      rw [Node.eval]
      refine .bind (resolve_heeds guards ?_) fun bound heeds => .pure (heeds rfl)
      rintro word same
      cases same
      exact inside callee (List.mem_singleton.mpr rfl)
  | expression children frame =>
      cases children with
      | nil => exact .throw
      | cons head operands =>
          obtain ⟨insideHead, insideOperands⟩ := List.forall_mem_append.mp inside
          have inChildren : ∀ key ∈ head.targets ++ Node.targetsOfAll operands, allowed key :=
            fun key member => targets key (List.mem_append_right _ member)
          obtain ⟨inHead, inOperands⟩ := List.forall_mem_append.mp inChildren
          rw [Node.eval]
          dsimp only
          split
          · rename_i isDefine
            have entered : ∀ reading, (reading = .symbolic → IgnoresSymbolic home invariant) →
                Maintains invariant (fun _ => True)
                  (enterDefinition home reading (.expression (head :: operands) frame)
                    (evalLast call home (level + 4) operands)) :=
              fun reading readingIgnores => enterDefinition_heeds guards readingIgnores written
                isDefine targets inside (evalLast_heeds guards calls (level + 4) operands
                  written.2.2 inOperands insideOperands)
            refine .bind (entered .numeric (by simp)) fun _ _ => ?_
            split
            · rename_i enters
              exact .bind (entered .symbolic fun _ => ignores enters) fun _ _ => .pure trivial
            · exact .pure trivial
          · refine .bind (eval_heeds guards calls ignores (level + 1) head written.2.1 inHead
              insideHead) fun procedure heeds => ?_
            refine .bind (.applicable head procedure) fun _ _ => ?_
            refine .bind (evalAll_heeds guards calls ignores (level + 2) operands written.2.2
              inOperands insideOperands) fun arguments argumentsHeed => ?_
            exact apply_heeds calls level heeds argumentsHeed

theorem evalAll_heeds {call : CallModel} (guards : Guards home callable allowed invariant)
    (calls : call.Heeds home callable allowed invariant) {both : Bool}
    (ignores : both = true → IgnoresSymbolic home invariant) (level : Nat) (nodes : List Form)
    (written : Node.WrittenRow false nodes)
    (targets : ∀ key ∈ Node.targetsOfAll nodes, allowed key)
    (inside : ∀ callee ∈ Node.calleesOfAll nodes, callable callee) :
    Maintains invariant (fun values => ∀ value ∈ values, value.Heeds home callable allowed)
      (evalAll call home both level nodes) := by
  cases nodes with
  | nil => exact .pure (by simp)
  | cons node rest =>
      obtain ⟨insideNode, insideRest⟩ := List.forall_mem_append.mp inside
      obtain ⟨inNode, inRest⟩ := List.forall_mem_append.mp targets
      rw [evalAll]
      refine .bind (eval_heeds guards calls ignores level node written.1 inNode insideNode)
        fun value heeds => ?_
      refine .bind (evalAll_heeds guards calls ignores level rest written.2 inRest insideRest)
        fun values others => ?_
      exact .pure (List.forall_mem_cons.mpr ⟨heeds, others⟩)

theorem evalLast_heeds {call : CallModel} (guards : Guards home callable allowed invariant)
    (calls : call.Heeds home callable allowed invariant) (level : Nat) (nodes : List Form)
    (written : Node.WrittenRow false nodes)
    (targets : ∀ key ∈ Node.targetsOfAll nodes, allowed key)
    (inside : ∀ callee ∈ Node.calleesOfAll nodes, callable callee) :
    Maintains invariant (Value.Heeds home callable allowed) (evalLast call home level nodes) := by
  cases nodes with
  | nil => exact .pure trivial
  | cons node rest =>
      obtain ⟨insideNode, insideRest⟩ := List.forall_mem_append.mp inside
      obtain ⟨inNode, inRest⟩ := List.forall_mem_append.mp targets
      rw [evalLast]
      split
      · exact eval_heeds guards calls (by simp) level node written.1 inNode insideNode
      · exact evalLast_heeds guards calls level rest written.2 inRest insideRest
end

include guards

theorem bindFormals_heeds {formals arguments : List Value}
    (words : ∀ formal ∈ formals, formal.IsWord) (isAllowed : ∀ formal ∈ formals, allowed formal)
    (heed : ∀ argument ∈ arguments, argument.Heeds home callable allowed) :
    Maintains invariant (fun _ => True) (bindFormals home [.numeric] formals arguments) := by
  refine .bindFormals fun formal member value given => ?_
  refine define_heeds guards (by simp) (words formal member) (isAllowed formal member) fun _ => ?_
  rcases given with rfl | isArgument
  · trivial
  · exact heed value isArgument

/-- Calls keep an invariant if their procedures heed its bounds, however much room is
left. -/
theorem callWithin_heeds (limit room : Nat) :
    (callWithin limit room).Heeds home callable allowed invariant := by
  induction room with
  | zero =>
      rintro level reading definition arguments ⟨sound, _, targets⟩ heed
      rw [callWithin, sound.home]
      refine .bind (bindFormals_heeds guards sound.formals ?_ heed) fun _ _ => .throw
      exact fun formal member => targets formal (List.mem_append_left _ member)
  | succ room ih =>
      rintro level reading definition arguments ⟨sound, inside, targets⟩ heed
      cases level with
      | succ level => exact ih level reading definition arguments ⟨sound, inside, targets⟩ heed
      | zero =>
          obtain ⟨formalsAllowed, clausesAllowed⟩ := List.forall_mem_append.mp targets
          have parts : ∀ clause ∈ definition.clauses, (∀ key ∈ clause.test.targets, allowed key) ∧
              ∀ key ∈ clause.result.targets, allowed key := fun clause member =>
            List.forall_mem_append.mp (List.forall_mem_flatMap.mp clausesAllowed clause member)
          have calls := List.forall_mem_flatMap.mp inside
          rw [callWithin, sound.home]
          refine .bind (bindFormals_heeds guards sound.formals formalsAllowed heed) fun _ _ => ?_
          refine .get fun state _ => ?_
          rw [sound.clauses_eq]
          refine .bind (.selectClause (Value.Heeds home callable allowed) _
            fun clause member => ?_) ?_
          · exact .evalWithin (eval_heeds guards ih (by simp) 2 clause.test
              (sound.clauses clause member).test (parts clause member).1
              (List.forall_mem_append.mp (calls clause member)).1)
          · rintro _ ⟨clause, member, rfl⟩
            exact .evalWithin (eval_heeds guards ih (by simp) 1 clause.result
              (sound.clauses clause member).result (parts clause member).2
              (List.forall_mem_append.mp (calls clause member)).2)

theorem evaluate_heeds (limit : Nat) {both : Bool}
    (ignores : both = true → IgnoresSymbolic home invariant) {first : Bool} {node : Form}
    (written : node.WrittenAt first) (targets : ∀ key ∈ node.targets, allowed key)
    (inside : ∀ callee ∈ node.callees, callable callee) :
    Maintains invariant (Value.Heeds home callable allowed) (evaluate limit home both node) :=
  eval_heeds guards (callWithin_heeds guards limit limit) ignores 0 node written targets
    inside

end Evaluation

end Stepper
