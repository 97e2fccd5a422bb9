import Stepper.Proofs.Confinement
import Stepper.Proofs.Constants
import Stepper.Proofs.Expansion

/-!
A step on a call of literals under the symbolic reading is one simultaneous
substitution: the result that the guards select is written out with each formal
replaced by its argument, whatever the guards themselves bind.
-/

namespace Stepper

/-- The place of the last formal of a name. -/
def lastPlace? (name : String) : List String → Option Nat
  | [] => none
  | formal :: formals =>
    ((lastPlace? name formals).map (· + 1)).or (if name = formal then some 0 else none)

theorem supplied_eq_lastPlace (name : String) (formals : List String) (arguments : List Value) :
    supplied name formals arguments =
      (lastPlace? name formals).map fun place => (arguments[place]?).getD .unbound := by
  induction formals generalizing arguments with
  | nil => rfl
  | cons formal formals ih =>
      rw [supplied, lastPlace?, ih]
      cases lastPlace? name formals with
      | some place => cases arguments <;> simp
      | none =>
          split
          · cases arguments <;> simp
          · rfl

/-- How a word of a result is written: a formal as its argument, if it has one,
and any other word as what the symbolic table binds it to, unless that is a
procedure. -/
def substituted (formals : List String) (actuals : List Value) (symbolic : Table) (word : String) :
    Except Failure String :=
  match lastPlace? word formals with
  | some place =>
    match actuals[place]? with
    | some actual => actual.format
    | none => .ok word
  | none =>
    match symbolic.resolve (.text word) with
    | some bound => if bound.isProcedure then .ok word else bound.format
    | none => .ok word

theorem renderLiteral_binds {formals : List String} {actuals : List Value} {before after : Table}
    (binds : Table.Binds formals actuals before after)
    (plain : ∀ actual ∈ actuals, actual.IsNumber ∨ actual.IsWord) (word : String) :
    renderLiteral after (.text word) = substituted formals actuals before word := by
  rw [renderLiteral, binds.resolve, supplied_eq_lastPlace, substituted]
  cases lastPlace? word formals with
  | none =>
      cases before.resolve (.text word) with
      | none => rfl
      | some bound => rfl
  | some place =>
      cases given : actuals[place]? with
      | none => simp [given, Value.bound?, Value.format]
      | some actual =>
          simp only [given, Option.map_some, Option.getD_some]
          rcases plain actual (List.mem_of_getElem? given) with isNumber | ⟨text, rfl, _⟩
          · simp only [isNumber.bound?_eq, isNumber.not_procedure, Bool.false_eq_true, if_false]
          · rfl

mutual
/-- A tree as source text, its words written as `shown` has them. Names in
function position are no words. -/
def Node.renderWith (shown : String → Except Failure String) : Form → Except Failure String
  | .blank => .ok "None"
  | .literal (.text word) _ => shown word
  | .literal value _ => value.format
  | .operator name _ => .ok name
  | .expression children _ => do
    let items ← renderAllWith shown children
    return Node.parenthesized items

def Node.renderAllWith (shown : String → Except Failure String) :
    List Form → Except Failure (List String)
  | [] => .ok []
  | node :: rest => do
    let item ← node.renderWith shown
    let items ← renderAllWith shown rest
    return item :: items
end

section Writing

variable {symbolic : Table} {shown : String → Except Failure String}

mutual
theorem flatten_written (same : ∀ word, renderLiteral symbolic (.text word) = shown word)
    {first : Bool} (node : Form) (written : node.WrittenAt first) :
    flatten symbolic node = node.renderWith shown := by
  cases node with
  | blank => exact written.elim
  | literal value depth =>
      obtain ⟨word, rfl, _⟩ := written
      exact same word
  | operator name depth => rfl
  | expression children frame =>
      rw [flatten, Node.renderWith, flattenAll_written same children written.2]

theorem flattenAll_written (same : ∀ word, renderLiteral symbolic (.text word) = shown word)
    {first : Bool} (nodes : List Form) (written : Node.WrittenRow first nodes) :
    flattenAll symbolic nodes = Node.renderAllWith shown nodes := by
  cases nodes with
  | nil => rfl
  | cons node rest =>
      rw [flattenAll, Node.renderAllWith, flatten_written same node written.1,
        flattenAll_written same rest written.2]
end

end Writing

/-- The result of the first clause whose test, evaluated by `eval`, holds. The
tests before it are evaluated in order and do not hold. -/
inductive Selects (eval : Form → Eval Value) :
    List (Clause Value) → State → Form → State → Prop where
  | here {clause : Clause Value} {rest : List (Clause Value)} {state after : State} {tested : Value}
      (tests : eval clause.test state = .ok tested after) (holds : tested.isTruthy = true) :
      Selects eval (clause :: rest) state clause.result after
  | later {clause : Clause Value} {rest : List (Clause Value)} {state middle after : State}
      {tested : Value} {result : Form} (tests : eval clause.test state = .ok tested middle)
      (fails : tested.isTruthy = false) (others : Selects eval rest middle result after) :
      Selects eval (clause :: rest) state result after

theorem selects_of_selectClause {eval : Form → Eval Value} {name : String}
    {clauses : List (Clause Value)} {state after : State} {result : Form}
    (selected : selectClause eval name clauses state = .ok result after) :
    Selects eval clauses state result after := by
  induction clauses generalizing state with
  | nil => cases selected
  | cons clause rest ih =>
      obtain ⟨tested, middle, tests, next⟩ := Eval.of_bind_ok selected
      cases holds : tested.isTruthy with
      | true =>
          rw [holds] at next
          cases next
          exact .here tests holds
      | false =>
          rw [holds] at next
          exact .later tests holds (ih next)

/-- What an argument stands for in a step: the number it evaluates to, or the
argument itself where that is no number. -/
def IsActual (limit home : Nat) (state : State) (argument : Value × Int) (actual : Value) : Prop :=
  ∃ number, evaluate limit home false (.literal argument.1 argument.2) state = .ok number state ∧
    actual = if number.isNan then argument.1 else number

section Arguments

variable {limit home : Nat}

theorem evaluate_literal_ok {value number : Value} {depth : Int} {state after : State}
    (done : evaluate limit home false (.literal value depth) state = .ok number after) :
    after = state ∧ number.IsNumber ∧ ∀ other : State,
      other.table home .numeric = state.table home .numeric →
        evaluate limit home false (.literal value depth) other = .ok number other := by
  rw [evaluate, eval_literal] at done
  cases given : (((state.table home .numeric).resolve value).getD value).toNumber with
  | error failure =>
      rw [given] at done
      cases done
  | ok found =>
      rw [given] at done
      cases done
      refine ⟨rfl, Value.isNumber_ofNumber found, fun other same => ?_⟩
      rw [evaluate, eval_literal, same, given]

theorem literalOrNumber_ok {value actual : Value} {depth : Int} {state after : State}
    (done : literalOrNumber limit home value depth state = .ok actual after) :
    IsActual limit home state (value, depth) actual ∧
      ∀ reading, after.table home reading = state.table home reading := by
  obtain ⟨number, middle, evaluated, next⟩ := Eval.of_bind_ok done
  obtain ⟨rfl, _, _⟩ := evaluate_literal_ok evaluated
  split at next
  · rename_i isNan
    cases outlined : Outline.ofNode (.literal value depth) with
    | error failure =>
        rw [outlined] at next
        cases next
    | ok outline =>
        rw [outlined, Eval.bind_ok (Eval.ofExcept_ok ..)] at next
        obtain ⟨_, last, reported, finished⟩ := Eval.of_bind_ok next
        cases finished
        exact ⟨⟨number, evaluated, (if_pos isNan).symm⟩, Eval.report_keeps_tables reported home⟩
  · rename_i isNumber
    cases next
    exact ⟨⟨_, evaluated, (if_neg isNumber).symm⟩, fun _ => rfl⟩

theorem IsActual.of_tables {state other : State} {argument : Value × Int} {actual : Value}
    (isActual : IsActual limit home other argument actual)
    (same : state.table home .numeric = other.table home .numeric) :
    IsActual limit home state argument actual := by
  obtain ⟨number, evaluated, chosen⟩ := isActual
  exact ⟨number, (evaluate_literal_ok evaluated).2.2 state same, chosen⟩

theorem plain_of_actuals {state : State} {literals : List (Value × Int)} {values : List Value}
    (areActual : List.Forall₂ (IsActual limit home state) literals values)
    (words : ∀ literal ∈ literals, literal.1.IsWord) :
    ∀ actual ∈ values, actual.IsNumber ∨ actual.IsWord := by
  induction areActual with
  | nil => simp
  | cons isActual _ ih =>
      obtain ⟨isWord, others⟩ := List.forall_mem_cons.mp words
      refine List.forall_mem_cons.mpr ⟨?_, ih others⟩
      obtain ⟨number, evaluated, rfl⟩ := isActual
      split
      · exact .inr isWord
      · exact .inl (evaluate_literal_ok evaluated).2.1

theorem actuals_ok {literals : List (Value × Int)} {values : List Value} {state after : State}
    (done : actuals limit home literals state = .ok values after) :
    List.Forall₂ (IsActual limit home state) literals values ∧
      ∀ reading, after.table home reading = state.table home reading := by
  induction literals generalizing state values with
  | nil =>
      cases done
      exact ⟨.nil, fun _ => rfl⟩
  | cons literal rest ih =>
      obtain ⟨actual, middle, first, next⟩ := Eval.of_bind_ok done
      obtain ⟨others, last, more, finished⟩ := Eval.of_bind_ok next
      cases finished
      obtain ⟨isActual, keeps⟩ := literalOrNumber_ok first
      obtain ⟨areActual, keepsMore⟩ := ih more
      refine ⟨.cons isActual (areActual.imp fun _ _ other => other.of_tables ?_),
        fun reading => (keepsMore reading).trans (keeps reading)⟩
      exact (keeps .numeric).symm

end Arguments

section Calls

variable {limit home : Nat} {state after : State}

theorem literalArguments?_literals (literals : List (Value × Int)) :
    literalArguments? (literals.map fun literal => .literal literal.1 literal.2) =
      some literals := by
  induction literals with
  | nil => rfl
  | cons literal rest ih => rw [List.map_cons, literalArguments?, ih, Option.map_some]

theorem words_of_literals {literals : List (Value × Int)}
    (written : Node.WrittenRow false (literals.map fun literal => .literal literal.1 literal.2)) :
    ∀ literal ∈ literals, literal.1.IsWord := by
  induction literals with
  | nil => simp
  | cons literal rest ih => exact List.forall_mem_cons.mpr ⟨written.1, ih written.2⟩

theorem expandCall_symbolic {key procedure : Value} {head : Option Form} {arguments : List Value}
    (bound : (state.table home .symbolic).resolve key = some procedure)
    (isProcedure : procedure.isProcedure = true) :
    expandCall limit home key head arguments state =
      expandSymbolic limit home procedure arguments state := by
  rw [expandCall, Eval.bind_ok (Eval.resolve_run ..), Eval.bind_ok (Eval.resolve_run ..), bound]
  simp only [isProcedure, if_true]

/-- The guards of a symbolic step bind in the numeric table only. -/
theorem selectClause_keeps_symbolic {name : String} {clauses : List (Clause Value)} {result : Form}
    (sound : state.Sound home) (written : ∀ clause ∈ clauses, clause.Written)
    (selected : selectClause (evaluate limit home false) name clauses state = .ok result after) :
    result.WrittenAt false ∧ after.table home .symbolic = state.table home .symbolic := by
  have start : Confined home false (fun _ => True) state state :=
    .of_sound sound false fun _ _ => trivial
  have tests : ∀ clause ∈ clauses, Confines home false (fun _ => True) state
      (Value.Within home fun _ => True) (evaluate limit home false clause.test) :=
    fun clause member => evaluate_confines_written limit (written clause member).test
      fun _ _ => trivial
  have kept := Maintains.selectClause _ name tests state start
  rw [selected] at kept
  obtain ⟨⟨clause, member, rfl⟩, confined⟩ := kept
  exact ⟨(written clause member).result, confined.symbolic rfl⟩

theorem bindFormals_sound {readings : List Reading} {formals arguments : List Value}
    (sound : state.Sound home) (words : ∀ formal ∈ formals, formal.IsWord)
    (plain : ∀ argument ∈ arguments, argument.IsPlain)
    (done : bindFormals home readings formals arguments state = .ok () after) :
    after.Sound home := by
  have safe : Safe home (fun _ => True) (bindFormals home readings formals arguments) :=
    .of_alike (bindFormals_alike readings words plain) fun _ _ given => given
  have kept := (safe state sound).2
  rwa [attempt, EStateM.run, done] at kept

/-- What a symbolic procedure gives: the result of the first clause whose test
holds, its words substituted in the symbolic table from before the call. -/
theorem expandSymbolic_substitutes {definition : CondProcedure Value} {actuals : List Value}
    {value : Value} (sound : state.Sound home) (own : definition.Sound home)
    (plain : ∀ actual ∈ actuals, actual.IsNumber ∨ actual.IsWord)
    (done : expandSymbolic limit home (.procedure .symbolic definition) actuals state =
      .ok value after) :
    ∃ formals ready result text,
      definition.formals = formals.map .text ∧
      (∀ reading, Table.Binds formals actuals (state.table home reading)
        (ready.table home reading)) ∧
      Selects (evaluate limit home false) definition.clauses ready result after ∧
      result.renderWith (substituted formals actuals (state.table home .symbolic)) = .ok text ∧
      value = .text text := by
  obtain ⟨formals, texts⟩ := exists_texts own.formals
  obtain ⟨ready, result, text, binds, bound, selected, flat, rfl⟩ :=
    expandSymbolic_ok own.home texts own.clauses_eq done
  have isPlain : ∀ actual ∈ actuals, actual.IsPlain :=
    fun actual member => (plain actual member).imp_left .inr
  have soundReady := bindFormals_sound sound own.formals isPlain bound
  obtain ⟨written, same⟩ := selectClause_keeps_symbolic soundReady own.clauses selected
  rw [same, flatten_written (renderLiteral_binds (binds .symbolic) plain) result written] at flat
  exact ⟨formals, ready, result, text, texts, binds, selects_of_selectClause selected, flat, rfl⟩

end Calls

theorem Interpreter.perform_expand_ok {interpreter : Interpreter} {limit : Nat} {source : String}
    {form : Form} {reply : Reply} {state after : State} (read : Node.readForm source = .ok form)
    (done : interpreter.perform limit .expand source state = .ok reply after) :
    ∃ node value, expand limit interpreter.home form state = (⟨node, .ok value⟩, after) ∧
      reply = .value value := by
  rw [perform, onText, read, Eval.bind_ok (Eval.ofExcept_ok ..), Eval.bind_get] at done
  rcases expanded : expand limit interpreter.home form state with ⟨⟨node, result⟩, last⟩
  simp only [performOn, stateM_bind expanded] at done
  cases result with
  | error failure => cases done
  | ok value =>
      cases done
      exact ⟨node, value, rfl, rfl⟩

/-- The symbolic procedure that a name stands for, if it stands for one. -/
def Table.symbolic? (table : Table) (name : String) : Option (CondProcedure Value) :=
  match table.resolve (.text name) with
  | some (.procedure .symbolic definition) => some definition
  | _ => none

theorem Table.of_symbolic? {table : Table} {name : String}
    (found : (table.symbolic? name).isSome) :
    ∃ definition, table.resolve (.text name) = some (.procedure .symbolic definition) := by
  unfold Table.symbolic? at found
  split at found
  · rename_i definition bound
    exact ⟨definition, bound⟩
  · cases found

/-- The text that a step gives, if it gives one. -/
def expanded? : EStateM.Result Failure State Reply → Option String
  | .ok (.value (.text text)) _ => some text
  | _ => none

theorem of_expanded? {run : EStateM.Result Failure State Reply} {text : String}
    (gives : expanded? run = some text) : ∃ after, run = .ok (.value (.text text)) after := by
  unfold expanded? at gives
  split at gives
  · cases gives
    exact ⟨_, rfl⟩
  · cases gives

/-- A step on a call of literals whose name has a symbolic reading gives the text
of the result that the guards select once the formals are bound. Each formal in
it is written as its argument, the last of that name counting, whatever the
guards bind meanwhile. -/
theorem step_is_simultaneous_substitution {interpreter : Interpreter} {state after : State}
    (reached : interpreter.Reached state) {limit : Nat} {source name : String} {depth : Int}
    {literals : List (Value × Int)} {frame : Frame}
    (read : Node.readForm source = .ok (.expression (.operator name depth ::
      literals.map fun literal => .literal literal.1 literal.2) frame))
    {definition : CondProcedure Value}
    (bound : (state.table interpreter.home .symbolic).resolve (.text name) =
      some (.procedure .symbolic definition))
    {reply : Reply} (done : interpreter.perform limit .expand source state = .ok reply after) :
    ∃ formals actuals ready result text,
      definition.formals = formals.map .text ∧
      List.Forall₂ (IsActual limit interpreter.home state) literals actuals ∧
      (∀ reading, Table.Binds formals actuals (state.table interpreter.home reading)
        (ready.table interpreter.home reading)) ∧
      Selects (evaluate limit interpreter.home false) definition.clauses ready result after ∧
      result.renderWith (substituted formals actuals (state.table interpreter.home .symbolic)) =
        .ok text ∧
      reply = .value (.text text) := by
  have sound := reached.sound
  have words : ∀ literal ∈ literals, literal.1.IsWord := by
    rcases Node.isRead_of_readForm read with ⟨_, _, isLiteral⟩ | written
    · cases isLiteral
    · exact words_of_literals written.2.2
  obtain ⟨node, value, expanded, rfl⟩ := Interpreter.perform_expand_ok read done
  have stepped := expand_literals (literalArguments?_literals literals) expanded
  obtain ⟨actuals, middle, given, called⟩ := Eval.of_bind_ok stepped
  obtain ⟨areActual, keeps⟩ := actuals_ok given
  have boundMiddle : (middle.table interpreter.home .symbolic).resolve (.text name) =
      some (.procedure .symbolic definition) := by rw [keeps, bound]
  rw [show operatorKey _ = .text name from rfl, expandCall_symbolic boundMiddle rfl] at called
  obtain ⟨formals, ready, result, text, texts, binds, selects, rendered, rfl⟩ :=
    expandSymbolic_substitutes (sound.of_tables keeps)
      ((sound .symbolic).resolve_fits bound).sound (plain_of_actuals areActual words) called
  simp only [keeps] at binds rendered
  exact ⟨formals, actuals, ready, result, text, texts, areActual, binds, selects, rendered, rfl⟩

/-- The guard of `f` rebinds its formal, which stands twice in the header and once
in function position; `(f 2 u)` leaves the last formal without an argument. -/
def rebindingSession : State :=
  (attempt (Interpreter.serve ⟨0, 10⟩ 50 (.load
    "(define z 5) (define (g x) (cond (else 0)))
    (define (f x x y) (cond ((= (g 7) 1) 1) (else (x x y z))))")) {}).2

theorem step_is_simultaneous_substitution_rebound :
    let literals : List (Value × Int) := [(.text "2", 1), (.text "u", 1)]
    Interpreter.Reached ⟨0, 10⟩ rebindingSession ∧
      Node.readForm "(f 2 u)" = .ok (.expression (.operator "f" 1 ::
        literals.map fun literal => .literal literal.1 literal.2) ⟨0, 1, none⟩) ∧
      ∃ definition after,
        (rebindingSession.table 0 .symbolic).resolve (.text "f") =
          some (.procedure .symbolic definition) ∧
        Interpreter.perform ⟨0, 10⟩ 50 .expand "(f 2 u)" rebindingSession =
          .ok (.value (.text "(x u y 5)")) after ∧
        ∃ formals actuals ready result,
          definition.formals = formals.map .text ∧
          List.Forall₂ (IsActual 50 0 rebindingSession) literals actuals ∧
          (∀ reading, Table.Binds formals actuals (rebindingSession.table 0 reading)
            (ready.table 0 reading)) ∧
          Selects (evaluate 50 0 false) definition.clauses ready result after ∧
          result.renderWith (substituted formals actuals (rebindingSession.table 0 .symbolic)) =
            .ok "(x u y 5)" := by
  intro literals
  have reached : Interpreter.Reached ⟨0, 10⟩ rebindingSession := .serve 50 _ (.start rfl)
  have read : Node.readForm "(f 2 u)" = .ok (.expression (.operator "f" 1 ::
      literals.map fun literal => .literal literal.1 literal.2) ⟨0, 1, none⟩) := rfl
  have symbolic : ((rebindingSession.table 0 .symbolic).symbolic? "f").isSome := by decide +kernel
  have shown : expanded? (Interpreter.perform ⟨0, 10⟩ 50 .expand "(f 2 u)" rebindingSession) =
      some "(x u y 5)" := by decide +kernel
  obtain ⟨definition, bound⟩ := Table.of_symbolic? symbolic
  obtain ⟨after, ran⟩ := of_expanded? shown
  obtain ⟨formals, actuals, ready, result, text, texts, areActual, binds, selects, rendered,
    same⟩ := step_is_simultaneous_substitution reached read bound ran
  cases same
  exact ⟨reached, read, definition, after, bound, ran, formals, actuals, ready, result, texts,
    areActual, binds, selects, rendered⟩

end Stepper
