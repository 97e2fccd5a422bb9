import Stepper.Proofs.SymbolicStep
import Stepper.Proofs.Tracing

/-!
Steps that succeed. Each rule says what a step on a call gives, in every state
that calls can lead to, and so which terms a trace goes through.
-/

namespace Stepper

open Token (IsRun)

/-- Terms over integers that can be written out and read back. -/
inductive Term.Closed : Term String → Prop where
  | leaf {n : Int} (bounded : n.natAbs < integerBound) : Closed (.leaf (integerDigits n))
  | call {name : String} {operands : List (Term String)} (isRun : IsRun name)
      (closed : ∀ operand ∈ operands, Closed operand) : Closed (.call name operands)

namespace Term.Closed

theorem action {term : Term String} (closed : term.Closed) :
    ∀ action ∈ term.actions, IsRun action.word ∧ ∀ text, action = .read text → IsInteger text := by
  induction closed with
  | leaf bounded =>
      intro action member
      rw [List.mem_singleton.mp member, Action.word]
      refine ⟨isRun_integerDigits bounded, fun text same => ?_⟩
      rw [← Action.read.inj same]
      exact isInteger_integerDigits bounded
  | call isRun _ ih =>
      intro action member
      rcases List.mem_append.mp member with inside | last
      · obtain ⟨operand, among, does⟩ := Term.mem_actionsOfAll.mp inside
        exact ih operand among action does
      · cases List.mem_singleton.mp last
        exact ⟨isRun, fun text same => by cases same⟩

theorem legible {term : Term String} (closed : term.Closed) : term.Legible :=
  fun action member => (closed.action action member).1

theorem integer {term : Term String} (closed : term.Closed) {text : String}
    (reads : .read text ∈ term.actions) : IsInteger text :=
  (closed.action _ reads).2 text rfl

end Term.Closed

theorem read_digits {n : Int} (bounded : n.natAbs < integerBound) :
    Node.read (integerDigits n) = .ok (.literal (.int n) 0) := by
  rw [Node.read_bare (Phrase.content_word (isRun_integerDigits bounded)), Node.bareLiteral,
    parse_integerDigits bounded]
  rfl

mutual
theorem flatten_term {symbolic : Table} {f : String → String} (term : Term String) (depth : Nat)
    (shown : ∀ name, .read name ∈ term.actions →
      renderLiteral symbolic (.text name) = .ok (f name)) :
    flatten symbolic ((term.map .text).node depth) = .ok (term.map f).phrase.text := by
  cases term with
  | leaf name => exact shown name (List.mem_singleton.mpr rfl)
  | call name operands =>
      rw [Term.map, Term.node, flatten, flattenAll, flatten, flattenAll_terms operands (depth + 1)
        fun other reads => shown other (List.mem_append_left _ reads)]
      rfl

theorem flattenAll_terms {symbolic : Table} {f : String → String} (operands : List (Term String))
    (depth : Nat)
    (shown : ∀ name, .read name ∈ Term.actionsOfAll operands →
      renderLiteral symbolic (.text name) = .ok (f name)) :
    flattenAll symbolic (Term.nodes depth (Term.mapAll .text operands)) =
      .ok (Phrase.texts (Term.phrases (Term.mapAll f operands))) := by
  cases operands with
  | nil => rfl
  | cons operand rest =>
      rw [Term.mapAll, Term.nodes, flattenAll,
        flatten_term operand depth fun name reads => shown name (List.mem_append_left _ reads),
        flattenAll_terms rest depth fun name reads => shown name (List.mem_append_right _ reads)]
      rfl
end

section Evaluation

variable {call : CallModel} {home : Nat} {both : Bool} {state : State}

theorem evalAll_reads {leaves : List String} {numbers : List Int}
    (reads : List.Forall₂ (fun leaf n => state.read home (.text leaf) = .ok (.int n)) leaves
      numbers)
    (level depth : Nat) :
    evalAll call home both level (Term.nodes depth (Term.mapAll .text (leaves.map .leaf))) state =
      .ok (numbers.map .int) state := by
  induction reads with
  | nil => rfl
  | cons first _ ih =>
      rw [List.map_cons, Term.mapAll, Term.map, Term.nodes, Term.node, evalAll_cons,
        Eval.bind_ok (by rw [eval_leaf, first]), Eval.bind_ok ih]
      rfl

/-- A builtin on leaves computes and binds nothing. -/
theorem eval_builtin {operation : Builtin} (known : operation ≠ .define)
    (bound : state.binding home operation.symbol = some (.builtin operation))
    {leaves : List String} {numbers : List Int}
    (reads : List.Forall₂ (fun leaf n => state.read home (.text leaf) = .ok (.int n)) leaves
      numbers)
    {value : Value} (applied : operation.apply (numbers.map .int) = .ok value) (level : Nat)
    {depth : Nat} {place : Int} {frame : Frame} :
    Node.eval call home both level (.expression (.operator operation.symbol place ::
      Term.nodes depth (Term.mapAll .text (leaves.map .leaf))) frame) state = .ok value state := by
  have notDefine : operation.symbol ≠ "define" := by
    cases operation <;> first | decide | exact absurd rfl known
  rw [eval_call notDefine bound rfl, Eval.bind_ok (evalAll_reads reads (level + 2) depth),
    Value.apply, applied]
  rfl

end Evaluation

theorem selectClause_cons_run {eval : Form → Eval Value} {name : String} {state : State}
    {clause : Clause Value} {rest : List (Clause Value)} {tested : Value}
    (test : eval clause.test state = .ok tested state) :
    selectClause eval name (clause :: rest) state =
      if tested.isTruthy then .ok clause.result state else selectClause eval name rest state := by
  rw [selectClause, Eval.bind_ok test]
  split
  · rfl
  · rfl

section Runs

variable {limit home : Nat} {head : Form} {operands : List Form} {frame : Frame} {value : Value}
variable {state middle after : State}

theorem expand_literals_run {literals : List (Value × Int)} {arguments : List Value}
    (literal : literalArguments? operands = some literals)
    (given : actuals limit home literals state = .ok arguments middle)
    (called : expandCall limit home (operatorKey (.expression (head :: operands) frame)) (some head)
      arguments middle = .ok value after) :
    expand limit home (.expression (head :: operands) frame) state =
      (⟨.expression (head :: operands) frame, .ok value⟩, after) := by
  have done := (Eval.bind_ok given).trans called
  rw [expand]
  simp only [literal]
  rw [stateM_bind (attempt_ok done)]
  rfl

theorem flattenNow_run {node : Form} {source : String}
    (flat : flatten (state.table home .symbolic) node = .ok source) :
    flattenNow home node state = .ok (.text source) state := by
  rw [flattenNow, Eval.bind_get, flat]
  rfl

theorem expand_operands_run {children : List Form} {source : String}
    (literal : literalArguments? operands = none)
    (reduced : reduceArguments limit home frame.anchor [head] operands state =
      ((children, none), after))
    (flat : flatten (after.table home .symbolic) (.expression children frame) = .ok source) :
    expand limit home (.expression (head :: operands) frame) state =
      (⟨.expression children frame, .ok (.text source)⟩, after) := by
  rw [expand]
  simp only [literal]
  rw [stateM_bind reduced]
  simp only
  rw [stateM_bind (attempt_ok (flattenNow_run flat))]
  rfl

theorem reduceArguments_run {before rest children : List Form} {node reduced : Form}
    (first : reduceArgument limit home none (expand limit home node) node state =
      ((reduced, none), middle))
    (others : reduceArguments limit home none (before ++ [reduced]) rest middle =
      ((children, none), after)) :
    reduceArguments limit home none before (node :: rest) state = ((children, none), after) := by
  rw [reduceArguments, stateM_bind first]
  cases node.isLiteral with
  | true => exact others
  | false => exact others

theorem readOn_run {next : Form} (words : ∃ report, (Event.expanded value).report = .ok report)
    (number : value.isNan = false) (read : reread value = .ok next) (node : Form) (state : State) :
    ∃ after, readOn node value state = .ok (some next) after ∧
      ∀ home reading, after.table home reading = state.table home reading := by
  obtain ⟨report, words⟩ := words
  obtain ⟨after, reported, same⟩ := Eval.report_run words state
  refine ⟨after, ?_, same⟩
  rw [readOn, Eval.bind_ok reported, number, read]
  rfl

theorem parenthesized_ne_nan (items : List String) : Node.parenthesized items ≠ "NaN" := by
  intro same
  have letters := congrArg String.toList same
  simp [Node.parenthesized] at letters

theorem expandAll_run {cap : Int} {remaining : Nat} {children : List Form} {node next : Form}
    {last : Form} {values : List Value} {read : State}
    (stepped : expand limit home (.expression children frame) state = (⟨node, .ok value⟩, middle))
    (reads : readOn node value middle = .ok (some next) read)
    (later : expandAll limit home cap remaining next read = (⟨last, .ok values⟩, after)) :
    expandAll limit home cap (remaining + 1) (.expression children frame) state =
      (⟨node, .ok (value :: values)⟩, after) := by
  rw [expandAll, stateM_bind stepped]
  simp only
  rw [stateM_bind (attempt_ok reads)]
  simp only
  rw [stateM_bind later]
  rfl

/-- A trace ends with the first step that gives an integer. -/
theorem expandAll_int {cap : Int} {remaining : Nat} {children : List Form} {node : Form} {n : Int}
    (bounded : n.natAbs < integerBound)
    (stepped : expand limit home (.expression children frame) state =
      (⟨node, .ok (.int n)⟩, middle)) :
    ∃ after, expandAll limit home cap (remaining + 1) (.expression children frame) state =
      (⟨node, .ok [.int n]⟩, after) := by
  have written : (Value.int n).format = .ok (integerDigits n) :=
    (format_int n).trans (if_pos bounded)
  have again : reread (.int n) = .ok (.literal (.int n) 0) := by
    rw [reread, written]
    exact read_digits bounded
  have words : ∃ report, (Event.expanded (.int n)).report = .ok report := by
    simp only [Event.report, Event.message, Value.display, Value.inspect, integerText, bounded,
      if_true]
    exact ⟨_, rfl⟩
  obtain ⟨read, reads, _⟩ := readOn_run words rfl again node middle
  exact ⟨read, expandAll_run stepped reads (expandAll_other (by simp))⟩

end Runs

theorem literalArguments?_leaves (texts : List String) (depth : Nat) :
    literalArguments? (Term.nodes depth (Term.mapAll .text (texts.map .leaf))) =
      some (texts.map fun text => (.text text, (depth : Int))) := by
  induction texts with
  | nil => rfl
  | cons text rest ih =>
      rw [List.map_cons, Term.mapAll, Term.map, Term.nodes, Term.node, literalArguments?, ih]
      rfl

theorem literalArguments?_call {operands : List (Term String)} {name : String}
    {inner : List (Term String)} (among : .call name inner ∈ operands) (depth : Nat) :
    literalArguments? (Term.nodes depth (Term.mapAll .text operands)) = none := by
  cases literal : literalArguments? (Term.nodes depth (Term.mapAll .text operands)) with
  | none => rfl
  | some literals =>
      obtain ⟨texts, rfl, _⟩ := literalArguments?_nodes literal
      obtain ⟨text, _, same⟩ := List.mem_map.mp among
      cases same

/-- A state after the definitions of a well scoped program. -/
structure Ready (program : Program) (home : Nat) (base : State) : Prop where
  wellScoped : program.WellScoped
  shows : ∀ reading, (base.table home reading).Shows program home reading

namespace Program

/-- Whether a step on a call gives a value, in every state that calls lead to and
wherever the call stands. -/
def StepsTo (program : Program) (home : Nat) (base : State) (limit : Nat) (name : String)
    (operands : List (Term String)) (value : Value) : Prop :=
  ∀ (state : State) (depth : Nat) (place : Int) (frame : Frame),
    program.Reaches home base state → frame.anchor = none →
    ∃ node after, expand limit home (.expression
        (.operator name place :: Term.nodes depth (Term.mapAll .text operands)) frame) state =
        (⟨node, .ok value⟩, after) ∧
      program.Reaches home base after

/-- Whether an operand of a step is written out as another term. -/
def ReducesTo (program : Program) (home : Nat) (base : State) (limit : Nat)
    (operand better : Term String) : Prop :=
  ∀ (state : State) (depth : Nat), program.Reaches home base state →
    ∃ reduced after, reduceArgument limit home none
        (expand limit home ((operand.map .text).node depth)) ((operand.map .text).node depth)
        state = ((reduced, none), after) ∧
      program.Reaches home base after ∧
      ∀ later, program.Reaches home base later →
        flatten (later.table home .symbolic) reduced = .ok better.phrase.text

/-- Whether a trace from a call gives these values and then ends. -/
def TracesTo (program : Program) (home : Nat) (base : State) (limit : Nat) (name : String)
    (operands : List (Term String)) (values : List Value) : Prop :=
  ∀ (state : State) (cap : Int) (remaining : Nat), program.Reaches home base state →
    values.length ≤ remaining →
    ∃ node after, expandAll limit home cap remaining
      (Phrase.tree (.operator name :: Term.phrases operands)) state = (⟨node, .ok values⟩, after)

end Program

namespace Ready

variable {program : Program} {home : Nat} {base state : State} {limit : Nat}

theorem stands (ready : Ready program home base) (reaches : program.Reaches home base state)
    (reading : Reading) {name : String} (notFormal : ¬ program.IsFormal name) :
    Stands home reading (program.meaning name)
      ((state.table home reading).resolve (.text name)) := by
  rw [(reaches reading).keeps name notFormal]
  exact (ready.shows reading).stands name

theorem not_formal (ready : Ready program home base) {name : String} {callee : Callee}
    (means : program.meaning name = some callee) : ¬ program.IsFormal name := by
  intro isFormal
  rw [ready.wellScoped.meaning_formal name isFormal] at means
  cases means

theorem binding_builtin (ready : Ready program home base)
    (reaches : program.Reaches home base state) {name : String} {operation : Builtin}
    (means : program.meaning name = some (.builtin operation)) :
    state.binding home name = some (.builtin operation) ∧
      (state.table home .symbolic).resolve (.text name) = none := by
  have numeric := ready.stands reaches .numeric (ready.not_formal means)
  have symbolic := ready.stands reaches .symbolic (ready.not_formal means)
  rw [means] at numeric symbolic
  generalize bound : (state.table home .numeric).resolve (.text name) = value at numeric
  generalize (state.table home .symbolic).resolve (.text name) = hidden at symbolic
  cases numeric
  cases symbolic
  exact ⟨bound, rfl⟩

theorem resolve_procedure (ready : Ready program home base)
    (reaches : program.Reaches home base state) {procedure : Procedure}
    (has : program.Has procedure) :
    ∃ serial, (state.table home .symbolic).resolve (.text procedure.name) =
      some (.procedure .symbolic (procedure.compiled home serial)) := by
  have symbolic := ready.stands reaches .symbolic (ready.not_formal has)
  rw [has] at symbolic
  generalize (state.table home .symbolic).resolve (.text procedure.name) = bound at symbolic
  cases symbolic with
  | procedure _ _ serial => exact ⟨serial, rfl⟩

theorem read_spells (ready : Ready program home base) (reaches : program.Reaches home base state)
    {text : String} {n : Int} (spells : Spells text n) :
    state.read home (.text text) = .ok (.int n) :=
  (reaches.leads.read_free (ready.shows .numeric)
    (ready.wellScoped.integer_free spells.integer)).trans spells.number

theorem render_integer (ready : Ready program home base)
    (reaches : program.Reaches home base state) {text : String} (integer : IsInteger text) :
    renderLiteral (state.table home .symbolic) (.text text) = .ok text :=
  reaches.render_free (ready.shows .symbolic) (ready.wellScoped.integer_free integer)

theorem flatten_int (ready : Ready program home base) (reaches : program.Reaches home base state)
    {n : Int} (bounded : n.natAbs < integerBound) (depth : Int) :
    flatten (state.table home .symbolic) (.literal (.int n) depth) =
      .ok (Term.leaf (integerDigits n)).phrase.text := by
  have named := (reaches .symbolic).named (ready.shows .symbolic).named
  exact (named.renderLiteral_int n).trans (if_pos bounded)

theorem flatten_closed (ready : Ready program home base)
    (reaches : program.Reaches home base state) {name : String} {operands : List (Term String)}
    (closed : (Term.call name operands).Closed) :
    flatten (state.table home .symbolic) (Phrase.tree (.operator name :: Term.phrases operands)) =
      .ok (Term.call name operands).phrase.text := by
  have items := flattenAll_terms (f := fun text => text) operands 1 fun text reads =>
    ready.render_integer reaches (closed.integer (List.mem_append_left _ reads))
  rw [Term.mapAll_self] at items
  rw [Phrase.tree, Phrase.nodes, Phrase.node, Term.nodes_phrases, flatten, flattenAll, flatten,
    items]
  rfl

/-! ### Operands -/

theorem reducesTo_leaf (ready : Ready program home base) (limit : Nat) {text : String}
    (integer : IsInteger text) : program.ReducesTo home base limit (.leaf text) (.leaf text) :=
  fun state _ reaches => ⟨_, state, rfl, reaches, fun _ later => ready.render_integer later integer⟩

theorem reducesTo_builtin (ready : Ready program home base) {name : String} {operation : Builtin}
    (means : program.meaning name = some (.builtin operation)) (known : operation ≠ .define)
    {texts : List String} {numbers : List Int} (spell : List.Forall₂ Spells texts numbers) {n : Int}
    (applied : operation.apply (numbers.map .int) = .ok (.int n))
    (bounded : n.natAbs < integerBound) :
    program.ReducesTo home base limit (.call name (texts.map .leaf))
      (.leaf (integerDigits n)) := by
  obtain rfl := Program.builtin_of_meaning means
  intro state depth reaches
  obtain ⟨bound, hidden⟩ := ready.binding_builtin reaches means
  have evaluated : evaluate limit home false
      (((Term.call operation.symbol (texts.map .leaf)).map .text).node depth) state =
        .ok (.int n) state :=
    eval_builtin known bound (spell.imp fun _ _ => ready.read_spells reaches) applied 0
  refine ⟨.literal (.int n) depth, state, ?_, reaches,
    fun _ later => ready.flatten_int later bounded depth⟩
  rw [Term.map, Term.node] at evaluated ⊢
  rw [reduceArgument, stateM_bind_get]
  have noSymbol : operatorKey (.expression (.operator operation.symbol (depth + 1 : Nat) ::
      Term.nodes (depth + 1) (Term.mapAll .text (texts.map .leaf))) { depth }) =
        .text operation.symbol := rfl
  simp only [noSymbol, hidden, Option.map_none, Option.getD_none, Bool.false_eq_true, if_false]
  rw [stateM_bind (attempt_ok evaluated)]
  rfl

theorem reread_closed (ready : Ready program home base) {term : Term String}
    (closed : term.Closed) :
    ∃ form, reread (.text term.phrase.text) = .ok form ∧
      ∀ later, program.Reaches home base later →
        flatten (later.table home .symbolic) form = .ok term.phrase.text := by
  cases closed with
  | leaf bounded =>
      exact ⟨_, read_digits bounded, fun _ later => ready.flatten_int later bounded 0⟩
  | call isRun closed =>
      have whole := Term.Closed.call isRun closed
      exact ⟨_, reread_call whole.legible, fun _ later => ready.flatten_closed later whole⟩

/-- An operand that a step turns into a term is written out as that term. -/
theorem reducesTo_step (ready : Ready program home base) {procedure : Procedure}
    (has : program.Has procedure) {operands : List (Term String)} {better : Term String}
    (closed : better.Closed)
    (steps : program.StepsTo home base limit procedure.name operands
      (.text better.phrase.text)) :
    program.ReducesTo home base limit (.call procedure.name operands) better := by
  intro state depth reaches
  obtain ⟨serial, bound⟩ := ready.resolve_procedure reaches has
  obtain ⟨node, after, stepped, reached⟩ :=
    steps state (depth + 1) (depth + 1 : Nat) { depth } reaches rfl
  obtain ⟨form, read, written⟩ := ready.reread_closed closed
  refine ⟨form, after, ?_, reached, written⟩
  have key : operatorKey (((Term.call procedure.name operands).map .text).node depth) =
      .text procedure.name := rfl
  rw [Term.map, Term.node] at key ⊢
  rw [reduceArgument, stateM_bind_get]
  simp only [key, bound, Option.map_some, Option.getD_some, Value.isPresent, if_true]
  rw [stateM_bind stepped]
  have again : (Except.ok (.text better.phrase.text) >>= reread : Except Failure Form) = .ok form :=
    read
  simp only [again]
  rfl

theorem reduceArguments_terms {operands betters : List (Term String)}
    (reduces : List.Forall₂ (program.ReducesTo home base limit) operands betters) (depth : Nat)
    (before : List Form) (reaches : program.Reaches home base state) :
    ∃ reduced after, reduceArguments limit home none before
        (Term.nodes depth (Term.mapAll .text operands)) state = ((before ++ reduced, none), after) ∧
      program.Reaches home base after ∧
      ∀ later, program.Reaches home base later →
        flattenAll (later.table home .symbolic) reduced =
          .ok (Phrase.texts (Term.phrases betters)) := by
  induction reduces generalizing before state with
  | nil => exact ⟨[], state, by rw [List.append_nil]; rfl, reaches, fun _ _ => rfl⟩
  | cons first _ ih =>
      obtain ⟨form, middle, ran, reached, written⟩ := first state depth reaches
      obtain ⟨forms, after, others, last, all⟩ := ih (before ++ [form]) reached
      refine ⟨form :: forms, after, ?_, last, fun later leads => ?_⟩
      · rw [Term.mapAll, Term.nodes, reduceArguments_run ran others]
        simp
      · rw [flattenAll, written later leads, all later leads]
        rfl

/-! ### Steps -/

/-- A call on operands that are not all leaves has these reduced. -/
theorem stepsTo_operands {name : String} {operands betters : List (Term String)} {callee : String}
    {inner : List (Term String)} (among : .call callee inner ∈ operands)
    (reduces : List.Forall₂ (program.ReducesTo home base limit) operands betters) :
    program.StepsTo home base limit name operands (.text (Term.call name betters).phrase.text) := by
  intro state depth place frame reaches free
  obtain ⟨reduced, after, ran, reached, written⟩ :=
    reduceArguments_terms reduces depth [.operator name place] reaches
  rw [← free] at ran
  refine ⟨_, after, expand_operands_run (literalArguments?_call among depth) ran ?_, reached⟩
  rw [flatten, List.singleton_append, flattenAll, flatten, written after reached]
  rfl

theorem actuals_spelled (ready : Ready program home base)
    (reaches : program.Reaches home base state) {texts : List String} {numbers : List Int}
    (spell : List.Forall₂ Spells texts numbers) (depth : Int) :
    actuals limit home (texts.map fun text => (.text text, depth)) state =
      .ok (numbers.map .int) state := by
  induction spell with
  | nil => rfl
  | @cons text n _ _ first _ ih =>
      have given : literalOrNumber limit home (.text text) depth state = .ok (.int n) state := by
        have evaluated : evaluate limit home false (.literal (.text text) depth) state =
            .ok (.int n) state := by
          rw [evaluate, eval_leaf, ready.read_spells reaches first]
          rfl
        rw [literalOrNumber, Eval.bind_ok evaluated]
        rfl
      rw [List.map_cons, actuals, Eval.bind_ok given, Eval.bind_ok ih]
      rfl

theorem stepsTo_builtin (ready : Ready program home base) {name : String} {operation : Builtin}
    (means : program.meaning name = some (.builtin operation)) {texts : List String}
    {numbers : List Int} (spell : List.Forall₂ Spells texts numbers) {value : Value}
    (applied : operation.apply (numbers.map .int) = .ok value) :
    program.StepsTo home base limit name (texts.map .leaf) value := by
  intro state depth place frame reaches _
  obtain ⟨bound, hidden⟩ := ready.binding_builtin reaches means
  refine ⟨_, state, expand_literals_run (literalArguments?_leaves texts depth)
    (ready.actuals_spelled reaches spell depth) ?_, reaches⟩
  rw [State.binding] at bound
  change expandCall limit home (.text name) _ _ state = _
  rw [expandCall, Eval.bind_ok (Eval.resolve_run ..), Eval.bind_ok (Eval.resolve_run ..), hidden,
    bound]
  simp only [expandCall.expandNumeric, Value.isProcedure, Value.apply, applied]
  rfl

theorem expandSymbolic_run (limit home serial : Nat) (procedure : Procedure)
    (arguments : List Value) (state : State) :
    ∃ bound, (∀ reading, Table.Binds procedure.formals arguments (state.table home reading)
        (bound.table home reading)) ∧
      ∀ result source, selectClause (evaluate limit home false) procedure.name
          (Procedure.clauseNodes procedure.clauses) bound = .ok result bound →
        flatten (bound.table home .symbolic) result = .ok source →
        expandSymbolic limit home (.procedure .symbolic (procedure.compiled home serial)) arguments
          state = .ok (.text source) bound := by
  have distinct : [Reading.numeric, .symbolic].Nodup := by decide
  obtain ⟨bound, run, tables⟩ := bindFormals_run home distinct procedure.formals arguments state
  refine ⟨bound, fun reading => ?_, fun result source selected flat => ?_⟩
  · have binds := tables reading
    cases reading with
    | numeric => simpa using binds
    | symbolic => simpa using binds
  · have clauses : bound.clauses (procedure.compiled home serial) =
        Procedure.clauseNodes procedure.clauses := upToDate_clauseNodes ..
    rw [expandSymbolic, Procedure.compiled, Eval.bind_ok run, Eval.bind_get,
      ← Procedure.compiled, clauses]
    exact (Eval.bind_ok selected).trans (flattenNow_run flat)

/-- A call of a procedure on integers is written out as the result that its guards
select, its formals replaced by the integers. The guards must not bind anything. -/
theorem stepsTo_symbolic (ready : Ready program home base) {procedure : Procedure}
    (has : program.Has procedure) {texts : List String} {numbers : List Int}
    (spell : List.Forall₂ Spells texts numbers) {result : Term String}
    (selects : ∀ bound : State, program.Reaches home base bound →
      (∀ name n, supplied name procedure.formals (numbers.map .int) = some (.int n) →
        bound.read home (.text name) = .ok (.int n)) →
      selectClause (evaluate limit home false) procedure.name
        (Procedure.clauseNodes procedure.clauses) bound = .ok ((result.map .text).node 3) bound)
    (writes : ∀ name, .read name ∈ result.actions →
      (∃ n, supplied name procedure.formals (numbers.map .int) = some (.int n) ∧
        n.natAbs < integerBound) ∨ name ∉ procedure.formals ∧ IsInteger name) :
    program.StepsTo home base limit procedure.name (texts.map .leaf)
      (.text (result.map (substitution procedure.formals numbers)).phrase.text) := by
  intro state depth place frame reaches _
  obtain ⟨serial, found⟩ := ready.resolve_procedure reaches has
  obtain ⟨bound, binds, run⟩ :=
    expandSymbolic_run limit home serial procedure (numbers.map .int) state
  have reached := reaches.bind has binds
  have reads : ∀ name n, supplied name procedure.formals (numbers.map .int) = some (.int n) →
      bound.read home (.text name) = .ok (.int n) := by
    intro name n given
    rw [State.read, ← State.binding, (binds .numeric).binding_formal given]
    rfl
  have shown : ∀ name, .read name ∈ result.actions →
      renderLiteral (bound.table home .symbolic) (.text name) =
        .ok (substitution procedure.formals numbers name) := by
    intro name read
    rw [substitution]
    rcases writes name read with ⟨n, given, bounded⟩ | ⟨notFormal, integer⟩
    · have held : (bound.table home .symbolic).resolve (.text name) = some (.int n) := by
        rw [(binds .symbolic).resolve, given]
        rfl
      rw [renderLiteral_of_int held, given]
      exact if_pos bounded
    · rw [supplied_eq_none_iff.mpr notFormal, ready.render_integer reached integer]
  refine ⟨_, bound, expand_literals_run (literalArguments?_leaves texts depth)
    (ready.actuals_spelled reaches spell depth) ?_, reached⟩
  change expandCall limit home (.text procedure.name) _ _ state = _
  rw [expandCall_symbolic found rfl]
  exact run _ _ (selects bound reached reads) (flatten_term result 3 shown)

/-! ### Traces -/

/-- A trace goes on from the term that its first step gives. -/
theorem tracesTo_step {name next : String} {operands others : List (Term String)}
    {values : List Value} (closed : (Term.call next others).Closed)
    (steps : program.StepsTo home base limit name operands
      (.text (Term.call next others).phrase.text))
    (traces : program.TracesTo home base limit next others values) :
    program.TracesTo home base limit name operands
      (.text (Term.call next others).phrase.text :: values) := by
  intro state cap remaining reaches enough
  obtain ⟨fewer, rfl⟩ : ∃ fewer, remaining = fewer + 1 :=
    Nat.exists_eq_succ_of_ne_zero (Nat.ne_of_gt (Nat.zero_lt_of_lt enough))
  obtain ⟨node, middle, stepped, reached⟩ := steps state 1 (1 : Nat)
    { depth := 0, height := (Phrase.form (.operator name :: Term.phrases operands)).height }
    reaches rfl
  have notNan : (Value.text (Term.call next others).phrase.text).isNan = false :=
    beq_false_of_ne (parenthesized_ne_nan _)
  obtain ⟨read, reads, same⟩ := readOn_run ⟨_, rfl⟩ notNan (reread_call closed.legible) node middle
  have later : program.Reaches home base read := by
    intro reading
    rw [same]
    exact reached reading
  obtain ⟨last, after, traced⟩ := traces read cap fewer later (by simpa using enough)
  refine ⟨node, after, ?_⟩
  rw [Phrase.tree, Phrase.nodes, Phrase.node, Term.nodes_phrases]
  exact expandAll_run stepped reads traced

theorem tracesTo_int {name : String} {operands : List (Term String)} {n : Int}
    (bounded : n.natAbs < integerBound)
    (steps : program.StepsTo home base limit name operands (.int n)) :
    program.TracesTo home base limit name operands [.int n] := by
  intro state cap remaining reaches enough
  obtain ⟨fewer, rfl⟩ : ∃ fewer, remaining = fewer + 1 :=
    Nat.exists_eq_succ_of_ne_zero (Nat.ne_of_gt (Nat.zero_lt_of_lt enough))
  obtain ⟨node, middle, stepped, reached⟩ := steps state 1 (1 : Nat)
    { depth := 0, height := (Phrase.form (.operator name :: Term.phrases operands)).height }
    reaches rfl
  obtain ⟨after, expanded⟩ := expandAll_int bounded stepped
  refine ⟨node, after, ?_⟩
  rw [Phrase.tree, Phrase.nodes, Phrase.node, Term.nodes_phrases]
  exact expanded

end Ready

/-- Text from which a trace ends within the cap of an interpreter. -/
theorem Interpreter.perform_trace_run {interpreter : Interpreter} {program : Program}
    {state : State} {limit : Nat} {source name : String} {operands : List (Term String)}
    {values : List Value} (spelled : Token.content source = (Term.call name operands).phrase.tokens)
    (traces : program.TracesTo interpreter.home state limit name operands values)
    (enough : values.length ≤ interpreter.cap) :
    ∃ after, interpreter.perform limit .trace source state = .ok (.steps values) after := by
  have reaches : program.Reaches interpreter.home state state := fun _ => .refl _
  obtain ⟨node, after, expanded⟩ :=
    traces state interpreter.cap interpreter.cap.toNat reaches (by omega)
  exact ⟨after, (perform_trace_iff (Node.readForm_form spelled)).mpr ⟨node, expanded⟩⟩

end Stepper
