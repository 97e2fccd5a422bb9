import Stepper.Interpreter
import Stepper.Proofs.Decimal
import Stepper.Proofs.Effects
import Stepper.Proofs.Spelling

/-!
What the parts of a step do when they succeed, and terms as text: a tree that is
written out and read again is the tree of the term that the text spells.
-/

namespace Stepper

open Token (IsRun content)

section Steps

variable {limit home : Nat}

theorem of_attempt_ok {α : Type} {action : Eval α} {state after : State} {a : α}
    (done : attempt action state = (.ok a, after)) : action state = .ok a after := by
  rw [attempt, EStateM.run] at done
  cases ran : action state with
  | ok b last =>
      rw [ran] at done
      cases done
      rfl
  | error failure last =>
      rw [ran] at done
      cases done

theorem attempt_ok {α : Type} {action : Eval α} {a : α} {state after : State}
    (done : action state = .ok a after) : attempt action state = (.ok a, after) := by
  rw [attempt, EStateM.run, done]

theorem stateM_bind {α β : Type} {action : StateM State α} {next : α → StateM State β} {a : α}
    {state middle : State} (ran : action state = (a, middle)) :
    (action >>= next) state = next a middle := by
  simp only [bind, StateT.bind, ran]

theorem stateM_bind_get {α : Type} (next : State → StateM State α) (state : State) :
    (get >>= next) state = next state state := rfl

theorem expand_literals {head : Form} {operands : List Form} {frame : Frame}
    {literals : List (Value × Int)} {state after : State} {node : Form} {value : Value}
    (literal : literalArguments? operands = some literals)
    (done : expand limit home (.expression (head :: operands) frame) state =
      (⟨node, .ok value⟩, after)) :
    (do
      let arguments ← actuals limit home literals
      expandCall limit home (operatorKey (.expression (head :: operands) frame)) (some head)
        arguments : Eval Value) state = .ok value after := by
  rw [expand] at done
  simp only [literal] at done
  rcases tried : attempt (do
    let arguments ← actuals limit home literals
    expandCall limit home (operatorKey (.expression (head :: operands) frame)) (some head)
      arguments) state with ⟨result, last⟩
  rw [stateM_bind tried] at done
  cases done
  exact of_attempt_ok tried

theorem expand_operands {head : Form} {operands : List Form} {frame : Frame}
    {state after : State} {node : Form} {value : Value}
    (literal : literalArguments? operands = none)
    (done : expand limit home (.expression (head :: operands) frame) state =
      (⟨node, .ok value⟩, after)) :
    ∃ children middle,
      reduceArguments limit home frame.anchor [head] operands state = ((children, none), middle) ∧
      flattenNow home (.expression children frame) middle = .ok value after := by
  rw [expand] at done
  simp only [literal] at done
  rcases reduced : reduceArguments limit home frame.anchor [head] operands state with
    ⟨⟨children, failure⟩, middle⟩
  rw [stateM_bind reduced] at done
  cases failure with
  | some failure => cases done
  | none =>
      simp only at done
      rcases tried : attempt (flattenNow home (.expression children frame)) middle with
        ⟨result, last⟩
      rw [stateM_bind tried] at done
      cases done
      exact ⟨children, middle, rfl, of_attempt_ok tried⟩

theorem reduceArguments_cons {before rest children : List Form} {node : Form}
    {state after : State}
    (done : reduceArguments limit home none before (node :: rest) state =
      ((children, none), after)) :
    ∃ reduced middle,
      reduceArgument limit home none (expand limit home node) node state =
        ((reduced, none), middle) ∧
      reduceArguments limit home none (before ++ [reduced]) rest middle =
        ((children, none), after) := by
  rw [reduceArguments] at done
  rcases first : reduceArgument limit home none (expand limit home node) node state with
    ⟨⟨reduced, failure⟩, middle⟩
  rw [stateM_bind first] at done
  cases failure with
  | some failure => cases done
  | none =>
      refine ⟨reduced, middle, rfl, ?_⟩
      -- without an anchor nothing is noted
      cases literal : node.isLiteral with
      | true =>
          rw [literal] at done
          exact done
      | false =>
          rw [literal] at done
          exact done

theorem reduceArgument_expression {step : StateM State (Stepped Value)}
    {children : List Form} {frame : Frame} {reduced : Form} {state after : State}
    (done : reduceArgument limit home none step (.expression children frame) state =
      ((reduced, none), after)) :
    (∃ node value, step state = (⟨node, .ok value⟩, after) ∧ reread value = .ok reduced) ∨
    ∃ value, evaluate limit home false (.expression children frame) state = .ok value after ∧
      reduced = .literal value frame.depth := by
  rw [reduceArgument, stateM_bind_get] at done
  split at done
  · rcases stepped : step state with ⟨⟨node, result⟩, middle⟩
    rw [stateM_bind stepped] at done
    cases result with
    | error failure => cases done
    | ok value =>
        have same : (Except.ok value >>= reread : Except Failure Form) = reread value := rfl
        simp only [same] at done
        cases read : reread value with
        | error failure =>
            rw [read] at done
            cases done
        | ok form =>
            rw [read] at done
            cases done
            exact .inl ⟨node, value, rfl, read⟩
  · rcases tried : attempt (evaluate limit home false (.expression children frame)) state with
      ⟨result, middle⟩
    rw [stateM_bind tried] at done
    cases result with
    | error failure => cases done
    | ok value =>
        cases done
        exact .inr ⟨value, of_attempt_ok tried, rfl⟩

/-- The arguments of a call are literals if its operands are leaves. -/
theorem literalArguments?_nodes {depth : Nat} {operands : List (Term String)}
    {literals : List (Value × Int)}
    (literal : literalArguments? (Term.nodes depth (Term.mapAll .text operands)) = some literals) :
    ∃ texts : List String, operands = texts.map .leaf ∧
      literals = texts.map fun text => (.text text, (depth : Int)) := by
  induction operands generalizing literals with
  | nil =>
      cases literal
      exact ⟨[], rfl, rfl⟩
  | cons operand rest ih =>
      cases operand with
      | leaf text =>
          rw [Term.mapAll, Term.map, Term.nodes, Term.node, literalArguments?] at literal
          obtain ⟨others, more, rfl⟩ := Option.map_eq_some_iff.mp literal
          obtain ⟨texts, rfl, rfl⟩ := ih more
          exact ⟨text :: texts, rfl, rfl⟩
      | call name operands => cases literal

theorem flattenNow_ok {node : Form} {value : Value} {state after : State}
    (done : flattenNow home node state = .ok value after) :
    after = state ∧ ∃ source, flatten (state.table home .symbolic) node = .ok source ∧
      value = .text source := by
  rw [flattenNow, Eval.bind_get] at done
  cases written : flatten (state.table home .symbolic) node with
  | error failure =>
      rw [written] at done
      cases done
  | ok source =>
      rw [written] at done
      cases done
      exact ⟨rfl, source, rfl, rfl⟩

/-- A step on a call of literals applies the symbolic reading of its name, or
else the numeric one. -/
theorem expandCall_ok {name : String} {head : Option Form} {arguments : List Value} {value : Value}
    {state after : State}
    (done : expandCall limit home (.text name) head arguments state = .ok value after) :
    (∃ procedure, (state.table home .symbolic).resolve (.text name) = some procedure ∧
      procedure.isProcedure = true ∧
      expandSymbolic limit home procedure arguments state = .ok value after) ∨
    ∃ procedure, state.binding home name = some procedure ∧ procedure.isProcedure = true ∧
      procedure.apply (callModel limit) 0 arguments state = .ok value after := by
  have refused : ∀ {value after}, expandCall.notFound head state ≠ .ok value after := by
    intro value after found
    obtain ⟨shown, middle, _, failed⟩ := Eval.of_bind_ok found
    cases failed
  have numeric : expandCall.expandNumeric limit head arguments
      ((state.table home .numeric).resolve (.text name)) state = .ok value after →
      ∃ procedure, state.binding home name = some procedure ∧ procedure.isProcedure = true ∧
        procedure.apply (callModel limit) 0 arguments state = .ok value after := by
    intro ran
    rw [State.binding]
    cases bound : (state.table home .numeric).resolve (.text name) with
    | none =>
        rw [bound] at ran
        exact absurd ran refused
    | some procedure =>
        rw [bound, expandCall.expandNumeric] at ran
        split at ran
        · rename_i isProcedure
          exact ⟨procedure, rfl, isProcedure, ran⟩
        · exact absurd ran refused
  rw [expandCall, Eval.bind_ok (Eval.resolve_run ..), Eval.bind_ok (Eval.resolve_run ..)] at done
  cases symbolic : (state.table home .symbolic).resolve (.text name) with
  | none =>
      rw [symbolic] at done
      exact .inr (numeric done)
  | some procedure =>
      rw [symbolic] at done
      simp only at done
      split at done
      · rename_i isProcedure
        exact .inl ⟨procedure, rfl, isProcedure, done⟩
      · exact .inr (numeric done)

/-- The symbolic reading binds the formals in both tables and writes out the
result that the guards select. -/
theorem expandSymbolic_ok {definition : CondProcedure Value} {formals : List String}
    {arguments : List Value} {value : Value} {state after : State} (own : definition.home = home)
    (texts : definition.formals = formals.map .text)
    (current : ∀ state : State, state.clauses definition = definition.clauses)
    (done : expandSymbolic limit home (.procedure .symbolic definition) arguments state =
      .ok value after) :
    ∃ bound result source,
      (∀ reading, Table.Binds formals arguments (state.table home reading)
        (bound.table home reading)) ∧
      bindFormals home [.numeric, .symbolic] definition.formals arguments state = .ok () bound ∧
      selectClause (evaluate limit home false) definition.name definition.clauses bound =
        .ok result after ∧
      flatten (after.table home .symbolic) result = .ok source ∧ value = .text source := by
  have distinct : [Reading.numeric, .symbolic].Nodup := by decide
  obtain ⟨bound, run, tables⟩ := bindFormals_run home distinct formals arguments state
  rw [← texts] at run
  rw [expandSymbolic, own, Eval.bind_ok run, Eval.bind_get, current] at done
  obtain ⟨result, middle, selected, written⟩ := Eval.of_bind_ok done
  obtain ⟨rfl, source, flat, text⟩ := flattenNow_ok written
  refine ⟨bound, result, source, fun reading => ?_, run, selected, flat, text⟩
  have binds := tables reading
  cases reading with
  | numeric => simpa using binds
  | symbolic => simpa using binds

theorem readOn_ok {node next : Form} {value : Value} {state after : State}
    (done : readOn node value state = .ok (some next) after) :
    reread value = .ok next ∧ ∀ home reading, after.table home reading = state.table home reading := by
  obtain ⟨_, reported, report, rest⟩ := Eval.of_bind_ok done
  split at rest
  · obtain ⟨_, _, _, finished⟩ := Eval.of_bind_ok rest
    cases finished
  · obtain ⟨form, last, read, finished⟩ := Eval.of_bind_ok rest
    cases again : reread value with
    | error failure =>
        rw [again] at read
        cases read
    | ok other =>
        rw [again] at read
        cases read
        cases finished
        exact ⟨rfl, fun home reading => Eval.report_keeps_tables report home reading⟩

/-- One more step on an expression: it gives `nan`, or its value is read again. -/
theorem expandAll_succ {remaining : Nat} {cap : Int} {children : List Form} {frame : Frame}
    {node : Form} {values : List Value} {state after : State}
    (done : expandAll limit home cap (remaining + 1) (.expression children frame) state =
      (⟨node, .ok values⟩, after)) :
    ∃ value middle next? read,
      expand limit home (.expression children frame) state = (⟨node, .ok value⟩, middle) ∧
      readOn node value middle = .ok next? read ∧
      (next? = none ∧ values = [] ∨ ∃ next last later, next? = some next ∧
        expandAll limit home cap remaining next read = (⟨last, .ok later⟩, after) ∧
        values = value :: later) := by
  rcases expanded : expand limit home (.expression children frame) state with
    ⟨⟨stepped, result⟩, middle⟩
  rw [expandAll, stateM_bind expanded] at done
  cases result with
  | error failure => cases done
  | ok value =>
      simp only at done
      rcases tried : attempt (readOn stepped value) middle with ⟨result, read⟩
      rw [stateM_bind tried] at done
      cases result with
      | error failure => cases done
      | ok next? =>
          cases next? with
          | none =>
              cases done
              exact ⟨value, middle, none, after, rfl, of_attempt_ok tried, .inl ⟨rfl, rfl⟩⟩
          | some next =>
              simp only at done
              rcases rest : expandAll limit home cap remaining next read with
                ⟨⟨last, result⟩, final⟩
              rw [stateM_bind rest] at done
              cases result with
              | error failure => cases done
              | ok later =>
                  cases done
                  exact ⟨value, middle, some next, read, rfl, of_attempt_ok tried,
                    .inr ⟨next, last, later, rfl, rest, rfl⟩⟩

/-- Steps on an expression: none is left to do, or a step is done and its value
read again. -/
theorem expandAll_expression {remaining : Nat} {cap : Int} {children : List Form} {frame : Frame}
    {node : Form} {values : List Value} {state after : State}
    (done : expandAll limit home cap remaining (.expression children frame) state =
      (⟨node, .ok values⟩, after)) :
    values = [] ∨ ∃ fewer stepped value next middle read last later,
      remaining = fewer + 1 ∧
      expand limit home (.expression children frame) state = (⟨stepped, .ok value⟩, middle) ∧
      readOn stepped value middle = .ok (some next) read ∧
      expandAll limit home cap fewer next read = (⟨last, .ok later⟩, after) ∧
      values = value :: later := by
  cases remaining with
  | zero =>
      rcases tried : attempt (Eval.report (.stopped cap)) state with ⟨result, last⟩
      rw [expandAll, stateM_bind tried] at done
      cases result with
      | error failure => cases done
      | ok _ =>
          cases done
          exact .inl rfl
  | succ fewer =>
      obtain ⟨value, middle, next?, read, expanded, reads, ⟨_, none⟩ | ⟨next, last, later, rfl, rest,
        rfl⟩⟩ := expandAll_succ done
      · exact .inl none
      · exact .inr ⟨fewer, node, value, next, middle, read, last, later, rfl, expanded, reads, rest,
          rfl⟩

theorem expandAll_other {remaining : Nat} {cap : Int} {form : Form} {state : State}
    (other : ∀ children frame, form ≠ .expression children frame) :
    expandAll limit home cap remaining form state = (⟨form, .ok []⟩, state) := by
  rw [expandAll]
  · rfl
  · exact other

/-- A task that traces a text steps within the cap of the interpreter. -/
theorem Interpreter.perform_trace_iff {interpreter : Interpreter} {source : String} {form : Form}
    {values : List Value} {state after : State} (read : Node.readForm source = .ok form) :
    interpreter.perform limit .trace source state = .ok (.steps values) after ↔
      ∃ node, expandAll limit interpreter.home interpreter.cap interpreter.cap.toNat form state =
        (⟨node, .ok values⟩, after) := by
  rcases expanded : expandAll limit interpreter.home interpreter.cap interpreter.cap.toNat form
    state with ⟨⟨node, result⟩, last⟩
  have traced : trace limit interpreter.home interpreter.cap form state = _ := expanded
  rw [perform, onText, read, Eval.bind_ok (Eval.ofExcept_ok ..), Eval.bind_get]
  simp only [performOn, stateM_bind traced]
  constructor
  · intro done
    cases result with
    | error failure => cases done
    | ok steps =>
        cases done
        exact ⟨node, rfl⟩
  · rintro ⟨_, same⟩
    cases same
    rfl

end Steps

/-- The token that spells the word of an action. -/
def Action.token : Action String → Token
  | .read text => ⟨text, .argument⟩
  | .call name => ⟨name, .operatorName⟩

theorem Action.isRun_of_content {source : String} {action : Action String}
    (member : action.token ∈ content source) : IsRun action.word := by
  rcases Token.content_member member with opened | closed | ⟨_, isRun⟩
  · cases action <;> cases opened
  · cases action <;> cases closed
  · cases action with
    | read text => exact isRun
    | call name => exact isRun

namespace Term

/-- Whether each word of a term is a single run. -/
def Legible (term : Term String) : Prop :=
  ∀ action ∈ term.actions, IsRun action.word

theorem Legible.leaf {text : String} (legible : (Term.leaf text).Legible) : IsRun text :=
  legible (.read text) (List.mem_singleton.mpr rfl)

mutual
theorem spelledAt_phrase (term : Term String) (legible : term.Legible) :
    term.phrase.SpelledAt false := by
  cases term with
  | leaf text => exact ⟨rfl, legible.leaf⟩
  | call name operands =>
      refine ⟨⟨rfl, legible (.call name) ?_⟩, spelledRow_phrases operands fun action member => ?_⟩
      · exact List.mem_append_right _ (List.mem_singleton.mpr rfl)
      · exact legible action (List.mem_append_left _ member)

theorem spelledRow_phrases (operands : List (Term String))
    (legible : ∀ action ∈ actionsOfAll operands, IsRun action.word) :
    Phrase.SpelledRow false (phrases operands) := by
  cases operands with
  | nil => exact trivial
  | cons operand rest =>
      exact ⟨spelledAt_phrase operand fun action member =>
          legible action (List.mem_append_left _ member),
        spelledRow_phrases rest fun action member =>
          legible action (List.mem_append_right _ member)⟩
end

mutual
theorem token_mem_phrase {action : Action String} (term : Term String)
    (member : action ∈ term.actions) : action.token ∈ term.phrase.tokens := by
  cases term with
  | leaf text =>
      cases List.mem_singleton.mp member
      exact List.mem_singleton.mpr rfl
  | call name operands =>
      refine List.mem_cons_of_mem _ (List.mem_append_left _ ?_)
      rcases List.mem_append.mp member with inside | last
      · exact List.mem_cons_of_mem _ (token_mem_phrases operands inside)
      · cases List.mem_singleton.mp last
        exact List.mem_cons_self

theorem token_mem_phrases {action : Action String} (operands : List (Term String))
    (member : action ∈ actionsOfAll operands) :
    action.token ∈ Phrase.tokensOfAll (phrases operands) := by
  cases operands with
  | nil => cases member
  | cons operand rest =>
      rcases List.mem_append.mp member with first | more
      · exact List.mem_append_left _ (token_mem_phrase operand first)
      · exact List.mem_append_right _ (token_mem_phrases rest more)
end

/-- What is read from a text is legible. -/
theorem legible_of_content {source : String} {term : Term String}
    (spelled : content source = term.phrase.tokens) : term.Legible :=
  fun _ member => Action.isRun_of_content (spelled ▸ token_mem_phrase term member)

end Term

theorem Procedure.token_mem_phrase {procedure : Procedure} {action : Action String}
    (member : action ∈ procedure.actions) : action.token ∈ procedure.phrase.tokens := by
  obtain ⟨clause, inside, does⟩ := List.mem_flatMap.mp member
  have part : action.token ∈ (Phrase.form [clause.1.phrase, clause.2.phrase]).tokens := by
    refine List.mem_cons_of_mem _ (List.mem_append_left _ ?_)
    rcases List.mem_append.mp does with tests | results
    · refine List.mem_append_left _ ?_
      cases guard : clause.1 with
      | word name =>
          rw [guard] at tests
          cases tests
      | test term =>
          rw [guard] at tests
          exact term.token_mem_phrase tests
    · exact List.mem_append_right _ (List.mem_append_left _ (clause.2.token_mem_phrase results))
  have body : action.token ∈ procedure.body.tokens := by
    refine List.mem_cons_of_mem _ (List.mem_append_left _ (List.mem_cons_of_mem _ ?_))
    exact Phrase.mem_tokensOfAll.mpr ⟨_, List.mem_map_of_mem inside, part⟩
  refine List.mem_cons_of_mem _ (List.mem_append_left _ (Phrase.mem_tokensOfAll.mpr ?_))
  exact ⟨procedure.body, by simp, body⟩

theorem Interpreter.Defined.legible {interpreter : Interpreter} {program : Program} {state : State}
    (defined : interpreter.Defined program state) {procedure : Procedure}
    (member : procedure ∈ program) (action : Action String) (does : action ∈ procedure.actions) :
    IsRun action.word := by
  induction defined with
  | start _ => cases member
  | define _ spelled _ ih =>
      rcases List.mem_cons.mp member with rfl | member
      · exact Action.isRun_of_content (spelled ▸ Procedure.token_mem_phrase does)
      · exact ih member

theorem flattenAll_cons_ok {symbolic : Table} {node : Form} {rest : List Form} {items : List String}
    (done : flattenAll symbolic (node :: rest) = .ok items) :
    ∃ item others, flatten symbolic node = .ok item ∧ flattenAll symbolic rest = .ok others ∧
      items = item :: others := by
  rw [flattenAll] at done
  obtain ⟨item, first, more⟩ := of_except_bind_ok done
  obtain ⟨others, flat, finished⟩ := of_except_bind_ok more
  cases finished
  exact ⟨item, others, first, flat, rfl⟩

theorem flatten_call_ok {symbolic : Table} {name source : String} {depth : Int}
    {children : List Form} {frame : Frame}
    (done : flatten symbolic (.expression (.operator name depth :: children) frame) = .ok source) :
    ∃ items, flattenAll symbolic children = .ok items ∧
      source = Node.parenthesized (name :: items) := by
  rw [flatten] at done
  obtain ⟨items, all, written⟩ := of_except_bind_ok done
  obtain ⟨item, others, operator, flat, rfl⟩ := flattenAll_cons_ok all
  cases operator
  cases written
  exact ⟨others, flat, rfl⟩

mutual
/-- A tree is written out as the text of its term, with each leaf as it is shown. -/
theorem flatten_node {symbolic : Table} {f : String → String} (term : Term String) {depth : Nat}
    {source : String}
    (shown : ∀ name, .read name ∈ term.actions → ∀ text,
      renderLiteral symbolic (.text name) = .ok text → text = f name)
    (done : flatten symbolic ((term.map .text).node depth) = .ok source) :
    source = (term.map f).phrase.text ∧ ∀ name, .read name ∈ term.actions →
      renderLiteral symbolic (.text name) = .ok (f name) := by
  cases term with
  | leaf name =>
      obtain rfl := shown name (List.mem_singleton.mpr rfl) source done
      refine ⟨rfl, fun other read => ?_⟩
      cases List.mem_singleton.mp read
      exact done
  | call name operands =>
      obtain ⟨items, flat, rfl⟩ := flatten_call_ok done
      obtain ⟨rfl, rendered⟩ := flattenAll_nodes operands
        (fun other read => shown other (List.mem_append_left _ read)) flat
      refine ⟨rfl, fun other read => rendered other ?_⟩
      rcases List.mem_append.mp read with inside | last
      · exact inside
      · cases List.mem_singleton.mp last

theorem flattenAll_nodes {symbolic : Table} {f : String → String} (operands : List (Term String))
    {depth : Nat} {items : List String}
    (shown : ∀ name, .read name ∈ Term.actionsOfAll operands → ∀ text,
      renderLiteral symbolic (.text name) = .ok text → text = f name)
    (done : flattenAll symbolic (Term.nodes depth (Term.mapAll .text operands)) = .ok items) :
    items = Phrase.texts (Term.phrases (Term.mapAll f operands)) ∧
      ∀ name, .read name ∈ Term.actionsOfAll operands →
        renderLiteral symbolic (.text name) = .ok (f name) := by
  cases operands with
  | nil =>
      cases done
      exact ⟨rfl, fun name read => absurd read List.not_mem_nil⟩
  | cons operand rest =>
      obtain ⟨item, others, first, more, rfl⟩ := flattenAll_cons_ok done
      obtain ⟨rfl, rendered⟩ := flatten_node operand
        (fun name read => shown name (List.mem_append_left _ read)) first
      obtain ⟨rfl, renderedRest⟩ := flattenAll_nodes rest
        (fun name read => shown name (List.mem_append_right _ read)) more
      refine ⟨rfl, fun name read => ?_⟩
      exact (List.mem_append.mp read).elim (rendered name) (renderedRest name)
end

theorem reread_call {name : String} {operands : List (Term String)}
    (legible : (Term.call name operands).Legible) :
    reread (.text (Term.call name operands).phrase.text) =
      .ok (Phrase.tree (.operator name :: Term.phrases operands)) :=
  Phrase.read_text (Term.spelledAt_phrase _ legible)

/-- Digits on their own are read as an integer. -/
theorem reread_leaf {text : String} (isRun : IsRun text) (integer : IsInteger text)
    {form : Form} (done : reread (.text text) = .ok form) :
    ∃ n, form = .literal (.int n) 0 ∧ Spells text n := by
  have read : Node.bareLiteral text = .ok form :=
    (Node.read_bare (Phrase.content_word isRun)).symm.trans done
  have isInteger := integer
  obtain ⟨negative, digits, parsed⟩ := integer
  rw [Node.bareLiteral, Number.parse] at read
  simp only [parsed] at read
  rw [Numeral.value] at read
  split at read
  · cases read
  · rename_i short
    cases read
    refine ⟨_, rfl, isInteger, ?_⟩
    rw [Value.toNumber, Number.ofText]
    simp only [parsed]
    rw [Numeral.value, if_neg short]

theorem integerText_ok {n : Int} {text : String} (done : integerText n = .ok text) :
    n.natAbs < integerBound ∧ text = integerDigits n := by
  rw [integerText] at done
  split at done
  · rename_i bounded
    cases done
    exact ⟨bounded, rfl⟩
  · cases done

theorem format_int (n : Int) : (Value.int n).format = integerText n := by
  rw [Value.format.eq_def]
  simp only [Value.inspect]

theorem renderLiteral_of_int {table : Table} {key : Value} {n : Int}
    (bound : table.resolve key = some (.int n)) : renderLiteral table key = integerText n := by
  rw [renderLiteral, bound]
  simp only [Value.isProcedure, Bool.false_eq_true, if_false]
  exact format_int n

/-- Tables have no integer as a key, so integers stand for themselves. -/
theorem Table.Named.renderLiteral_int {table : Table} (named : table.Named) (n : Int) :
    renderLiteral table (.int n) = integerText n := by
  rw [renderLiteral, named.resolve_number (.int n) rfl]
  exact format_int n

theorem reread_int {n : Int} {form : Form} (done : reread (.int n) = .ok form) :
    form = .literal (.int n) 0 := by
  obtain ⟨text, written, read⟩ := of_except_bind_ok done
  rw [format_int] at written
  obtain ⟨bounded, rfl⟩ := integerText_ok written
  obtain ⟨m, rfl, spells⟩ :=
    reread_leaf (isRun_integerDigits bounded) (isInteger_integerDigits bounded) read
  cases (toNumber_integerDigits bounded).symm.trans spells.number
  rfl

end Stepper
