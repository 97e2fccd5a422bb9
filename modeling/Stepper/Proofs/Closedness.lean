import Stepper.Proofs.Capping
import Stepper.Proofs.Tameness
import Stepper.Proofs.TraceValue

/-!
Traces stay closed: a call on integers becomes a term over tame words, and so does
each step after it, so that no formal is left in a step. Calls of `define` are left
out, since what they leave behind can be a formal.
-/

namespace Stepper

open Token (IsRun content)

theorem isRun_of_mem {word : String} (member : word ∈ ["#t", "#f", "NaN"]) : IsRun word := by
  simp only [List.mem_cons, List.not_mem_nil, or_false] at member
  rcases member with rfl | rfl | rfl <;> exact ⟨by decide, List.all_eq_true.mp rfl⟩

theorem Value.Tame.of_format {value : Value} (tame : value.Tame) {text : String}
    (written : value.format = .ok text) : TameWord text ∧ IsRun text := by
  cases tame with
  | int n =>
      rw [format_int] at written
      obtain ⟨bounded, rfl⟩ := integerText_ok written
      exact ⟨.inl (isInteger_integerDigits bounded), isRun_integerDigits bounded⟩
  | nan =>
      cases written
      have member : "NaN" ∈ ["#t", "#f", "NaN"] := by decide
      exact ⟨.inr member, isRun_of_mem member⟩
  | bool truth =>
      cases written
      have member : (if truth then "#t" else "#f") ∈ ["#t", "#f", "NaN"] := by
        cases truth <;> decide
      exact ⟨.inr member, isRun_of_mem member⟩
  | word tame isRun =>
      cases written
      exact ⟨tame, isRun⟩

/-- A tame value is written out as a tame word, also where a table binds it. -/
theorem Table.Tame.render {program : Program} {home : Nat} {reading : Reading} {table : Table}
    (tame : table.Tame program home reading) {value : Value} (isTame : value.Tame) {text : String}
    (rendered : renderLiteral table value = .ok text) : TameWord text ∧ IsRun text := by
  rw [renderLiteral] at rendered
  cases found : table.resolve value with
  | none =>
      rw [found] at rendered
      exact isTame.of_format rendered
  | some bound =>
      rw [found] at rendered
      simp only at rendered
      split at rendered
      · exact isTame.of_format rendered
      · rename_i notProcedure
        cases isTame with
        | word =>
            rcases tame.binding _ bound found with boundTame | ⟨isProcedure, _⟩
            · exact boundTame.of_format rendered
            · exact absurd isProcedure notProcedure
        | int n => cases (tame.named.resolve_number (.int n) rfl).symm.trans found
        | nan => cases (tame.named.resolve_number (.double .nan) rfl).symm.trans found
        | bool truth => cases (tame.named.resolve_number (.bool truth) rfl).symm.trans found

/-- Words on their own are read as tame values. -/
theorem TameWord.of_bareLiteral {text : String} (tame : TameWord text) (isRun : IsRun text)
    {form : Form} (read : Node.bareLiteral text = .ok form) :
    ∃ value, form = .literal value 0 ∧ value.Tame := by
  rcases tame with integer | member
  · obtain ⟨n, rfl, _⟩ := reread_leaf isRun integer
      ((Node.read_bare (Phrase.content_word isRun)).trans read)
    exact ⟨.int n, rfl, .int n⟩
  · refine ⟨.text text, ?_, .word (.inr member) isRun⟩
    simp only [List.mem_cons, List.not_mem_nil, or_false] at member
    rcases member with rfl | rfl | rfl <;>
    · cases read
      rfl

namespace Program

/-- Terms that a trace goes through: leaves are tame words, each call has the
arguments that it needs, and all words can be read back. -/
structure Tame (program : Program) (term : Term String) : Prop where
  words : ∀ text, .read text ∈ term.actions → TameWord text
  feeds : program.Feeds term
  legible : term.Legible

/-- Whether a value is written out as a tame term. -/
def Yields (program : Program) (value : Value) : Prop :=
  ∀ text, value.format = .ok text → ∃ term, program.Tame term ∧ text = term.phrase.text

/-- Whether a tree is written out as a tame term under every tame table. -/
def Writes (program : Program) (home : Nat) (form : Form) : Prop :=
  ∀ symbolic source, Table.Tame program home .symbolic symbolic →
    flatten symbolic form = .ok source → ∃ term, program.Tame term ∧ source = term.phrase.text

variable {program : Program} {home : Nat}

theorem tame_leaf {text : String} (tame : TameWord text) (isRun : IsRun text) :
    program.Tame (.leaf text) := by
  refine ⟨fun other read => ?_, fun call inside => absurd inside List.not_mem_nil,
    fun action member => ?_⟩
  · cases List.mem_singleton.mp read
    exact tame
  · cases List.mem_singleton.mp member
    exact isRun

theorem Tame.leaf {text : String} (tame : program.Tame (.leaf text)) :
    TameWord text ∧ IsRun text :=
  ⟨tame.words text (List.mem_singleton.mpr rfl), tame.legible.leaf⟩

theorem Tame.operand {name : String} {operands : List (Term String)}
    (tame : program.Tame (.call name operands)) {operand : Term String}
    (member : operand ∈ operands) : program.Tame operand := by
  have inside : ∀ action ∈ operand.actions, action ∈ (Term.call name operands).actions :=
    fun action does => List.mem_append_left _ (Term.mem_actionsOfAll.mpr ⟨operand, member, does⟩)
  exact ⟨fun text read => tame.words text (inside _ read), tame.feeds.operand member,
    fun action does => tame.legible action (inside action does)⟩

theorem tame_call {name : String} {operands : List (Term String)} (notDefine : name ≠ "define")
    (isRun : IsRun name) (enough : program.arity name ≤ operands.length)
    (tame : ∀ operand ∈ operands, program.Tame operand) :
    program.Tame (.call name operands) := by
  refine ⟨fun text read => ?_, fun call inside => ?_, fun action member => ?_⟩
  · rcases List.mem_append.mp read with inside | last
    · obtain ⟨operand, member, reads⟩ := Term.mem_actionsOfAll.mp inside
      exact (tame operand member).words text reads
    · cases List.mem_singleton.mp last
  · rcases List.mem_cons.mp inside with rfl | inside
    · exact ⟨notDefine, enough⟩
    · obtain ⟨operand, member, among⟩ := Term.mem_callsOfAll.mp inside
      exact (tame operand member).feeds call among
  · rcases List.mem_append.mp member with inside | last
    · obtain ⟨operand, among, does⟩ := Term.mem_actionsOfAll.mp inside
      exact (tame operand among).legible action does
    · cases List.mem_singleton.mp last
      exact isRun

theorem yields_tame {value : Value} (tame : value.Tame) : program.Yields value := by
  intro text written
  obtain ⟨isTame, isRun⟩ := tame.of_format written
  exact ⟨.leaf text, tame_leaf isTame isRun, rfl⟩

theorem yields_text {term : Term String} (tame : program.Tame term) :
    program.Yields (.text term.phrase.text) := by
  intro text written
  cases written
  exact ⟨term, tame, rfl⟩

/-- How a word is written out. -/
def shownAs (symbolic : Table) (word : String) : String :=
  (renderLiteral symbolic (.text word)).toOption.getD word

/-- A term whose leaves are written out as tame words is written out as a tame
term. -/
theorem tame_of_flatten {symbolic : Table} {term : Term String} {depth : Nat} {source : String}
    (feeds : program.Feeds term) (names : ∀ name, .call name ∈ term.actions → IsRun name)
    (words : ∀ word, .read word ∈ term.actions → ∀ text,
      renderLiteral symbolic (.text word) = .ok text → TameWord text ∧ IsRun text)
    (done : flatten symbolic ((term.map .text).node depth) = .ok source) :
    ∃ better, program.Tame better ∧ source = better.phrase.text := by
  obtain ⟨rfl, rendered⟩ := flatten_node (f := shownAs symbolic) term
    (fun word _ text shown => by rw [shownAs, shown]; rfl) done
  refine ⟨term.map (shownAs symbolic), ⟨fun text read => ?_, feeds.map _, fun action member => ?_⟩,
    rfl⟩
  · obtain ⟨word, reads, rfl⟩ := (Term.read_mem_actions_map _ _ term).mp read
    exact (words word reads _ (rendered word reads)).1
  · cases action with
    | call name => exact names name ((Term.call_mem_actions_map _ _ term).mp member)
    | read text =>
        obtain ⟨word, reads, rfl⟩ := (Term.read_mem_actions_map _ _ term).mp member
        exact (words word reads _ (rendered word reads)).2

theorem writes_literal {value : Value} (tame : value.Tame) (depth : Int) :
    program.Writes home (.literal value depth) := by
  intro symbolic source table written
  obtain ⟨isTame, isRun⟩ := table.render tame written
  exact ⟨.leaf source, tame_leaf isTame isRun, rfl⟩

theorem writes_term {term : Term String} (tame : program.Tame term) (depth : Nat) :
    program.Writes home ((term.map .text).node depth) := by
  intro symbolic source table written
  refine tame_of_flatten tame.feeds (fun name calls => tame.legible _ calls)
    (fun word reads text rendered => ?_) written
  exact table.render (.word (tame.words word reads) (tame.legible _ reads)) rendered

/-- What a step gave, read back, is written out as a tame term again. -/
theorem writes_reread {value : Value} (yields : program.Yields value) {form : Form}
    (read : reread value = .ok form) : program.Writes home form := by
  obtain ⟨text, written, again⟩ := of_except_bind_ok read
  obtain ⟨term, tame, rfl⟩ := yields text written
  cases term with
  | leaf text =>
      obtain ⟨isTame, isRun⟩ := tame.leaf
      obtain ⟨value, rfl, valueTame⟩ := isTame.of_bareLiteral isRun
        ((Node.read_bare (Phrase.content_word isRun)).symm.trans again)
      exact writes_literal valueTame 0
  | call name operands =>
      obtain rfl := Except.ok.inj ((reread_call tame.legible).symm.trans again)
      intro symbolic source table written
      -- the height that a root has is not written out
      refine writes_term tame 0 symbolic source table ?_
      rw [Phrase.tree, Phrase.nodes, Phrase.node, Term.nodes_phrases, flatten] at written
      rw [Term.map, Term.node, flatten]
      exact written

/-- Trees that are written out as tame terms make a row of tame terms. -/
theorem tame_row {forms : List Form} (writes : ∀ form ∈ forms, program.Writes home form)
    {symbolic : Table} (table : symbolic.Tame program home .symbolic) {items : List String}
    (flat : flattenAll symbolic forms = .ok items) :
    ∃ terms : List (Term String), items = Phrase.texts (Term.phrases terms) ∧
      terms.length = forms.length ∧ ∀ term ∈ terms, program.Tame term := by
  induction forms generalizing items with
  | nil =>
      cases flat
      exact ⟨[], rfl, rfl, by simp⟩
  | cons form forms ih =>
      obtain ⟨first, others⟩ := List.forall_mem_cons.mp writes
      obtain ⟨item, more, written, rest, rfl⟩ := flattenAll_cons_ok flat
      obtain ⟨term, tame, rfl⟩ := first symbolic item table written
      obtain ⟨terms, rfl, count, tameRest⟩ := ih others rest
      refine ⟨term :: terms, rfl, ?_, List.forall_mem_cons.mpr ⟨tame, tameRest⟩⟩
      rw [List.length_cons, List.length_cons, count]

end Program

/-- A state whose tables are both tame. -/
def State.Tame (program : Program) (home : Nat) (state : State) : Prop :=
  ∀ reading, (state.table home reading).Tame program home reading

theorem State.Tame.proceed {program : Program} {home : Nat} {state after : State}
    (tame : state.Tame program home) (proceeds : program.Proceeds home state after) :
    after.Tame program home := by
  intro reading
  cases reading with
  | numeric => exact proceeds.tame (tame .numeric)
  | symbolic =>
      rw [proceeds.symbolic]
      exact tame .symbolic

theorem State.Tame.of_tables {program : Program} {home : Nat} {state after : State}
    (tame : state.Tame program home)
    (same : ∀ reading, after.table home reading = state.table home reading) :
    after.Tame program home := by
  intro reading
  rw [same]
  exact tame reading

/-- Programs that can be traced without leaks. -/
structure Program.Leakproof (program : Program) : Prop where
  sufficient : program.SelfSufficient
  legible : ∀ procedure ∈ program, ∀ action ∈ procedure.actions, IsRun action.word

section Steps

variable {program : Program} {home limit : Nat} {state after : State} {value : Value}

theorem IsActual.tame {text : String} (word : TameWord text) (isRun : IsRun text) {depth : Int}
    {actual : Value} (tame : state.Tame program home)
    (isActual : IsActual limit home state (.text text, depth) actual) : actual.Tame := by
  obtain ⟨number, evaluated, rfl⟩ := isActual
  obtain ⟨_, found, rfl, read⟩ := eval_leaf_ok evaluated
  split
  · exact .word word isRun
  · exact ((tame .numeric).number (.inl word) read).value

theorem actuals_tame {texts : List String} (words : ∀ text ∈ texts, TameWord text ∧ IsRun text)
    {depth : Int} {arguments : List Value} (tame : state.Tame program home)
    (done : actuals limit home (texts.map fun text => (.text text, depth)) state =
      .ok arguments after) :
    (∀ argument ∈ arguments, argument.Tame) ∧ arguments.length = texts.length ∧
      after.Tame program home := by
  obtain ⟨areActual, same⟩ := actuals_ok done
  have paired := List.forall₂_map_left_iff.mp areActual
  refine ⟨?_, paired.length_eq.symm, tame.of_tables same⟩
  clear done areActual
  induction paired with
  | nil => simp
  | cons isActual _ ih =>
      obtain ⟨⟨word, isRun⟩, others⟩ := List.forall_mem_cons.mp words
      exact List.forall_mem_cons.mpr ⟨isActual.tame word isRun tame, ih others⟩

/-- The symbolic reading of a call writes out a tame term. -/
theorem expandSymbolic_tame (leakproof : program.Leakproof) {procedure : Procedure}
    (has : program.Has procedure) {serial : Nat} {arguments : List Value}
    (enough : procedure.formals.length ≤ arguments.length)
    (values : ∀ argument ∈ arguments, argument.Tame) (tame : state.Tame program home)
    (done : expandSymbolic limit home (.procedure .symbolic (procedure.compiled home serial))
      arguments state = .ok value after) :
    program.Yields value ∧ after.Tame program home := by
  have member := Program.mem_of_meaning has
  have current : ∀ state : State, state.clauses (procedure.compiled home serial) =
      (procedure.compiled home serial).clauses := fun _ => upToDate_clauseNodes ..
  obtain ⟨bound, result, source, binds, _, selected, flat, rfl⟩ :=
    expandSymbolic_ok rfl rfl current done
  have inBound : bound.Tame program home :=
    fun reading => (binds reading).tame values (tame reading)
  have formals : ∀ name ∈ procedure.formals, (bound.binding home name).isSome :=
    (binds .numeric).binding_isSome values enough
  obtain ⟨⟨chosen, inside, rfl⟩, proceeds⟩ := selectClause_tame leakproof.sufficient
    (callWithin_tame leakproof.sufficient limit limit) member (fun _ _ _ _ ran => ran)
    (fun _ => id) formals (inBound .numeric) selected
  have inAfter := inBound.proceed proceeds
  refine ⟨?_, inAfter⟩
  have legible : ∀ action ∈ chosen.2.actions, IsRun action.word := fun action does =>
    leakproof.legible procedure member action (Procedure.result_mem_actions inside does)
  have words : ∀ word, .read word ∈ chosen.2.actions → ∀ text,
      renderLiteral (after.table home .symbolic) (.text word) = .ok text →
      TameWord text ∧ IsRun text := by
    intro word reads text rendered
    rcases leakproof.sufficient.reads procedure member word
      (Procedure.result_mem_actions inside reads) with formal | integer
    · -- guards leave the symbolic table as the call bound it
      obtain ⟨given, found, isTame⟩ : ∃ given,
          (bound.table home .symbolic).resolve (.text word) = some given ∧ given.Tame :=
        (binds .symbolic).resolve_formal values enough formal
      rw [renderLiteral, proceeds.symbolic, found] at rendered
      simp only [isTame.not_procedure, Bool.false_eq_true, if_false] at rendered
      exact isTame.of_format rendered
    · exact (inAfter .symbolic).render (.word (.inl integer) (legible _ reads)) rendered
  obtain ⟨term, isTame, rfl⟩ := Program.tame_of_flatten
    (leakproof.sufficient.feeds procedure member _ (Procedure.result_mem_terms inside))
    (fun name calls => legible _ calls) words flat
  exact Program.yields_text isTame

theorem expandCall_tame (leakproof : program.Leakproof) {name : String} {head : Option Form}
    {arguments : List Value} (notDefine : name ≠ "define")
    (enough : program.arity name ≤ arguments.length)
    (values : ∀ argument ∈ arguments, argument.Tame) (tame : state.Tame program home)
    (done : expandCall limit home (.text name) head arguments state = .ok value after) :
    program.Yields value ∧ after.Tame program home := by
  rcases expandCall_ok done with ⟨procedure, bound, isProcedure, ran⟩ |
    ⟨procedure, bound, isProcedure, ran⟩
  · rcases (tame .symbolic).binding name procedure bound with isTame | ⟨_, stands⟩
    · rw [isTame.not_procedure] at isProcedure
      cases isProcedure
    · generalize means : program.meaning name = callee at stands
      cases stands with
      | procedure _ definition serial =>
          rw [Program.arity_of_meaning means] at enough
          obtain ⟨rfl, has⟩ := Program.has_of_meaning means
          exact expandSymbolic_tame leakproof has enough values tame ran
  · rcases (tame .numeric).binding name procedure bound with isTame | ⟨_, stands⟩
    · rw [isTame.not_procedure] at isProcedure
      cases isProcedure
    · obtain ⟨isTame, proceeds⟩ := apply_tame (callWithin_tame leakproof.sufficient limit limit)
        notDefine (tame .numeric) stands enough values ran
      exact ⟨Program.yields_tame isTame, tame.proceed proceeds⟩

/-- Whether steps on a term give tame terms. -/
def StepsTamely (program : Program) (home limit depth : Nat) (term : Term String) : Prop :=
  ∀ state after node value, State.Tame program home state →
    expand limit home ((term.map .text).node depth) state = (⟨node, .ok value⟩, after) →
    program.Yields value ∧ after.Tame program home

theorem reduceArgument_tame (leakproof : program.Leakproof) {depth : Nat} {operand : Term String}
    (isTame : program.Tame operand) (steps : StepsTamely program home limit depth operand)
    {reduced : Form} (tame : state.Tame program home)
    (done : reduceArgument limit home none (expand limit home ((operand.map .text).node depth))
      ((operand.map .text).node depth) state = ((reduced, none), after)) :
    program.Writes home reduced ∧ after.Tame program home := by
  cases operand with
  | leaf text =>
      cases done
      exact ⟨Program.writes_term isTame depth, tame⟩
  | call name operands =>
      rcases reduceArgument_expression done with ⟨node, value, ran, read⟩ | ⟨value, ran, rfl⟩
      · obtain ⟨yields, inAfter⟩ := steps _ _ _ _ tame ran
        exact ⟨Program.writes_reread yields read, inAfter⟩
      · obtain ⟨valueTame, proceeds⟩ := eval_tame
          (callWithin_tame leakproof.sufficient limit limit) (.call name operands) isTame.feeds
          (fun text reads => .inl (isTame.words text reads)) (tame .numeric) ran
        exact ⟨Program.writes_literal valueTame _, tame.proceed proceeds⟩

theorem reduceArguments_tame (leakproof : program.Leakproof) {depth : Nat}
    {operands : List (Term String)} (isTame : ∀ operand ∈ operands, program.Tame operand)
    (steps : ∀ operand ∈ operands, StepsTamely program home limit depth operand)
    {before children : List Form} (tame : state.Tame program home)
    (done : reduceArguments limit home none before
      (Term.nodes depth (Term.mapAll .text operands)) state = ((children, none), after)) :
    ∃ reduced, children = before ++ reduced ∧ reduced.length = operands.length ∧
      (∀ form ∈ reduced, program.Writes home form) ∧ after.Tame program home := by
  induction operands generalizing before state with
  | nil =>
      cases done
      exact ⟨[], (List.append_nil _).symm, rfl, by simp, tame⟩
  | cons operand rest ih =>
      obtain ⟨first, others⟩ := List.forall_mem_cons.mp isTame
      obtain ⟨step, stepRest⟩ := List.forall_mem_cons.mp steps
      obtain ⟨form, middle, reduces, more⟩ := reduceArguments_cons done
      obtain ⟨writes, inMiddle⟩ := reduceArgument_tame leakproof first step tame reduces
      obtain ⟨reduced, rfl, count, writesRest, inAfter⟩ := ih others stepRest inMiddle more
      refine ⟨form :: reduced, by simp, ?_, List.forall_mem_cons.mpr ⟨writes, writesRest⟩, inAfter⟩
      rw [List.length_cons, List.length_cons, count]

/-- A step on a call, if steps on its operands give tame terms. -/
theorem expand_call_tame (leakproof : program.Leakproof) {depth : Nat} {name : String}
    {operands : List (Term String)} (isTame : program.Tame (.call name operands))
    (steps : ∀ operand ∈ operands, StepsTamely program home limit depth operand)
    {place : Int} {frame : Frame} (free : frame.anchor = none) {node : Form}
    (tame : state.Tame program home)
    (done : expand limit home (.expression
      (.operator name place :: Term.nodes depth (Term.mapAll .text operands)) frame) state =
        (⟨node, .ok value⟩, after)) :
    program.Yields value ∧ after.Tame program home := by
  obtain ⟨notDefine, enough⟩ := isTame.feeds.call
  cases literal : literalArguments? (Term.nodes depth (Term.mapAll .text operands)) with
  | some literals =>
      obtain ⟨texts, rfl, rfl⟩ := literalArguments?_nodes literal
      obtain ⟨arguments, middle, given, called⟩ := Eval.of_bind_ok (expand_literals literal done)
      have words : ∀ text ∈ texts, TameWord text ∧ IsRun text :=
        fun text member => (isTame.operand (List.mem_map_of_mem member)).leaf
      obtain ⟨values, count, inMiddle⟩ := actuals_tame words tame given
      rw [List.length_map, ← count] at enough
      exact expandCall_tame leakproof notDefine enough values inMiddle called
  | none =>
      obtain ⟨children, middle, reduced, flat⟩ := expand_operands literal done
      rw [free] at reduced
      obtain ⟨forms, rfl, count, writes, inMiddle⟩ := reduceArguments_tame leakproof
        (fun operand member => isTame.operand member) steps tame reduced
      obtain ⟨rfl, source, written, rfl⟩ := flattenNow_ok flat
      obtain ⟨items, all, rfl⟩ := flatten_call_ok written
      obtain ⟨terms, rfl, same, tameTerms⟩ := Program.tame_row writes (inMiddle .symbolic) all
      rw [← count, ← same] at enough
      have isRun : IsRun name :=
        isTame.legible (.call name) (List.mem_append_right _ (List.mem_singleton.mpr rfl))
      exact ⟨Program.yields_text (Program.tame_call notDefine isRun enough tameTerms), inMiddle⟩

theorem expand_tame (leakproof : program.Leakproof) (term : Term String)
    (isTame : program.Tame term) (depth : Nat) : StepsTamely program home limit depth term := by
  induction term generalizing depth with
  | leaf text =>
      intro state after node value tame done
      rcases tried : attempt (literalOrNumber limit home (.text text) depth) state with
        ⟨result, last⟩
      rw [Term.map, Term.node, expand, stateM_bind tried] at done
      cases done
      obtain ⟨isActual, same⟩ := literalOrNumber_ok (of_attempt_ok tried)
      obtain ⟨word, isRun⟩ := isTame.leaf
      exact ⟨Program.yields_tame (isActual.tame word isRun tame), tame.of_tables same⟩
  | call name operands ih =>
      intro state after node value tame done
      exact expand_call_tame leakproof isTame
        (fun operand member => ih operand member (isTame.operand member) (depth + 1)) rfl tame done

theorem expand_tree_tame (leakproof : program.Leakproof) {name : String}
    {operands : List (Term String)} (isTame : program.Tame (.call name operands)) {node : Form}
    (tame : state.Tame program home)
    (done : expand limit home (Phrase.tree (.operator name :: Term.phrases operands)) state =
      (⟨node, .ok value⟩, after)) :
    program.Yields value ∧ after.Tame program home := by
  rw [Phrase.tree, Phrase.nodes, Phrase.node, Term.nodes_phrases] at done
  exact expand_call_tame leakproof isTame
    (fun operand member => expand_tame leakproof operand (isTame.operand member) 1) rfl tame done

theorem expandAll_tame (leakproof : program.Leakproof) {cap : Int} {remaining : Nat}
    {name : String} {operands : List (Term String)} (isTame : program.Tame (.call name operands))
    {node : Form} {values : List Value} (tame : state.Tame program home)
    (done : expandAll limit home cap remaining
      (Phrase.tree (.operator name :: Term.phrases operands)) state = (⟨node, .ok values⟩, after)) :
    ∀ value ∈ values, ∃ term, program.Tame term ∧ value.format = .ok term.phrase.text := by
  induction remaining generalizing name operands state node values with
  | zero =>
      rcases expandAll_expression done with rfl | ⟨_, _, _, _, _, _, _, _, impossible, _⟩
      · simp
      · cases impossible
  | succ remaining ih =>
      rcases expandAll_expression done with
        rfl | ⟨_, stepped, value, next, middle, read, _, later, one, expanded, ran, rest, rfl⟩
      · simp
      obtain rfl := Nat.succ.inj one
      obtain ⟨yields, inMiddle⟩ := expand_tree_tame leakproof isTame tame expanded
      obtain ⟨again, same⟩ := readOn_ok ran
      obtain ⟨text, written, reads⟩ := of_except_bind_ok again
      obtain ⟨term, termTame, rfl⟩ := yields text written
      refine List.forall_mem_cons.mpr ⟨⟨term, termTame, written⟩, ?_⟩
      cases term with
      | call name' operands' =>
          obtain rfl := Except.ok.inj ((reread_call termTame.legible).symm.trans reads)
          exact ih termTame (inMiddle.of_tables (same home)) rest
      | leaf text =>
          obtain ⟨word, isRun⟩ := termTame.leaf
          obtain ⟨literal, rfl, _⟩ := word.of_bareLiteral isRun
            ((Node.read_bare (Phrase.content_word isRun)).symm.trans reads)
          rw [expandAll_other fun children frame equal => by cases equal] at rest
          cases rest
          simp

end Steps

/-- No formal is left in a step of a trace: each step is a term whose leaves are
integers, truth values or `nan`. -/
theorem steps_hold_no_formal {interpreter : Interpreter} {program : Program} {state after : State}
    {source name : String} {operands : List (Term String)} {limit : Nat} {values : List Value}
    (defined : interpreter.Defined program state) (sufficient : program.SelfSufficient)
    (formals : ∀ procedure ∈ program, ∀ formal ∈ procedure.formals, ¬ TameWord formal)
    (spelled : content source = (Term.call name operands).phrase.tokens)
    (integers : ∀ text, .read text ∈ (Term.call name operands).actions → IsInteger text)
    (feeds : program.Feeds (Term.call name operands))
    (traced : interpreter.perform limit .trace source state = .ok (.steps values) after) :
    ∀ value ∈ values, ∃ text, ∃ term : Term String, value.format = .ok text ∧
      content text = term.phrase.tokens ∧ ∀ word, .read word ∈ term.actions →
        TameWord word ∧ ∀ procedure ∈ program, word ∉ procedure.formals := by
  have leakproof : program.Leakproof := ⟨sufficient, fun procedure => defined.legible⟩
  have isTame : program.Tame (.call name operands) :=
    ⟨fun text reads => .inl (integers text reads), feeds, Term.legible_of_content spelled⟩
  obtain ⟨node, expanded⟩ := (Interpreter.perform_trace_iff (Node.readForm_form spelled)).mp traced
  have tame : state.Tame program interpreter.home := fun reading => (defined.shows reading).tame
  intro value member
  obtain ⟨term, termTame, written⟩ := expandAll_tame leakproof isTame tame expanded value member
  refine ⟨_, term, written, Phrase.content_text (term.spelledAt_phrase termTame.legible),
    fun word reads => ⟨termTame.words word reads, fun procedure among formal => ?_⟩⟩
  exact formals procedure among word formal (termTame.words word reads)

/-- The texts that a trace consists of, once a program is defined. -/
def Interpreter.tracedTexts (interpreter : Interpreter) (program : Program) (source : String) :
    List (Option String) :=
  stepTexts ((do
    interpreter.defineAll program.reverse
    interpreter.perform initialLimit .trace source : Eval Reply) {})

theorem Interpreter.of_tracedTexts {interpreter : Interpreter} {program : Program}
    {source text : String} {texts : List String} (fresh : interpreter.IsFresh {})
    (spelled : ∀ procedure ∈ program, content procedure.phrase.text = procedure.phrase.tokens)
    (shown : interpreter.tracedTexts program source = (text :: texts).map some) :
    ∃ state after, interpreter.Defined program state ∧
      interpreter.perform initialLimit .trace source state =
        .ok (.steps ((text :: texts).map .text)) after := by
  obtain ⟨state, done, defined⟩ := (Defined.start fresh).defineAll
    fun procedure member => spelled procedure (List.mem_reverse.mp member)
  rw [List.reverse_reverse, List.append_nil] at defined
  obtain ⟨after, traced⟩ :=
    of_stepTexts ((congrArg stepTexts (Eval.bind_ok done)).symm.trans shown)
  exact ⟨state, after, defined, traced⟩

/-- Counts down and passes on whether its arguments are equal. -/
def comparing : Procedure where
  name := "f"
  formals := ["x", "y"]
  clauses := [(.equal (.leaf "x") (.leaf "0"), .leaf "y"),
    (.word "else", .call "f" [.call "-" [.leaf "x", .leaf "1"],
      .call "=" [.leaf "y", .leaf "x"]])]

theorem steps_hold_no_formal_comparing :
    ∃ state after, Interpreter.Defined ⟨0, 100⟩ [comparing] state ∧
      Program.SelfSufficient [comparing] ∧
      Interpreter.perform ⟨0, 100⟩ initialLimit .trace "(f 2 2)" state =
        .ok (.steps (["(f (- 2 1) (= 2 2))", "(f 1 #t)", "(f (- 1 1) (= #t 1))", "(f 0 #f)",
          "#f"].map .text)) after ∧
      ∃ text, ∃ term : Term String, (Value.text "(f (- 1 1) (= #t 1))").format = .ok text ∧
        content text = term.phrase.tokens ∧ ∀ word, .read word ∈ term.actions →
          TameWord word ∧ ∀ procedure ∈ [comparing], word ∉ procedure.formals := by
  have closed : Program.Closed [comparing] := by decide +kernel
  have sufficient : Program.SelfSufficient [comparing] :=
    ⟨fun procedure member name => (closed procedure member).2.1 (.read name), by decide +kernel⟩
  have shown : Interpreter.tracedTexts ⟨0, 100⟩ [comparing] "(f 2 2)" =
      ["(f (- 2 1) (= 2 2))", "(f 1 #t)", "(f (- 1 1) (= #t 1))", "(f 0 #f)", "#f"].map some := by
    decide +kernel
  obtain ⟨state, after, defined, traced⟩ := Interpreter.of_tracedTexts rfl
    (fun procedure member => (closed procedure member).1) shown
  have spelled : content "(f 2 2)" = (Term.call "f" [.leaf "2", .leaf "2"]).phrase.tokens := by
    decide +kernel
  refine ⟨state, after, defined, sufficient, traced, ?_⟩
  exact steps_hold_no_formal defined sufficient (by decide +kernel) spelled
    (by simp [Term.actions, Term.actionsOfAll]; decide) (by decide +kernel) traced _ (by simp)

/-- Whether formals are no other names, and neither they nor names of procedures
are literals. -/
def Program.Distinct (program : Program) : Prop :=
  ∀ procedure ∈ program, ¬ IsInteger procedure.name ∧ ∀ formal ∈ procedure.formals,
    ¬ TameWord formal ∧ Builtin.named? formal = none ∧ ∀ other ∈ program, other.name ≠ formal

instance (program : Program) : Decidable program.Distinct :=
  inferInstanceAs (Decidable (∀ procedure ∈ program, _ ∧ _))

/-- Whether clauses of a program use nothing from outside, formals are words of
their own, and calls have the arguments that they need, in the program as in a
term over integers. -/
def Program.Admits (program : Program) (term : Term String) : Prop :=
  program.Closed ∧ program.Distinct ∧ term.OnIntegers ∧
  ∀ part ∈ term :: program.flatMap Procedure.terms, ∀ call ∈ part.calls,
    program.arity call.1 ≤ call.2

instance (program : Program) (term : Term String) : Decidable (program.Admits term) :=
  inferInstanceAs (Decidable (_ ∧ _))

/-- Whether a step in the trace of a term shows a formal. -/
def Program.Leaks (program : Program) (term : Term String) : Prop :=
  ∃ (interpreter : Interpreter) (state after : State) (values : List Value),
    interpreter.Defined program state ∧
    interpreter.perform initialLimit .trace term.phrase.text state = .ok (.steps values) after ∧
    ∃ text, ∃ step : Term String, .text text ∈ values ∧ content text = step.phrase.tokens ∧
      ∃ procedure ∈ program, ∃ formal ∈ procedure.formals, .read formal ∈ step.actions

theorem Program.Leaks.of_tracedTexts {interpreter : Interpreter} {program : Program}
    {term : Term String} (admits : program.Admits term) (fresh : interpreter.IsFresh {})
    {first text : String} {rest : List String}
    (shown : interpreter.tracedTexts program term.phrase.text = (first :: rest).map some)
    (member : text ∈ first :: rest) {step : Term String}
    (spelled : content text = step.phrase.tokens) {procedure : Procedure}
    (among : procedure ∈ program) {formal : String} (own : formal ∈ procedure.formals)
    (reads : .read formal ∈ step.actions) : program.Leaks term := by
  obtain ⟨state, after, defined, traced⟩ := Interpreter.of_tracedTexts fresh
    (fun procedure member => (admits.1 procedure member).1) shown
  exact ⟨interpreter, state, after, _, defined, traced, text, step, List.mem_map_of_mem member,
    spelled, procedure, among, formal, own, reads⟩

/-- `f` has a formal that is the word for no value. -/
def namedNil : Program :=
  [.simple "f" ["nil"] (.leaf "0")]

/-- A procedure of the name `define`, a call of which evaluation takes for a
definition all the same. -/
def namedDefine : Program :=
  .simple "k" ["nil"] (.leaf "0") :: [.simple "define" ["y"] (.leaf "y")]

/-- `m` gives `=` the meaning of `g`, which has no value. -/
def redefining : Program :=
  .simple "m" ["x"] (.call "+" [.call "*" [.call "define" [.call "=" [.leaf "x"],
      .call "g" [.leaf "x"]], .leaf "1"], .call "k" [.call "=" [.leaf "2", .leaf "3"]]]) ::
    .simple "g" ["x"] (.call "define" [.leaf "1", .leaf "x"]) :: namedDefine

/-- A call that gives `=` a meaning without a value. -/
def redefiningCall : Term String :=
  .call "+" [.call "*" [.call "define" [.call "=" [.leaf "1"],
      .call "cond" [.call "else" [.call "define" [.leaf "1", .leaf "1"]]]], .leaf "1"],
    .call "k" [.call "=" [.leaf "2", .leaf "3"]]]

/-- Definitions leak formals, in the traced call and in clauses. -/
theorem definitions_leak_formals :
    (namedNil.Admits (.call "f" [.call "define" [.leaf "1", .leaf "5"]]) ∧
      namedNil.Leaks (.call "f" [.call "define" [.leaf "1", .leaf "5"]])) ∧
    (namedDefine.Admits redefiningCall ∧ namedDefine.Leaks redefiningCall) ∧
    redefining.Admits (.call "m" [.leaf "1"]) ∧ redefining.Leaks (.call "m" [.leaf "1"]) := by
  have shownNil : Interpreter.tracedTexts ⟨0, 1⟩ namedNil "(f (define 1 5))" =
      ["(f nil)"].map some := by decide +kernel
  have shownDefine : Interpreter.tracedTexts ⟨0, 1⟩ namedDefine redefiningCall.phrase.text =
      ["(+ NaN (k nil))"].map some := by decide +kernel
  have shownRedefining : Interpreter.tracedTexts ⟨0, 2⟩ redefining "(m 1)" =
      ["(+ (* (define (= 1) (g 1)) 1) (k (= 2 3)))", "(+ NaN (k nil))"].map some := by
    decide +kernel
  have spelledNil : content "(f nil)" = (Term.call "f" [.leaf "nil"]).phrase.tokens := by
    decide +kernel
  have spelled : content "(+ NaN (k nil))" =
      (Term.call "+" [.leaf "NaN", .call "k" [.leaf "nil"]]).phrase.tokens := by decide +kernel
  have admitsNil : namedNil.Admits (.call "f" [.call "define" [.leaf "1", .leaf "5"]]) := by
    decide +kernel
  have admitsDefine : namedDefine.Admits redefiningCall := by decide +kernel
  have admits : redefining.Admits (.call "m" [.leaf "1"]) := by decide +kernel
  have formal : "nil" ∈ ["nil"] := by decide
  refine ⟨⟨admitsNil, ?_⟩, ⟨admitsDefine, ?_⟩, admits, ?_⟩
  · exact .of_tracedTexts admitsNil rfl shownNil List.mem_cons_self spelledNil List.mem_cons_self
      formal (by decide)
  · exact .of_tracedTexts admitsDefine rfl shownDefine List.mem_cons_self spelled
      List.mem_cons_self formal (by decide)
  · exact .of_tracedTexts admits rfl shownRedefining (List.mem_cons_of_mem _ List.mem_cons_self)
      spelled (List.mem_cons_of_mem _ (List.mem_cons_of_mem _ List.mem_cons_self)) formal
      (by decide)

end Stepper
