import Stepper.Proofs.Expansion
import Stepper.Proofs.Substitution

/-!
Traces keep the value of their expression. Each step gives the text of a term
that may replace the one before, or its value.
-/

namespace Stepper

open Token (IsRun content)

namespace Program

/-- Terms that can be written out and read back, and traced. -/
structure Shown (program : Program) (term : Term String) : Prop where
  ground : term.Ground
  sound : program.Sound term
  legible : term.Legible

/-- Whether a trace can lead from one state to another: in both tables only
formals are bound anew. -/
def Reaches (program : Program) (home : Nat) (base state : State) : Prop :=
  ∀ reading, Table.Drifts program.IsFormal (base.table home reading) (state.table home reading)

/-- Whether a step can lead from one term to another. -/
structure Refines (program : Program) (home : Nat) (base : State) (term better : Term String) :
    Prop where
  shown : program.Shown better
  improves : program.Improves home base term better
  truth : program.GivesTruth better → program.GivesTruth term

/-- What a step on a term gives. -/
inductive Gives (program : Program) (home : Nat) (base : State) (term : Term String) :
    Value → Prop where
  | text {better : Term String} (refines : program.Refines home base term better) :
      Gives program home base term (.text better.phrase.text)
  | value {setting : Setting} {state after : State} {value : Value}
      (leads : program.Leads home base state)
      (done : setting.eval home term state = .ok value after) : Gives program home base term value

/-- Whether steps on a term give what they should. -/
def Steps (program : Program) (home : Nat) (base : State) (limit depth : Nat)
    (term : Term String) : Prop :=
  ∀ state after node value, program.Reaches home base state →
    expand limit home ((term.map .text).node depth) state = (⟨node, .ok value⟩, after) →
    program.Gives home base term value ∧ program.Reaches home base after

/-- Whether a tree is written out as a term that may replace the given one. -/
def Prints (program : Program) (home : Nat) (base : State) (term : Term String) (form : Form) :
    Prop :=
  ∀ state source, program.Reaches home base state →
    flatten (state.table home .symbolic) form = .ok source →
    ∃ better, source = better.phrase.text ∧ program.Refines home base term better

variable {program : Program} {home : Nat} {base : State}

theorem Sound.map {α β : Type} (f : α → β) {term : Term α} (sound : program.Sound term) :
    program.Sound (term.map f) := by
  induction sound with
  | leaf a => exact .leaf (f a)
  | @call name operands enough _ integers ih =>
      rw [Term.map, Term.mapAll_eq_map]
      refine .call ?_ ?_ ?_
      · simpa using enough
      · intro operand member
        obtain ⟨original, inside, rfl⟩ := List.mem_map.mp member
        exact ih original inside
      · intro operand member
        obtain ⟨original, inside, rfl⟩ := List.mem_map.mp member
        rintro ⟨inner, last, truthValued⟩
        rw [Term.head?_map] at last
        exact integers original inside ⟨inner, last, truthValued⟩

theorem Shown.operand {name : String} {operands : List (Term String)}
    (shown : program.Shown (.call name operands)) {operand : Term String}
    (member : operand ∈ operands) : program.Shown operand ∧ ¬ program.GivesTruth operand := by
  obtain ⟨_⟩ | ⟨_, sounds, integers⟩ := shown.sound
  refine ⟨⟨shown.ground.operand member, sounds operand member, fun action inside => ?_⟩,
    integers operand member⟩
  exact shown.legible action
    (List.mem_append_left _ (Term.mem_actionsOfAll.mpr ⟨operand, member, inside⟩))

theorem Reaches.leads {state : State} (reaches : program.Reaches home base state) :
    program.Leads home base state :=
  reaches .numeric

theorem Reaches.render_free {state : State} (reaches : program.Reaches home base state)
    (shows : (base.table home .symbolic).Shows program home .symbolic) {text : String}
    (free : program.meaning text = none ∧ ¬ program.IsFormal text) :
    renderLiteral (state.table home .symbolic) (.text text) = .ok text := by
  rw [renderLiteral, shows.resolve_free (reaches .symbolic) free.1 free.2]
  rfl

theorem Reaches.after {state after : State} {actions : List (Action String)}
    (reaches : program.Reaches home base state)
    (changes : Changes home (program.Touches actions) state after) :
    program.Reaches home base after := by
  intro reading
  cases reading with
  | numeric => exact reaches.leads.after changes
  | symbolic =>
      rw [changes.symbolic]
      exact reaches .symbolic

theorem Reaches.bind {state bound : State} {procedure : Procedure} {numbers : List Int}
    (reaches : program.Reaches home base state) (has : program.Has procedure)
    (binds : ∀ reading, Table.Binds procedure.formals (numbers.map .int)
      (state.table home reading) (bound.table home reading)) :
    program.Reaches home base bound :=
  fun reading => (reaches reading).trans (drifts_of_binds has (binds reading))

end Program

namespace Prepared

variable {program : Program} {home : Nat} {base : State}

theorem render_integer (prepared : Prepared program home base) {state : State}
    (reaches : program.Reaches home base state) {text : String} (integer : IsInteger text) :
    renderLiteral (state.table home .symbolic) (.text text) = .ok text :=
  reaches.render_free (prepared.shows .symbolic) (prepared.traceable.integer_free integer)

theorem render_int (prepared : Prepared program home base) {state : State}
    (reaches : program.Reaches home base state) (n : Int) :
    renderLiteral (state.table home .symbolic) (.int n) = integerText n :=
  ((reaches .symbolic).named (prepared.shows .symbolic).named).renderLiteral_int n

theorem refines_refl (prepared : Prepared program home base) {term : Term String}
    (shown : program.Shown term) : program.Refines home base term term :=
  ⟨shown, prepared.improves_refl shown.ground, id⟩

/-- A term that can give no truth value gives an integer. -/
theorem value_integer (prepared : Prepared program home base) {term : Term String}
    (shown : program.Shown term) (noTruth : ¬ program.GivesTruth term) {setting : Setting}
    {state after : State} {value : Value} (leads : program.Leads home base state)
    (done : setting.eval home term state = .ok value after) : ∃ n, value = .int n := by
  have shows := prepared.shows .numeric
  refine (eval_integer shows (prepared.framed _ _)
    (callWithin_integer shows prepared.traceable _ _) term shown.ground.plain
    (Program.orderly_of_outside fun text read =>
      (prepared.traceable.integer_free (shown.ground.integers text read)).2)
    shown.sound leads ?_ done).resolve_right noTruth
  intro text read number found
  obtain ⟨n, rfl, _⟩ := prepared.traceable.read_spells shows leads
    (shown.ground.integers text read) found
  exact ⟨n, rfl⟩

theorem shown_digits {n : Int} (bounded : n.natAbs < integerBound) :
    program.Shown (.leaf (integerDigits n)) := by
  refine ⟨⟨fun calls => (nomatch List.mem_singleton.mp calls), fun text read => ?_⟩, .leaf _,
    fun action member => ?_⟩
  · cases List.mem_singleton.mp read
    exact isInteger_integerDigits bounded
  · cases List.mem_singleton.mp member
    exact isRun_integerDigits bounded

/-- An integer is written out as digits, which may replace a term of that value. -/
theorem prints_int (prepared : Prepared program home base) {term : Term String} {n : Int}
    {depth : Int}
    (improves : n.natAbs < integerBound →
      program.Improves home base term (.leaf (integerDigits n))) :
    program.Prints home base term (.literal (.int n) depth) := by
  intro state source reaches written
  rw [flatten, prepared.render_int reaches] at written
  obtain ⟨bounded, rfl⟩ := integerText_ok written
  refine ⟨_, rfl, shown_digits bounded, improves bounded, ?_⟩
  rintro ⟨_, last, _⟩
  cases last

theorem prints_value (prepared : Prepared program home base) {term : Term String}
    (shown : program.Shown term) (noTruth : ¬ program.GivesTruth term) {setting : Setting}
    {state after : State} {value : Value} (leads : program.Leads home base state)
    (done : setting.eval home term state = .ok value after) (depth : Int) :
    program.Prints home base term (.literal value depth) := by
  obtain ⟨n, rfl⟩ := prepared.value_integer shown noTruth leads done
  exact prepared.prints_int fun bounded =>
    prepared.improves_value shown.ground bounded leads done

/-- The tree of a term is written out as the text of the term. -/
theorem prints_tree (prepared : Prepared program home base) {term : Term String} {name : String}
    {operands : List (Term String)}
    (refines : program.Refines home base term (.call name operands)) :
    program.Prints home base term (Phrase.tree (.operator name :: Term.phrases operands)) := by
  intro state source reaches written
  rw [Phrase.tree, Phrase.nodes, Phrase.node, Term.nodes_phrases] at written
  obtain ⟨items, flat, rfl⟩ := flatten_call_ok written
  obtain ⟨rfl, _⟩ := flattenAll_nodes operands
    (fun text read other rendered => by
      have integer := refines.shown.ground.integers text (List.mem_append_left _ read)
      exact Except.ok.inj (rendered.symm.trans (prepared.render_integer reaches integer))) flat
  rw [Term.mapAll_self]
  exact ⟨_, rfl, refines⟩

/-- What a step on an operand gives is written out as a term that may replace it. -/
theorem prints_reread (prepared : Prepared program home base) {term : Term String}
    (shown : program.Shown term) (noTruth : ¬ program.GivesTruth term) {value : Value}
    {form : Form} (gives : program.Gives home base term value)
    (read : reread value = .ok form) : program.Prints home base term form := by
  cases gives with
  | @text better refines =>
      cases better with
      | call name operands =>
          obtain rfl := Except.ok.inj ((reread_call refines.shown.legible).symm.trans read)
          exact prepared.prints_tree refines
      | leaf text =>
          have integer := refines.shown.ground.integers text (List.mem_singleton.mpr rfl)
          obtain ⟨n, rfl, spells⟩ := reread_leaf refines.shown.legible.leaf integer read
          have stays : program.Leads home base base := .refl _
          have ran := prepared.eval_integer_leaf spells ⟨0, 0, 0, 0, false⟩ stays
          exact prepared.prints_int fun bounded => improves_trans refines.improves
            (prepared.improves_value refines.shown.ground bounded stays ran)
  | value leads done =>
      obtain ⟨n, rfl⟩ := prepared.value_integer shown noTruth leads done
      obtain rfl := reread_int read
      exact prepared.prints_value shown noTruth leads done 0

/-- Operands that are written out as terms make a call that may replace the call. -/
theorem refines_call (prepared : Prepared program home base) {name : String}
    {operands others : List (Term String)} (shown : program.Shown (.call name operands))
    (refines : List.Forall₂ (program.Refines home base) operands others) :
    program.Refines home base (.call name operands) (.call name others) := by
  have parts := (List.forall₂_and_left operands others).mpr
    ⟨fun operand member => shown.operand member, refines⟩
  have replaced : ∀ other ∈ others, program.Shown other ∧ ¬ program.GivesTruth other := by
    have flipped : List.Forall₂ (fun other operand =>
        (program.Shown other ∧ ¬ program.GivesTruth other) ∧ True) others operands :=
      List.Forall₂.flip (parts.imp fun operand other both =>
        ⟨⟨both.2.shown, fun truth => both.1.2 (both.2.truth truth)⟩, trivial⟩)
    exact ((List.forall₂_and_left others operands).mp flipped).1
  -- what the new call does, its operands do, apart from the call itself
  have calls : ∀ action ∈ (Term.call name others).actions,
      (∃ other ∈ others, action ∈ other.actions) ∨ action = .call name := by
    intro action member
    rcases List.mem_append.mp member with inside | last
    · exact .inl (Term.mem_actionsOfAll.mp inside)
    · exact .inr (List.mem_singleton.mp last)
  obtain ⟨_⟩ | ⟨enough, _, _⟩ := shown.sound
  refine ⟨⟨⟨?_, ?_⟩, ?_, ?_⟩, ?_, ?_⟩
  · intro define
    rcases calls _ define with ⟨other, member, inside⟩ | last
    · exact (replaced other member).1.ground.plain inside
    · cases last
      exact shown.ground.notDefine rfl
  · intro text read
    rcases calls _ read with ⟨other, member, inside⟩ | last
    · exact (replaced other member).1.ground.integers text inside
    · cases last
  · exact .call (fun procedure means => refines.length_eq ▸ enough procedure means)
      (fun other member => (replaced other member).1.sound)
      (fun other member => (replaced other member).2)
  · intro action member
    rcases calls action member with ⟨other, inside, does⟩ | rfl
    · exact (replaced other inside).1.legible action does
    · exact shown.legible _ (List.mem_append_right _ (List.mem_singleton.mpr rfl))
  · exact prepared.improves_call shown.ground.notDefine (parts.imp fun operand other both =>
      ⟨both.1.1.ground, both.2.shown.ground, both.2.improves⟩)
  · rintro ⟨inner, last, truthValued⟩
    exact ⟨inner, last, truthValued⟩

theorem literalOrNumber_integer (prepared : Prepared program home base) {limit : Nat}
    {text : String} (integer : IsInteger text) {depth : Int} {state after : State} {value : Value}
    (leads : program.Leads home base state)
    (done : literalOrNumber limit home (.text text) depth state = .ok value after) :
    after = state ∧ ∃ n, value = .int n ∧ Spells text n := by
  obtain ⟨number, middle, ran, rest⟩ := Eval.of_bind_ok done
  obtain ⟨rfl, found, rfl, read⟩ := eval_leaf_ok ran
  obtain ⟨n, rfl, spells⟩ := prepared.traceable.read_spells (prepared.shows .numeric) leads integer
    read
  cases rest
  exact ⟨rfl, n, rfl, spells⟩

theorem actuals_integers (prepared : Prepared program home base) {limit : Nat}
    {texts : List String} (integers : ∀ text ∈ texts, IsInteger text) {depth : Int}
    {state after : State} {arguments : List Value} (leads : program.Leads home base state)
    (done : actuals limit home (texts.map fun text => (.text text, depth)) state =
      .ok arguments after) :
    after = state ∧ ∃ numbers : List Int, arguments = numbers.map .int ∧
      List.Forall₂ Spells texts numbers := by
  induction texts generalizing arguments with
  | nil =>
      cases done
      exact ⟨rfl, [], rfl, .nil⟩
  | cons text texts ih =>
      rw [List.map_cons, actuals] at done
      obtain ⟨actual, middle, first, more⟩ := Eval.of_bind_ok done
      obtain ⟨rfl, n, rfl, spells⟩ :=
        prepared.literalOrNumber_integer (integers text List.mem_cons_self) leads first
      obtain ⟨others, last, rest, finished⟩ := Eval.of_bind_ok more
      cases finished
      obtain ⟨rfl, numbers, rfl, spell⟩ := ih
        (fun text member => integers text (List.mem_cons_of_mem _ member)) rest
      exact ⟨rfl, n :: numbers, rfl, .cons spells spell⟩

/-- How the leaves of a result are written out after its call bound both tables. -/
theorem render_result (prepared : Prepared program home base) {procedure : Procedure}
    (has : program.Has procedure) {numbers : List Int}
    (enough : procedure.formals.length ≤ numbers.length) {state bound after : State}
    (binds : Table.Binds procedure.formals (numbers.map .int) (state.table home .symbolic)
      (bound.table home .symbolic))
    (same : after.table home .symbolic = bound.table home .symbolic)
    (reaches : program.Reaches home base after) {name text : String}
    (reads : .read name ∈ procedure.actions)
    (rendered : renderLiteral (after.table home .symbolic) (.text name) = .ok text) :
    text = substitution procedure.formals numbers name ∧
      ∀ n, supplied name procedure.formals (numbers.map .int) = some (.int n) →
        n.natAbs < integerBound := by
  rw [substitution]
  cases given : supplied name procedure.formals (numbers.map .int) with
  | some value =>
      obtain ⟨n, rfl⟩ := supplied_integer enough given
      have held : (after.table home .symbolic).resolve (.text name) = some (.int n) := by
        rw [same, binds.resolve, given]
        rfl
      rw [renderLiteral_of_int held] at rendered
      obtain ⟨bounded, rfl⟩ := integerText_ok rendered
      refine ⟨rfl, fun m found => ?_⟩
      cases found
      exact bounded
  | none =>
      have integer := (prepared.traceable.reads procedure has name reads).resolve_left
        (supplied_eq_none_iff.mp given)
      have itself := Except.ok.inj (rendered.symm.trans (prepared.render_integer reaches integer))
      exact ⟨itself, fun m found => by cases found⟩

theorem legible_result (prepared : Prepared program home base) {procedure : Procedure}
    (has : program.Has procedure) {numbers : List Int}
    (enough : procedure.formals.length ≤ numbers.length) {clause : Guard × Term String}
    (inside : clause ∈ procedure.clauses)
    (writable : clause.2.Writable procedure.formals numbers) :
    (clause.2.map (substitution procedure.formals numbers)).Legible := by
  intro action member
  cases action with
  | call name =>
      exact prepared.legible procedure has (.call name)
        (Procedure.result_mem_actions inside ((Term.call_mem_actions_map _ _ clause.2).mp member))
  | read text =>
      obtain ⟨name, reads, rfl⟩ := (Term.read_mem_actions_map _ _ clause.2).mp member
      rw [Action.word, substitution]
      cases given : supplied name procedure.formals (numbers.map .int) with
      | some value =>
          obtain ⟨n, rfl⟩ := supplied_integer enough given
          exact isRun_integerDigits (writable name reads n given)
      | none =>
          exact prepared.legible procedure has (.read name)
            (Procedure.result_mem_actions inside reads)

/-- The symbolic reading of a call gives the text of a term that may replace it. -/
theorem gives_symbolic (prepared : Prepared program home base) {procedure : Procedure}
    (has : program.Has procedure) {texts : List String} {numbers : List Int}
    (spell : List.Forall₂ Spells texts numbers)
    (shown : program.Shown (.call procedure.name (texts.map .leaf))) {limit serial : Nat}
    {state after : State} {value : Value} (reaches : program.Reaches home base state)
    (done : expandSymbolic limit home (.procedure .symbolic (procedure.compiled home serial))
      (numbers.map .int) state = .ok value after) :
    program.Gives home base (.call procedure.name (texts.map .leaf)) value ∧
      program.Reaches home base after := by
  have current : ∀ state : State, state.clauses (procedure.compiled home serial) =
      (procedure.compiled home serial).clauses := fun _ => upToDate_clauseNodes ..
  obtain ⟨bound, result, source, binds, _, selected, flat, rfl⟩ :=
    expandSymbolic_ok rfl rfl current done
  have enough : procedure.formals.length ≤ numbers.length := by
    obtain ⟨_⟩ | ⟨enough, _, _⟩ := shown.sound
    have few := enough procedure has
    rwa [List.length_map, spell.length_eq] at few
  have inBound := reaches.bind has binds
  obtain ⟨earlier, chosen, later, split, rfl, changes⟩ := selectClause_changes
    (prepared.framed limit limit) (fun _ _ _ _ ran => ran)
    (prepared.traceable.plain.guards has) (prepared.governs inBound.leads) selected
  have inAfter := inBound.after changes
  have inside : chosen ∈ procedure.clauses := by simp [split]
  -- the result is written out from the symbolic table, which the guards left alone
  have rendering : ∀ name, .read name ∈ chosen.2.actions → ∀ text,
      renderLiteral (after.table home .symbolic) (.text name) = .ok text → _ :=
    fun name reads text rendered => prepared.render_result has enough (binds .symbolic)
      changes.symbolic inAfter (Procedure.result_mem_actions inside reads) rendered
  obtain ⟨rfl, rendered⟩ := flatten_node chosen.2
    (fun name reads text shows => (rendering name reads text shows).1) flat
  have writable : chosen.2.Writable procedure.formals numbers :=
    fun name reads => (rendering name reads _ (rendered name reads)).2
  refine ⟨.text ⟨⟨prepared.ground_result has enough inside writable,
    (prepared.traceable.sound procedure has chosen inside).map _,
    prepared.legible_result has enough inside writable⟩, ?_, ?_⟩, inAfter⟩
  · exact prepared.improves_result has shown.ground.notDefine spell enough reaches.leads
      (binds .numeric) selected writable
  · rintro ⟨inner, last, truthValued⟩
    rw [Term.head?_map] at last
    exact ⟨procedure.name, rfl, .procedure has inside last truthValued⟩

theorem gives_literals (prepared : Prepared program home base) {name : String}
    {texts : List String} {numbers : List Int} (spell : List.Forall₂ Spells texts numbers)
    (shown : program.Shown (.call name (texts.map .leaf))) {limit : Nat} {head : Option Form}
    {state after : State} {value : Value} (reaches : program.Reaches home base state)
    (done : expandCall limit home (.text name) head (numbers.map .int) state = .ok value after) :
    program.Gives home base (.call name (texts.map .leaf)) value ∧
      program.Reaches home base after := by
  rcases expandCall_ok done with ⟨procedure, bound, isProcedure, ran⟩ |
    ⟨procedure, bound, isProcedure, ran⟩
  · have stands := (prepared.shows .symbolic).stands name
    rw [(reaches .symbolic).procedure bound isProcedure] at stands
    generalize means : program.meaning name = callee at stands
    obtain ⟨_⟩ | ⟨_⟩ | ⟨_⟩ | ⟨_, definition, serial⟩ := stands
    obtain ⟨rfl, has⟩ := Program.has_of_meaning means
    exact prepared.gives_symbolic has spell shown reaches ran
  · have arguments := prepared.evalAll_leaves spell
      (⟨limit, limit, 0, 0, false⟩ : Setting).operands reaches.leads
    have done : (⟨limit, limit, 0, 0, false⟩ : Setting).eval home
        (.call name (texts.map .leaf)) state = .ok value after := by
      rw [Setting.eval, Term.map, Term.node, eval_call shown.ground.notDefine bound isProcedure]
      exact (Eval.bind_ok arguments).trans ran
    obtain ⟨_, changes⟩ := prepared.changes shown.ground.plain reaches.leads done
    exact ⟨.value reaches.leads done, reaches.after changes⟩

theorem prints_argument (prepared : Prepared program home base) {limit depth : Nat}
    {operand : Term String} (shown : program.Shown operand)
    (noTruth : ¬ program.GivesTruth operand)
    (steps : program.Steps home base limit depth operand)
    {state after : State} {reduced : Form} (reaches : program.Reaches home base state)
    (done : reduceArgument limit home none (expand limit home ((operand.map .text).node depth))
      ((operand.map .text).node depth) state = ((reduced, none), after)) :
    program.Prints home base operand reduced ∧ program.Reaches home base after := by
  cases operand with
  | leaf text =>
      cases done
      refine ⟨fun state source reached written => ⟨.leaf text, ?_, prepared.refines_refl shown⟩,
        reaches⟩
      have integer := shown.ground.integers text (List.mem_singleton.mpr rfl)
      exact Except.ok.inj (written.symm.trans (prepared.render_integer reached integer))
  | call name operands =>
      rcases reduceArgument_expression done with ⟨node, value, ran, read⟩ | ⟨value, ran, rfl⟩
      · obtain ⟨gives, reached⟩ := steps _ _ _ _ reaches ran
        exact ⟨prepared.prints_reread shown noTruth gives read, reached⟩
      · have evaluated : (⟨limit, limit, 0, depth, false⟩ : Setting).eval home
            (.call name operands) state = .ok value after := ran
        obtain ⟨_, changes⟩ := prepared.changes shown.ground.plain reaches.leads evaluated
        exact ⟨prepared.prints_value shown noTruth reaches.leads evaluated _,
          reaches.after changes⟩

theorem prints_arguments (prepared : Prepared program home base) {limit depth : Nat}
    {operands : List (Term String)}
    (shown : ∀ operand ∈ operands, program.Shown operand ∧ ¬ program.GivesTruth operand)
    (steps : ∀ operand ∈ operands, program.Steps home base limit depth operand)
    {before children : List Form} {state after : State}
    (reaches : program.Reaches home base state)
    (done : reduceArguments limit home none before
      (Term.nodes depth (Term.mapAll .text operands)) state = ((children, none), after)) :
    ∃ reduced, children = before ++ reduced ∧
      List.Forall₂ (program.Prints home base) operands reduced ∧
      program.Reaches home base after := by
  induction operands generalizing before state with
  | nil =>
      cases done
      exact ⟨[], (List.append_nil _).symm, .nil, reaches⟩
  | cons operand rest ih =>
      obtain ⟨form, middle, first, more⟩ := reduceArguments_cons done
      obtain ⟨isShown, noTruth⟩ := shown operand List.mem_cons_self
      obtain ⟨prints, reached⟩ := prepared.prints_argument isShown noTruth
        (steps operand List.mem_cons_self) reaches first
      obtain ⟨reduced, rfl, printsRest, last⟩ := ih
        (fun operand member => shown operand (List.mem_cons_of_mem _ member))
        (fun operand member => steps operand (List.mem_cons_of_mem _ member)) reached more
      exact ⟨form :: reduced, by simp, .cons prints printsRest, last⟩

theorem refines_printed {operands : List (Term String)} {reduced : List Form}
    (prints : List.Forall₂ (program.Prints home base) operands reduced) {state : State}
    (reaches : program.Reaches home base state) {items : List String}
    (flat : flattenAll (state.table home .symbolic) reduced = .ok items) :
    ∃ others, items = Phrase.texts (Term.phrases others) ∧
      List.Forall₂ (program.Refines home base) operands others := by
  induction prints generalizing items with
  | nil =>
      cases flat
      exact ⟨[], rfl, .nil⟩
  | cons first _ ih =>
      obtain ⟨item, more, written, rest, rfl⟩ := flattenAll_cons_ok flat
      obtain ⟨better, rfl, refines⟩ := first state item reaches written
      obtain ⟨others, rfl, all⟩ := ih rest
      exact ⟨better :: others, rfl, .cons refines all⟩

/-- A step on a call, if steps on its operands do as they should. -/
theorem expand_call_gives (prepared : Prepared program home base) {limit depth : Nat}
    {name : String} {operands : List (Term String)}
    (shown : program.Shown (.call name operands))
    (steps : ∀ operand ∈ operands, program.Steps home base limit depth operand)
    {place : Int} {frame : Frame} (free : frame.anchor = none) {state after : State} {node : Form}
    {value : Value} (reaches : program.Reaches home base state)
    (done : expand limit home (.expression
      (.operator name place :: Term.nodes depth (Term.mapAll .text operands)) frame) state =
        (⟨node, .ok value⟩, after)) :
    program.Gives home base (.call name operands) value ∧ program.Reaches home base after := by
  cases literal : literalArguments? (Term.nodes depth (Term.mapAll .text operands)) with
  | some literals =>
      obtain ⟨texts, rfl, rfl⟩ := literalArguments?_nodes literal
      obtain ⟨arguments, middle, given, called⟩ := Eval.of_bind_ok (expand_literals literal done)
      have integers : ∀ text ∈ texts, IsInteger text := fun text member =>
        (shown.operand (List.mem_map_of_mem member)).1.ground.integers text
          (List.mem_singleton.mpr rfl)
      obtain ⟨rfl, numbers, rfl, spell⟩ := prepared.actuals_integers integers reaches.leads given
      exact prepared.gives_literals spell shown reaches called
  | none =>
      obtain ⟨children, middle, reduced, flat⟩ := expand_operands literal done
      rw [free] at reduced
      obtain ⟨forms, rfl, prints, reached⟩ := prepared.prints_arguments
        (fun operand member => shown.operand member) steps reaches reduced
      obtain ⟨rfl, source, written, rfl⟩ := flattenNow_ok flat
      obtain ⟨items, all, rfl⟩ := flatten_call_ok written
      obtain ⟨others, rfl, refines⟩ := refines_printed prints reached all
      exact ⟨.text (prepared.refines_call shown refines), reached⟩

theorem expand_gives (prepared : Prepared program home base) {limit : Nat} (term : Term String)
    (shown : program.Shown term) (depth : Nat) :
    program.Steps home base limit depth term := by
  induction term generalizing depth with
  | leaf text =>
      intro state after node value reaches done
      have integer := shown.ground.integers text (List.mem_singleton.mpr rfl)
      rcases tried : attempt (literalOrNumber limit home (.text text) depth) state with
        ⟨result, last⟩
      rw [Term.map, Term.node, expand, stateM_bind tried] at done
      cases done
      obtain ⟨rfl, n, rfl, spells⟩ := prepared.literalOrNumber_integer integer reaches.leads
        (of_attempt_ok tried)
      have ran := prepared.eval_integer_leaf spells ⟨0, 0, 0, 0, false⟩ reaches.leads
      exact ⟨.value reaches.leads ran, reaches⟩
  | call name operands ih =>
      intro state after node value reaches done
      exact prepared.expand_call_gives shown
        (fun operand member => ih operand member (shown.operand member).1 (depth + 1)) rfl reaches
        done

theorem expand_tree_gives (prepared : Prepared program home base) {limit : Nat} {name : String}
    {operands : List (Term String)} (shown : program.Shown (.call name operands))
    {state after : State} {node : Form} {value : Value} (reaches : program.Reaches home base state)
    (done : expand limit home (Phrase.tree (.operator name :: Term.phrases operands)) state =
      (⟨node, .ok value⟩, after)) :
    program.Gives home base (.call name operands) value ∧ program.Reaches home base after := by
  rw [Phrase.tree, Phrase.nodes, Phrase.node, Term.nodes_phrases] at done
  exact prepared.expand_call_gives shown
    (fun operand member => prepared.expand_gives operand (shown.operand member).1 1) rfl reaches
    done

end Prepared

end Stepper
