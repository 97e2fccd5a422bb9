import Stepper.Proofs.Integers
import Stepper.Proofs.Transfer

/-!
Steps of the substitution model, as terms: a term may be replaced by another
that gives the same value whenever it gives one. A call on integers may be
replaced by the result that its guards select, with its formals replaced by the
integers, and any term by its value.
-/

namespace Stepper

/-- How a term is evaluated: the room for calls, the level and the place. -/
structure Setting where
  limit : Nat
  room : Nat
  level : Nat
  depth : Nat
  both : Bool

namespace Setting

def eval (setting : Setting) (home : Nat) (term : Term String) : Eval Value :=
  ((term.map .text).node setting.depth).eval (callWithin setting.limit setting.room) home
    setting.both setting.level

def evalAll (setting : Setting) (home : Nat) (operands : List (Term String)) :
    Eval (List Value) :=
  Stepper.evalAll (callWithin setting.limit setting.room) home setting.both setting.level
    (Term.nodes setting.depth (Term.mapAll .text operands))

/-- How the operands of a term are evaluated. -/
def operands (setting : Setting) : Setting :=
  { setting with level := setting.level + 2, depth := setting.depth + 1 }

/-- Whether the other setting leaves as much room for calls or more. -/
def AtMost (setting other : Setting) : Prop :=
  setting.room + other.level ≤ other.room + setting.level

theorem AtMost.operands {setting other : Setting} (atMost : setting.AtMost other) :
    setting.operands.AtMost other.operands := by
  simp only [AtMost, Setting.operands] at atMost ⊢
  omega

end Setting

/-- Terms over integers that hold no definition. -/
structure Term.Ground (term : Term String) : Prop where
  plain : .call "define" ∉ term.actions
  integers : ∀ text, .read text ∈ term.actions → IsInteger text

theorem Term.Ground.operand {name : String} {operands : List (Term String)}
    (ground : (Term.call name operands).Ground) {operand : Term String}
    (member : operand ∈ operands) : operand.Ground := by
  have part : ∀ action, action ∈ operand.actions → action ∈ (Term.call name operands).actions :=
    fun action inside =>
      List.mem_append_left _ (Term.mem_actionsOfAll.mpr ⟨operand, member, inside⟩)
  exact ⟨fun calls => ground.plain (part _ calls),
    fun text read => ground.integers text (part _ read)⟩

theorem Term.Ground.notDefine {name : String} {operands : List (Term String)}
    (ground : (Term.call name operands).Ground) : name ≠ "define" := by
  rintro rfl
  exact ground.plain (List.mem_append_right _ (List.mem_singleton.mpr rfl))

/-- What stands for a name in a call: the integer that the call gives it, if it is
a formal. -/
def substitution (formals : List String) (numbers : List Int) (name : String) : String :=
  match supplied name formals (numbers.map .int) with
  | some (.int n) => integerDigits n
  | _ => name

/-- Whether the integers that a term reads through formals can be written out. -/
def Term.Writable (term : Term String) (formals : List String) (numbers : List Int) : Prop :=
  ∀ name, .read name ∈ term.actions → ∀ n,
    supplied name formals (numbers.map .int) = some (.int n) → n.natAbs < integerBound

/-- A state after the definitions of a traceable program. -/
structure Prepared (program : Program) (home : Nat) (base : State) : Prop where
  traceable : program.Traceable
  shows : ∀ reading, (base.table home reading).Shows program home reading
  legible : ∀ procedure, program.Has procedure → ∀ action ∈ procedure.actions,
    Token.IsRun action.word

theorem Program.Traceable.selfContained {program : Program} (traceable : program.Traceable) :
    program.SelfContained where
  plain := traceable.plain
  reads procedure has name read :=
    (traceable.reads procedure has name read).imp_right fun integer =>
      (traceable.integer_free integer).2
  words := traceable.words

namespace Program

theorem Covers.trans {program : Program} {home : Nat} {trusted : String → Prop}
    {rich middle poor : State} (first : program.Covers home trusted rich middle)
    (second : program.Covers home trusted middle poor) : program.Covers home trusted rich poor where
  procedures name value bound isProcedure :=
    first.procedures name value (second.procedures name value bound isProcedure) isProcedure
  agrees name known := (first.agrees name known).trans (second.agrees name known)

theorem Leads.covers {program : Program} {home : Nat} {base state : State}
    (leads : program.Leads home base state) :
    program.Covers home (fun _ => False) base state :=
  (Covers.refl base).after leads

/-- Whether a term may be replaced by another: the other gives the same value in
all states that are at least as rich, with as much room or more. -/
def Improves (program : Program) (home : Nat) (base : State) (term better : Term String) : Prop :=
  ∀ (setting other : Setting) (poorer richer after : State) (value : Value),
    setting.AtMost other → program.Leads home base poorer → program.Leads home base richer →
    program.Covers home (fun _ => False) richer poorer →
    setting.eval home term poorer = .ok value after →
    ∃ after', other.eval home better richer = .ok value after' ∧
      program.Covers home (fun _ => False) after' after

end Program

namespace Prepared

variable {program : Program} {home : Nat} {base : State}

theorem framed (prepared : Prepared program home base) (limit room : Nat) :
    Framed program home (callWithin limit room) :=
  callWithin_framed prepared.traceable.plain limit room

theorem governs (prepared : Prepared program home base) {state : State}
    (leads : program.Leads home base state) : program.Governs home state :=
  (prepared.shows .numeric).governs.drift leads

theorem carries (prepared : Prepared program home base) {setting other : Setting}
    (atMost : setting.AtMost other) (more : Nat) :
    Carries program home (callWithin setting.limit setting.room (setting.level + more))
      (callWithin other.limit other.room (other.level + more)) := by
  refine callWithin_carries prepared.traceable.selfContained home _ _ ?_
  simp only [Setting.AtMost] at atMost
  omega

theorem changes (prepared : Prepared program home base) {setting : Setting} {term : Term String}
    {state after : State} {value : Value} (plain : .call "define" ∉ term.actions)
    (leads : program.Leads home base state)
    (done : setting.eval home term state = .ok value after) :
    value.IsNumber ∧ Changes home (program.Touches term.actions) state after :=
  eval_text_changes (prepared.framed _ _) term plain (prepared.governs leads) done

theorem improves_refl (prepared : Prepared program home base) {term : Term String}
    (ground : term.Ground) : program.Improves home base term term := by
  intro setting other poorer richer after value atMost leads _ covers done
  exact eval_carries (prepared.framed _ _) (prepared.carries atMost) term setting.depth other.depth
    ground.plain
    (fun name read => .inr (prepared.traceable.integer_free (ground.integers name read)).2)
    (prepared.governs leads) covers done

theorem eval_unique (prepared : Prepared program home base) {term : Term String}
    (ground : term.Ground) {setting other : Setting} {state state' after after' : State}
    {value value' : Value} (leads : program.Leads home base state)
    (leads' : program.Leads home base state')
    (done : setting.eval home term state = .ok value after)
    (done' : other.eval home term state' = .ok value' after') : value = value' := by
  -- both runs are repeated before any call, with room for either
  let common : Setting := ⟨0, setting.room + other.room, 0, 0, false⟩
  have first : setting.AtMost common := by
    simp only [Setting.AtMost, common]
    omega
  have second : other.AtMost common := by
    simp only [Setting.AtMost, common]
    omega
  obtain ⟨_, ran, _⟩ := prepared.improves_refl ground setting common state base after value first
    leads (.refl _) leads.covers done
  obtain ⟨_, ran', _⟩ := prepared.improves_refl ground other common state' base after' value' second
    leads' (.refl _) leads'.covers done'
  rw [ran] at ran'
  exact (EStateM.Result.ok.inj ran').1

theorem eval_integer_leaf (prepared : Prepared program home base) {text : String} {n : Int}
    (spells : Spells text n) (setting : Setting) {state : State}
    (leads : program.Leads home base state) :
    setting.eval home (.leaf text) state = .ok (.int n) state := by
  rw [Setting.eval, Term.map, Term.node, eval_leaf,
    leads.read_free (prepared.shows .numeric) (prepared.traceable.integer_free spells.integer),
    spells.number]
  rfl

/-- A term may be replaced by the digits of its value. -/
theorem improves_value (prepared : Prepared program home base) {term : Term String}
    (ground : term.Ground) {setting : Setting} {state after : State} {n : Int}
    (bounded : n.natAbs < integerBound) (leads : program.Leads home base state)
    (done : setting.eval home term state = .ok (.int n) after) :
    program.Improves home base term (.leaf (integerDigits n)) := by
  intro other another poorer richer later value _ leads' richLeads covers ran
  obtain rfl := prepared.eval_unique ground leads' leads ran done
  obtain ⟨_, changes⟩ := prepared.changes ground.plain leads' ran
  exact ⟨richer, prepared.eval_integer_leaf (spells_integerDigits bounded) another richLeads,
    covers.after (changes.numeric.mono Program.touches_isFormal)⟩

theorem improves_trans {term middle better : Term String}
    (first : program.Improves home base term middle)
    (second : program.Improves home base middle better) :
    program.Improves home base term better := by
  intro setting other poorer richer after value atMost leads richLeads covers done
  obtain ⟨after', ran, coversAfter⟩ := first setting setting poorer poorer after value
    (Nat.le_refl _) leads leads (.refl _) done
  obtain ⟨last, ran', coversLast⟩ := second setting other poorer richer after' value atMost leads
    richLeads covers ran
  exact ⟨last, ran', coversLast.trans coversAfter⟩

theorem evalAll_improves (prepared : Prepared program home base)
    {operands others : List (Term String)}
    (improves : List.Forall₂ (fun operand other => operand.Ground ∧ other.Ground ∧
      program.Improves home base operand other) operands others)
    {setting other : Setting} (atMost : setting.AtMost other) {poorer richer after : State}
    {values : List Value} (leads : program.Leads home base poorer)
    (richLeads : program.Leads home base richer)
    (covers : program.Covers home (fun _ => False) richer poorer)
    (done : setting.evalAll home operands poorer = .ok values after) :
    ∃ after', other.evalAll home others richer = .ok values after' ∧
      (∀ value ∈ values, value.IsNumber) ∧ program.Leads home base after ∧
      program.Covers home (fun _ => False) after' after := by
  induction improves generalizing poorer richer values with
  | nil =>
      cases done
      exact ⟨richer, rfl, fun _ member => absurd member List.not_mem_nil, leads, covers⟩
  | @cons operand replacement rest replacements both _ ih =>
      obtain ⟨ground, groundOther, better⟩ := both
      rw [Setting.evalAll, Term.mapAll, Term.nodes] at done
      obtain ⟨value, middle, others, ran, more, rfl⟩ := evalAll_cons_ok done
      obtain ⟨middle', ran', coversMiddle⟩ := better setting other poorer richer middle value
        atMost leads richLeads covers ran
      obtain ⟨isNumber, changes⟩ := prepared.changes ground.plain leads ran
      obtain ⟨_, changes'⟩ := prepared.changes groundOther.plain richLeads ran'
      obtain ⟨after', more', numbers, leadsAfter, coversAfter⟩ := ih (leads.after changes)
        (richLeads.after changes') coversMiddle more
      refine ⟨after', ?_, List.forall_mem_cons.mpr ⟨isNumber, numbers⟩, leadsAfter, coversAfter⟩
      rw [Setting.evalAll, Term.mapAll, Term.nodes, evalAll_cons]
      exact (Eval.bind_ok ran').trans (Eval.bind_ok more')

/-- The operands of a call may be replaced. -/
theorem improves_call (prepared : Prepared program home base) {name : String}
    {operands others : List (Term String)} (notDefine : name ≠ "define")
    (improves : List.Forall₂ (fun operand other => operand.Ground ∧ other.Ground ∧
      program.Improves home base operand other) operands others) :
    program.Improves home base (.call name operands) (.call name others) := by
  intro setting other poorer richer after value atMost leads richLeads covers done
  obtain ⟨procedure, arguments, middle, bound, isProcedure, ran, applied⟩ :=
    eval_call_ok notDefine done
  obtain ⟨middle', ran', numbers, leadsMiddle, coversMiddle⟩ := prepared.evalAll_improves improves
    atMost.operands leads richLeads covers ran
  have stands := prepared.governs leads name procedure bound isProcedure
  obtain ⟨after', applied', coversAfter⟩ := apply_carries (prepared.carries atMost 0) stands
    (prepared.governs leadsMiddle) coversMiddle numbers applied
  have found := covers.procedures name procedure bound isProcedure
  refine ⟨after', ?_, coversAfter⟩
  rw [Setting.eval, Term.map, Term.node, eval_call notDefine found isProcedure]
  exact (Eval.bind_ok ran').trans applied'

theorem evalAll_leaves (prepared : Prepared program home base) {texts : List String}
    {numbers : List Int} (spell : List.Forall₂ Spells texts numbers)
    (setting : Setting) {state : State} (leads : program.Leads home base state) :
    setting.evalAll home (texts.map .leaf) state = .ok (numbers.map .int) state := by
  induction spell with
  | nil => rfl
  | @cons text n texts numbers first _ ih =>
      rw [Setting.evalAll, List.map_cons, Term.mapAll, Term.nodes, evalAll_cons]
      exact (Eval.bind_ok (prepared.eval_integer_leaf first setting leads)).trans
        (Eval.bind_ok ih)

/-- What guards select is selected before any call, too. -/
theorem selectClause_base (prepared : Prepared program home base) {procedure : Procedure}
    (has : program.Has procedure) {numbers : List Int} {state bound middle common : State}
    {result : Form} (leads : program.Leads home base state)
    (binds : Table.Binds procedure.formals (numbers.map .int) (state.table home .numeric)
      (bound.table home .numeric))
    (commonBinds : Table.Binds procedure.formals (numbers.map .int) (base.table home .numeric)
      (common.table home .numeric))
    {limit room level large : Nat} {eval : Form → Eval Value} (enough : room ≤ large)
    (runs : ∀ node state value after, eval node state = .ok value after →
      Node.eval (callWithin limit room) home false level node state = .ok value after)
    (selected : selectClause eval procedure.name (Procedure.clauseNodes procedure.clauses) bound =
      .ok result middle) :
    ∃ after, selectClause (Node.eval (callWithin 0 large) home false 0) procedure.name
      (Procedure.clauseNodes procedure.clauses) common = .ok result after := by
  have atMost : (⟨limit, room, level, 3, false⟩ : Setting).AtMost ⟨0, large, 0, 3, false⟩ := by
    simp only [Setting.AtMost]
    omega
  obtain ⟨after, ran, _⟩ := selectClause_carries (prepared.framed limit room)
    (prepared.carries atMost) runs (fun _ _ _ _ _ _ _ ran => ran)
    (prepared.traceable.plain.guards has)
    (fun clause inside name looks =>
      (prepared.traceable.selfContained.guards has inside looks).imp_left .inr)
    (prepared.governs (leads.bind has binds)) (leads.covers.bind commonBinds binds) selected
  exact ⟨after, ran⟩

/-- Guards select the same clause wherever the formals are bound to the same
integers. -/
theorem selectClause_unique (prepared : Prepared program home base) {procedure : Procedure}
    (has : program.Has procedure) {numbers : List Int}
    {state bound middle state' bound' middle' : State} {result result' : Form}
    (leads : program.Leads home base state) (leads' : program.Leads home base state')
    (binds : Table.Binds procedure.formals (numbers.map .int) (state.table home .numeric)
      (bound.table home .numeric))
    (binds' : Table.Binds procedure.formals (numbers.map .int) (state'.table home .numeric)
      (bound'.table home .numeric))
    {limit room level limit' room' level' : Nat} {eval eval' : Form → Eval Value}
    (runs : ∀ node state value after, eval node state = .ok value after →
      Node.eval (callWithin limit room) home false level node state = .ok value after)
    (runs' : ∀ node state value after, eval' node state = .ok value after →
      Node.eval (callWithin limit' room') home false level' node state = .ok value after)
    (selected : selectClause eval procedure.name (Procedure.clauseNodes procedure.clauses) bound =
      .ok result middle)
    (selected' : selectClause eval' procedure.name (Procedure.clauseNodes procedure.clauses)
      bound' = .ok result' middle') : result = result' := by
  have alone : [Reading.numeric].Nodup := by decide
  obtain ⟨common, _, tables⟩ := bindFormals_run home alone procedure.formals (numbers.map .int) base
  have commonBinds : Table.Binds procedure.formals (numbers.map .int)
      (base.table home .numeric) (common.table home .numeric) := by simpa using tables .numeric
  obtain ⟨_, ran⟩ := prepared.selectClause_base has leads binds commonBinds
    (Nat.le_add_right room room') runs selected
  obtain ⟨_, ran'⟩ := prepared.selectClause_base has leads' binds' commonBinds
    (Nat.le_add_left room' room) runs' selected'
  rw [ran] at ran'
  exact (EStateM.Result.ok.inj ran').1

/-- Where the formals of a call hold its arguments, the result of its clause may
be read with the arguments in their place. -/
theorem replaces_formal (prepared : Prepared program home base) {procedure : Procedure}
    (has : program.Has procedure) {numbers : List Int}
    (enough : procedure.formals.length ≤ numbers.length) {state bound middle : State}
    {earlier later : List (Guard × Term String)} {chosen : Guard × Term String}
    (split : procedure.clauses = earlier ++ chosen :: later)
    (leads : program.Leads home base state)
    (binds : Table.Binds procedure.formals (numbers.map .int) (state.table home .numeric)
      (bound.table home .numeric))
    (changes : Changes home
      (program.Touches (Procedure.guardActions (earlier ++ [chosen]))) bound middle)
    {name : String} (reads : .read name ∈ chosen.2.actions)
    (writable : chosen.2.Writable procedure.formals numbers) :
    Replaces program home middle name
      (.text (substitution procedure.formals numbers name)) := by
  intro last more same
  have inLast : program.Leads home base last :=
    ((leads.bind has binds).after changes).trans more.numeric
  rw [substitution]
  rcases prepared.traceable.binding_result has split binds changes reads with
    ⟨value, given, bound⟩ | ⟨missing, _⟩
  · obtain ⟨n, rfl⟩ := supplied_integer enough given
    have spells := spells_integerDigits (writable name reads n given)
    simp only [given]
    rw [inLast.read_free (prepared.shows .numeric) (prepared.traceable.integer_free spells.integer),
      spells.number, State.read, ← State.binding, same, bound]
    rfl
  · simp only [missing]

theorem ground_result (prepared : Prepared program home base) {procedure : Procedure}
    (has : program.Has procedure) {numbers : List Int}
    (enough : procedure.formals.length ≤ numbers.length) {clause : Guard × Term String}
    (inside : clause ∈ procedure.clauses)
    (writable : clause.2.Writable procedure.formals numbers) :
    (clause.2.map (substitution procedure.formals numbers)).Ground := by
  constructor
  · intro calls
    exact prepared.traceable.plain.result has inside
      ((Term.call_mem_actions_map _ _ clause.2).mp calls)
  · intro text read
    obtain ⟨name, reads, rfl⟩ := (Term.read_mem_actions_map _ _ clause.2).mp read
    rw [substitution]
    cases given : supplied name procedure.formals (numbers.map .int) with
    | some value =>
        obtain ⟨n, rfl⟩ := supplied_integer enough given
        exact isInteger_integerDigits (writable name reads n given)
    | none =>
        exact (prepared.traceable.reads procedure has name
          (Procedure.result_mem_actions inside reads)).resolve_left (supplied_eq_none_iff.mp given)

/-- A call on integers may be replaced by the result that its guards select, with
the integers in the place of its formals. -/
theorem improves_result (prepared : Prepared program home base) {procedure : Procedure}
    (has : program.Has procedure) (notDefine : procedure.name ≠ "define") {texts : List String}
    {numbers : List Int} (spell : List.Forall₂ Spells texts numbers)
    (enough : procedure.formals.length ≤ numbers.length) {limit : Nat} {state bound middle : State}
    (leads : program.Leads home base state)
    (binds : Table.Binds procedure.formals (numbers.map .int) (state.table home .numeric)
      (bound.table home .numeric))
    {clause : Guard × Term String}
    (selected : selectClause (evaluate limit home false) procedure.name
      (Procedure.clauseNodes procedure.clauses) bound = .ok ((clause.2.map .text).node 3) middle)
    (writable : clause.2.Writable procedure.formals numbers) :
    program.Improves home base (.call procedure.name (texts.map .leaf))
      (clause.2.map (substitution procedure.formals numbers)) := by
  intro setting other poorer richer after value atMost leads' richLeads covers done
  obtain ⟨called, arguments, ready, found, isProcedure, ran, applied⟩ := eval_call_ok notDefine done
  have supplied := prepared.evalAll_leaves spell setting.operands leads'
  obtain ⟨rfl, rfl⟩ := EStateM.Result.ok.inj (supplied.symm.trans ran)
  have stands := prepared.governs leads' procedure.name called found isProcedure
  rw [has] at stands
  obtain ⟨_⟩ | ⟨_⟩ | ⟨_⟩ | ⟨_, _, serial⟩ := stands
  rw [Value.apply, callWithin_level] at applied
  cases left : setting.room - setting.level with
  | zero =>
      obtain ⟨failed, run⟩ := callWithin_zero setting.limit home serial procedure
        (numbers.map .int) poorer 0
      rw [left, run] at applied
      cases applied
  | succ room =>
      obtain ⟨bound', binds', run⟩ := callWithin_succ setting.limit home serial procedure
        (numbers.map .int) poorer room
      rw [left, run] at applied
      have framed := prepared.framed setting.limit room
      have inBound := leads'.bind has binds'.numeric
      obtain ⟨earlier, chosen, later, middle', split, selected', changes, _, ranResult⟩ :=
        run_ok prepared.traceable.plain framed has (prepared.governs inBound) applied
      -- the run that is replaced selects the clause that the step selected
      have same := Term.node_text_inj (prepared.selectClause_unique has leads leads' binds
        binds'.numeric (fun _ _ _ _ ran => ran) (fun _ _ _ _ within => (evalWithin_ok within).2)
        selected selected')
      rw [same] at writable ⊢
      have inside : chosen ∈ procedure.clauses := by simp [split]
      have inMiddle := inBound.after changes
      rw [eval_replaced framed chosen.2 1 3 (prepared.traceable.plain.result has inside)
        (prepared.traceable.orderly procedure has _ (Procedure.mem_paths split))
        (prepared.governs inMiddle)
        (fun name reads => prepared.replaces_formal has enough split leads' binds'.numeric changes
          reads writable),
        ← Term.map_map] at ranResult
      have fits : (⟨setting.limit, room, 1, 3, false⟩ : Setting).AtMost other := by
        simp only [Setting.AtMost] at atMost ⊢
        omega
      have stayed : program.Leads home poorer poorer := .refl _
      have coversMiddle := covers.after ((stayed.bind has binds'.numeric).after changes)
      exact prepared.improves_refl (prepared.ground_result has enough inside writable) _ other
        middle' richer after value fits inMiddle richLeads coversMiddle ranResult

end Prepared

end Stepper
