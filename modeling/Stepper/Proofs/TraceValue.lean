import Stepper.Proofs.Tracing

/-!
A trace that ends by itself ends in the value of its expression. The condition on
programs is needed: each part of it fails in one of the programs at the end, and
there a trace ends in another integer than evaluation gives.
-/

namespace Stepper

open Token (content)

/-- The integer that a value is or spells. -/
def Value.denoted? : Value → Option Int
  | .int n => some n
  | .text spelling =>
    match Number.ofText spelling with
    | .ok (.int n) => some n
    | _ => none
  | _ => none

/-- Whether a value is the text of a form, on which a trace steps again. -/
def Value.isForm (value : Value) : Bool :=
  match reread value with
  | .ok (.expression ..) => true
  | _ => false

namespace Prepared

variable {program : Program} {home : Nat} {base : State}

/-- The last value of a trace that ends by itself. -/
theorem expandAll_denotes (prepared : Prepared program home base) {limit : Nat} {cap v : Int}
    {remaining : Nat} {name : String} {operands : List (Term String)}
    (shown : program.Shown (.call name operands)) {state after : State} {node : Form}
    {values : List Value} {final : Value} (reaches : program.Reaches home base state)
    (evaluates : ∃ setting last, Setting.eval setting home (.call name operands) base =
      .ok (.int v) last)
    (done : expandAll limit home cap remaining
      (Phrase.tree (.operator name :: Term.phrases operands)) state = (⟨node, .ok values⟩, after))
    (ends : values.getLast? = some final)
    (finished : final.isForm = false) : final.denoted? = some v := by
  have stays : program.Leads home base base := .refl _
  obtain ⟨setting, last, evaluated⟩ := evaluates
  -- the current term has the value of the first one, if evaluated before any step
  induction remaining generalizing name operands state node values setting last with
  | zero =>
      rcases expandAll_expression done with rfl | ⟨fewer, _, _, _, _, _, _, _, impossible, _⟩
      · cases ends
      · cases impossible
  | succ remaining ih =>
      rcases expandAll_expression done with
        rfl | ⟨_, stepped, value, next, middle, read, _, later, one, expanded, ran, rest, rfl⟩
      · cases ends
      obtain rfl := Nat.succ.inj one
      obtain ⟨gives, reached⟩ := prepared.expand_tree_gives shown reaches expanded
      obtain ⟨again, same⟩ := readOn_ok ran
      have inRead : program.Reaches home base read := by
        intro reading
        rw [same]
        exact reached reading
      have alone : (∀ children frame, next ≠ .expression children frame) → final = value := by
        intro other
        rw [expandAll_other other] at rest
        cases rest
        exact (Option.some.inj ends).symm
      cases gives with
      | @text better refines =>
          obtain ⟨last', kept, _⟩ := refines.improves setting setting base base last (.int v)
            (Nat.le_refl _) stays stays (.refl _) evaluated
          cases better with
          | call name' operands' =>
              have tree := reread_call refines.shown.legible
              obtain rfl := Except.ok.inj (tree.symm.trans again)
              cases later with
              | nil =>
                  rw [List.getLast?_singleton] at ends
                  cases ends
                  -- a trace cut short would end in the text of a form
                  rw [Value.isForm, tree] at finished
                  cases finished
              | cons second others =>
                  rw [List.getLast?_cons_cons] at ends
                  exact ih refines.shown inRead rest ends setting last' kept
          | leaf text =>
              have integer := refines.shown.ground.integers text (List.mem_singleton.mpr rfl)
              obtain ⟨n, rfl, spells⟩ := reread_leaf refines.shown.legible.leaf integer again
              obtain rfl := alone fun children frame equal => by cases equal
              have value := prepared.eval_integer_leaf spells setting stays
              rw [value] at kept
              cases kept
              have spelled : Number.ofText (Term.leaf text).phrase.text = .ok (.int v) := spells.number
              rw [Value.denoted?, spelled]
      | value leads evaluatedHere =>
          obtain rfl := prepared.eval_unique shown.ground leads stays evaluatedHere evaluated
          obtain rfl := reread_int again
          obtain rfl := alone fun children frame equal => by cases equal
          rfl

end Prepared

/-- A trace that ends by itself ends in the value of its expression, for
traceable programs. A trace that was cut short ends in the text of a form. -/
theorem trace_ends_in_the_value {interpreter : Interpreter} {program : Program}
    {state after after' : State} {source name : String} {operands : List (Term String)}
    {limit limit' : Nat} {v : Int} {values : List Value} {final : Value}
    (defined : interpreter.Defined program state) (traceable : program.Traceable)
    (spelled : content source = (Term.call name operands).phrase.tokens)
    (integers : ∀ text, .read text ∈ (Term.call name operands).actions → IsInteger text)
    (plain : .call "define" ∉ (Term.call name operands).actions)
    (sound : program.Sound (Term.call name operands))
    (evaluates : interpreter.perform limit .evaluate source state = .ok (.value (.int v)) after)
    (traces : interpreter.perform limit' .trace source state = .ok (.steps values) after')
    (ends : values.getLast? = some final)
    (finished : final.isForm = false) : final.denoted? = some v := by
  have prepared : Prepared program interpreter.home state :=
    ⟨traceable, defined.shows, fun procedure has => defined.legible (Program.mem_of_meaning has)⟩
  have shown : program.Shown (.call name operands) :=
    ⟨⟨plain, integers⟩, sound, Term.legible_of_content spelled⟩
  have read := Node.readForm_form spelled
  rw [Interpreter.perform_evaluate read] at evaluates
  obtain ⟨value, evaluated, ran, replied⟩ := Eval.of_bind_ok evaluates
  cases replied
  rw [evaluate_tree operands shown.ground.notDefine] at ran
  obtain ⟨node, expanded⟩ := (Interpreter.perform_trace_iff read).mp traces
  have reaches : program.Reaches interpreter.home state state := fun _ => .refl _
  exact prepared.expandAll_denotes shown reaches ⟨⟨limit, limit, 0, 0, true⟩, _, ran⟩ expanded ends
    finished

/-- The integer that an evaluation gives. -/
def evaluated? : EStateM.Result Failure State Reply → Option Int
  | .ok (.value (.int n)) _ => some n
  | _ => none

/-- The integer that a trace ends in, and whether it ends in a form. -/
def traced? : EStateM.Result Failure State Reply → Option (Option Int × Bool)
  | .ok (.steps values) _ => values.getLast?.map fun final => (final.denoted?, final.isForm)
  | _ => none

theorem of_evaluated? {run : EStateM.Result Failure State Reply} {n : Int}
    (gives : evaluated? run = some n) : ∃ after, run = .ok (.value (.int n)) after := by
  unfold evaluated? at gives
  split at gives
  · cases gives
    exact ⟨_, rfl⟩
  · cases gives

theorem of_traced? {run : EStateM.Result Failure State Reply} {denoted : Option Int} {cut : Bool}
    (gives : traced? run = some (denoted, cut)) :
    ∃ values final after, run = .ok (.steps values) after ∧ values.getLast? = some final ∧
      final.denoted? = denoted ∧ final.isForm = cut := by
  unfold traced? at gives
  split at gives
  · rename_i values after
    obtain ⟨final, last, both⟩ := Option.map_eq_some_iff.mp gives
    cases both
    exact ⟨values, final, after, rfl, last, rfl, rfl⟩
  · cases gives

namespace Interpreter

/-- Enter definitions in order, as they are written. -/
def defineAll (interpreter : Interpreter) : List Procedure → Eval Unit
  | [] => pure ()
  | procedure :: rest => do
    let _ ← interpreter.perform initialLimit .define procedure.phrase.text
    interpreter.defineAll rest

theorem Defined.defineAll {interpreter : Interpreter} {procedures : List Procedure}
    (spelled : ∀ procedure ∈ procedures, content procedure.phrase.text = procedure.phrase.tokens)
    {program : Program} {state : State} (defined : interpreter.Defined program state) :
    ∃ after, interpreter.defineAll procedures state = .ok () after ∧
      interpreter.Defined (procedures.reverse ++ program) after := by
  induction procedures generalizing program state with
  | nil => exact ⟨state, rfl, defined⟩
  | cons procedure procedures ih =>
      have first := spelled procedure List.mem_cons_self
      obtain ⟨middle, done, _⟩ := interpreter.perform_define initialLimit first defined.shows
      obtain ⟨after, rest, all⟩ := ih
        (fun other member => spelled other (List.mem_cons_of_mem _ member))
        (defined.define first done)
      refine ⟨after, ?_, by simpa using all⟩
      rw [Interpreter.defineAll, Eval.bind_ok done, rest]

/-- What evaluation gives and what a trace ends in, once a program is defined. -/
def outcomes (interpreter : Interpreter) (program : Program) (source : String) :
    Option Int × Option (Option Int × Bool) :=
  let run (task : Task) : EStateM.Result Failure State Reply :=
    (do interpreter.defineAll program.reverse
        interpreter.perform initialLimit task source : Eval Reply) {}
  (evaluated? (run .evaluate), traced? (run .trace))

theorem runs_of_outcomes {interpreter : Interpreter} {program : Program} {source : String}
    {v : Int} {denoted : Option Int} {cut : Bool} (fresh : interpreter.IsFresh {})
    (spelled : ∀ procedure ∈ program, content procedure.phrase.text = procedure.phrase.tokens)
    (outcomes : interpreter.outcomes program source = (some v, some (denoted, cut))) :
    ∃ (state after after' : State) (values : List Value) (final : Value),
      interpreter.Defined program state ∧
      interpreter.perform initialLimit .evaluate source state = .ok (.value (.int v)) after ∧
      interpreter.perform initialLimit .trace source state = .ok (.steps values) after' ∧
      values.getLast? = some final ∧ final.denoted? = denoted ∧ final.isForm = cut := by
  obtain ⟨state, done, defined⟩ := (Defined.start fresh).defineAll
    fun procedure member => spelled procedure (List.mem_reverse.mp member)
  rw [List.reverse_reverse, List.append_nil] at defined
  obtain ⟨evaluated, traced⟩ := Prod.mk.inj outcomes
  obtain ⟨after, evaluates⟩ :=
    of_evaluated? ((congrArg evaluated? (Eval.bind_ok done)).symm.trans evaluated)
  obtain ⟨values, final, after', traces, ends, last, finished⟩ :=
    of_traced? ((congrArg traced? (Eval.bind_ok done)).symm.trans traced)
  exact ⟨state, after, after', values, final, defined, evaluates, traces, ends, last, finished⟩

end Interpreter

theorem ackermann_truthValued {name : String}
    (truthValued : Program.TruthValued [ackermann "A"] name) :
    name = "=" ∨ name = "else" := by
  induction truthValued with
  | builtin means isTest =>
      rw [← Program.builtin_of_meaning means]
      rcases isTest with rfl | rfl
      · exact .inl rfl
      · exact .inr rfl
  | @procedure procedure clause inner has inside last _ ih =>
      obtain rfl := List.mem_singleton.mp (Program.mem_of_meaning has)
      have heads : ∀ clause ∈ (ackermann "A").clauses, ∀ inner ∈ clause.2.head?,
          inner ≠ "=" ∧ inner ≠ "else" := by decide +kernel
      obtain ⟨noTest, noElse⟩ := heads clause inside inner last
      exact absurd ih (not_or.mpr ⟨noTest, noElse⟩)

theorem ackermann_sound :
    ∀ clause ∈ (ackermann "A").clauses, Program.Sound [ackermann "A"] clause.2 := by
  have leaves : ∀ text : String, ¬ Program.GivesTruth [ackermann "A"] (.leaf text) := by
    rintro text ⟨name, last, _⟩
    cases last
  have calls : ∀ (name : String) (operands : List (Term String)), name ≠ "=" → name ≠ "else" →
      ¬ Program.GivesTruth [ackermann "A"] (.call name operands) := by
    rintro name operands noTest noElse ⟨_, last, truthValued⟩
    cases last
    exact (ackermann_truthValued truthValued).elim noTest noElse
  have onLeaves : ∀ (operation : Builtin) (left right : String),
      Program.meaning [ackermann "A"] operation.symbol = some (.builtin operation) →
      Program.Sound [ackermann "A"] (.call operation.symbol [.leaf left, .leaf right]) := by
    intro operation left right means
    refine .call (fun procedure other => ?_) ?_ ?_
    · rw [means] at other
      cases other
    · simp [Program.Sound.leaf]
    · simp [leaves]
  have minus : ∀ left, Program.Sound [ackermann "A"] (.call "-" [.leaf left, .leaf "1"]) :=
    fun left => onLeaves .subtract left "1" rfl
  have inner : Program.Sound [ackermann "A"]
      (.call "A" [.leaf "x", .call "-" [.leaf "y", .leaf "1"]]) := by
    refine .call (fun procedure means => ?_) ?_ ?_
    · cases means
      exact Nat.le_refl 2
    · simp [Program.Sound.leaf, minus]
    · simp [leaves, calls]
  intro clause inside
  simp only [ackermann, List.mem_cons, List.not_mem_nil, or_false] at inside
  rcases inside with rfl | rfl | rfl | rfl
  · exact .leaf "0"
  · exact onLeaves .multiply "2" "y" rfl
  · exact .leaf "2"
  · refine .call (fun procedure means => ?_) ?_ ?_
    · cases means
      exact Nat.le_refl 2
    · simp [inner, minus]
    · simp [calls]

theorem ackermann_traceable : Program.Traceable [ackermann "A"] := by
  refine ackermann_wellScoped.traceable fun procedure has => ?_
  obtain rfl := List.mem_singleton.mp (Program.mem_of_meaning has)
  exact ackermann_sound

theorem trace_ends_in_the_value_ackermann :
    ∃ (interpreter : Interpreter) (state after after' : State) (values : List Value)
      (final : Value), interpreter.Defined [ackermann "A"] state ∧
      Program.Traceable [ackermann "A"] ∧
      interpreter.perform initialLimit .evaluate "(A 1 3)" state = .ok (.value (.int 8)) after ∧
      interpreter.perform initialLimit .trace "(A 1 3)" state = .ok (.steps values) after' ∧
      values.getLast? = some final ∧ final.isForm = false ∧ final.denoted? = some 8 := by
  have spelled : content "(A 1 3)" =
      (Term.call "A" [.leaf "1", .leaf "3"]).phrase.tokens := by decide +kernel
  have sound : Program.Sound [ackermann "A"] (Term.call "A" [.leaf "1", .leaf "3"]) := by
    refine .call (fun procedure means => ?_) ?_ ?_
    · cases means
      exact Nat.le_refl 2
    · simp [Program.Sound.leaf]
    · rintro operand member ⟨name, last, _⟩
      simp only [List.mem_cons, List.not_mem_nil, or_false] at member
      rcases member with rfl | rfl <;> cases last
  have outcomes : (⟨0, 100⟩ : Interpreter).outcomes [ackermann "A"] "(A 1 3)" =
      (some 8, some (some 8, false)) := by decide +kernel
  obtain ⟨state, after, after', values, final, defined, evaluates, traces, ends, _, finished⟩ :=
    Interpreter.runs_of_outcomes rfl (by decide +kernel) outcomes
  exact ⟨_, state, after, after', values, final, defined, ackermann_traceable, evaluates, traces,
    ends, finished, trace_ends_in_the_value defined ackermann_traceable spelled
      (by simp [Term.actions, Term.actionsOfAll]; decide) (by decide) sound evaluates traces ends
      finished⟩

/-- What the clauses of a procedure can use: what the program gives a meaning,
own formals and integers. -/
def Program.Offers (program : Program) (procedure : Procedure) : Action String → Prop
  | .call name => (program.meaning name).isSome
  | .read name => name ∈ procedure.formals ∨ IsInteger name

instance (program : Program) (procedure : Procedure) (action : Action String) :
    Decidable (program.Offers procedure action) :=
  match action with
  | .call name => inferInstanceAs (Decidable ((program.meaning name).isSome = true))
  | .read name => inferInstanceAs (Decidable (name ∈ procedure.formals ∨ IsInteger name))

/-- Programs, as they are written, that use nothing from outside. -/
def Program.Closed (program : Program) : Prop :=
  ∀ procedure ∈ program, content procedure.phrase.text = procedure.phrase.tokens ∧
    (∀ action ∈ procedure.actions, program.Offers procedure action) ∧
    ∀ clause ∈ procedure.clauses, ∀ word ∈ clause.1.words, word = "else"

instance (program : Program) : Decidable program.Closed :=
  inferInstanceAs (Decidable (∀ procedure ∈ program, _ ∧ _))

/-- Terms, as they are written, over integers. -/
def Term.OnIntegers (term : Term String) : Prop :=
  content term.phrase.text = term.phrase.tokens ∧
  ∀ action ∈ term.actions, action = .call action.word ∨ IsInteger action.word

instance (term : Term String) : Decidable term.OnIntegers :=
  inferInstanceAs (Decidable (_ ∧ _))

/-- Whether evaluation gives an integer, and a trace ends by itself in something
else, for a call on integers in a closed program. -/
def Interpreter.Disagrees (interpreter : Interpreter) (program : Program) (name : String)
    (operands : List (Term String)) : Prop :=
  let call := Term.call name operands
  program.Closed ∧ call.OnIntegers ∧
  ∃ (state after after' : State) (v : Int) (values : List Value) (final : Value),
    interpreter.Defined program state ∧
    interpreter.perform initialLimit .evaluate call.phrase.text state =
      .ok (.value (.int v)) after ∧
    interpreter.perform initialLimit .trace call.phrase.text state = .ok (.steps values) after' ∧
    values.getLast? = some final ∧ final.isForm = false ∧ final.denoted? ≠ some v

theorem Interpreter.Disagrees.of_outcomes {interpreter : Interpreter} {program : Program}
    {name : String} {operands : List (Term String)} (v other : Int)
    (fresh : interpreter.IsFresh {})
    (closed : program.Closed ∧ (Term.call name operands).OnIntegers)
    (outcomes : interpreter.outcomes program (Term.call name operands).phrase.text =
      (some v, some (some other, false)))
    (differ : other ≠ v) : interpreter.Disagrees program name operands := by
  obtain ⟨state, after, after', values, final, defined, evaluates, traces, ends, last, finished⟩ :=
    runs_of_outcomes fresh (fun procedure member => (closed.1 procedure member).1) outcomes
  refine ⟨closed.1, closed.2, state, after, after', v, values, final, defined, evaluates, traces,
    ends, finished, ?_⟩
  rw [last]
  exact fun same => differ (Option.some.inj same)

section Disagreements

/-- A procedure of one clause, which always holds. -/
def Procedure.simple (name : String) (formals : List String) (result : Term String) : Procedure :=
  ⟨name, formals, [(.word "else", result)]⟩

/-- The guard that two terms are equal. -/
def Guard.equal (left right : Term String) : Guard :=
  .test (.call "=" [left, right])

/-- `f` reads its formal after `g` bound it anew. -/
def lateRead : Program :=
  [.simple "f" ["x"] (.call "+" [.call "g" [.leaf "5"], .leaf "x"]),
    .simple "g" ["x"] (.leaf "x")]

theorem lateRead_disagrees : (⟨0, 100⟩ : Interpreter).Disagrees lateRead "f" [.leaf "1"] :=
  .of_outcomes 10 6 rfl (by decide +kernel) (by decide +kernel) (by decide)

/-- `f` reads its formal after its guard bound it anew. -/
def reboundByGuard : Program :=
  [⟨"f", ["x"], [(.equal (.call "g" [.leaf "7"]) (.leaf "1"), .leaf "1"),
      (.word "else", .leaf "x")]⟩,
    .simple "g" ["x"] (.leaf "0")]

theorem reboundByGuard_disagrees :
    (⟨0, 100⟩ : Interpreter).Disagrees reboundByGuard "f" [.leaf "2"] :=
  .of_outcomes 7 2 rfl (by decide +kernel) (by decide +kernel) (by decide)

/-- A truth value equals an integer, but its text does not. -/
def truthTest : Program :=
  [⟨"f", ["x"], [(.equal (.leaf "x") (.leaf "1"), .leaf "10"), (.word "else", .leaf "20")]⟩]

theorem truthTest_disagrees :
    (⟨0, 100⟩ : Interpreter).Disagrees truthTest "f" [.call "=" [.leaf "1", .leaf "1"]] :=
  .of_outcomes 10 20 rfl (by decide +kernel) (by decide +kernel) (by decide)

/-- A call of `f` hides the `else` of `g`. -/
def hiddenElse : Program :=
  [⟨"f", ["else"], [(.equal (.leaf "1") (.leaf "1"), .leaf "1")]⟩,
    ⟨"g", ["x"], [(.word "else", .leaf "7"), (.equal (.leaf "1") (.leaf "1"), .leaf "8")]⟩]

theorem hiddenElse_disagrees :
    (⟨0, 100⟩ : Interpreter).Disagrees hiddenElse "+"
      [.call "g" [.call "g" [.leaf "1"]], .call "f" [.leaf "5"]] :=
  .of_outcomes 9 8 rfl (by decide +kernel) (by decide +kernel) (by decide)

/-- A formal that is an integer. -/
def integerFormal : Program :=
  [.simple "f" ["1"] (.leaf "1")]

theorem integerFormal_disagrees :
    (⟨0, 100⟩ : Interpreter).Disagrees integerFormal "+" [.leaf "1", .call "f" [.leaf "5"]] :=
  .of_outcomes 6 10 rfl (by decide +kernel) (by decide +kernel) (by decide)

/-- A name that is an integer. -/
def integerName : Program :=
  [⟨"f", ["y"], [(.equal (.call "+" [.leaf "y", .leaf "1"]) (.leaf "6"), .leaf "1"),
      (.word "else", .leaf "2")]⟩,
    .simple "5" ["x"] (.leaf "x")]

theorem integerName_disagrees : (⟨0, 100⟩ : Interpreter).Disagrees integerName "f" [.leaf "5"] :=
  .of_outcomes 2 1 rfl (by decide +kernel) (by decide +kernel) (by decide)

/-- `f` reads a formal for which a call may have no argument. -/
def missingArgument : Program :=
  [.simple "f" ["x"] (.call "g" [.leaf "x", .call "h" [.leaf "5"]]),
    ⟨"g", ["a", "b"], [(.equal (.leaf "a") (.leaf "5"), .leaf "1"), (.word "else", .leaf "2")]⟩,
    .simple "h" ["x"] (.leaf "x")]

theorem missingArgument_disagrees : (⟨0, 100⟩ : Interpreter).Disagrees missingArgument "f" [] :=
  .of_outcomes 2 1 rfl (by decide +kernel) (by decide +kernel) (by decide)

/-- `f` ignores its argument, even a definition. -/
def ignoredArgument : Program :=
  [.simple "f" ["x"] (.leaf "0")]

theorem ignoredArgument_disagrees :
    (⟨0, 100⟩ : Interpreter).Disagrees ignoredArgument "+"
      [.leaf "1", .call "f" [.call "define" [.leaf "1", .leaf "5"]]] :=
  .of_outcomes 1 5 rfl (by decide +kernel) (by decide +kernel) (by decide)

/-- Traces and evaluation can disagree if one of the conditions is dropped. -/
theorem traces_can_disagree :
    (⟨0, 100⟩ : Interpreter).Disagrees lateRead "f" [.leaf "1"] ∧
    (⟨0, 100⟩ : Interpreter).Disagrees reboundByGuard "f" [.leaf "2"] ∧
    (⟨0, 100⟩ : Interpreter).Disagrees truthTest "f" [.call "=" [.leaf "1", .leaf "1"]] ∧
    (⟨0, 100⟩ : Interpreter).Disagrees hiddenElse "+"
      [.call "g" [.call "g" [.leaf "1"]], .call "f" [.leaf "5"]] ∧
    (⟨0, 100⟩ : Interpreter).Disagrees integerFormal "+" [.leaf "1", .call "f" [.leaf "5"]] ∧
    (⟨0, 100⟩ : Interpreter).Disagrees integerName "f" [.leaf "5"] ∧
    (⟨0, 100⟩ : Interpreter).Disagrees missingArgument "f" [] ∧
    (⟨0, 100⟩ : Interpreter).Disagrees ignoredArgument "+"
      [.leaf "1", .call "f" [.call "define" [.leaf "1", .leaf "5"]]] :=
  ⟨lateRead_disagrees, reboundByGuard_disagrees, truthTest_disagrees, hiddenElse_disagrees,
    integerFormal_disagrees, integerName_disagrees, missingArgument_disagrees,
    ignoredArgument_disagrees⟩

end Disagreements

end Stepper
