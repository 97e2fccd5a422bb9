import Stepper.Proofs.Reference
import Stepper.Proofs.Scoping

/-!
Lexical scope. All calls share one table, in which nothing is restored; yet
evaluation agrees with a reference that gives each call a frame of its own, on
programs that read each formal before any call that can bind it.
-/

namespace Stepper

open Token (content)

theorem Term.levels_operands (name : String) (operands : List (Term Value)) (depth : Nat) :
    2 + levelsOfAll (nodes (depth + 1) operands) ≤ ((call name operands).node depth).levels := by
  rw [node, Node.levels]
  omega

/-- Calls up to level `reach` do as the reference calls. -/
def Faithful (program : Program) (home : Nat) (base : State) (tolerated : Failure → Prop)
    (short : Prop) (call : CallModel) (reference : Procedure → List Value → Except Failure Value)
    (reach : Nat) : Prop :=
  ∀ (level serial : Nat) (procedure : Procedure) (arguments : List Value) (state : State),
    level ≤ reach → program.Has procedure → Changes home program.IsFormal base state →
    (∀ argument ∈ arguments, argument.IsNumber) →
    Follows tolerated short (call level (procedure.compiled home serial) arguments state)
      (reference procedure arguments)

section Simulation

variable {program : Program} {home : Nat} {base : State} {tolerated : Failure → Prop}
variable {short : Prop} {call : CallModel}
variable {reference : Procedure → List Value → Except Failure Value} {reach : Nat} {both : Bool}

/-- A name that is a formal cannot be called; the table may hold a number for it. -/
theorem refusal_kind (name : String) {value : Value} (isNumber : value.IsNumber) :
    (refusal name value).kind = .notFound ∨ refusal name value = .badValue .longInteger := by
  rw [refusal]
  cases value.isTruthy with
  | false => exact .inl rfl
  | true =>
      cases value with
      | bool truth => exact .inl rfl
      | double x => exact .inl rfl
      | int n =>
          by_cases fits : n.natAbs < integerBound
          · simp only [if_true, Value.inspect, integerText, fits]
            exact .inl rfl
          · simp only [if_true, Value.inspect, integerText, fits, if_false]
            exact .inr trivial
      | _ => cases isNumber

theorem call_follows (shows : (base.table home .numeric).Shows program home .numeric)
    (disjoint : ∀ name, program.IsFormal name → program.meaning name = none)
    (faithful : Faithful program home base tolerated short call reference reach)
    {name : String} {operands : List Form} {level : Nat} {depth : Int} {frame : Frame}
    {state : State} {expected : Except Failure (List Value)} (notDefine : name ≠ "define")
    (near : level ≤ reach)
    (formal : program.IsFormal name → tolerated (.badValue .longInteger))
    (since : Changes home program.IsFormal base state)
    (follows : Follows tolerated short (evalAll call home both (level + 2) operands state) expected)
    (numbers : ∀ arguments after,
      evalAll call home both (level + 2) operands state = .ok arguments after →
      (∀ argument ∈ arguments, argument.IsNumber) ∧ Changes home program.IsFormal base after) :
    Follows tolerated short
      (Node.eval call home both level (.expression (.operator name depth :: operands) frame) state)
      (match program.meaning name with
        | none => .error (.notFound (.unknown name))
        | some callee => do
          let arguments ← expected
          callee.apply reference arguments) := by
  rw [eval_application notDefine, ← State.binding]
  have stands := shows.stands name
  rw [← State.binding] at stands
  by_cases isFormal : program.IsFormal name
  -- a formal may hold a number by now, but never a procedure
  · rw [disjoint name isFormal] at stands ⊢
    generalize unbound : base.binding home name = binding at stands
    cases stands
    cases bound : state.binding home name with
    | none => exact .error _ rfl
    | some value =>
        have isNumber : value.IsNumber :=
          (since.origin name value bound).resolve_left fun earlier => by simp [unbound] at earlier
        rw [Option.getD_some, isNumber.not_procedure, if_neg Bool.false_ne_true]
        rcases refusal_kind name isNumber with same | long
        · exact .error _ same
        · rw [long]
          exact .tolerated _ _ (formal isFormal)
  · rw [← since.keeps name isFormal] at stands
    generalize meant : program.meaning name = meaning at stands
    generalize bound : state.binding home name = binding at stands
    cases stands with
    | nothing => exact .error _ rfl
    | builtin operation =>
        have isProcedure : (Value.builtin operation).isProcedure = true := rfl
        rw [Option.getD_some, if_pos isProcedure]
        refine follows.bind fun arguments after ran => ?_
        rw [Value.apply, Callee.apply]
        cases operation.apply arguments with
        | ok value => exact .ok value after
        | error failure => exact .error after rfl
    | procedure _ definition serial =>
        obtain ⟨_, has⟩ := Program.has_of_meaning meant
        have isProcedure :
            (Value.procedure .numeric (definition.compiled home serial)).isProcedure = true := rfl
        rw [Option.getD_some, if_pos isProcedure]
        refine follows.bind fun arguments after ran => ?_
        obtain ⟨areNumbers, later⟩ := numbers arguments after ran
        exact faithful level serial definition arguments after near has later areNumbers

mutual
theorem eval_follows (shows : (base.table home .numeric).Shows program home .numeric)
    (disjoint : ∀ name, program.IsFormal name → program.meaning name = none)
    (framed : Framed program home call)
    (faithful : Faithful program home base tolerated short call reference reach)
    {look : String → Except Failure Number} (term : Term String) (level depth : Nat)
    {state : State} (plain : .call "define" ∉ term.actions)
    (orderly : program.Orderly term.actions)
    (formal : ∀ name, .call name ∈ term.actions → program.IsFormal name →
      tolerated (.badValue .longInteger))
    (since : Changes home program.IsFormal base state)
    (reads : ∀ name, .read name ∈ term.actions → state.read home (.text name) = look name)
    (near : level + ((term.map .text).node depth).levels ≤ reach) :
    Follows tolerated short
      (Node.eval call home both level ((term.map .text).node depth) state)
      (term.value program reference look) := by
  cases term with
  | leaf name =>
      rw [Term.map, Term.node, eval_leaf, reads name (List.mem_singleton.mpr rfl), Term.value]
      cases look name with
      | ok number => exact .ok _ state
      | error failure => exact .error state rfl
  | call name operands =>
      simp only [Term.actions, List.mem_append, List.mem_singleton, Action.call.injEq,
        not_or] at plain
      have inner := Term.levels_operands name (Term.mapAll .text operands) depth
      rw [Term.map] at near
      rw [Term.map, Term.node, Term.value]
      refine call_follows shows disjoint faithful (Ne.symm plain.2) (by omega)
        (formal name (List.mem_append_right _ (List.mem_singleton.mpr rfl))) since
        (evalAll_follows shows disjoint framed faithful operands (level + 2) (depth + 1) plain.1
          (List.pairwise_append.mp orderly).1
          (fun other calls => formal other (List.mem_append_left _ calls)) since
          (fun other read => reads other (List.mem_append_left _ read)) (by omega)) ?_
      intro arguments after ran
      have text : .call "define" ∉ Term.actionsOfAll (Term.mapAll Value.text operands) :=
        fun calls => plain.1 ((Term.call_mem_actionsOfAll_mapAll _ _ operands).mp calls)
      obtain ⟨numbers, changes⟩ := evalAll_changes framed (Term.mapAll .text operands) text
        (shows.governs.after since) ran
      exact ⟨numbers, since.trans (changes.mono Program.touches_isFormal)⟩

theorem evalAll_follows (shows : (base.table home .numeric).Shows program home .numeric)
    (disjoint : ∀ name, program.IsFormal name → program.meaning name = none)
    (framed : Framed program home call)
    (faithful : Faithful program home base tolerated short call reference reach)
    {look : String → Except Failure Number} (operands : List (Term String)) (level depth : Nat)
    {state : State} (plain : .call "define" ∉ Term.actionsOfAll operands)
    (orderly : program.Orderly (Term.actionsOfAll operands))
    (formal : ∀ name, .call name ∈ Term.actionsOfAll operands → program.IsFormal name →
      tolerated (.badValue .longInteger))
    (since : Changes home program.IsFormal base state)
    (reads : ∀ name, .read name ∈ Term.actionsOfAll operands →
      state.read home (.text name) = look name)
    (near : level + levelsOfAll (Term.nodes depth (Term.mapAll .text operands)) ≤ reach) :
    Follows tolerated short
      (evalAll call home both level (Term.nodes depth (Term.mapAll .text operands)) state)
      (Term.values program reference look operands) := by
  cases operands with
  | nil => exact .ok [] state
  | cons operand rest =>
      simp only [Term.actionsOfAll, List.mem_append, not_or] at plain
      have split := List.pairwise_append.mp orderly
      rw [Term.mapAll, Term.nodes, levelsOfAll] at near
      rw [Term.mapAll, Term.nodes, evalAll, Term.values]
      refine Follows.bind (eval_follows shows disjoint framed faithful operand level depth plain.1
        split.1 (fun name calls => formal name (List.mem_append_left _ calls)) since
        (fun name read => reads name (List.mem_append_left _ read)) (by omega)) ?_
      intro first middle ran
      obtain ⟨_, changes⟩ := eval_text_changes framed operand plain.1
        (shows.governs.after since) ran
      refine Follows.bind (evalAll_follows shows disjoint framed faithful rest level depth plain.2
        split.2.1 (fun name calls => formal name (List.mem_append_right _ calls))
        (since.trans (changes.mono Program.touches_isFormal)) (fun name read => ?_) (by omega)) ?_
      · rw [changes.read_eq (orderly.not_touches read)]
        exact reads name (List.mem_append_right _ read)
      · intro others after _
        exact .ok _ after
end

/-- Whether a part of some size is within reach if there is room for it, and may
fail if there is none. -/
def Fits (tolerated : Failure → Prop) (limit room reach size : Nat) : Prop :=
  (size ≤ room → size ≤ reach) ∧ (room < size → tolerated (.tooDeep limit))

theorem evalWithin_follows {limit room level : Nat} {node : Form} {state : State}
    {expected : Except Failure Value}
    (fits : Fits tolerated limit room reach (level + node.levels))
    (follows : level + node.levels ≤ reach →
      Follows tolerated short (node.eval call home false level state) expected) :
    Follows tolerated short (evalWithin limit call home room level node state) expected := by
  rw [evalWithin]
  split
  · rename_i deep
    exact .tolerated state expected (fits.2 deep)
  · rename_i enough
    exact follows (fits.1 (by omega))

theorem guard_follows (shows : (base.table home .numeric).Shows program home .numeric)
    (disjoint : ∀ name, program.IsFormal name → program.meaning name = none)
    (framed : Framed program home call)
    (faithful : Faithful program home base tolerated short call reference reach)
    {look : String → Except Failure Number} (guard : Guard) {limit room : Nat}
    {state : State} (plain : .call "define" ∉ guard.actions)
    (orderly : program.Orderly guard.actions)
    (heads : ∀ name, .call name ∈ guard.actions → ¬ program.IsFormal name)
    (words : ∀ name, guard = .word name → ¬ program.IsFormal name)
    (since : Changes home program.IsFormal base state)
    (reads : ∀ name, .read name ∈ guard.actions → state.read home (.text name) = look name)
    (fits : Fits tolerated limit room reach (2 + (guard.node 3).levels)) :
    Follows tolerated short
      ((do
        let tested ← evalWithin limit call home room 2 (guard.node 3)
        return tested.isTruthy : Eval Bool) state)
      (guard.holds program reference look) := by
  cases guard with
  | word name =>
      have stands := shows.stands name
      rw [← State.binding, ← since.keeps name (words name rfl)] at stands
      have same : ((state.binding home name).getD .nil).isTruthy = (program.meaning name).isSome := by
        generalize program.meaning name = meaning at stands ⊢
        generalize state.binding home name = binding at stands ⊢
        cases stands <;> rfl
      by_cases deep : room < 2 + (Guard.node 3 (.word name)).levels
      · have failed : evalWithin limit call home room 2 (Guard.node 3 (.word name)) state =
            .error (.tooDeep limit) state := by
          rw [evalWithin, if_pos deep]
          rfl
        rw [Eval.bind_error failed]
        exact .tolerated state _ (fits.2 deep)
      · have ran : evalWithin limit call home room 2 (Guard.node 3 (.word name)) state =
            .ok ((state.binding home name).getD .nil) state := by
          rw [evalWithin, if_neg deep]
          exact eval_operator
        rw [Eval.bind_ok ran, same]
        exact .ok _ state
  | test term =>
      refine Follows.bind (evalWithin_follows fits fun near =>
        eval_follows shows disjoint framed faithful term 2 3 plain orderly
          (fun name calls isFormal => absurd isFormal (heads name calls)) since reads near) ?_
      intro tested after _
      exact .ok _ after

theorem selectClause_cons_bind {eval : Form → Eval Value} {name : String} {test result : Form}
    {rest : List (Clause Value)} {next : Form → Eval Value} :
    (selectClause eval name (⟨test, result⟩ :: rest) >>= next) = (do
      let holds ← (do
        let tested ← eval test
        return tested.isTruthy : Eval Bool)
      if holds then next result else selectClause eval name rest >>= next) := by
  rw [selectClause, bind_assoc, bind_assoc]
  congr 1
  funext tested
  rw [pure_bind]
  split <;> simp

/-- Each clause that is tried finds the formals that it reads as the call bound
them: `bound` is the state then, `state` the state after the `earlier` clauses. -/
theorem clauses_follow (shows : (base.table home .numeric).Shows program home .numeric)
    (wellScoped : program.WellScoped) {limit room : Nat}
    (framed : Framed program home (callWithin limit room))
    (faithful : Faithful program home base tolerated short (callWithin limit room) reference reach)
    {look : String → Except Failure Number} {procedure : Procedure}
    (has : program.Has procedure) {bound : State}
    (reads : ∀ name, .read name ∈ procedure.actions → bound.read home (.text name) = look name)
    (fits : ∀ clause ∈ procedure.clauses,
      Fits tolerated limit room reach (2 + (clause.1.node 3).levels) ∧
        Fits tolerated limit room reach (1 + ((clause.2.map .text).node 3).levels))
    (since : Changes home program.IsFormal base bound)
    (rest earlier : List (Guard × Term String)) (whole : procedure.clauses = earlier ++ rest)
    {state : State}
    (changes : Changes home (program.Touches (Procedure.guardActions earlier)) bound state) :
    Follows tolerated short
      ((selectClause (evalWithin limit (callWithin limit room) home room 2) procedure.name
          (Procedure.clauseNodes rest) >>=
        evalWithin limit (callWithin limit room) home room 1) state)
      (Procedure.valueOf program reference look procedure.name rest) := by
  induction rest generalizing earlier state with
  | nil => exact .error state rfl
  | cons clause rest ih =>
      have inside : clause ∈ procedure.clauses := by simp [whole]
      have plain := wellScoped.plain
      have ordered := wellScoped.orderly procedure (Program.mem_of_meaning has) _
        (Procedure.mem_paths whole)
      rw [Procedure.guardActions_concat] at ordered
      obtain ⟨guards, result, _⟩ := List.pairwise_append.mp ordered
      have now : Changes home program.IsFormal base state :=
        since.trans (changes.mono Program.touches_isFormal)
      have nodes : Procedure.clauseNodes (clause :: rest) =
          ⟨clause.1.node 3, (clause.2.map .text).node 3⟩ :: Procedure.clauseNodes rest := rfl
      rw [nodes, selectClause_cons_bind, Procedure.valueOf]
      refine Follows.bind (guard_follows shows wellScoped.meaning_formal framed faithful clause.1
        (plain.test has inside) (List.pairwise_append.mp guards).2.1
        (fun name calls =>
          wellScoped.head_not_formal has name (Procedure.test_mem_actions inside calls))
        (wellScoped.word_not_formal has inside) now ?_ (fits clause inside).1) ?_
      · intro name read
        -- the guards before this one bound nothing that it reads
        rw [changes.read_eq (Program.Orderly.not_touches guards read)]
        exact reads name (Procedure.test_mem_actions inside read)
      intro holds middle ran
      obtain ⟨tested, after, test, finished⟩ := Eval.of_bind_ok ran
      cases finished
      have tests := guard_changes framed clause.1 (plain.test has inside)
        (shows.governs.after now) (evalWithin_ok test).2
      have later : Changes home
          (program.Touches (Procedure.guardActions (earlier ++ [clause]))) bound middle := by
        rw [Procedure.guardActions_concat]
        exact changes.append tests
      cases tested.isTruthy with
      | false => exact ih (earlier ++ [clause]) (by simp [whole]) later
      | true =>
          refine evalWithin_follows (fits clause inside).2 fun near =>
            eval_follows shows wellScoped.meaning_formal framed faithful clause.2 1 3
              (plain.result has inside) result
              (fun name calls isFormal => absurd isFormal
                (wellScoped.head_not_formal has name (Procedure.result_mem_actions inside calls)))
              (since.trans (later.mono Program.touches_isFormal)) (fun name read => ?_) near
          -- nor do the guards, this one included, bind what the result reads
          rw [Procedure.guardActions_concat] at later
          rw [later.read_eq (Program.Orderly.not_touches ordered read)]
          exact reads name (Procedure.result_mem_actions inside read)

/-- A call finds in the table what its frame holds. -/
theorem read_bound (shows : (base.table home .numeric).Shows program home .numeric)
    (wellScoped : program.WellScoped) {procedure : Procedure} (has : program.Has procedure)
    {arguments : List Value} {state bound : State}
    (since : Changes home program.IsFormal base state)
    (binds : State.Binds home procedure.formals arguments state bound) {name : String}
    (reads : .read name ∈ procedure.actions) :
    bound.read home (.text name) = lookIn procedure.formals arguments name := by
  rw [State.read, ← State.binding, lookIn]
  cases given : supplied name procedure.formals arguments with
  | some value =>
      rw [binds.numeric.binding_formal given]
      rfl
  | none =>
      have notFormal := supplied_eq_none_iff.mp given
      have integer : IsInteger name :=
        (wellScoped.allowed procedure (Program.mem_of_meaning has) _ reads).resolve_left notFormal
      obtain ⟨free, unbound⟩ := wellScoped.integer_free integer
      have nothing : base.binding home name = none := shows.resolve_eq_none free
      rw [binds.numeric.binding_other notFormal, since.keeps name unbound, nothing]
      rfl

/-- A call with room left does as the reference, if the calls inside it do. -/
theorem callWithin_succ_follows (shows : (base.table home .numeric).Shows program home .numeric)
    (wellScoped : program.WellScoped) {limit room : Nat}
    (faithful : Faithful program home base tolerated short (callWithin limit room) reference reach)
    {procedure : Procedure} (has : program.Has procedure)
    (fits : ∀ clause ∈ procedure.clauses,
      Fits tolerated limit room reach (2 + (clause.1.node 3).levels) ∧
        Fits tolerated limit room reach (1 + ((clause.2.map .text).node 3).levels))
    {serial : Nat} {arguments : List Value} {state : State}
    (since : Changes home program.IsFormal base state)
    (numbers : ∀ argument ∈ arguments, argument.IsNumber) :
    Follows tolerated short
      (callWithin limit (room + 1) 0 (procedure.compiled home serial) arguments state)
      (Procedure.valueOf program reference (lookIn procedure.formals arguments) procedure.name
        procedure.clauses) := by
  obtain ⟨bound, binds, run⟩ := callWithin_succ limit home serial procedure arguments state room
  rw [run]
  have later : Changes home program.IsFormal base bound :=
    since.trans ((binds.changes numbers).mono fun name formal => ⟨procedure, has, formal⟩)
  exact clauses_follow shows wellScoped (callWithin_framed wellScoped.plain limit room) faithful has
    (fun name reads => read_bound shows wellScoped has since binds reads) fits later
    procedure.clauses [] rfl (.refl bound)

/-- Evaluation agrees with the reference, unless it nests too deep. -/
theorem callWithin_faithful (shows : (base.table home .numeric).Shows program home .numeric)
    (wellScoped : program.WellScoped) {limit : Nat} (deep : tolerated (.tooDeep limit))
    (room : Nat) {depth : Nat} (enough : room ≤ depth) (reach : Nat) :
    Faithful program home base tolerated short (callWithin limit room) (program.call depth)
      reach := by
  induction room generalizing depth reach with
  | zero =>
      intro level serial procedure arguments state _ _ _ _
      obtain ⟨failed, run⟩ := callWithin_zero limit home serial procedure arguments state level
      rw [run]
      exact .tolerated failed _ deep
  | succ room ih =>
      intro level serial procedure arguments state near has since numbers
      cases level with
      | succ level =>
          rw [callWithin]
          exact ih (by omega) reach level serial procedure arguments state (by omega) has since
            numbers
      | zero =>
          cases depth with
          | zero => omega
          | succ depth =>
              exact callWithin_succ_follows shows wellScoped (ih (by omega) room) has
                (fun clause _ => ⟨⟨id, fun _ => deep⟩, ⟨id, fun _ => deep⟩⟩) since numbers

end Simulation

theorem levels_le_levelsOfAll {node : Form} {nodes : List Form} (member : node ∈ nodes) :
    node.levels ≤ levelsOfAll nodes := by
  induction nodes with
  | nil => cases member
  | cons first rest ih =>
      rw [levelsOfAll]
      rcases List.mem_cons.mp member with rfl | member
      · omega
      · have inner := ih member
        omega

namespace Program

/-- The levels that each part of a procedure of the program takes at most. -/
def levels (program : Program) : Nat :=
  levelsOfAll (program.flatMap fun procedure => procedure.clauses.flatMap fun clause =>
    [clause.1.node 3, (clause.2.map .text).node 3])

theorem levels_le {program : Program} {procedure : Procedure} (has : program.Has procedure)
    {clause : Guard × Term String} (inside : clause ∈ procedure.clauses) :
    (clause.1.node 3).levels ≤ program.levels ∧
      ((clause.2.map .text).node 3).levels ≤ program.levels := by
  have member : ∀ node ∈ [clause.1.node 3, (clause.2.map .text).node 3],
      node ∈ program.flatMap fun procedure => procedure.clauses.flatMap fun clause =>
        [clause.1.node 3, (clause.2.map .text).node 3] := by
    intro node listed
    exact List.mem_flatMap.mpr ⟨procedure, mem_of_meaning has,
      List.mem_flatMap.mpr ⟨clause, inside, listed⟩⟩
  exact ⟨levels_le_levelsOfAll (member _ (by simp)), levels_le_levelsOfAll (member _ (by simp))⟩

/-- Room for calls inside each other, `depth` of them. -/
def roomFor (program : Program) (depth : Nat) : Nat :=
  depth * (program.levels + 3)

end Program

/-- With room for `depth` calls, evaluation agrees with the reference unless that
runs out of depth. -/
theorem callWithin_complete {program : Program} {home : Nat} {base : State}
    {tolerated : Failure → Prop}
    (shows : (base.table home .numeric).Shows program home .numeric)
    (wellScoped : program.WellScoped) (limit depth : Nat) {room reach : Nat}
    (enough : reach + program.roomFor depth ≤ room) :
    Faithful program home base tolerated True (callWithin limit room) (program.call depth)
      reach := by
  induction depth generalizing room reach with
  | zero =>
      intro level serial procedure arguments state _ _ _ _
      exact .short _ trivial rfl
  | succ depth ih =>
      intro level serial procedure arguments state near has since numbers
      have more : program.roomFor (depth + 1) = program.roomFor depth + (program.levels + 3) :=
        Nat.succ_mul ..
      obtain ⟨left, split⟩ : ∃ left, room - level = left + 1 := ⟨room - level - 1, by omega⟩
      rw [callWithin_level, split]
      have inner : program.levels + 2 + program.roomFor depth ≤ left := by omega
      refine callWithin_succ_follows shows wellScoped (ih inner) has (fun clause inside => ?_)
        since numbers
      obtain ⟨test, result⟩ := Program.levels_le has inside
      exact ⟨⟨by omega, by omega⟩, ⟨by omega, by omega⟩⟩

theorem evaluate_follows {program : Program} {home : Nat} {state : State}
    {tolerated : Failure → Prop} {short : Prop} {limit depth : Nat} {name : String}
    {operands : List (Term String)}
    (shows : (state.table home .numeric).Shows program home .numeric)
    (wellScoped : program.WellScoped)
    (faithful : Faithful program home state tolerated short (callModel limit) (program.call depth)
      (((Term.call name operands).map .text).node 0).levels)
    (integers : ∀ text, .read text ∈ (Term.call name operands).actions → IsInteger text)
    (plain : .call "define" ∉ (Term.call name operands).actions)
    (formal : ∀ callee, .call callee ∈ (Term.call name operands).actions →
      program.IsFormal callee → tolerated (.badValue .longInteger)) :
    Follows tolerated short
      (evaluate limit home true (Phrase.tree (.operator name :: Term.phrases operands)) state)
      (program.evaluate depth (.call name operands)) := by
  have notDefine : name ≠ "define" := by
    rintro rfl
    exact plain (List.mem_append_right _ (List.mem_singleton.mpr rfl))
  rw [evaluate_tree operands notDefine, Program.evaluate]
  refine eval_follows shows wellScoped.meaning_formal
    (callWithin_framed wellScoped.plain limit limit) faithful (.call name operands) 0 0 plain
    (Program.orderly_of_outside fun text read => (wellScoped.integer_free (integers text read)).2)
    formal (.refl state) (fun text read => ?_) (Nat.le_of_eq (Nat.zero_add _))
  rw [State.read, shows.resolve_eq_none (wellScoped.integer_free (integers text read)).1]
  rfl

/-- An evaluation that gives the expected value, or fails in the expected kind. -/
inductive Agrees : EStateM.Result Failure State Reply → Except Failure Value → Prop where
  | value (value : Value) (after : State) : Agrees (.ok (.value value) after) (.ok value)
  | failure {failure expected : Failure} (after : State) (same : failure.kind = expected.kind) :
      Agrees (.error failure after) (.error expected)

theorem Follows.perform {interpreter : Interpreter} {limit : Nat} {source : String} {form : Form}
    {state : State} {tolerated : Failure → Prop} {short : Prop} {expected : Except Failure Value}
    (read : Node.readForm source = .ok form)
    (follows : Follows tolerated short (Stepper.evaluate limit interpreter.home true form state)
      expected) :
    Agrees (interpreter.perform limit .evaluate source state) expected ∨
      (∃ failure, tolerated failure ∧
        failure? (interpreter.perform limit .evaluate source state) = some failure) ∨
      short ∧ ∃ bound, expected = .error (.tooDeep bound) := by
  rw [Interpreter.perform_evaluate read]
  generalize ran : Stepper.evaluate limit interpreter.home true form state = run at follows
  cases follows with
  | ok value after =>
      rw [Eval.bind_ok ran]
      exact .inl (.value value after)
  | error after same =>
      rw [Eval.bind_error ran]
      exact .inl (.failure after same)
  | tolerated after _ tolerable =>
      rw [Eval.bind_error ran]
      exact .inr (.inl ⟨_, tolerable, rfl⟩)
  | @short failure _ isShort deep =>
      cases failure with
      | tooDeep bound => exact .inr (.inr ⟨isShort, bound, rfl⟩)
      | _ => cases deep

/-- With enough room, a term evaluates to the value that the reference gives it. -/
theorem Interpreter.perform_evaluate_ok {interpreter : Interpreter} {program : Program}
    {state : State} {source name : String} {operands : List (Term String)} {limit depth : Nat}
    {value : Value} (wellScoped : program.WellScoped)
    (shows : (state.table interpreter.home .numeric).Shows program interpreter.home .numeric)
    (spelled : content source = (Term.call name operands).phrase.tokens)
    (integers : ∀ text, .read text ∈ (Term.call name operands).actions → IsInteger text)
    (plain : .call "define" ∉ (Term.call name operands).actions)
    (heads : ∀ callee, .call callee ∈ (Term.call name operands).actions →
      ¬ program.IsFormal callee)
    (enough : (((Term.call name operands).map .text).node 0).levels + program.roomFor depth ≤ limit)
    (expected : program.evaluate depth (.call name operands) = .ok value) :
    ∃ after, interpreter.perform limit .evaluate source state = .ok (.value value) after := by
  let tolerated (_ : Failure) : Prop := False
  have faithful : Faithful program interpreter.home state tolerated True (callModel limit)
      (program.call depth) _ := callWithin_complete shows wellScoped limit depth enough
  have follows := evaluate_follows shows wellScoped faithful integers plain heads
  rw [expected] at follows
  rcases follows.perform (Node.readForm_form spelled) with agrees | ⟨_, never, _⟩ | ⟨_, _, deep⟩
  · generalize interpreter.perform limit .evaluate source state = run at agrees ⊢
    cases agrees with
    | value _ after => exact ⟨after, rfl⟩
  · exact never.elim
  · cases deep

/-- Whether a term calls a formal, which stands for no procedure. -/
def Program.CallsFormal {α : Type} (program : Program) (term : Term α) : Prop :=
  ∃ formal, .call formal ∈ term.actions ∧ program.IsFormal formal

/-- Evaluation is lexical on well scoped programs: it gives the value of the
reference or fails in the same kind, unless it nests too deep. The one
exception is a call of a formal: if the table holds too long an integer for it,
the failure cannot be put into words. -/
theorem evaluation_is_lexical {interpreter : Interpreter} {program : Program} {state : State}
    {source name : String} {operands : List (Term String)}
    (defined : interpreter.Defined program state) (wellScoped : program.WellScoped)
    (spelled : content source = (Term.call name operands).phrase.tokens)
    (integers : ∀ text, .read text ∈ (Term.call name operands).actions → IsInteger text)
    (plain : .call "define" ∉ (Term.call name operands).actions) :
    (∀ limit,
      Agrees (interpreter.perform limit .evaluate source state)
          (program.evaluate limit (.call name operands)) ∨
        failure? (interpreter.perform limit .evaluate source state) = some (.tooDeep limit) ∨
        program.CallsFormal (.call name operands) ∧
          failure? (interpreter.perform limit .evaluate source state) =
            some (.badValue .longInteger)) ∧
    ∀ depth, (∀ bound, program.evaluate depth (.call name operands) ≠ .error (.tooDeep bound)) →
      ∃ enough, ∀ limit, enough ≤ limit →
        Agrees (interpreter.perform limit .evaluate source state)
            (program.evaluate depth (.call name operands)) ∨
          program.CallsFormal (.call name operands) ∧
            failure? (interpreter.perform limit .evaluate source state) =
              some (.badValue .longInteger) := by
  have shows := defined.shows .numeric
  have read := Node.readForm_form spelled
  constructor
  · intro limit
    let tolerated (failure : Failure) : Prop := failure = .tooDeep limit ∨
      program.CallsFormal (.call name operands) ∧ failure = .badValue .longInteger
    have faithful : Faithful program interpreter.home state tolerated False (callModel limit)
        (program.call limit) (((Term.call name operands).map .text).node 0).levels :=
      callWithin_faithful shows wellScoped (.inl rfl) limit (Nat.le_refl limit) _
    have follows := evaluate_follows shows wellScoped faithful integers plain
      fun callee calls isFormal => .inr ⟨⟨callee, calls, isFormal⟩, rfl⟩
    rcases follows.perform read with agrees | ⟨_, rfl | ⟨formal, rfl⟩, failed⟩ | ⟨short, _⟩
    · exact .inl agrees
    · exact .inr (.inl failed)
    · exact .inr (.inr ⟨formal, failed⟩)
    · exact short.elim
  · intro depth answered
    let tolerated (failure : Failure) : Prop :=
      program.CallsFormal (.call name operands) ∧ failure = .badValue .longInteger
    refine ⟨(((Term.call name operands).map .text).node 0).levels + program.roomFor depth,
      fun limit enough => ?_⟩
    have faithful : Faithful program interpreter.home state tolerated True (callModel limit)
        (program.call depth) _ := callWithin_complete shows wellScoped limit depth enough
    have follows := evaluate_follows shows wellScoped faithful integers plain
      fun callee calls isFormal => ⟨⟨callee, calls, isFormal⟩, rfl⟩
    rcases follows.perform read with agrees | ⟨_, ⟨formal, rfl⟩, failed⟩ | ⟨_, bound, deep⟩
    · exact .inl agrees
    · exact .inr ⟨formal, failed⟩
    · exact absurd deep (answered bound)

theorem evaluation_is_lexical_ackermann :
    ∃ (interpreter : Interpreter) (state : State), interpreter.Defined [ackermann "A"] state ∧
      Program.WellScoped [ackermann "A"] ∧
      ∃ enough, ∀ limit, enough ≤ limit →
        Agrees (interpreter.perform limit .evaluate "(A 1 3)" state) (.ok (.int 8)) := by
  let interpreter : Interpreter := ⟨0, 0⟩
  have fresh : interpreter.Defined [] {} := .start rfl
  have spelled : content ("(define (A x y) (cond ((= y 0) 0) ((= x 0) (* 2 y)) ((= y 1) 2) " ++
      "(else (A (- x 1) (A x (- y 1))))))") = (ackermann "A").phrase.tokens := by decide +kernel
  obtain ⟨state, done, _⟩ := interpreter.perform_define initialLimit spelled fresh.shows
  have defined := fresh.define spelled done
  have call : content "(A 1 3)" =
      (Term.call "A" [.leaf "1", .leaf "3"]).phrase.tokens := by decide +kernel
  have value : Program.evaluate [ackermann "A"] 9 (.call "A" [.leaf "1", .leaf "3"]) =
      .ok (.int 8) := rfl
  have lexical := evaluation_is_lexical defined ackermann_wellScoped call
    (by simp [Term.actions, Term.actionsOfAll]; decide) (by decide)
  obtain ⟨enough, agrees⟩ := lexical.2 9 (by simp [value])
  refine ⟨interpreter, state, defined, ackermann_wellScoped, enough, fun limit large => ?_⟩
  rcases agrees limit large with same | ⟨⟨formal, calls, isFormal⟩, _⟩
  · exact value ▸ same
  · obtain ⟨procedure, member, inside⟩ := isFormal.exists_mem
    obtain rfl := List.mem_singleton.mp member
    obtain rfl : formal = "A" := by simpa [Term.actions, Term.actionsOfAll] using calls
    exact absurd inside (by decide)

/-- A procedure whose formal is also called, outside of it. -/
def square : Procedure where
  name := "s"
  formals := ["x"]
  clauses := [(.word "else", .call "*" [.leaf "x", .leaf "x"])]

theorem square_wellScoped : Program.WellScoped [square] :=
  Program.wellScoped_of_reads_first (by decide +kernel) (by decide +kernel) (by decide +kernel)
    (by decide +kernel) (by decide +kernel)

/-- A formal that is bound to too long an integer makes its call fail in another
kind than a call of an unknown name. -/
theorem long_formal_call_is_not_lexical :
    ∃ (interpreter : Interpreter) (state : State), interpreter.Defined [square] state ∧
      Program.WellScoped [square] ∧
      failure? (interpreter.perform initialLimit .evaluate
        "(+ (s (s (s (s (s (s (s (s (s (s (s (s (s (s 10)))))))))))))) (x 1))" state) =
          some (.badValue .longInteger) ∧
      expectedFailure? (Program.evaluate [square] initialLimit
        (.call "+" [(List.range 14).foldl (fun term _ => .call "s" [term]) (.leaf "10"),
          .call "x" [.leaf "1"]])) = some (.notFound (.unknown "x")) := by
  let interpreter : Interpreter := ⟨0, 0⟩
  have fresh : interpreter.Defined [] {} := .start rfl
  have spelled : content "(define (s x) (cond (else (* x x))))" = square.phrase.tokens := by
    decide +kernel
  obtain ⟨state, done, _⟩ := interpreter.perform_define initialLimit spelled fresh.shows
  have fails : failure? ((do
      let _ ← interpreter.perform initialLimit .define "(define (s x) (cond (else (* x x))))"
      interpreter.perform initialLimit .evaluate
        "(+ (s (s (s (s (s (s (s (s (s (s (s (s (s (s 10)))))))))))))) (x 1))" : Eval Reply) {}) =
      some (.badValue .longInteger) := by decide +kernel
  refine ⟨interpreter, state, fresh.define spelled done, square_wellScoped, ?_, by decide +kernel⟩
  exact (congrArg failure? (Eval.bind_ok done)).symm.trans fails

end Stepper
