import Stepper.Proofs.Trust

/-!
Runs in other states. Evaluation finds a name through its binding only, and
calls take procedures away but never add one. So a run that succeeds in one
state also succeeds, with the same value, in each state that has at least its
procedures and agrees on what the run reads, and with as much room or more.
-/

namespace Stepper

/-- Whether `richer` has all procedures of `poorer` and agrees with it on trusted
names and on names that no call binds. -/
structure Program.Covers (program : Program) (home : Nat) (trusted : String → Prop)
    (richer poorer : State) : Prop where
  procedures : ∀ name value, poorer.binding home name = some value → value.isProcedure = true →
    richer.binding home name = some value
  agrees : ∀ name, trusted name ∨ ¬ program.IsFormal name →
    richer.binding home name = poorer.binding home name

namespace Program.Covers

variable {program : Program} {home : Nat} {trusted : String → Prop} {richer poorer : State}

theorem refl (state : State) : program.Covers home trusted state state :=
  ⟨fun _ _ bound _ => bound, fun _ _ => rfl⟩

theorem mono {fewer : String → Prop} (covers : program.Covers home trusted richer poorer)
    (part : ∀ name, fewer name → trusted name) : program.Covers home fewer richer poorer :=
  ⟨covers.procedures, fun name known => covers.agrees name (known.imp_left (part name))⟩

/-- What a run does to the poorer state cannot hurt where nothing is trusted. -/
theorem after {later : State} (covers : program.Covers home (fun _ => False) richer poorer)
    (drifts : Table.Drifts program.IsFormal (poorer.table home .numeric)
      (later.table home .numeric)) :
    program.Covers home (fun _ => False) richer later where
  procedures name value bound isProcedure :=
    covers.procedures name value (drifts.procedure bound isProcedure) isProcedure
  agrees name known :=
    (covers.agrees name known).trans (drifts.keeps name (known.resolve_left id)).symm

theorem bind {formals : List String} {arguments : List Value} {richerBound poorerBound : State}
    (covers : program.Covers home trusted richer poorer)
    (richerBinds : Table.Binds formals arguments (richer.table home .numeric)
      (richerBound.table home .numeric))
    (poorerBinds : Table.Binds formals arguments (poorer.table home .numeric)
      (poorerBound.table home .numeric)) :
    program.Covers home (fun name => trusted name ∨ name ∈ formals) richerBound poorerBound := by
  have inside : ∀ name, name ∈ formals →
      richerBound.binding home name = poorerBound.binding home name := by
    intro name formal
    cases given : supplied name formals arguments with
    | none => exact absurd formal (supplied_eq_none_iff.mp given)
    | some argument =>
        rw [richerBinds.binding_formal given, poorerBinds.binding_formal given]
  constructor
  · intro name value bound isProcedure
    by_cases formal : name ∈ formals
    · exact (inside name formal).trans bound
    · rw [poorerBinds.binding_other formal] at bound
      rw [richerBinds.binding_other formal]
      exact covers.procedures name value bound isProcedure
  · intro name known
    by_cases formal : name ∈ formals
    · exact inside name formal
    · rw [richerBinds.binding_other formal, poorerBinds.binding_other formal]
      exact covers.agrees name (known.imp_left fun either => either.resolve_right formal)

end Program.Covers

/-- Calls of one kind do, in richer states, what calls of another kind do. -/
def Carries (program : Program) (home : Nat)
    (call call' : CondProcedure Value → List Value → Eval Value) : Prop :=
  ∀ (trusted : String → Prop) (serial : Nat) (procedure : Procedure) (arguments : List Value)
    (richer poorer after : State) (value : Value), program.Has procedure →
    program.Governs home poorer → program.Covers home trusted richer poorer →
    (∀ argument ∈ arguments, argument.IsNumber) →
    call (procedure.compiled home serial) arguments poorer = .ok value after →
    ∃ after', call' (procedure.compiled home serial) arguments richer = .ok value after' ∧
      program.Covers home trusted after' after

section Transfer

variable {program : Program} {home : Nat} {call call' : CallModel} {both both' : Bool}
variable {level level' : Nat} {trusted : String → Prop}

theorem apply_carries (carries : Carries program home (call level) (call' level')) {name : String}
    {procedure value : Value} {arguments : List Value} {richer poorer after : State}
    (stands : Stands home .numeric (program.meaning name) (some procedure))
    (governs : program.Governs home poorer) (covers : program.Covers home trusted richer poorer)
    (numbers : ∀ argument ∈ arguments, argument.IsNumber)
    (done : procedure.apply call level arguments poorer = .ok value after) :
    ∃ after', procedure.apply call' level' arguments richer = .ok value after' ∧
      program.Covers home trusted after' after := by
  generalize means : program.meaning name = callee at stands
  cases stands with
  | builtin operation =>
      rw [Value.apply] at done ⊢
      cases applied : operation.apply arguments with
      | error failure =>
          rw [applied] at done
          cases done
      | ok result =>
          rw [applied] at done
          cases done
          exact ⟨richer, rfl, covers⟩
  | procedure _ definition serial =>
      obtain ⟨_, has⟩ := Program.has_of_meaning means
      exact carries trusted serial definition arguments richer poorer after value has governs
        covers numbers done

mutual
theorem eval_carries (framed : Framed program home call) {level level' : Nat}
    (carries : ∀ more, Carries program home (call (level + more)) (call' (level' + more)))
    (term : Term String) (depth depth' : Nat) {richer poorer after : State} {value : Value}
    (plain : .call "define" ∉ term.actions)
    (known : ∀ name, .read name ∈ term.actions → trusted name ∨ ¬ program.IsFormal name)
    (governs : program.Governs home poorer) (covers : program.Covers home trusted richer poorer)
    (done : Node.eval call home both level ((term.map .text).node depth) poorer =
      .ok value after) :
    ∃ after', Node.eval call' home both' level' ((term.map .text).node depth') richer =
        .ok value after' ∧ program.Covers home trusted after' after := by
  cases term with
  | leaf name =>
      obtain ⟨rfl, number, rfl, read⟩ := eval_leaf_ok done
      have same := covers.agrees name (known name (List.mem_singleton.mpr rfl))
      refine ⟨richer, ?_, covers⟩
      rw [Term.map, Term.node, eval_literal, ← State.binding, same, State.binding, read]
  | call name operands =>
      simp only [Term.actions, List.mem_append, List.mem_singleton, Action.call.injEq,
        not_or] at plain
      obtain ⟨procedure, arguments, middle, bound, isProcedure, ran, applied⟩ :=
        eval_call_ok (Ne.symm plain.2) done
      -- the operands stand two levels deeper, so calls are compared at all deeper levels
      have deeper : ∀ more, Carries program home (call (level + 2 + more))
          (call' (level' + 2 + more)) := by
        intro more
        rw [Nat.add_assoc, Nat.add_assoc]
        exact carries (2 + more)
      obtain ⟨middle', ran', coversMiddle⟩ := evalAll_carries framed deeper operands (depth + 1)
        (depth' + 1) plain.1 (fun name read => known name (List.mem_append_left _ read)) governs
        covers ran
      obtain ⟨numbers, changes⟩ := evalAll_changes framed (Term.mapAll .text operands)
        (fun calls => plain.1 ((Term.call_mem_actionsOfAll_mapAll _ _ operands).mp calls))
        governs ran
      obtain ⟨after', applied', coversAfter⟩ := apply_carries (carries 0)
        (governs name procedure bound isProcedure) (governs.after changes) coversMiddle numbers
        applied
      refine ⟨after', ?_, coversAfter⟩
      have found := covers.procedures name procedure bound isProcedure
      rw [Term.map, Term.node, eval_call (Ne.symm plain.2) found isProcedure, Eval.bind_ok ran']
      exact applied'

theorem evalAll_carries (framed : Framed program home call) {level level' : Nat}
    (carries : ∀ more, Carries program home (call (level + more)) (call' (level' + more)))
    (operands : List (Term String)) (depth depth' : Nat) {richer poorer after : State}
    {values : List Value} (plain : .call "define" ∉ Term.actionsOfAll operands)
    (known : ∀ name, .read name ∈ Term.actionsOfAll operands →
      trusted name ∨ ¬ program.IsFormal name)
    (governs : program.Governs home poorer) (covers : program.Covers home trusted richer poorer)
    (done : evalAll call home both level (Term.nodes depth (Term.mapAll .text operands)) poorer =
      .ok values after) :
    ∃ after', evalAll call' home both' level' (Term.nodes depth' (Term.mapAll .text operands))
        richer = .ok values after' ∧ program.Covers home trusted after' after := by
  cases operands with
  | nil =>
      cases done
      exact ⟨richer, rfl, covers⟩
  | cons operand rest =>
      simp only [Term.actionsOfAll, List.mem_append, not_or] at plain
      obtain ⟨value, middle, others, ran, more, rfl⟩ := evalAll_cons_ok done
      obtain ⟨middle', ran', coversMiddle⟩ := eval_carries framed carries operand depth depth'
        plain.1 (fun name read => known name (List.mem_append_left _ read)) governs covers ran
      obtain ⟨_, changes⟩ := eval_text_changes framed operand plain.1 governs ran
      obtain ⟨after', more', coversAfter⟩ := evalAll_carries framed carries rest depth depth'
        plain.2 (fun name read => known name (List.mem_append_right _ read))
        (governs.after changes) coversMiddle more
      refine ⟨after', ?_, coversAfter⟩
      rw [Term.mapAll, Term.nodes, evalAll_cons, Eval.bind_ok ran', Eval.bind_ok more']
      rfl
end

theorem guard_carries (framed : Framed program home call)
    (carries : ∀ more, Carries program home (call (level + more)) (call' (level' + more)))
    (guard : Guard) (depth : Nat) {richer poorer after : State} {value : Value}
    (plain : .call "define" ∉ guard.actions)
    (known : ∀ name, .read name ∈ guard.actions ∨ name ∈ guard.words →
      trusted name ∨ ¬ program.IsFormal name)
    (governs : program.Governs home poorer) (covers : program.Covers home trusted richer poorer)
    (done : Node.eval call home both level (guard.node depth) poorer = .ok value after) :
    ∃ after', Node.eval call' home both' level' (guard.node depth) richer = .ok value after' ∧
      program.Covers home trusted after' after := by
  cases guard with
  | word name =>
      rw [Guard.node, eval_operator] at done
      cases done
      have same := covers.agrees name (known name (.inr (List.mem_singleton.mpr rfl)))
      refine ⟨richer, ?_, covers⟩
      rw [Guard.node, eval_operator, ← State.binding, same]
      rfl
  | test term =>
      exact eval_carries framed carries term depth depth plain
        (fun name read => known name (.inl read)) governs covers done

/-- The same clause is selected in a richer state. -/
theorem selectClause_carries (framed : Framed program home call)
    (carries : ∀ more, Carries program home (call (level + more)) (call' (level' + more)))
    {eval eval' : Form → Eval Value}
    (runs : ∀ node state value after, eval node state = .ok value after →
      Node.eval call home both level node state = .ok value after)
    (reruns : ∀ node poorer richer value after after', eval node poorer = .ok value after →
      Node.eval call' home both' level' node richer = .ok value after' →
      eval' node richer = .ok value after')
    {name : String} {clauses : List (Guard × Term String)} {richer poorer after : State}
    {result : Form} (plain : .call "define" ∉ Procedure.guardActions clauses)
    (known : ∀ clause ∈ clauses, ∀ name, .read name ∈ clause.1.actions ∨ name ∈ clause.1.words →
      trusted name ∨ ¬ program.IsFormal name)
    (governs : program.Governs home poorer) (covers : program.Covers home trusted richer poorer)
    (done : selectClause eval name (Procedure.clauseNodes clauses) poorer = .ok result after) :
    ∃ after', selectClause eval' name (Procedure.clauseNodes clauses) richer = .ok result after' ∧
      program.Covers home trusted after' after := by
  induction clauses generalizing richer poorer with
  | nil => cases done
  | cons clause clauses ih =>
      simp only [Procedure.guardActions, List.flatMap_cons, List.mem_append, not_or] at plain
      rw [Procedure.clauseNodes, List.map_cons, selectClause] at done
      obtain ⟨tested, middle, test, rest⟩ := Eval.of_bind_ok done
      have ran := runs _ _ _ _ test
      obtain ⟨middle', ran', coversMiddle⟩ := guard_carries framed carries clause.1 3 plain.1
        (known clause List.mem_cons_self) governs covers ran
      rw [Procedure.clauseNodes, List.map_cons, selectClause,
        Eval.bind_ok (reruns _ _ _ _ _ _ test ran')]
      split at rest
      · rename_i holds
        cases rest
        rw [if_pos holds]
        exact ⟨middle', rfl, coversMiddle⟩
      · rename_i fails
        rw [if_neg fails]
        exact ih plain.2 (fun clause member => known clause (List.mem_cons_of_mem _ member))
          (governs.after (guard_changes framed clause.1 plain.1 governs ran)) coversMiddle rest

end Transfer

/-- Programs whose clauses look at own formals and at names that no call binds. -/
structure Program.SelfContained (program : Program) : Prop where
  plain : program.Plain
  reads : ∀ procedure, program.Has procedure → ∀ name, .read name ∈ procedure.actions →
    name ∈ procedure.formals ∨ ¬ program.IsFormal name
  words : ∀ procedure, program.Has procedure → ∀ clause ∈ procedure.clauses,
    ∀ word ∈ clause.1.words, word ∈ procedure.formals ∨ ¬ program.IsFormal word

theorem Program.SelfContained.guards {program : Program} (selfContained : program.SelfContained)
    {procedure : Procedure} (has : program.Has procedure) {clause : Guard × Term String}
    (inside : clause ∈ procedure.clauses) {name : String}
    (looks : .read name ∈ clause.1.actions ∨ name ∈ clause.1.words) :
    name ∈ procedure.formals ∨ ¬ program.IsFormal name := by
  rcases looks with read | word
  · exact selfContained.reads procedure has name (Procedure.test_mem_actions inside read)
  · exact selfContained.words procedure has clause inside name word

theorem run_carries {program : Program} (selfContained : program.SelfContained) {home : Nat}
    {limit limit' room room' : Nat} {trusted : String → Prop} (more : room ≤ room')
    (carries : ∀ level, Carries program home (callWithin limit room level)
      (callWithin limit' room' level))
    {procedure : Procedure} (has : program.Has procedure) {richer poorer after : State}
    {value : Value} (governs : program.Governs home poorer)
    (covers : program.Covers home (fun name => trusted name ∨ name ∈ procedure.formals) richer
      poorer)
    (done : procedure.run limit home room poorer = .ok value after) :
    ∃ after', procedure.run limit' home room' richer = .ok value after' ∧
      program.Covers home trusted after' after := by
  have framed : Framed program home (callWithin limit room) :=
    callWithin_framed selfContained.plain limit room
  obtain ⟨earlier, chosen, later, middle, split, selected, changes, fits, ran⟩ :=
    run_ok selfContained.plain framed has governs done
  have inside : chosen ∈ procedure.clauses := by simp [split]
  have reruns : ∀ node poorer richer value after after',
      evalWithin limit (callWithin limit room) home room 2 node poorer = .ok value after →
      Node.eval (callWithin limit' room') home false 2 node richer = .ok value after' →
      evalWithin limit' (callWithin limit' room') home room' 2 node richer = .ok value after' := by
    intro node poorer richer value after after' within ran
    have fits := (evalWithin_ok within).1
    rw [evalWithin_run (by omega)]
    exact ran
  obtain ⟨middle', selected', coversMiddle⟩ := selectClause_carries framed
    (fun level => carries (2 + level)) (fun _ _ _ _ within => (evalWithin_ok within).2) reruns
    (selfContained.plain.guards has)
    (fun clause member name looks => (selfContained.guards has member looks).imp_left .inr)
    governs covers selected
  obtain ⟨after', ran', coversAfter⟩ := eval_carries framed (fun level => carries (1 + level))
    chosen.2 3 3 (selfContained.plain.result has inside)
    (fun name read => (selfContained.reads procedure has name
      (Procedure.result_mem_actions inside read)).imp_left .inr)
    (governs.after changes) coversMiddle ran
  refine ⟨after', ?_, coversAfter.mono fun name => .inl⟩
  rw [Procedure.run, Eval.bind_ok selected', evalWithin_run (by omega)]
  exact ran'

/-- A call that succeeds also succeeds in a richer state and with more room. -/
theorem callWithin_carries {program : Program} (selfContained : program.SelfContained)
    (home limit limit' : Nat) {room room' level level' : Nat}
    (more : room + level' ≤ room' + level) :
    Carries program home (callWithin limit room level) (callWithin limit' room' level') := by
  rw [callWithin_level limit room, callWithin_level limit' room']
  generalize left : room - level = fewer
  generalize left' : room' - level' = rest
  -- the rooms are compared where a call is left at all
  have enough : fewer = 0 ∨ fewer ≤ rest := by omega
  clear left left' more
  induction fewer using Nat.strongRecOn generalizing rest with
  | ind fewer ih =>
      intro trusted serial procedure arguments richer poorer after value has governs covers
        numbers done
      cases fewer with
      | zero =>
          obtain ⟨failed, run⟩ := callWithin_zero limit home serial procedure arguments poorer 0
          rw [run] at done
          cases done
      | succ fewer =>
          obtain ⟨rest, rfl⟩ : ∃ less, rest = less + 1 := ⟨rest - 1, by omega⟩
          obtain ⟨poorerBound, poorerBinds, run⟩ :=
            callWithin_succ limit home serial procedure arguments poorer fewer
          obtain ⟨richerBound, richerBinds, run'⟩ :=
            callWithin_succ limit' home serial procedure arguments richer rest
          rw [run] at done
          rw [run']
          have carries : ∀ level, Carries program home (callWithin limit fewer level)
              (callWithin limit' rest level) := by
            intro level
            rw [callWithin_level limit fewer, callWithin_level limit' rest]
            exact ih (fewer - level) (by omega) (rest - level) (by omega)
          exact run_carries selfContained (by omega) carries has
            (governs.after (poorerBinds.changes numbers))
            (covers.bind richerBinds.numeric poorerBinds.numeric) done

end Stepper
