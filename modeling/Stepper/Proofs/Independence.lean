import Stepper.Proofs.Safety

/-!
Numbers do not depend on the symbolic table. A definition is entered under both
readings, and its symbolic entry evaluates the constant once more, yet what is
evaluated, explained or defined never looks at what a symbolic name stands for.
-/

namespace Stepper

theorem EndsAlike.attempt {α : Type} {allowed : Failure → Prop} {kept : State → State → Prop}
    {one other : Eval α} {here there : State}
    (ends : EndsAlike allowed kept Eq (one here) (other there)) :
    (Stepper.attempt one here).1 = (Stepper.attempt other there).1 ∧
      kept (Stepper.attempt one here).2 (Stepper.attempt other there).2 := by
  simp only [Stepper.attempt, EStateM.run]
  generalize one here = run, other there = runOther at ends
  cases ends with
  | ok keeps equal => exact ⟨congrArg Except.ok equal, keeps⟩
  | error keeps _ => exact ⟨rfl, keeps⟩

namespace Interpreter

variable {one other : Interpreter} {here there : State}

/-- One request after the other, each on the twin states that the last one left. -/
theorem transcript_alike (limit : Nat) {requests : List Request}
    (still : ∀ request ∈ requests, request.takesSteps = false)
    (twin : Twin one.home other.home here there) :
    List.Forall₂
      (fun outcome outcome' => outcome.1 = outcome'.1 ∧
        Twin one.home other.home outcome.2 outcome'.2)
      (one.transcript limit requests here) (other.transcript limit requests there) := by
  induction requests generalizing here there with
  | nil => exact .nil
  | cons request rest ih =>
      obtain ⟨first, others⟩ := List.forall_mem_cons.mp still
      have same := (serve_alike limit first here there twin).attempt
      exact .cons same (ih others same.2)

/-- Sessions with equal numeric tables give equal replies and failures to the
same requests and keep their numeric tables equal, whatever their symbolic
tables hold. -/
theorem replies_ignore_symbolic_table (reached : one.Reached here)
    (reachedOther : other.Reached there)
    (same : (here.table one.home .numeric).unmarked = (there.table other.home .numeric).unmarked)
    (limit : Nat) {requests : List Request}
    (still : ∀ request ∈ requests, request.takesSteps = false) :
    List.Forall₂
      (fun outcome outcome' => outcome.1 = outcome'.1 ∧
        (outcome.2.table one.home .numeric).unmarked =
          (outcome'.2.table other.home .numeric).unmarked)
      (one.transcript limit requests here) (other.transcript limit requests there) :=
  (transcript_alike limit still ⟨reached.sound, reachedOther.sound, same⟩).imp
    fun _ _ alike => ⟨alike.1, alike.2.numeric⟩

theorem replies_ignore_symbolic_table_constant :
    let interpreter : Interpreter := ⟨0, 10⟩
    let changed := (attempt (interpreter.serve 50 (.perform .defineSymbolic "(define x 7)")) {}).2
    let requests : List Request :=
      [.perform .define "(define y (+ x 1))", .perform (.explain (.int 2)) "(+ y (* 2 3))"]
    (interpreter.Reached {} ∧ interpreter.Reached changed) ∧
      (({} : State).table 0 .numeric).unmarked = (changed.table 0 .numeric).unmarked ∧
      ({} : State).table 0 .symbolic ≠ changed.table 0 .symbolic ∧
      (∀ request ∈ requests, request.takesSteps = false) ∧
      List.Forall₂
        (fun outcome outcome' => outcome.1 = outcome'.1 ∧
          (outcome.2.table 0 .numeric).unmarked = (outcome'.2.table 0 .numeric).unmarked)
        (interpreter.transcript 50 requests {}) (interpreter.transcript 50 requests changed) := by
  intro interpreter changed requests
  have fresh : interpreter.Reached {} := .start rfl
  have reached : interpreter.Reached changed := .serve 50 _ fresh
  have same : (({} : State).table 0 .numeric).unmarked = (changed.table 0 .numeric).unmarked := rfl
  have still : ∀ request ∈ requests, request.takesSteps = false := by decide
  refine ⟨⟨fresh, reached⟩, same, fun equal => ?_, still,
    replies_ignore_symbolic_table fresh reached same 50 still⟩
  cases congrArg (fun table => table.bindings.length) equal

end Interpreter

end Stepper
