import Stepper.Proofs.SymbolicStep

/-!
What a step writes can be read back. The text of a step is a form or a single
word, so a trace goes on from it; reading can only refuse an integer with too
many digits.
-/

namespace Stepper

namespace Interpreter

variable {interpreter : Interpreter} {limit : Nat} {task : Task} {source : String} {form : Form}
variable {state : State}

/-- A task on a text that was read answers as it does on the form. -/
theorem Reached.perform_answers (reached : interpreter.Reached state)
    (read : Node.readForm source = .ok form) {gives : Reply → Prop}
    (performs : Keeps interpreter.home
      (fun step => Answers Failure.PastReading gives step.result)
      (interpreter.performOn limit task form)) :
    Answers Failure.PastReading gives
      (attempt (interpreter.perform limit task source) state).1 := by
  rw [perform, attempt_onText read]
  exact (performs state reached.sound).1

theorem performOn_expand_keeps (interpreter : Interpreter) (limit : Nat) (isRead : form.IsRead) :
    Keeps interpreter.home
      (fun step => Answers Failure.PastReading
        (fun reply => ∃ value : Value, reply = .value value ∧ value.Legible) step.result)
      (interpreter.performOn limit .expand form) := by
  refine .bind (expand_keeps limit form isRead) fun step answers => ?_
  exact .pure (answers.map fun value legible => ⟨value, rfl, legible⟩)

theorem performOn_trace_keeps (interpreter : Interpreter) (limit : Nat) (isRead : form.IsRead) :
    Keeps interpreter.home
      (fun step => Answers Failure.PastReading (fun _ => True) step.result)
      (interpreter.performOn limit .trace form) := by
  refine .bind (expandAll_keeps limit interpreter.cap interpreter.cap.toNat isRead)
    fun step answers => ?_
  exact .pure (answers.map fun _ _ => trivial)

end Interpreter

/-- In every session on texts, what a step on an expression gives can be written
and read back, integers with too many digits aside. No step and no trace fails
because a text that it wrote cannot be read. -/
theorem steps_can_be_read_back {interpreter : Interpreter} {state : State}
    (reached : interpreter.Reached state) {source : String} {children : List Form} {frame : Frame}
    (read : Node.readForm source = .ok (.expression children frame)) (limit : Nat) :
    (∀ value after, interpreter.perform limit .expand source state = .ok (.value value) after →
      (∀ text, value = .text text → ReadsBack text) ∧
      ((∀ text, value ≠ .text text) →
        (∃ text, value.format = .ok text ∧ ReadsBack text) ∨
          value.format = .error (.badValue .longInteger))) ∧
    ∀ task, task = .expand ∨ task = .trace → ∀ cause after,
      interpreter.perform limit task source state = .error (.malformed cause) after →
        cause.ofReading = false := by
  have isRead := Node.isRead_of_readForm read
  have steps := reached.perform_answers read (interpreter.performOn_expand_keeps limit isRead)
  have traces := reached.perform_answers read (interpreter.performOn_trace_keeps limit isRead)
  refine ⟨fun value after done => ?_, fun task isStep cause after failed => ?_⟩
  · rw [attempt_ok done] at steps
    obtain ⟨_, same, legible⟩ := steps
    cases same
    refine ⟨?_, fun noText => ?_⟩
    · rintro text rfl
      exact (legible.isPhrase rfl).readsBack
    · rcases legible with isDatum | ⟨text, isText, _⟩
      · cases written : value.format with
        | ok text =>
          exact .inl ⟨text, rfl, (Value.Legible.isPhrase (.inl isDatum) written).readsBack⟩
        | error failure => exact .inr (congrArg Except.error (isDatum.format_error written))
      · exact absurd isText (noText text)
  · have refused : (attempt (interpreter.perform limit task source) state).1 =
        .error (.malformed cause) := by
      rw [attempt, EStateM.run, failed]
    rcases isStep with rfl | rfl
    · rw [refused] at steps
      exact steps.past
    · rw [refused] at traces
      exact traces.past

theorem steps_can_be_read_back_rebound :
    Interpreter.Reached ⟨0, 10⟩ rebindingSession ∧
      Node.readForm "(f 2 u)" = .ok (.expression
        [.operator "f" 1, .literal (.text "2") 1, .literal (.text "u") 1] ⟨0, 1, none⟩) ∧
      (∃ after, Interpreter.perform ⟨0, 10⟩ 50 .expand "(f 2 u)" rebindingSession =
        .ok (.value (.text "(x u y 5)")) after) ∧
      ReadsBack "(x u y 5)" := by
  have reached : Interpreter.Reached ⟨0, 10⟩ rebindingSession := .serve 50 _ (.start rfl)
  have read : Node.readForm "(f 2 u)" = .ok (.expression
      [.operator "f" 1, .literal (.text "2") 1, .literal (.text "u") 1] ⟨0, 1, none⟩) := rfl
  have shown : expanded? (Interpreter.perform ⟨0, 10⟩ 50 .expand "(f 2 u)" rebindingSession) =
      some "(x u y 5)" := by decide +kernel
  obtain ⟨after, ran⟩ := of_expanded? shown
  have readsBack := ((steps_can_be_read_back reached read 50).1 _ after ran).1 _ rfl
  exact ⟨reached, read, ⟨after, ran⟩, readsBack⟩

end Stepper
