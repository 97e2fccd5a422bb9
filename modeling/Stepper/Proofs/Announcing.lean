import Stepper.Proofs.Reporting
import Stepper.Proofs.Views

/-!
The record with which a trace begins. Where it is made, the tree has to be
written, and writing takes levels of the stack. Apart from that the record
changes nothing: a trace that gets past it goes as it would without.
-/

namespace Stepper

namespace Node

mutual
/-- With levels enough a tree is written as ever. -/
theorem renderWithin_of_le {room : Nat} (node : Form) (fits : node.textLevels ≤ room) :
    node.renderWithin room = node.render := by
  cases node with
  | expression children frame =>
      rw [textLevels] at fits
      rw [renderWithin, render, onStack, if_neg (by omega),
        renderAllWithin_of_le children (by omega)]
  | _ => exact if_neg (Nat.not_lt.mpr fits)

theorem renderAllWithin_of_le {room : Nat} (nodes : List Form)
    (fits : textLevelsOfAll nodes ≤ room) :
    renderAllWithin room nodes = renderAll nodes := by
  cases nodes with
  | nil => rfl
  | cons node rest =>
      rw [textLevelsOfAll] at fits
      rw [renderAllWithin, renderAll, renderWithin_of_le node (by omega),
        renderAllWithin_of_le rest (by omega)]
end

mutual
/-- Without them, a tree that has a text cannot be written. -/
theorem renderWithin_of_lt {room : Nat} (node : Form) {text : String}
    (written : node.render = .ok text) (short : room < node.textLevels) :
    node.renderWithin room = .error .stackOverflow := by
  cases node with
  | expression children frame =>
      rw [textLevels] at short
      rw [render] at written
      obtain ⟨items, shown, _⟩ := of_except_bind_ok written
      rw [renderWithin, onStack]
      split
      · rfl
      · rw [renderAllWithin_of_lt children shown (by omega)]
        rfl
  | _ => exact if_pos short

theorem renderAllWithin_of_lt {room : Nat} (nodes : List Form) {texts : List String}
    (written : renderAll nodes = .ok texts) (short : room < textLevelsOfAll nodes) :
    renderAllWithin room nodes = .error .stackOverflow := by
  cases nodes with
  | nil => cases short
  | cons node rest =>
      rw [textLevelsOfAll] at short
      rw [renderAll] at written
      rw [renderAllWithin]
      obtain ⟨item, shown, more⟩ := of_except_bind_ok written
      obtain ⟨items, others, _⟩ := of_except_bind_ok more
      -- the first item that takes too many levels is the one that fails
      by_cases fits : node.textLevels ≤ room
      · rw [renderWithin_of_le node fits, shown, renderAllWithin_of_lt rest others (by omega)]
        rfl
      · rw [renderWithin_of_lt node shown (Nat.not_le.mp fits)]
        rfl
end

/-- A tree that was read is written exactly if the stack has the levels for it. -/
theorem renderWithin_overflows_iff {room : Nat} {source : String} {form : Form}
    (read : readForm source = .ok form) :
    form.renderWithin room = .error .stackOverflow ↔ room < form.textLevels := by
  constructor
  · intro overflows
    by_contra fits
    rw [renderWithin_of_le form (Nat.not_lt.mp fits)] at overflows
    cases (form.render_documented _ overflows).documented
  · intro short
    cases form with
    | expression children frame =>
        obtain ⟨items, _, isTree⟩ := exists_items_of_readForm read
        have written := Phrase.render_tree items
        rw [← isTree] at written
        exact renderWithin_of_lt _ written short
    | _ => exact if_pos short

end Node

namespace Interpreter

variable {interpreter : Interpreter} {limit : Nat} {source : String} {form : Form} {state : State}

theorem announce_error (wanted : state.wants .debug = true) {failure : Failure}
    (unwritten : form.renderWithin limit = .error failure) :
    interpreter.announce limit form state = .error failure state := by
  rw [announce, Eval.bind_get, if_pos wanted, unwritten]
  rfl

/-- The record adds to the log, or the tree cannot be written and nothing changes. -/
theorem announce_cases (interpreter : Interpreter) (limit : Nat) (form : Form) (state : State) :
    (∃ after, interpreter.announce limit form state = .ok () after ∧
        State.Relogged state.threshold state after) ∨
      ∃ failure, interpreter.announce limit form state = .error failure state ∧
        state.wants .debug = true ∧ form.renderWithin limit = .error failure := by
  by_cases wanted : state.wants .debug = true
  · cases written : form.renderWithin limit with
    | error failure => exact .inr ⟨failure, announce_error wanted written, wanted, rfl⟩
    | ok shown =>
        have words : (Event.expanding shown interpreter.cap).report = .ok _ := rfl
        obtain ⟨after, reported, _⟩ := Eval.report_run words state
        refine .inl ⟨after, ?_, rfl, Eval.report_relogs reported⟩
        rw [announce, Eval.bind_get, if_pos wanted, written,
          Eval.bind_ok (Eval.ofExcept_ok ..), reported]
  · refine .inl ⟨state, ?_, state.relogged_self⟩
    rw [announce, Eval.bind_get, if_neg wanted]
    rfl

theorem attempt_serve_unannounced (read : Node.readForm source = .ok form) {failure : Failure}
    (failed : interpreter.announce limit form state = .error failure state) :
    attempt (interpreter.serve limit (.perform .trace source)) state = (.error failure, state) := by
  have attempted : attempt (interpreter.announce limit form) state = (.error failure, state) := by
    rw [attempt, EStateM.run, failed]
  rw [serve, attempt_onText read, serveOn, stateM_bind attempted]
  rfl

/-- A trace that is announced gives what it gives without the record. -/
theorem attempt_serve_announced (read : Node.readForm source = .ok form) {middle : State}
    (announced : interpreter.announce limit form state = .ok () middle)
    (relogged : State.Relogged state.threshold state middle) :
    (attempt (interpreter.serve limit (.perform .trace source)) state).1 =
        (attempt (interpreter.perform limit .trace source) state).1 ∧
      State.Relogged state.threshold (attempt (interpreter.perform limit .trace source) state).2
        (attempt (interpreter.serve limit (.perform .trace source)) state).2 := by
  obtain ⟨same, kept⟩ := performOn_overlooks .trace form state middle relogged
  rw [serve, perform, attempt_onText read, attempt_onText read, serveOn,
    stateM_bind (attempt_ok announced)]
  exact ⟨congrArg Stepped.result same, kept⟩

end Interpreter

end Stepper
