import Stepper.Proofs.Rereading
import Stepper.Proofs.Stepping
import Stepper.Proofs.Views

/-!
The cap cuts a trace and does nothing else. Where a trace stops is fixed by the
form and the tables: it goes on from text to text until it reaches a literal or a
step gives `nan`, and a cap only ends it earlier.
-/

namespace Stepper

/-- Steps from one form to another, each on what the step before it wrote, and
the values that they give. -/
inductive Walks (limit home : Nat) : Form → State → List Value → Form → State → Prop where
  | stay (form : Form) (state : State) : Walks limit home form state [] form state
  | step {children : List Form} {frame : Frame} {stepped next last : Form} {value : Value}
      {values : List Value} {state middle read after : State}
      (expands : expand limit home (.expression children frame) state =
        (⟨stepped, .ok value⟩, middle))
      (reads : readOn stepped value middle = .ok (some next) read)
      (later : Walks limit home next read values last after) :
      Walks limit home (.expression children frame) state (value :: values) last after

/-- A step on the form gives `nan`. -/
def StepsToNan (limit home : Nat) (form : Form) (state : State) : Prop :=
  ∃ stepped value after, expand limit home form state = (⟨stepped, .ok value⟩, after) ∧
    value.isNan = true

/-- The steps with these values lead to a form on which a step gives `nan`. -/
def StopsOnNan (limit home : Nat) (form : Form) (state : State) (values : List Value) : Prop :=
  ∃ last after, Walks limit home form state values last after ∧
    StepsToNan limit home last after

section Loop

variable {limit home : Nat} {form last : Form} {values : List Value} {state after : State}

theorem readOn_isNan {node : Form} {value : Value} {next? : Option Form}
    (done : readOn node value state = .ok next? after) :
    value.isNan = next?.isNone := by
  obtain ⟨_, reported, _, rest⟩ := Eval.of_bind_ok done
  split at rest
  · rename_i isNan
    obtain ⟨_, _, _, finished⟩ := Eval.of_bind_ok rest
    cases finished
    exact isNan
  · rename_i isNan
    obtain ⟨next, _, _, finished⟩ := Eval.of_bind_ok rest
    cases finished
    simpa using isNan

theorem expandAll_zero (limit home : Nat) (cap : Int) (form : Form) (state : State) :
    (expandAll limit home cap 0 form state).1.result = .ok [] := by
  cases form with
  | expression children frame =>
      have words : (Event.stopped cap).report = .ok _ := rfl
      obtain ⟨after, reported, _⟩ := Eval.report_run words state
      rw [expandAll, stateM_bind (attempt_ok reported)]
      rfl
  | _ => rw [expandAll_other fun _ _ same => by cases same]

/-- A trace is a walk that is as long as the cap allows, unless it ends by itself. -/
theorem walks_of_expandAll {cap : Int} {remaining : Nat}
    (done : (expandAll limit home cap remaining form state).1.result = .ok values) :
    values.length ≤ remaining ∧ ∃ last after, Walks limit home form state values last after ∧
      (values.length < remaining → StepsToNan limit home last after ∨
        ∀ children frame, last ≠ .expression children frame) := by
  induction remaining generalizing form state values with
  | zero =>
      rw [expandAll_zero] at done
      cases done
      exact ⟨le_rfl, form, state, .stay form state, fun less => absurd less (Nat.not_lt_zero _)⟩
  | succ remaining ih =>
      cases form with
      | expression children frame =>
          rcases ran : expandAll limit home cap (remaining + 1) (.expression children frame) state with
            ⟨⟨node, result⟩, after⟩
          rw [ran] at done
          obtain rfl : result = .ok values := done
          obtain ⟨value, middle, next?, read, expands, reads, ⟨rfl, rfl⟩ | ⟨next, last, later, rfl,
            rest, rfl⟩⟩ := expandAll_succ ran
          · refine ⟨Nat.zero_le _, _, state, .stay _ state, fun _ => .inl ?_⟩
            exact ⟨node, value, middle, expands, readOn_isNan reads⟩
          · obtain ⟨bounded, last, after, walks, ends⟩ := ih (by rw [rest])
            refine ⟨Nat.succ_le_succ bounded, last, after, .step expands reads walks, fun less => ?_⟩
            exact ends (Nat.lt_of_succ_lt_succ less)
      | _ =>
          rw [expandAll_other fun _ _ same => by cases same] at done
          cases done
          exact ⟨Nat.zero_le _, _, state, .stay _ state, fun _ => .inr fun _ _ same => by cases same⟩

/-- A run with a smaller cap does the same steps. -/
theorem expandAll_take {cap : Int} {fewer remaining : Nat}
    (done : (expandAll limit home cap remaining form state).1.result = .ok values)
    (le : fewer ≤ remaining) (smaller : Int) :
    (expandAll limit home smaller fewer form state).1.result = .ok (values.take fewer) := by
  induction fewer generalizing remaining form state values with
  | zero => exact expandAll_zero limit home smaller form state
  | succ fewer ih =>
      obtain ⟨remaining, rfl⟩ : ∃ more, remaining = more + 1 := ⟨remaining - 1, by omega⟩
      cases form with
      | expression children frame =>
          rcases ran : expandAll limit home cap (remaining + 1) (.expression children frame) state with
            ⟨⟨node, result⟩, after⟩
          rw [ran] at done
          obtain rfl : result = .ok values := done
          obtain ⟨value, middle, next?, read, expands, reads, ends⟩ := expandAll_succ ran
          rw [expandAll, stateM_bind expands]
          dsimp only
          rw [stateM_bind (attempt_ok reads)]
          rcases ends with ⟨rfl, rfl⟩ | ⟨next, last, later, rfl, rest, rfl⟩
          · rfl
          · have shorter := ih (by rw [rest]) (Nat.le_of_succ_le_succ le)
            rw [List.take_succ_cons]
            change Except.map _ (expandAll limit home smaller fewer next read).1.result = _
            rw [shorter]
            rfl
      | _ =>
          rw [expandAll_other fun _ _ same => by cases same] at done ⊢
          cases done
          rfl

end Loop

section Texts

variable {limit home : Nat} {form last : Form} {values : List Value} {state after : State}

theorem isRead_of_reread {value : Value} (legible : value.Legible) (again : reread value = .ok form) :
    form.IsRead := by
  have answers := reread_answers legible
  rwa [again] at answers

/-- Only a text is read back as an expression. -/
theorem text_of_reread {value : Value} {children : List Form} {frame : Frame}
    (legible : value.Legible) (again : reread value = .ok (.expression children frame)) :
    ∃ text, value = .text text ∧ Node.read text = .ok (.expression children frame) := by
  obtain ⟨text, formatted, read⟩ := of_except_bind_ok again
  rcases legible with isDatum | ⟨text, rfl, _⟩
  · have isRun : Token.IsRun text := Value.IsPlain.isRun_format (.inl isDatum) formatted
    have bare : Node.bareLiteral text = .ok (.expression children frame) :=
      (Node.read_bare (Phrase.content_word isRun)).symm.trans read
    rcases Node.of_bareLiteral bare with word | ⟨number, same⟩
    · cases word
    · cases same
  · cases formatted
    exact ⟨text, rfl, read⟩

/-- What one step of a trace gives and where it leads. -/
theorem legible_of_step {children : List Form} {frame : Frame} {stepped next : Form} {value : Value}
    {middle : State} (sound : state.Sound home) (isRead : (Node.expression children frame).IsRead)
    (expands : expand limit home (.expression children frame) state =
      (⟨stepped, .ok value⟩, middle))
    (reads : readOn stepped value middle = .ok (some next) after) :
    value.Legible ∧ reread value = .ok next ∧ next.IsRead ∧ after.Sound home := by
  have kept := expand_keeps limit _ isRead state sound
  rw [expands] at kept
  obtain ⟨legible, soundMiddle⟩ : value.Legible ∧ middle.Sound home := kept
  obtain ⟨again, same⟩ := readOn_ok reads
  exact ⟨legible, again, isRead_of_reread legible again, soundMiddle.of_tables (same home)⟩

namespace Walks

theorem not_nan (walks : Walks limit home form state values last after) :
    ∀ value ∈ values, value.isNan = false := by
  induction walks with
  | stay form state => simp
  | step expands reads later ih => exact List.forall_mem_cons.mpr ⟨readOn_isNan reads, ih⟩

/-- All steps but the last write an expression, since a step was done on it. -/
theorem expressions (walks : Walks limit home form state values last after)
    (sound : state.Sound home) (isRead : form.IsRead) :
    ∀ value ∈ values.dropLast, ∃ text children frame, value = .text text ∧
      Node.read text = .ok (.expression children frame) := by
  induction walks with
  | stay form state => simp
  | step expands reads later ih =>
      obtain ⟨legible, again, readNext, soundNext⟩ := legible_of_step sound isRead expands reads
      have others := ih soundNext readNext
      cases later with
      | stay form state => simp
      | @step children frame _ _ _ _ _ _ _ _ _ expandsNext readsNext laterNext =>
          obtain ⟨text, isText, read⟩ := text_of_reread legible again
          rw [List.dropLast_cons_cons]
          exact List.forall_mem_cons.mpr ⟨⟨text, children, frame, isText, read⟩, others⟩

theorem last_isRead (walks : Walks limit home form state values last after)
    (sound : state.Sound home) (isRead : form.IsRead) :
    last.IsRead ∧ (values = [] ∧ last = form ∨
      ∃ value, values.getLast? = some value ∧ reread value = .ok last) := by
  induction walks with
  | stay form state => exact ⟨isRead, .inl ⟨rfl, rfl⟩⟩
  | @step _ _ _ _ _ value _ _ _ _ _ expands reads later ih =>
      obtain ⟨_, again, readNext, soundNext⟩ := legible_of_step sound isRead expands reads
      obtain ⟨readLast, ⟨rfl, rfl⟩ | ⟨final, getLast, againLast⟩⟩ := ih soundNext readNext
      · exact ⟨readLast, .inr ⟨value, rfl, again⟩⟩
      · refine ⟨readLast, .inr ⟨final, ?_, againLast⟩⟩
        rw [List.getLast?_cons, getLast]
        rfl

end Walks

theorem Node.IsRead.literal_of_not_expression {node : Form} (isRead : node.IsRead)
    (other : ∀ children frame, node ≠ .expression children frame) :
    ∃ value depth, node = .literal value depth := by
  cases node with
  | literal value depth => exact ⟨value, depth, rfl⟩
  | expression children frame => exact absurd rfl (other children frame)
  | blank => rcases isRead with ⟨_, _, isLiteral⟩ | written <;> contradiction
  | operator name depth =>
      rcases isRead with ⟨_, _, isLiteral⟩ | written
      · cases isLiteral
      · cases written.1

end Texts

/-- The cap only cuts a trace: with a smaller one the steps are the first of
those with a larger one. No step is `nan`, every step but the last is the text of
an expression, and a trace that ends below its cap ends with a literal unless the
next step gives `nan`. -/
theorem cap_only_cuts_trace {interpreter : Interpreter} {state after : State}
    (reached : interpreter.Reached state) {source : String} {children : List Form} {frame : Frame}
    (read : Node.readForm source = .ok (.expression children frame)) {limit : Nat}
    {smaller larger : Int} (le : smaller ≤ larger) {values : List Value}
    (traced : Interpreter.perform ⟨interpreter.home, larger⟩ limit .trace source state =
      .ok (.steps values) after) :
    (∃ after', Interpreter.perform ⟨interpreter.home, smaller⟩ limit .trace source state =
      .ok (.steps (values.take smaller.toNat)) after') ∧
    values.length ≤ larger.toNat ∧
    (∀ value ∈ values, value.isNan = false) ∧
    (∀ value ∈ values.dropLast, ∃ text children frame, value = .text text ∧
      Node.read text = .ok (.expression children frame)) ∧
    ((values.length : Int) < larger →
      StopsOnNan limit interpreter.home (.expression children frame) state values ∨
      ∃ value literal depth, values.getLast? = some value ∧
        reread value = .ok (.literal literal depth)) := by
  obtain ⟨node, expanded⟩ := (Interpreter.perform_trace_iff read).mp traced
  have result : (expandAll limit interpreter.home larger larger.toNat (.expression children frame)
      state).1.result = .ok values := by rw [expanded]
  obtain ⟨bounded, last, stop, walks, ends⟩ := walks_of_expandAll result
  have isRead := Node.isRead_of_readForm read
  refine ⟨?_, bounded, walks.not_nan, walks.expressions reached.sound isRead, fun less => ?_⟩
  · have shorter := expandAll_take result (Int.toNat_le_toNat le) smaller
    rcases cut : expandAll limit interpreter.home smaller smaller.toNat
      (.expression children frame) state with ⟨⟨left, outcome⟩, after'⟩
    rw [cut] at shorter
    obtain rfl : outcome = _ := shorter
    exact ⟨after', (Interpreter.perform_trace_iff read).mpr ⟨left, cut⟩⟩
  · rcases ends (by simpa using less) with stepsToNan | other
    · exact .inl ⟨last, stop, walks, stepsToNan⟩
    · obtain ⟨readLast, ⟨_, rfl⟩ | ⟨value, getLast, again⟩⟩ := walks.last_isRead reached.sound isRead
      · exact absurd rfl (other children frame)
      · obtain ⟨literal, depth, rfl⟩ := readLast.literal_of_not_expression other
        exact .inr ⟨value, literal, depth, getLast, again⟩

theorem eq_texts {values : List Value} {texts : List String}
    (same : values.map Value.word? = texts.map some) : values = texts.map .text := by
  induction values generalizing texts with
  | nil =>
      cases texts with
      | nil => rfl
      | cons text rest => cases same
  | cons value rest ih =>
      cases texts with
      | nil => cases same
      | cons text others =>
          obtain ⟨isText, more⟩ := List.cons.inj same
          cases value with
          | text spelling =>
              cases isText
              rw [ih more, List.map_cons]
          | _ => cases isText

/-- The texts that a trace consists of. -/
def stepTexts : EStateM.Result Failure State Reply → List (Option String)
  | .ok (.steps values) _ => values.map Value.word?
  | _ => []

theorem of_stepTexts {run : EStateM.Result Failure State Reply} {text : String}
    {texts : List String} (gives : stepTexts run = (text :: texts).map some) :
    ∃ after, run = .ok (.steps ((text :: texts).map .text)) after := by
  unfold stepTexts at gives
  split at gives
  · rw [eq_texts gives]
    exact ⟨_, rfl⟩
  · cases gives

/-- An interpreter that reports everything and counts down to zero. -/
def countdownSession : State :=
  (attempt (Interpreter.serve ⟨0, 10⟩ 50
    (.perform .define "(define (f n) (cond ((= n 0) n) (else (f (- n 1)))))"))
    { threshold := some 10 }).2

theorem cap_only_cuts_trace_countdown :
    Interpreter.Reached ⟨0, 10⟩ countdownSession ∧
      Node.readForm "(f 1)" = .ok (.expression
        [.operator "f" 1, .literal (.text "1") 1] ⟨0, 1, none⟩) ∧
      (∃ after, Interpreter.perform ⟨0, 10⟩ 50 .trace "(f 1)" countdownSession =
        .ok (.steps [.text "(f (- 1 1))", .text "(f 0)", .text "0"]) after) ∧
      (∃ after, Interpreter.perform ⟨0, 2⟩ 50 .trace "(f 1)" countdownSession =
        .ok (.steps [.text "(f (- 1 1))", .text "(f 0)"]) after) := by
  have reached : Interpreter.Reached ⟨0, 10⟩ countdownSession := .serve 50 _ (.start rfl)
  have read : Node.readForm "(f 1)" = .ok (.expression
      [.operator "f" 1, .literal (.text "1") 1] ⟨0, 1, none⟩) := rfl
  have shown : stepTexts (Interpreter.perform ⟨0, 10⟩ 50 .trace "(f 1)" countdownSession) =
      ["(f (- 1 1))", "(f 0)", "0"].map some := by decide +kernel
  obtain ⟨after, traced⟩ := of_stepTexts shown
  have smaller : (2 : Int) ≤ 10 := by decide
  exact ⟨reached, read, ⟨after, traced⟩, (cap_only_cuts_trace reached read smaller traced).1⟩

end Stepper
