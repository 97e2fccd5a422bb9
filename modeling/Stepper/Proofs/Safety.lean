import Stepper.Proofs.Announcing
import Stepper.Proofs.Writing

/-!
How sessions on texts fail. Everything that an interpreter is asked to do, steps
included, keeps its tables sound, and in sound tables no operand is of a wrong
sort. What a step writes can be read again, so once its text is read a task fails
no more for want of a well-formed text. Only the record with which a trace begins
can fail in a way that is not documented.
-/

namespace Stepper

open Token (IsRun)

section Rules

variable {allowed : Failure → Prop} {home : Nat} {α β : Type} {gives : α → Prop}
variable {givesNext : β → Prop}

/-- Whether a computation gives what it should or fails as allowed. -/
def Answers {α : Type} (allowed : Failure → Prop) (gives : α → Prop) : Except Failure α → Prop
  | .ok a => gives a
  | .error failure => allowed failure

/-- Whether an action keeps the tables of `home` sound, and what it then gives. -/
def Keeps {α : Type} (home : Nat) (gives : α → Prop) (action : StateM State α) : Prop :=
  ∀ state : State, state.Sound home → gives (action state).1 ∧ (action state).2.Sound home

/-- As `Keeps`, of a computation that may fail as allowed. -/
def SafeWithin {α : Type} (allowed : Failure → Prop) (home : Nat) (gives : α → Prop)
    (action : Eval α) : Prop :=
  Keeps home (Answers allowed gives) (attempt action)

/-- As `Keeps`, of a computation on what was read. -/
abbrev Safe {α : Type} (home : Nat) (gives : α → Prop) (action : Eval α) : Prop :=
  SafeWithin Failure.PastReading home gives action

theorem Within.answers {action : Except Failure α} (within : Within allowed action)
    (given : ∀ a, action = .ok a → gives a) : Answers allowed gives action := by
  cases action with
  | ok a => exact given a rfl
  | error failure => exact within failure rfl

theorem Answers.bind {action : Except Failure α} {next : α → Except Failure β}
    (first : Answers allowed gives action)
    (second : ∀ a, gives a → Answers allowed givesNext (next a)) :
    Answers allowed givesNext (action >>= next) := by
  cases action with
  | ok a => exact second a first
  | error failure => exact first

theorem Answers.map {action : Except Failure α} {f : α → β} (first : Answers allowed gives action)
    (second : ∀ a, gives a → givesNext (f a)) : Answers allowed givesNext (action.map f) := by
  cases action with
  | ok a => exact second a first
  | error failure => exact first

theorem Answers.mono {weaker : α → Prop} {action : Except Failure α}
    (answers : Answers allowed gives action) (weaken : ∀ a, gives a → weaker a) :
    Answers allowed weaker action := by
  cases action with
  | ok a => exact weaken a answers
  | error failure => exact answers

theorem Answers.tolerate {more : Failure → Prop} {action : Except Failure α}
    (answers : Answers allowed gives action)
    (weaken : ∀ failure, allowed failure → more failure) : Answers more gives action := by
  cases action with
  | ok a => exact answers
  | error failure => exact weaken failure answers

namespace Keeps

theorem pure {a : α} (given : gives a) : Keeps home gives (pure a) :=
  fun _ sound => ⟨given, sound⟩

theorem bind {action : StateM State α} {next : α → StateM State β}
    (first : Keeps home gives action) (second : ∀ a, gives a → Keeps home givesNext (next a)) :
    Keeps home givesNext (action >>= next) := by
  intro state sound
  obtain ⟨given, kept⟩ := first state sound
  exact second _ given _ kept

theorem get {next : State → StateM State β}
    (go : ∀ state : State, state.Sound home → Keeps home givesNext (next state)) :
    Keeps home givesNext (MonadState.get >>= next) :=
  fun state sound => go state sound state sound

end Keeps

theorem attempt_bind (action : Eval α) (next : α → Eval β) :
    attempt (action >>= next) = (do
      match ← attempt action with
      | .ok a => attempt (next a)
      | .error failure => pure (.error failure)) := by
  funext state
  simp only [attempt, bind, StateT.bind, EStateM.bind, EStateM.run]
  cases action state with
  | ok a middle => rfl
  | error failure middle => rfl

namespace SafeWithin

theorem pure {a : α} (given : gives a) : SafeWithin allowed home gives (pure a) :=
  fun _ sound => ⟨given, sound⟩

theorem throw {failure : Failure} (isAllowed : allowed failure) :
    SafeWithin allowed home gives (throw failure) :=
  fun _ sound => ⟨isAllowed, sound⟩

theorem bind {action : Eval α} {next : α → Eval β} (first : SafeWithin allowed home gives action)
    (second : ∀ a, gives a → SafeWithin allowed home givesNext (next a)) :
    SafeWithin allowed home givesNext (action >>= next) := by
  rw [SafeWithin, attempt_bind]
  refine Keeps.bind first fun result answers => ?_
  cases result with
  | ok a => exact second a answers
  | error failure => exact Keeps.pure answers

theorem ofExcept {action : Except Failure α} (answers : Answers allowed gives action) :
    SafeWithin allowed home gives (Eval.ofExcept action) := by
  cases action with
  | ok a => exact pure answers
  | error failure => exact throw answers

theorem get {next : State → Eval β}
    (go : ∀ state : State, state.Sound home → SafeWithin allowed home givesNext (next state)) :
    SafeWithin allowed home givesNext (MonadState.get >>= next) :=
  fun state sound => go state sound state sound

/-- What ends alike in twin states is safe: a sound state is its own twin. -/
theorem of_alike {same : α → α → Prop} {action : Eval α}
    (alike : Pairs allowed (Twin home home) (Twin home home) same action action)
    (given : ∀ a b, same a b → gives a) :
    SafeWithin allowed home gives action := by
  intro state sound
  have ends := alike state state ⟨sound, sound, rfl⟩
  rw [attempt, EStateM.run]
  generalize action state = outcome at ends
  cases ends with
  | ok keeps equal => exact ⟨given _ _ equal, keeps.first⟩
  | error keeps isAllowed => exact ⟨isAllowed, keeps.first⟩

end SafeWithin

end Rules

/-! ### What can be read back -/

theorem reread_answers {value : Value} (legible : value.Legible) :
    Answers Failure.PastReading Node.IsRead (reread value) := by
  refine Within.answers ?_ fun form done => ?_
  · refine .bind value.format_documented fun source formatted => ?_
    obtain ⟨_, ⟨root, read, _⟩ | ⟨word, _, bare, _, _⟩⟩ := (legible.isPhrase formatted).readsBack
    · rw [read]
      exact .ok root
    · rw [Node.read_bare bare]
      exact Node.bareLiteral_documented word
  · obtain ⟨source, formatted, read⟩ := of_except_bind_ok done
    exact Node.isRead_of_read (legible.isPhrase formatted).readsBack.nonempty read

theorem renderLiteral_answers {home : Nat} {reading : Reading} {table : Table}
    (sound : table.Sound home reading) {value : Value} (plain : value.IsPlain) :
    Answers Failure.PastReading IsRun (renderLiteral table value) :=
  (renderLiteral_documented table value).answers fun _ => isRun_renderLiteral sound plain

mutual
/-- A tree is written as a phrase, wherever it stands. -/
theorem flatten_answers {home : Nat} {table : Table} (sound : table.Sound home .symbolic)
    (first : Bool) (node : Form) (solid : node.Solid) :
    Answers Failure.PastReading (IsPhrase first) (flatten table node) := by
  cases node with
  | blank => exact solid.elim
  | literal value depth =>
      exact (renderLiteral_answers sound solid).mono fun _ isRun => isRun.isPhrase first
  | operator name depth => exact Token.IsRun.isPhrase solid first
  | expression children frame =>
      rw [flatten]
      refine (flattenAll_answers sound true children solid).bind fun texts row => ?_
      obtain ⟨items, spelled, rfl⟩ := row
      exact ⟨.form items, spelled, rfl⟩

theorem flattenAll_answers {home : Nat} {table : Table} (sound : table.Sound home .symbolic)
    (first : Bool) (nodes : List Form) (solid : Node.SolidRow nodes) :
    Answers Failure.PastReading
      (fun texts => ∃ items, Phrase.SpelledRow first items ∧ Phrase.texts items = texts)
      (flattenAll table nodes) := by
  cases nodes with
  | nil => exact ⟨[], trivial, rfl⟩
  | cons node rest =>
      rw [flattenAll]
      refine (flatten_answers sound first node solid.1).bind fun text here => ?_
      refine (flattenAll_answers sound false rest solid.2).bind fun texts row => ?_
      obtain ⟨phrase, spelled, rfl⟩ := here
      obtain ⟨items, later, rfl⟩ := row
      exact ⟨phrase :: items, ⟨spelled, later⟩, rfl⟩
end

section Steps

variable {home : Nat} (limit : Nat)

theorem evaluate_safe (both : Bool) {node : Form} (isRead : node.IsRead) :
    Safe home Value.IsDatum (evaluate limit home both node) :=
  .of_alike (evaluate_alike limit both isRead) fun _ _ => And.right

theorem report_safe (event : Event) : Safe home (fun _ => True) (Eval.report event) := by
  refine .get fun state sound => ?_
  split
  · refine .bind (.ofExcept (event.report_documented.answers fun _ _ => trivial)) fun report _ => ?_
    exact fun _ _ => ⟨trivial, sound.of_tables fun _ => rfl⟩
  · exact .pure trivial

theorem flattenNow_safe {node : Form} (solid : node.Solid) :
    Safe home Value.Legible (flattenNow home node) := by
  refine .get fun state sound => ?_
  refine .bind (.ofExcept (flatten_answers (sound .symbolic) false node solid))
    fun source isPhrase => ?_
  exact .pure (.inr ⟨source, rfl, isPhrase⟩)

theorem resolve_safe (reading : Reading) (key : Value) :
    Safe home (fun found => ∀ value, found = some value → value.Fits home reading)
      (Eval.resolve home reading key) :=
  fun _ sound => ⟨fun _ => (sound reading).resolve_fits, sound⟩

theorem literalOrNumber_safe {value : Value} (plain : value.IsPlain) (depth : Int) :
    Safe home Value.IsPlain (literalOrNumber limit home value depth) := by
  have evaluated : Safe home Value.IsDatum (evaluate limit home false (.literal value depth)) :=
    .of_alike (eval_literal_alike false 0 plain depth) fun _ _ => And.right
  refine .bind evaluated fun number isDatum => ?_
  split
  · have outlined : Documented (Outline.ofNode (.literal value depth)) :=
      .bind value.format_documented fun _ _ => .ok _
    refine .bind (.ofExcept (outlined.answers fun _ _ => trivial)) fun outline _ => ?_
    exact .bind (report_safe _) fun _ _ => .pure plain
  · exact .pure (.inl isDatum)

theorem literalArguments?_plain {nodes : List Form} {literals : List (Value × Int)}
    (written : Node.WrittenRow false nodes) (all : literalArguments? nodes = some literals) :
    ∀ literal ∈ literals, literal.1.IsPlain := by
  induction nodes generalizing literals with
  | nil =>
      cases all
      simp
  | cons node rest ih =>
      cases node with
      | literal value depth =>
          obtain ⟨others, found, rfl⟩ := Option.map_eq_some_iff.mp all
          exact List.forall_mem_cons.mpr ⟨.inr written.1, ih written.2 found⟩
      | _ => cases all

theorem actuals_safe {literals : List (Value × Int)}
    (plain : ∀ literal ∈ literals, literal.1.IsPlain) :
    Safe home (fun values => ∀ value ∈ values, value.IsPlain) (actuals limit home literals) := by
  induction literals with
  | nil => exact .pure (by simp)
  | cons literal rest ih =>
      refine .bind (literalOrNumber_safe limit (plain literal List.mem_cons_self) literal.2) ?_
      intro actual isPlain
      refine .bind (ih fun other member => plain other (List.mem_cons_of_mem _ member)) ?_
      intro others arePlain
      exact .pure (by simpa using ⟨isPlain, arePlain⟩)

theorem apply_safe {procedure : Value} {arguments : List Value}
    (fits : procedure.Fits home .numeric) (isProcedure : procedure.isProcedure = true)
    (plain : ∀ argument ∈ arguments, argument.IsPlain) :
    Safe home Value.Legible (procedure.apply (callModel limit) 0 arguments) :=
  .of_alike (apply_alike (callModel_uniform limit) 0 ⟨fits, fits, fun _ => rfl⟩ isProcedure plain)
    fun _ _ same => Value.IsPlain.legible (.inl same.2)

/-- A symbolic procedure gives a form of its own, never a value of a wrong sort. -/
theorem expandSymbolic_safe {procedure : Value} {arguments : List Value}
    (fits : procedure.Fits home .symbolic) (isProcedure : procedure.isProcedure = true)
    (plain : ∀ argument ∈ arguments, argument.IsPlain) :
    Safe home Value.Legible (expandSymbolic limit home procedure arguments) := by
  cases fits with
  | procedure sound =>
      rw [expandSymbolic, sound.home]
      refine .bind (.of_alike (bindFormals_alike _ sound.formals plain) fun _ _ given => given) ?_
      intro _ _
      refine .get fun state _ => ?_
      rw [sound.clauses_eq]
      refine .bind (.of_alike (selectClause_alike _ sound.clauses fun node written =>
        eval_alike (callModel_uniform limit) false 0 node written) fun _ _ => And.right) ?_
      intro result written
      exact flattenNow_safe written.solid
  | datum isDatum => simp [isDatum.not_procedure] at isProcedure
  | word isWord =>
      obtain ⟨text, rfl, _⟩ := isWord
      cases isProcedure
  | unbound => cases isProcedure

theorem expandCall_safe (key : Value) (head : Option Form) {arguments : List Value}
    (plain : ∀ argument ∈ arguments, argument.IsPlain) :
    Safe home Value.Legible (expandCall limit home key head arguments) := by
  have notFound : Safe home Value.Legible (expandCall.notFound head) := by
    refine .bind (.ofExcept ((Node.render_documented _).answers fun _ _ => trivial)) ?_
    exact fun shown _ => .throw ⟨.notFound _, rfl⟩
  refine .bind (resolve_safe .symbolic key) fun symbolic fitsSymbolic => ?_
  refine .bind (resolve_safe .numeric key) fun numeric fitsNumeric => ?_
  have byValue : Safe home Value.Legible
      (expandCall.expandNumeric limit head arguments numeric) := by
    cases numeric with
    | none => exact notFound
    | some procedure =>
        rw [expandCall.expandNumeric]
        split
        · rename_i isProcedure
          exact apply_safe limit (fitsNumeric procedure rfl) isProcedure plain
        · exact notFound
  cases symbolic with
  | none => exact byValue
  | some procedure =>
      dsimp only
      split
      · rename_i isProcedure
        exact expandSymbolic_safe limit (fitsSymbolic procedure rfl) isProcedure plain
      · exact byValue

/-- What reducing one argument, or several, leaves. -/
def Reduced (solid : Prop) : Option Failure → Prop
  | none => solid
  | some failure => failure.PastReading

theorem reduceArgument_keeps {step : StateM State (Stepped Value)} {node : Form}
    (stepped : Keeps home (fun step => Answers Failure.PastReading Value.Legible step.result) step)
    (written : node.WrittenAt false) :
    Keeps home (fun (reduced, failure) => Reduced reduced.Solid failure)
      (reduceArgument limit home none step node) := by
  cases node with
  | blank => exact written.elim
  | operator name depth => cases written.1
  | literal value depth => exact .pure written.solid
  | expression children frame =>
      refine .get fun state _ => ?_
      dsimp only
      split
      · refine .bind stepped fun step answers => ?_
        have again := Answers.bind answers fun value legible => reread_answers legible
        generalize step.result >>= reread = result at again
        cases result with
        | ok reduced => exact .pure (Node.IsRead.solid again)
        | error failure => exact .pure again
      · refine .bind (evaluate_safe limit false (.inr written)) fun result answers => ?_
        cases result with
        | ok value => exact .pure (.inl answers)
        | error failure => exact .pure answers

mutual
theorem expand_keeps (node : Form) (isRead : node.IsRead) :
    Keeps home (fun step => Answers Failure.PastReading Value.Legible step.result)
      (expand limit home node) := by
  cases node with
  | blank => rcases isRead with ⟨_, _, isLiteral⟩ | written <;> contradiction
  | operator name depth =>
      rcases isRead with ⟨_, _, isLiteral⟩ | written
      · cases isLiteral
      · cases written.1
  | literal value depth =>
      refine .bind (literalOrNumber_safe limit isRead.solid depth) fun result answers => ?_
      exact .pure (answers.mono fun _ => Value.IsPlain.legible)
  | expression children frame =>
      rcases isRead with ⟨_, _, isLiteral⟩ | ⟨anchor, written⟩
      · cases isLiteral
      · cases children with
        | nil =>
            refine .bind (expandCall_safe limit _ none (by simp)) fun result answers => ?_
            exact .pure answers
        | cons head operands =>
            rw [expand]
            cases literal : literalArguments? operands with
            | some literals =>
                have plain := literalArguments?_plain written.2 literal
                refine .bind (SafeWithin.bind (actuals_safe limit plain) fun arguments arePlain =>
                  expandCall_safe limit _ _ arePlain) fun result answers => ?_
                exact .pure answers
            -- a form that was read has no anchor, so what is reduced is never shared
            | none =>
                dsimp only
                rw [anchor]
                refine .bind (reduceArguments_keeps [head] operands ⟨written.1.solid, trivial⟩
                  written.2) ?_
                rintro ⟨reduced, failure⟩ done
                cases failure with
                | some failure => exact .pure done
                | none =>
                    refine .bind (flattenNow_safe done) fun result answers => ?_
                    exact .pure answers

theorem reduceArguments_keeps (before nodes : List Form) (solid : Node.SolidRow before)
    (written : Node.WrittenRow false nodes) :
    Keeps home (fun (children, failure) => Reduced (Node.SolidRow children) failure)
      (reduceArguments limit home none before nodes) := by
  cases nodes with
  | nil => exact .pure solid
  | cons node rest =>
      rw [reduceArguments]
      refine .bind (reduceArgument_keeps limit (expand_keeps node (.inr written.1)) written.1) ?_
      rintro ⟨reduced, failure⟩ done
      cases failure with
      | some failure => exact .pure done
      | none =>
          have later := reduceArguments_keeps (before ++ [reduced]) rest
            (solid.append ⟨done, trivial⟩) written.2
          -- without an anchor there is nothing to note
          have noted : Keeps home (fun _ => True)
              (modify (·.revise none (before ++ reduced :: rest)) : StateM State Unit) :=
            fun _ sound => ⟨trivial, sound⟩
          dsimp only
          split
          · exact .bind noted fun _ _ => later
          · exact later
end

theorem readOn_safe (node : Form) {value : Value} (legible : value.Legible) :
    Safe home (fun next => ∀ form ∈ next, Node.IsRead form) (readOn node value) := by
  refine .bind (report_safe _) fun _ _ => ?_
  split
  · exact .bind (report_safe _) fun _ _ => .pure (by simp)
  · refine .bind (.ofExcept (reread_answers legible)) fun next isRead => ?_
    exact .pure (by simpa using isRead)

theorem expandAll_keeps (cap : Int) (remaining : Nat) {node : Form} (isRead : node.IsRead) :
    Keeps home (fun step => Answers Failure.PastReading (fun _ => True) step.result)
      (expandAll limit home cap remaining node) := by
  induction remaining generalizing node with
  | zero =>
      cases node with
      | expression children frame =>
          refine .bind (report_safe (.stopped cap)) fun reported answers => ?_
          exact .pure (answers.map fun _ _ => trivial)
      | _ => exact .pure trivial
  | succ remaining ih =>
      cases node with
      | expression children frame =>
          refine .bind (expand_keeps limit _ isRead) fun step answers => ?_
          rcases step with ⟨left, failure | value⟩
          · exact .pure answers
          · refine .bind (readOn_safe left answers) fun result next => ?_
            rcases result with failure | _ | form
            · exact .pure next
            · exact .pure trivial
            · -- the next form is read from the text of this step
              refine .bind (ih (next form rfl)) fun later done => ?_
              exact .pure (done.map fun _ _ => trivial)
      | _ => exact .pure trivial

end Steps

namespace Interpreter

variable {interpreter : Interpreter} {state : State}

theorem onText_safe {action : Form → StateM State (Stepped Reply)} (source : String)
    (acts : ∀ form : Form, form.IsRead →
      Keeps interpreter.home (fun step => Answers Failure.PastReading (fun _ => True) step.result)
        (action form)) :
    SafeWithin Failure.Documented interpreter.home (fun _ => True) (onText action source) := by
  have reads : Answers Failure.Documented Node.IsRead (Node.readForm source) :=
    Within.answers (Node.readForm_documented source) fun _ => Node.isRead_of_readForm
  refine .bind (.ofExcept reads) fun form isRead => .get fun state sound => ?_
  obtain ⟨answers, kept⟩ := acts form isRead state sound
  have put : SafeWithin Failure.Documented interpreter.home (fun _ => True)
      (set (action form state).2 : Eval PUnit) :=
    fun _ _ => ⟨trivial, kept⟩
  exact .bind put fun _ _ => .ofExcept (answers.tolerate fun _ => Failure.PastReading.documented)

/-- A task keeps the tables sound, whether or not it fails. -/
theorem perform_safe (limit : Nat) (task : Task) (source : String) :
    SafeWithin Failure.Documented interpreter.home (fun _ => True)
      (interpreter.perform limit task source) := by
  by_cases steps : (Request.perform task source).takesSteps = true
  · cases task with
    | expand =>
        refine onText_safe source fun form isRead => ?_
        refine .bind (expand_keeps limit form isRead) fun step answers => ?_
        exact .pure (answers.map fun _ _ => trivial)
    | trace =>
        refine onText_safe source fun form isRead => ?_
        refine .bind (expandAll_keeps limit _ _ isRead) fun step answers => ?_
        exact .pure (answers.map fun _ _ => trivial)
    | _ => cases steps
  · have untraced : task ≠ .trace := by
      rintro rfl
      exact steps rfl
    rw [← serve_perform untraced]
    exact .of_alike (serve_alike limit (by simpa using steps)) fun _ _ _ => trivial

end Interpreter

/-- Whether a request is a trace that is announced, of a tree that takes more levels
of the stack to be written than the limit allows. -/
def Request.Overflows (limit : Nat) (state : State) (request : Request) : Prop :=
  ∃ source form, request = .perform .trace source ∧ Node.readForm source = .ok form ∧
    state.wants .debug = true ∧ limit < form.textLevels

namespace Interpreter

variable {interpreter : Interpreter} {limit : Nat} {request : Request} {state : State}

theorem attempt_serve_overflows (overflows : request.Overflows limit state) :
    attempt (interpreter.serve limit request) state = (.error .stackOverflow, state) := by
  obtain ⟨source, form, rfl, read, wanted, short⟩ := overflows
  have unwritten := (Node.renderWithin_overflows_iff read).mpr short
  exact attempt_serve_unannounced read (announce_error wanted unwritten)

/-- A request that does not overflow the stack keeps the tables sound and fails in
documented ways only. -/
theorem attempt_serve_documented (fits : ¬ request.Overflows limit state)
    (sound : state.Sound interpreter.home) :
    Answers Failure.Documented (fun _ => True) (attempt (interpreter.serve limit request) state).1 ∧
      (attempt (interpreter.serve limit request) state).2.Sound interpreter.home := by
  rcases request with ⟨task, source⟩ | source
  · by_cases untraced : task ≠ .trace
    · rw [serve_perform untraced]
      exact perform_safe limit task source state sound
    obtain rfl := not_ne_iff.mp untraced
    cases read : Node.readForm source with
    | error failure =>
        rw [attempt, EStateM.run, serve, onText_unread read]
        exact ⟨Node.readForm_documented source failure read, sound⟩
    | ok form =>
        rcases announce_cases interpreter limit form state with
          ⟨middle, announced, relogged⟩ | ⟨failure, failed, wanted, unwritten⟩
        · obtain ⟨same, _, log, kept⟩ := attempt_serve_announced read announced relogged
          obtain ⟨answers, soundAfter⟩ := perform_safe limit .trace source state sound
          rw [same, kept]
          exact ⟨answers, soundAfter.of_tables fun _ => rfl⟩
        · have enough : form.textLevels ≤ limit :=
            Nat.not_lt.mp fun short => fits ⟨source, form, rfl, read, wanted, short⟩
          rw [Node.renderWithin_of_le form enough] at unwritten
          rw [attempt_serve_unannounced read failed]
          exact ⟨(form.render_documented failure unwritten).documented, sound⟩
  · exact SafeWithin.of_alike (serve_alike limit rfl) (fun _ _ _ => trivial) state sound

theorem Reached.sound (reached : interpreter.Reached state) : state.Sound interpreter.home := by
  induction reached with
  | start fresh => exact fresh.sound
  | @serve earlier limit request _ ih =>
      by_cases overflows : request.Overflows limit earlier
      · rw [attempt_serve_overflows overflows]
        exact ih
      · exact (attempt_serve_documented overflows ih).2

end Interpreter

namespace Phrase

end Phrase

namespace Interpreter

end Interpreter

end Stepper
