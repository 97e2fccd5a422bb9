import Stepper.Proofs.Reachable

/-!
Two sessions whose numeric tables bind the same keys to the same values evaluate
alike, whatever their symbolic tables hold. Run on one session twice, this says
what a run keeps and how it can fail.
-/

namespace Stepper

namespace Value

/-- A value without the marks by which procedures of two sessions differ. -/
def unmarked : Value → Value
  | .procedure reading definition => .procedure reading { definition with serial := 0, home := 0 }
  | value => value

theorem toNumber_unmarked (value : Value) : value.unmarked.toNumber = value.toNumber := by
  cases value <;> rfl

theorem isTruthy_unmarked (value : Value) : value.unmarked.isTruthy = value.isTruthy := by
  cases value <;> rfl

theorem isProcedure_unmarked (value : Value) : value.unmarked.isProcedure = value.isProcedure := by
  cases value <;> rfl

theorem format_unmarked (value : Value) : value.unmarked.format = value.format := by
  cases value <;> simp [unmarked, format, inspect]

theorem bound?_unmarked (value : Value) : value.unmarked.bound? = value.bound?.map unmarked := by
  cases value <;> rfl

theorem IsDatum.eq_of_unmarked {value other : Value} (isDatum : value.IsDatum)
    (same : value.unmarked = other.unmarked) : other = value := by
  cases other with
  | procedure reading definition =>
      rcases isDatum with rfl | isNumber
      · cases same
      · cases value with
        | procedure => cases isNumber
        | _ => cases same
  | _ =>
      rcases isDatum with rfl | isNumber
      · exact same.symm
      · cases value with
        | procedure => cases isNumber
        | _ => exact same.symm

end Value

/-- Procedures that differ in their marks only. -/
structure CondProcedure.Resembles (definition other : CondProcedure Value) : Prop where
  name : definition.name = other.name
  formals : definition.formals = other.formals
  clauses : definition.clauses = other.clauses

theorem Value.of_unmarked_procedure {reading : Reading} {definition : CondProcedure Value}
    {other : Value} (same : (Value.procedure reading definition).unmarked = other.unmarked) :
    ∃ resembling, other = .procedure reading resembling ∧ definition.Resembles resembling := by
  cases other with
  | procedure reading' resembling =>
      simp only [unmarked, Value.procedure.injEq, CondProcedure.mk.injEq, true_and] at same
      obtain ⟨rfl, name, formals, clauses⟩ := same
      exact ⟨resembling, rfl, name, formals, clauses⟩
  | _ => cases same

namespace Table

def unmarked (table : Table) : Table :=
  ⟨table.bindings.map fun binding => (binding.1, binding.2.unmarked)⟩

theorem get?_unmarked (table : Table) (key : Value) :
    table.unmarked.get? key = (table.get? key).map Value.unmarked := by
  simp only [get?, unmarked, List.find?_map, Option.map_map]
  rfl

theorem resolve_unmarked (table : Table) (key : Value) :
    table.unmarked.resolve key = (table.resolve key).map Value.unmarked := by
  rw [resolve_eq_bind, resolve_eq_bind, get?_unmarked]
  cases table.get? key with
  | none => rfl
  | some value => exact value.bound?_unmarked

theorem insert_unmarked (table : Table) (key value : Value) :
    (table.insert key value).unmarked = table.unmarked.insert key value.unmarked := by
  obtain ⟨bindings⟩ := table
  simp only [insert, unmarked, mk.injEq]
  induction bindings with
  | nil => rfl
  | cons binding rest ih =>
      simp only [insertInto, List.map_cons]
      split
      · rfl
      · rw [List.map_cons, ih]

end Table

/-- Sound states of two sessions whose numeric tables are equal but for marks. -/
structure Twin (left right : Nat) (here there : State) : Prop where
  first : here.Sound left
  second : there.Sound right
  numeric : (here.table left .numeric).unmarked = (there.table right .numeric).unmarked

/-- Two runs that end alike, in related states. -/
inductive EndsAlike {α : Type} (allowed : Failure → Prop) (kept : State → State → Prop)
    (same : α → α → Prop) :
    EStateM.Result Failure State α → EStateM.Result Failure State α → Prop where
  | ok {a b : α} {first second : State} (keeps : kept first second) (equal : same a b) :
      EndsAlike allowed kept same (.ok a first) (.ok b second)
  | error {failure : Failure} {first second : State} (keeps : kept first second)
      (isAllowed : allowed failure) :
      EndsAlike allowed kept same (.error failure first) (.error failure second)

/-- Computations that, from states related by `pre`, end alike in states related
by `post`. -/
def Pairs {α : Type} (allowed : Failure → Prop) (pre post : State → State → Prop)
    (same : α → α → Prop) (one other : Eval α) : Prop :=
  ∀ first second, pre first second → EndsAlike allowed post same (one first) (other second)

/-- Computations on what was read that end alike from twin states. -/
abbrev Alike {α : Type} (left right : Nat) (same : α → α → Prop) (one other : Eval α) : Prop :=
  Pairs Failure.PastReading (Twin left right) (Twin left right) same one other

/-- As `Alike`, of computations that read a text. -/
abbrev AlikeOnText {α : Type} (left right : Nat) (same : α → α → Prop) (one other : Eval α) :
    Prop :=
  Pairs Failure.Documented (Twin left right) (Twin left right) same one other

/-- One value, which is a datum, on both sides. -/
def SameDatum (value other : Value) : Prop :=
  value = other ∧ value.IsDatum

/-- Values that the tables of a reading may bind one key to. -/
structure Value.Matches (left right : Nat) (reading : Reading) (value other : Value) : Prop where
  first : value.Fits left reading
  second : other.Fits right reading
  same : reading = .numeric → value.unmarked = other.unmarked

namespace Pairs

variable {α β : Type} {same : α → α → Prop} {sameNext : β → β → Prop}
variable {allowed : Failure → Prop} {pre kept : State → State → Prop}

theorem pure {a b : α} (equal : same a b) : Pairs allowed kept kept same (pure a) (pure b) :=
  fun _ _ related => .ok related equal

theorem throw {failure : Failure} (isAllowed : allowed failure) :
    Pairs allowed kept kept same (throw failure) (throw failure) :=
  fun _ _ related => .error related isAllowed

theorem bind {one other : Eval α} {next later : α → Eval β}
    (start : Pairs allowed pre kept same one other)
    (go : ∀ a b, same a b → Pairs allowed kept kept sameNext (next a) (later b)) :
    Pairs allowed pre kept sameNext (one >>= next) (other >>= later) := by
  intro first second related
  have ends := start first second related
  generalize ran : one first = run, ranOther : other second = runOther at ends
  cases ends with
  | ok keeps equal =>
      rw [Eval.bind_ok ran, Eval.bind_ok ranOther]
      exact go _ _ equal _ _ keeps
  | error keeps isAllowed =>
      rw [Eval.bind_error ran, Eval.bind_error ranOther]
      exact .error keeps isAllowed

theorem mono {weaker : α → α → Prop} {one other : Eval α}
    (pairs : Pairs allowed pre kept same one other)
    (weaken : ∀ a b, same a b → weaker a b) : Pairs allowed pre kept weaker one other := by
  have weakened := pairs.bind fun a b equal => pure (weaken a b equal)
  rwa [bind_pure, bind_pure] at weakened

theorem relax {weaker : State → State → Prop} {one other : Eval α}
    (pairs : Pairs allowed pre kept same one other)
    (weaken : ∀ first second, kept first second → weaker first second) :
    Pairs allowed pre weaker same one other := by
  intro first second related
  have ends := pairs first second related
  generalize one first = run, other second = runOther at ends
  cases ends with
  | ok keeps equal => exact .ok (weaken _ _ keeps) equal
  | error keeps isAllowed => exact .error (weaken _ _ keeps) isAllowed

/-- What ends alike with few failures does so where more are allowed. -/
theorem tolerate {more : Failure → Prop} {one other : Eval α}
    (pairs : Pairs allowed pre kept same one other)
    (weaken : ∀ failure, allowed failure → more failure) : Pairs more pre kept same one other := by
  intro first second related
  have ends := pairs first second related
  generalize one first = run, other second = runOther at ends
  cases ends with
  | ok keeps equal => exact .ok keeps equal
  | error keeps isAllowed => exact .error keeps (weaken _ isAllowed)

theorem ofExcept {action : Except Failure α} (within : Within allowed action) :
    Pairs allowed kept kept (fun a b => a = b ∧ action = .ok a) (Eval.ofExcept action)
      (Eval.ofExcept action) := by
  cases action with
  | ok a => exact pure ⟨rfl, rfl⟩
  | error failure => exact throw (within failure rfl)

theorem get {next later : State → Eval β}
    (go : ∀ first second, kept first second →
      Pairs allowed kept kept sameNext (next first) (later second)) :
    Pairs allowed kept kept sameNext (MonadState.get >>= next) (MonadState.get >>= later) :=
  fun first second related => go first second related first second related

theorem forM {items : List α} {one other : α → Eval Unit}
    (each : ∀ item ∈ items, Pairs allowed kept kept (fun _ _ => True) (one item) (other item)) :
    Pairs allowed kept kept (fun _ _ => True) (items.forM one) (items.forM other) := by
  induction items with
  | nil => exact pure trivial
  | cons item rest ih =>
      exact bind (each item List.mem_cons_self) fun _ _ _ =>
        ih fun other member => each other (List.mem_cons_of_mem _ member)

/-- A failure that shows a form fails alike, be it that the form has no text. -/
theorem refuse {node : Form} {failure : String → Failure}
    (past : ∀ shown, (failure shown).PastReading) :
    Pairs Failure.PastReading kept kept same
      (do let shown ← Eval.ofExcept node.render
          MonadExcept.throw (failure shown))
      (do let shown ← Eval.ofExcept node.render
          MonadExcept.throw (failure shown)) := by
  refine bind (ofExcept node.render_documented) fun shown shown' equal => ?_
  rw [equal.1]
  exact throw (past shown')

end Pairs

section Tables

variable {left right : Nat} {reading : Reading}

theorem Twin.of_tables {first second first' second' : State} (twin : Twin left right first second)
    (keepsFirst : ∀ reading, first'.table left reading = first.table left reading)
    (keepsSecond : ∀ reading, second'.table right reading = second.table right reading) :
    Twin left right first' second' where
  first := twin.first.of_tables keepsFirst
  second := twin.second.of_tables keepsSecond
  numeric := by rw [keepsFirst, keepsSecond, twin.numeric]

theorem Twin.resolve {first second : State} (twin : Twin left right first second) (key : Value) :
    ((first.table left .numeric).resolve key).map Value.unmarked =
      ((second.table right .numeric).resolve key).map Value.unmarked := by
  rw [← Table.resolve_unmarked, twin.numeric, Table.resolve_unmarked]

theorem Value.IsDatum.matches {value : Value} (isDatum : value.IsDatum) :
    value.Matches left right reading value :=
  ⟨.datum isDatum, .datum isDatum, fun _ => rfl⟩

theorem Value.IsWord.matches {value : Value} (isWord : value.IsWord) :
    value.Matches left right reading value :=
  ⟨.word isWord, .word isWord, fun _ => rfl⟩

theorem Value.unbound_matches : Value.unbound.Matches left right reading .unbound :=
  ⟨.unbound reading, .unbound reading, fun _ => rfl⟩

theorem Eval.resolve_alike (reading : Reading) (key : Value) :
    Alike left right
      (fun a b => ∀ default : Value, default.Matches left right reading default →
        (a.getD default).Matches left right reading (b.getD default))
      (Eval.resolve left reading key) (Eval.resolve right reading key) := by
  intro first second twin
  rw [Eval.resolve_run, Eval.resolve_run]
  refine .ok twin fun default fits => ⟨?_, ?_, ?_⟩
  · cases bound : (first.table left reading).resolve key with
    | none => exact fits.first
    | some value => exact (twin.first reading).resolve_fits bound
  · cases bound : (second.table right reading).resolve key with
    | none => exact fits.second
    | some value => exact (twin.second reading).resolve_fits bound
  · rintro rfl
    rw [← Option.getD_map Value.unmarked, ← Option.getD_map Value.unmarked, twin.resolve]

theorem Eval.define_alike {key value other : Value} (isWord : key.IsWord)
    (fits : value.Matches left right reading other) :
    Alike left right (fun _ _ => True) (Eval.define left reading key value)
      (Eval.define right reading key other) := by
  obtain ⟨name, rfl, isRun⟩ := isWord
  intro first second twin
  rw [Eval.define_run, Eval.define_run]
  refine .ok ⟨?_, ?_, ?_⟩ trivial
  · exact twin.first.setTable reading ((twin.first reading).insert ⟨name, rfl, isRun⟩ fits.first)
  · exact twin.second.setTable reading ((twin.second reading).insert ⟨name, rfl, isRun⟩ fits.second)
  · cases reading with
    | symbolic =>
        rw [State.table_setTable_other _ _ (by decide), State.table_setTable_other _ _ (by decide)]
        exact twin.numeric
    | numeric =>
        rw [State.table_setTable, State.table_setTable, Table.insert_unmarked,
          Table.insert_unmarked, twin.numeric, fits.same rfl]

theorem Eval.newSerial_alike : Alike left right (fun _ _ => True) Eval.newSerial Eval.newSerial :=
  fun _ _ twin => .ok (twin.of_tables (fun _ => rfl) fun _ => rfl) trivial

/-- Sessions may report different events, but none of them fails to if the event
has words. -/
theorem Eval.report_alike {event : Event} (words : ∃ report, event.report = .ok report) :
    Alike left right (fun _ _ => True) (Eval.report event) (Eval.report event) := by
  intro first second twin
  obtain ⟨report, words⟩ := words
  obtain ⟨first', ran, keepsFirst⟩ := Eval.report_run words first
  obtain ⟨second', ranOther, keepsSecond⟩ := Eval.report_run words second
  rw [ran, ranOther]
  exact .ok (twin.of_tables (keepsFirst left) (keepsSecond right)) trivial

theorem report_definedConstant {name : Value} (isWord : name.IsWord) :
    ∃ report, (Event.definedConstant name).report = .ok report := by
  obtain ⟨text, rfl, _⟩ := isWord
  exact ⟨_, rfl⟩

theorem exists_texts {values : List Value} (words : ∀ value ∈ values, value.IsWord) :
    ∃ texts : List String, values = texts.map .text := by
  induction values with
  | nil => exact ⟨[], rfl⟩
  | cons value rest ih =>
      obtain ⟨text, rfl, _⟩ := words value List.mem_cons_self
      obtain ⟨texts, rfl⟩ := ih fun other member => words other (List.mem_cons_of_mem _ member)
      exact ⟨text :: texts, rfl⟩

theorem report_definedWords (name : String) {formals : List Value}
    (words : ∀ formal ∈ formals, formal.IsWord) :
    ∃ report, (Event.definedProcedure name formals).report = .ok report := by
  obtain ⟨texts, rfl⟩ := exists_texts words
  exact report_definedProcedure name texts

end Tables

section Definitions

variable {left right : Nat} {reading : Reading}

theorem defineProcedure_alike {name : String} {formals : List Value} {body : Form}
    (isRun : Token.IsRun name) (words : ∀ formal ∈ formals, formal.IsWord)
    (written : body.WrittenAt false) :
    Alike left right (fun _ _ => True) (defineProcedure left reading name formals body)
      (defineProcedure right reading name formals body) := by
  have isWord : (Value.text name).IsWord := ⟨name, rfl, isRun⟩
  have cleared : ∀ formal ∈ formals, Alike left right (fun _ _ => True)
      (Eval.define left reading formal .unbound) (Eval.define right reading formal .unbound) :=
    fun formal member => Eval.define_alike (words formal member) Value.unbound_matches
  refine .bind (.forM cleared) fun _ _ _ => ?_
  cases body with
  | expression children frame =>
      dsimp only
      split
      · refine .bind (.ofExcept (condClauses_documented _)) ?_
        rintro clauses _ ⟨rfl, split⟩
        have written := condClauses_written written.2.tail split
        refine .bind Eval.newSerial_alike fun serial serial' _ => ?_
        exact Eval.define_alike isWord
          ⟨.procedure ⟨rfl, words, written⟩, .procedure ⟨rfl, words, written⟩, fun _ => rfl⟩
      · refine .bind (Eval.resolve_alike reading _) fun target target' bound => ?_
        exact Eval.define_alike isWord (bound .nil (Value.IsDatum.matches (.inl rfl)))
  | _ => exact .refuse fun _ => ⟨.malformed _, rfl⟩

theorem enterDefinition_alike {form : Form} {constant constant' : Eval Value}
    (written : form.WrittenAt false)
    (evaluates : ∀ head target body frame, form = .expression [head, target, body] frame →
      Alike left right SameDatum constant constant') :
    Alike left right (fun _ _ => True) (enterDefinition left reading form constant)
      (enterDefinition right reading form constant') := by
  unfold enterDefinition
  split
  · rename_i head name depth body frame
    obtain ⟨_, _, isWord, bodyWritten, _⟩ := written
    have bound : ∀ a b : Value, a.Matches left right reading b →
        Alike left right (fun _ _ => True)
          (do Eval.define left reading name a
              if reading = .numeric then Eval.report (.definedConstant name))
          (do Eval.define right reading name b
              if reading = .numeric then Eval.report (.definedConstant name)) := by
      intro a b fits
      refine .bind (Eval.define_alike isWord fits) fun _ _ _ => ?_
      split
      · exact Eval.report_alike (report_definedConstant isWord)
      · exact .pure trivial
    cases body with
    | literal value depth => exact .bind (.pure bodyWritten.matches) bound
    | _ =>
        refine .bind (evaluates _ _ _ _ rfl) fun a b equal => bound a b ?_
        exact equal.1 ▸ equal.2.matches
  · rename_i head header frame body frame'
    obtain ⟨_, _, ⟨_, headerWritten⟩, bodyWritten, _⟩ := written
    split
    · obtain ⟨⟨_, isRun⟩, rest⟩ := headerWritten
      refine .bind (.ofExcept (headerFormals_documented _)) ?_
      rintro formals _ ⟨rfl, read⟩
      have words := headerFormals_words rest read
      refine .bind (defineProcedure_alike isRun words bodyWritten) fun _ _ _ => ?_
      split
      · exact Eval.report_alike (report_definedWords _ words)
      · exact .pure trivial
    · exact .refuse fun _ => ⟨.malformed _, rfl⟩
  · exact .refuse fun _ => ⟨.malformed _, rfl⟩
  · exact .refuse fun _ => ⟨.malformed _, rfl⟩

end Definitions

/-- What evaluation gives at a place: below a form, a datum; as its head, also
a procedure. -/
def Value.Evaluated (left right : Nat) (first : Bool) (value other : Value) : Prop :=
  value.Matches left right .numeric other ∧ (first = false → value.IsDatum)

/-- What procedures are called on: data and, in a step, words. -/
def Value.IsPlain (value : Value) : Prop :=
  value.IsDatum ∨ value.IsWord

/-- Calls of resembling procedures end alike. -/
def Uniform (left right : Nat) (call : CallModel) : Prop :=
  ∀ (level : Nat) (definition other : CondProcedure Value) (arguments : List Value),
    definition.Sound left → other.Sound right → definition.Resembles other →
      (∀ argument ∈ arguments, argument.IsPlain) →
        Alike left right SameDatum (call level definition arguments) (call level other arguments)

section Evaluation

variable {left right : Nat} {call : CallModel}

theorem SameDatum.evaluated {first : Bool} {value other : Value} (same : SameDatum value other) :
    value.Evaluated left right first other :=
  ⟨same.1 ▸ same.2.matches, fun _ => same.2⟩

theorem Value.Evaluated.sameDatum {value other : Value}
    (evaluated : value.Evaluated left right false other) : SameDatum value other :=
  ⟨((evaluated.2 rfl).eq_of_unmarked (evaluated.1.same rfl)).symm, evaluated.2 rfl⟩

theorem Value.Fits.sound {home : Nat} {reading own : Reading} {definition : CondProcedure Value}
    (fits : (Value.procedure own definition).Fits home reading) : definition.Sound home := by
  cases fits with
  | datum isDatum => rcases isDatum with isNil | isNumber <;> contradiction
  | word isWord => exact absurd isWord nofun
  | procedure sound => exact sound

theorem applicable_unmarked (head : Form) (value : Value) :
    applicable head value.unmarked = applicable head value := by
  cases value <;> rfl

theorem applicable_pairs {kept : State → State → Prop} (head : Form) (value : Value) :
    Pairs Failure.PastReading kept kept (fun _ _ => value.isProcedure = true) (applicable head value)
      (applicable head value) := by
  unfold applicable
  split
  · exact .refuse fun _ => ⟨.notFound _, rfl⟩
  · split
    · refine .bind (.ofExcept head.render_documented) fun _ _ shown => ?_
      refine .bind (.ofExcept value.inspect_documented) fun _ _ bound => ?_
      rw [shown.1, bound.1]
      exact .throw ⟨.notFound _, rfl⟩
    · rename_i isProcedure
      exact .pure (by simpa using isProcedure)

theorem apply_alike (uniform : Uniform left right call) (level : Nat) {value other : Value}
    {arguments : List Value} (fits : value.Matches left right .numeric other)
    (isProcedure : value.isProcedure = true)
    (plain : ∀ argument ∈ arguments, argument.IsPlain) :
    Alike left right SameDatum (value.apply call level arguments)
      (other.apply call level arguments) := by
  have same := fits.same rfl
  cases value with
  | builtin operation =>
      obtain rfl : other = .builtin operation := by
        cases other with
        | procedure => cases same
        | _ => exact same.symm
      refine Pairs.mono (.ofExcept (operation.apply_documented _)) fun _ _ applied => ?_
      exact ⟨applied.1, Builtin.apply_isDatum applied.2⟩
  | procedure reading definition =>
      obtain ⟨resembling, rfl, resembles⟩ := Value.of_unmarked_procedure same
      exact uniform level definition resembling arguments fits.first.sound fits.second.sound
        resembles plain
  | _ => cases isProcedure

theorem Value.IsPlain.matches {reading : Reading} {value : Value} (plain : value.IsPlain) :
    value.Matches left right reading value :=
  plain.elim Value.IsDatum.matches Value.IsWord.matches

theorem eval_literal_alike (both : Bool) (level : Nat) {value : Value} (plain : value.IsPlain)
    (depth : Int) :
    Alike left right SameDatum (Node.eval call left both level (.literal value depth))
      (Node.eval call right both level (.literal value depth)) := by
  rw [Node.eval, Node.eval]
  refine .bind (Eval.resolve_alike .numeric value) fun found found' bound => ?_
  have same : (found.getD value).toNumber = (found'.getD value).toNumber := by
    rw [← Value.toNumber_unmarked, (bound value plain.matches).same rfl, Value.toNumber_unmarked]
  rw [same]
  refine .bind (.ofExcept (Value.toNumber_documented _)) ?_
  rintro number _ ⟨rfl, _⟩
  exact .pure ⟨rfl, Value.isDatum_ofNumber number⟩

mutual
theorem eval_alike (uniform : Uniform left right call) (both : Bool) (level : Nat) {first : Bool}
    (node : Form) (written : node.WrittenAt first) :
    Alike left right (Value.Evaluated left right first) (node.eval call left both level)
      (node.eval call right both level) := by
  cases node with
  | blank => exact written.elim
  | literal value depth =>
      exact (eval_literal_alike both level (.inr written) depth).mono fun _ _ => SameDatum.evaluated
  | operator name depth =>
      obtain ⟨rfl, _⟩ := written
      rw [Node.eval, Node.eval]
      refine .bind (Eval.resolve_alike .numeric _) fun found found' bound => .pure ⟨?_, nofun⟩
      exact bound .nil (Value.IsDatum.matches (.inl rfl))
  | expression children frame =>
      cases children with
      | nil => exact .throw ⟨.notFound _, rfl⟩
      | cons head operands =>
          rw [Node.eval, Node.eval]
          dsimp only
          split
          · have entered : ∀ reading, Alike left right (fun _ _ => True)
                (enterDefinition left reading (.expression (head :: operands) frame)
                  (evalLast call left (level + 4) operands))
                (enterDefinition right reading (.expression (head :: operands) frame)
                  (evalLast call right (level + 4) operands)) := fun reading =>
              enterDefinition_alike written fun _ _ _ _ _ =>
                evalLast_alike uniform (level + 4) operands written.2.2
            have done : Alike left right (Value.Evaluated left right first) (pure .nil)
                (pure .nil) := .pure (SameDatum.evaluated ⟨rfl, .inl rfl⟩)
            refine .bind (entered .numeric) fun _ _ _ => ?_
            split
            · exact .bind (entered .symbolic) fun _ _ _ => done
            · exact done
          · refine .bind (eval_alike uniform both (level + 1) head written.2.1) ?_
            rintro procedure procedure' ⟨fits, _⟩
            rw [← applicable_unmarked head procedure', ← fits.same rfl, applicable_unmarked]
            refine .bind (applicable_pairs head procedure) fun _ _ isProcedure => ?_
            refine .bind (evalAll_alike uniform both (level + 2) operands written.2.2) ?_
            rintro arguments _ ⟨rfl, data⟩
            refine (apply_alike uniform level fits isProcedure fun argument member => ?_).mono
              fun _ _ => SameDatum.evaluated
            exact .inl (data argument member)

theorem evalAll_alike (uniform : Uniform left right call) (both : Bool) (level : Nat)
    (nodes : List Form) (written : Node.WrittenRow false nodes) :
    Alike left right (fun values others => values = others ∧ ∀ value ∈ values, value.IsDatum)
      (evalAll call left both level nodes) (evalAll call right both level nodes) := by
  cases nodes with
  | nil => exact .pure ⟨rfl, by simp⟩
  | cons node rest =>
      rw [evalAll, evalAll]
      refine .bind (eval_alike uniform both level node written.1) fun value other evaluated => ?_
      obtain ⟨rfl, isDatum⟩ := evaluated.sameDatum
      refine .bind (evalAll_alike uniform both level rest written.2) ?_
      rintro values _ ⟨rfl, data⟩
      exact .pure ⟨rfl, by simpa using ⟨isDatum, data⟩⟩

theorem evalLast_alike (uniform : Uniform left right call) (level : Nat) (nodes : List Form)
    (written : Node.WrittenRow false nodes) :
    Alike left right SameDatum (evalLast call left level nodes)
      (evalLast call right level nodes) := by
  cases nodes with
  | nil => exact .pure ⟨rfl, .inl rfl⟩
  | cons node rest =>
      rw [evalLast, evalLast]
      split
      · exact (eval_alike uniform false level node written.1).mono
          fun _ _ => Value.Evaluated.sameDatum
      · exact evalLast_alike uniform level rest written.2
end

theorem bindFormals_alike (readings : List Reading) {formals arguments : List Value}
    (words : ∀ formal ∈ formals, formal.IsWord) (plain : ∀ argument ∈ arguments, argument.IsPlain) :
    Alike left right (fun _ _ => True) (bindFormals left readings formals arguments)
      (bindFormals right readings formals arguments) := by
  induction formals generalizing arguments with
  | nil => exact .pure trivial
  | cons formal rest ih =>
      have fits : ∀ reading, (arguments.head?.getD .unbound).Matches left right reading
          (arguments.head?.getD .unbound) := by
        intro reading
        cases arguments with
        | nil => exact Value.unbound_matches
        | cons argument others => exact (plain argument List.mem_cons_self).matches
      have isWord := words formal List.mem_cons_self
      refine .bind (.forM fun reading _ => Eval.define_alike isWord (fits reading)) fun _ _ _ => ?_
      exact ih (fun other member => words other (List.mem_cons_of_mem _ member))
        fun argument member => plain argument (List.mem_of_mem_tail member)

theorem selectClause_pairs {kept : State → State → Prop} {eval eval' : Form → Eval Value}
    (name : String) {clauses : List (Clause Value)}
    (tests : ∀ clause ∈ clauses,
      Pairs Failure.PastReading kept kept
        (fun value other => value.isTruthy = other.isTruthy) (eval clause.test)
        (eval' clause.test)) :
    Pairs Failure.PastReading kept kept
      (fun node other => node = other ∧ ∃ clause ∈ clauses, clause.result = node)
      (selectClause eval name clauses) (selectClause eval' name clauses) := by
  induction clauses with
  | nil => exact .throw ⟨.noClause name, rfl⟩
  | cons clause rest ih =>
      refine .bind (tests clause List.mem_cons_self) fun tested tested' same => ?_
      rw [same]
      split
      · exact .pure ⟨rfl, clause, List.mem_cons_self, rfl⟩
      · refine (ih fun other member => tests other (List.mem_cons_of_mem _ member)).mono ?_
        rintro _ _ ⟨equal, other, member, isResult⟩
        exact ⟨equal, other, List.mem_cons_of_mem _ member, isResult⟩

theorem selectClause_alike {eval eval' : Form → Eval Value} (name : String)
    {clauses : List (Clause Value)} (written : ∀ clause ∈ clauses, clause.Written)
    (evaluates : ∀ node : Form, node.WrittenAt true →
      Alike left right (Value.Evaluated left right true) (eval node) (eval' node)) :
    Alike left right (fun node other => node = other ∧ node.WrittenAt false)
      (selectClause eval name clauses) (selectClause eval' name clauses) := by
  refine (selectClause_pairs name fun clause member => ?_).mono ?_
  · refine (evaluates clause.test (written clause member).test).mono fun value other evaluated => ?_
    rw [← value.isTruthy_unmarked, evaluated.1.same rfl, other.isTruthy_unmarked]
  · rintro _ _ ⟨equal, clause, member, rfl⟩
    exact ⟨equal, (written clause member).result⟩

theorem evalWithin_pairs {kept : State → State → Prop} {same : Value → Value → Prop}
    (limit room : Nat) {level : Nat} {node : Form}
    (pairs : Pairs Failure.PastReading kept kept same (node.eval call left false level)
      (node.eval call right false level)) :
    Pairs Failure.PastReading kept kept same (evalWithin limit call left room level node)
      (evalWithin limit call right room level node) := by
  unfold evalWithin
  split
  · exact .throw ⟨.tooDeep limit, rfl⟩
  · exact pairs

/-- Calls end alike while any room is left: what a call does at a level, it does
with less room at the level below. -/
theorem callWithin_uniform (limit room : Nat) : Uniform left right (callWithin limit room) := by
  induction room with
  | zero =>
      intro level definition other arguments sound sound' resembles plain
      rw [callWithin, callWithin, sound.home, sound'.home, ← resembles.formals]
      refine .bind (bindFormals_alike [.numeric] sound.formals plain) fun _ _ _ => ?_
      exact .throw ⟨.tooDeep limit, rfl⟩
  | succ room ih =>
      intro level definition other arguments sound sound' resembles plain
      cases level with
      | succ level => exact ih level definition other arguments sound sound' resembles plain
      | zero =>
          rw [callWithin, callWithin, sound.home, sound'.home, ← resembles.formals]
          refine .bind (bindFormals_alike [.numeric] sound.formals plain) fun _ _ _ => ?_
          refine .get fun here there _ => ?_
          rw [sound.clauses_eq, sound'.clauses_eq, ← resembles.clauses, ← resembles.name]
          refine .bind (selectClause_alike _ sound.clauses fun node written =>
            evalWithin_pairs limit room (eval_alike ih false 2 node written)) ?_
          rintro result _ ⟨rfl, written⟩
          exact (evalWithin_pairs limit room (eval_alike ih false 1 result written)).mono
            fun _ _ => Value.Evaluated.sameDatum

end Evaluation

section Requests

variable {left right : Nat}

theorem callModel_uniform (limit : Nat) : Uniform left right (callModel limit) :=
  callWithin_uniform limit limit

theorem evaluate_alike (limit : Nat) (both : Bool) {node : Form} (isRead : node.IsRead) :
    Alike left right SameDatum (evaluate limit left both node)
      (evaluate limit right both node) := by
  rcases isRead with ⟨number, depth, rfl⟩ | written
  · exact eval_literal_alike both 0 (.inl (Value.isDatum_ofNumber number)) depth
  · exact (eval_alike (callModel_uniform limit) both 0 node written).mono
      fun _ _ => Value.Evaluated.sameDatum

theorem define_alike (limit : Nat) (reading : Reading) {form : Form} (isRead : form.IsRead) :
    Alike left right (fun _ _ => True) (define limit left reading form)
      (define limit right reading form) := by
  unfold define
  split
  · rename_i isDefine
    rcases isRead with ⟨number, depth, rfl⟩ | written
    · cases isDefine
    · refine enterDefinition_alike written ?_
      rintro head target body frame rfl
      exact evalLast_alike (callModel_uniform limit) 0 [target, body] written.2.2
  · exact .pure trivial

theorem renderLiteral_unmarked (table : Table) (value : Value) :
    renderLiteral table.unmarked value = renderLiteral table value := by
  rw [renderLiteral, renderLiteral, Table.resolve_unmarked]
  cases table.resolve value with
  | none => rfl
  | some bound =>
      simp only [Option.map_some, Value.isProcedure_unmarked, Value.format_unmarked]

theorem format_alike (value : Value) :
    Alike left right Eq (Eval.ofExcept value.format) (Eval.ofExcept value.format) :=
  Pairs.mono (.ofExcept value.format_documented) fun _ _ => And.left

mutual
theorem explain_alike (limit : Nat) (level : Number) (node : Form) (isRead : node.IsRead) :
    Alike left right Eq (explain limit left level node) (explain limit right level node) := by
  cases node with
  | blank => rcases isRead with ⟨_, _, isLiteral⟩ | written <;> contradiction
  | literal value depth =>
      rw [explain, explain]
      refine .get fun here there twin => ?_
      rw [← renderLiteral_unmarked, twin.numeric, renderLiteral_unmarked]
      exact Pairs.mono (.ofExcept (renderLiteral_documented _ value)) fun _ _ => And.left
  | operator name depth => exact .pure rfl
  | expression children frame =>
      rw [explain, explain]
      split
      · refine .bind (evaluate_alike limit false isRead) ?_
        rintro value _ ⟨rfl, _⟩
        exact format_alike value
      · rcases isRead with ⟨_, _, isLiteral⟩ | written
        · cases isLiteral
        · refine .bind (explainChildren_alike limit level children written.2) ?_
          rintro items _ rfl
          exact .pure rfl

theorem explainChildren_alike (limit : Nat) (level : Number) {first : Bool} (children : List Form)
    (written : Node.WrittenRow first children) :
    Alike left right Eq (explainChildren limit left level children)
      (explainChildren limit right level children) := by
  cases children with
  | nil => exact .pure rfl
  | cons node rest =>
      have others := explainChildren_alike limit level rest written.2
      cases node with
      | blank => exact written.1.elim
      | literal value depth =>
          refine .bind (format_alike value) ?_
          rintro item _ rfl
          refine .bind others ?_
          rintro items _ rfl
          exact .pure rfl
      | operator name depth =>
          refine .bind others ?_
          rintro items _ rfl
          exact .pure rfl
      | expression inner frame =>
          refine .bind (explain_alike limit level (.expression inner frame) (.inr written.1)) ?_
          rintro item _ rfl
          refine .bind others ?_
          rintro items _ rfl
          exact .pure rfl
end

theorem explainDown_alike (limit : Nat) {node : Form} (isRead : node.IsRead) (count : Nat) :
    Alike left right Eq (explainDown limit left node count)
      (explainDown limit right node count) := by
  induction count with
  | zero => exact .pure rfl
  | succ level ih =>
      refine .bind (explain_alike limit _ node isRead) ?_
      rintro view _ rfl
      refine .bind ih ?_
      rintro views _ rfl
      exact .pure rfl

theorem explainSteps_alike (limit : Nat) {node : Form} (isRead : node.IsRead) :
    Alike left right Eq (explainSteps limit left node) (explainSteps limit right node) := by
  refine .bind (explain_alike limit _ node isRead) ?_
  rintro unreduced _ rfl
  refine .bind (explainDown_alike limit isRead _) ?_
  rintro views _ rfl
  exact .pure rfl

end Requests

/-- Whether a request asks for steps, which the symbolic table directs. -/
def Request.takesSteps : Request → Bool
  | .perform .expand _ => true
  | .perform .trace _ => true
  | _ => false

namespace Interpreter

variable {one other : Interpreter}

theorem perform_alike {limit : Nat} {task : Task} (source : String)
    (acts : ∀ form : Form, form.IsRead → ∃ action action',
      one.performOn limit task form = keeping form action ∧
      other.performOn limit task form = keeping form action' ∧
      Alike one.home other.home Eq action action') :
    AlikeOnText one.home other.home Eq (one.perform limit task source)
      (other.perform limit task source) := by
  intro here there twin
  cases read : Node.readForm source with
  | error failure =>
      rw [perform, perform, onText_unread read, onText_unread read]
      exact .error twin (Node.readForm_documented source failure read)
  | ok form =>
      obtain ⟨action, action', keeps, keeps', alike⟩ := acts form (Node.isRead_of_readForm read)
      rw [perform_keeping read keeps, perform_keeping read keeps']
      exact alike.tolerate (fun _ => Failure.PastReading.documented) here there twin

theorem evalForms_alike (limit : Nat) {forms : List Form} (areRead : ∀ form ∈ forms, form.IsRead) :
    Alike one.home other.home Eq (one.evalForms limit forms) (other.evalForms limit forms) := by
  induction forms with
  | nil => exact .pure rfl
  | cons form rest ih =>
      refine .bind (evaluate_alike limit true (areRead form List.mem_cons_self)) fun _ _ _ => ?_
      exact ih fun other member => areRead other (List.mem_cons_of_mem _ member)

theorem load_alike (limit : Nat) (source : String) :
    AlikeOnText one.home other.home Eq (one.load limit source) (other.load limit source) := by
  have areRead : ∀ form ∈ (Node.readAll source).1, form.IsRead := Node.isRead_of_readAll
  have documented : ∀ failure, (Node.readAll source).2 = some failure → failure.Documented :=
    fun _ => Node.readAll_documented
  unfold load
  generalize Node.readAll source = all at areRead documented ⊢
  obtain ⟨forms, failure⟩ := all
  have evaluated : AlikeOnText one.home other.home Eq (one.evalForms limit forms)
      (other.evalForms limit forms) :=
    (evalForms_alike limit areRead).tolerate fun _ => Failure.PastReading.documented
  refine .bind evaluated fun _ _ _ => ?_
  cases failure with
  | none => exact .pure rfl
  | some failure => exact .throw (documented failure rfl)

theorem serve_alike (limit : Nat) {request : Request} (still : request.takesSteps = false) :
    AlikeOnText one.home other.home Eq (one.serve limit request)
      (other.serve limit request) := by
  cases request with
  | load source => exact .bind (load_alike limit source) fun _ _ _ => .pure rfl
  | perform task source =>
      have untraced : task ≠ .trace := by
        rintro rfl
        cases still
      rw [serve_perform untraced, serve_perform untraced]
      cases task with
      | evaluate =>
          refine perform_alike source fun form isRead => ⟨_, _, rfl, rfl, ?_⟩
          refine .bind (evaluate_alike limit true isRead) fun _ _ same => ?_
          exact .pure (congrArg Reply.value same.1)
      | define =>
          refine perform_alike source fun form isRead => ⟨_, _, rfl, rfl, ?_⟩
          refine .bind (define_alike limit .numeric isRead) fun _ _ _ => ?_
          exact .bind (define_alike limit .symbolic isRead) fun _ _ _ => .pure rfl
      | defineSymbolic =>
          refine perform_alike source fun form isRead => ⟨_, _, rfl, rfl, ?_⟩
          exact .bind (define_alike limit .symbolic isRead) fun _ _ _ => .pure rfl
      | explain level =>
          refine perform_alike source fun form isRead => ⟨_, _, rfl, rfl, ?_⟩
          refine .bind (explain_alike limit level form isRead) fun _ _ same => ?_
          exact .pure (congrArg Reply.view same)
      | explainSteps =>
          refine perform_alike source fun form isRead => ⟨_, _, rfl, rfl, ?_⟩
          refine .bind (explainSteps_alike limit isRead) fun _ _ same => ?_
          exact .pure (congrArg Reply.views same)
      | _ => cases still

end Interpreter

end Stepper
