import Stepper.Proofs.Safety

/-!
Constants under both readings. The value form of a constant is evaluated once
for each table, the second time when the numeric table already binds the name,
so the tables can come to differ. They agree exactly if the second evaluation
gives what the name then stands for.
-/

namespace Stepper

def State.withBinding (state : State) (home : Nat) (reading : Reading) (name : String)
    (value : Value) : State :=
  state.setTable home reading ((state.table home reading).insert (.text name) value)

/-- The definition of a constant. -/
def constantForm (name : String) (body : Form) (outer inner : Int) (frame : Frame) : Form :=
  .expression [.operator "define" outer, .literal (.text name) inner, body] frame

/-- The value that a constant is bound to: the word in its place, or what its
form evaluates to at a level. -/
def constantOf (limit home level : Nat) : Form → Eval Value
  | .literal value _ => pure value
  | body => body.eval (callModel limit) home false level

/-- The level below its definition at which a task evaluates a value form. -/
def Task.constantLevel : Task → Nat
  | .evaluate => 4
  | _ => 0

/-- Whether a form, evaluated again once the name is bound to its value, gives
what the name then stands for. -/
def Repeats (limit home level : Nat) (name : String) (body : Form) (state : State) : Prop :=
  ∃ first once second twice,
    body.eval (callModel limit) home false level state = .ok first once ∧
    body.eval (callModel limit) home false level (once.withBinding home .numeric name first) =
      .ok second twice ∧
    (twice.table home .numeric).get? (.text name) = some second

/-- Whether both tables bind a name to one value. -/
def State.AgreesOn (state : State) (home : Nat) (name : String) : Prop :=
  ∃ value, (state.table home .numeric).get? (.text name) = some value ∧
    (state.table home .symbolic).get? (.text name) = some value

section Entry

variable {limit home level : Nat} {name : String} {body : Form} {outer inner : Int} {frame : Frame}
variable {state after : State}

theorem constantOf_form (notLiteral : body.isLiteral = false) :
    constantOf limit home level body = body.eval (callModel limit) home false level := by
  cases body with
  | literal value depth => cases notLiteral
  | _ => rfl

theorem enterDefinition_constant_ok {reading : Reading}
    (done : enterDefinition home reading (constantForm name body outer inner frame)
      (body.eval (callModel limit) home false level) state = .ok () after) :
    ∃ value middle, constantOf limit home level body state = .ok value middle ∧
      ∀ other, after.table home other =
        (middle.withBinding home reading name value).table home other := by
  have entered : (do
      let value ← constantOf limit home level body
      Eval.define home reading (.text name) value
      if reading = .numeric then Eval.report (.definedConstant (.text name)) : Eval Unit) state =
        .ok () after := by
    rw [← done]
    cases body <;> rfl
  obtain ⟨value, middle, evaluated, rest⟩ := Eval.of_bind_ok entered
  obtain ⟨_, bound, defined, reported⟩ := Eval.of_bind_ok rest
  rw [Eval.define_run] at defined
  cases defined
  refine ⟨value, middle, evaluated, fun other => ?_⟩
  split at reported
  · exact Eval.report_keeps_tables reported home other
  · cases reported
    rfl

/-- Both tasks that define a constant enter it under one reading, then under
the other. -/
theorem perform_constant {interpreter : Interpreter} {task : Task} {source : String} {reply : Reply}
    (isTask : task = .define ∨ task = .evaluate)
    (read : Node.readForm source = .ok (constantForm name body outer inner frame))
    (done : interpreter.perform limit task source state = .ok reply after) :
    ∃ middle,
      enterDefinition interpreter.home .numeric (constantForm name body outer inner frame)
        (body.eval (callModel limit) interpreter.home false task.constantLevel) state =
          .ok () middle ∧
      enterDefinition interpreter.home .symbolic (constantForm name body outer inner frame)
        (body.eval (callModel limit) interpreter.home false task.constantLevel) middle =
          .ok () after := by
  rcases isTask with rfl | rfl
  · rw [Interpreter.perform_keeping read rfl] at done
    obtain ⟨_, middle, numeric, rest⟩ := Eval.of_bind_ok done
    obtain ⟨_, last, symbolic, finished⟩ := Eval.of_bind_ok rest
    cases finished
    exact ⟨middle, numeric, symbolic⟩
  · rw [Interpreter.perform_evaluate read] at done
    obtain ⟨value, last, evaluated, finished⟩ := Eval.of_bind_ok done
    cases finished
    rw [evaluate, constantForm, Node.eval] at evaluated
    obtain ⟨_, middle, numeric, rest⟩ := Eval.of_bind_ok evaluated
    obtain ⟨_, last, symbolic, finished⟩ := Eval.of_bind_ok rest
    cases finished
    exact ⟨middle, numeric, symbolic⟩

theorem State.get?_withBinding (state : State) (home : Nat) (reading : Reading)
    (name other : String) (value : Value) :
    ((state.withBinding home reading name value).table home reading).get? (.text other) =
      if other = name then some value else (state.table home reading).get? (.text other) := by
  rw [State.withBinding, State.table_setTable, Table.get?_insert]

/-- The symbolic table binds the name to the value of the second evaluation;
the numeric one is as that evaluation left it. -/
theorem agreesOn_of_constant {middle : State} {value : Value}
    (entered : ∀ other, after.table home other =
      (middle.withBinding home .symbolic name value).table home other) :
    after.AgreesOn home name ↔ (middle.table home .numeric).get? (.text name) = some value := by
  have symbolic : (after.table home .symbolic).get? (.text name) = some value := by
    rw [entered, State.get?_withBinding, if_pos rfl]
  have numeric : after.table home .numeric = middle.table home .numeric := by
    rw [entered, State.withBinding, State.table_setTable_other _ _ (by decide)]
  rw [State.AgreesOn, numeric, symbolic]
  constructor
  · rintro ⟨_, bound, same⟩
    exact bound.trans same.symm
  · intro bound
    exact ⟨value, bound, rfl⟩

end Entry

section Twice

variable {limit home level : Nat} {name : String} {body : Form} {state after : State}

theorem Pairs.of_ok {α : Type} {allowed : Failure → Prop} {pre post : State → State → Prop}
    {same : α → α → Prop} {one other : Eval α} (pairs : Pairs allowed pre post same one other)
    {here there last : State} {a : α}
    (related : pre here there) (ran : one here = .ok a last) :
    ∃ b last', other there = .ok b last' ∧ same a b ∧ post last last' := by
  have ends := pairs here there related
  generalize other there = run at ends
  rw [ran] at ends
  cases ends with
  | ok keeps equal => exact ⟨_, _, rfl, equal, keeps⟩

theorem Twin.get?_datum {left right : Nat} {here there : State} (twin : Twin left right here there)
    {value : Value} (isDatum : value.IsDatum) (key : Value) :
    (here.table left .numeric).get? key = some value ↔
      (there.table right .numeric).get? key = some value := by
  have same : ((here.table left .numeric).get? key).map Value.unmarked =
      ((there.table right .numeric).get? key).map Value.unmarked := by
    rw [← Table.get?_unmarked, twin.numeric, Table.get?_unmarked]
  constructor
  · intro bound
    rw [bound] at same
    obtain ⟨other, found, equal⟩ := Option.map_eq_some_iff.mp same.symm
    rw [found, isDatum.eq_of_unmarked equal.symm]
  · intro bound
    rw [bound] at same
    obtain ⟨other, found, equal⟩ := Option.map_eq_some_iff.mp same
    rw [found, isDatum.eq_of_unmarked equal.symm]

/-- The second evaluation runs in the state that the first entry left, up to
what was reported. -/
theorem repeats_iff (sound : state.Sound home) (isRun : Token.IsRun name)
    (written : body.WrittenAt false) {first second : Value} {once middle twice : State}
    (ran : body.eval (callModel limit) home false level state = .ok first once)
    (entered : ∀ other, middle.table home other =
      (once.withBinding home .numeric name first).table home other)
    (again : body.eval (callModel limit) home false level middle = .ok second twice) :
    Repeats limit home level name body state ↔
      (twice.table home .numeric).get? (.text name) = some second := by
  have alike : Alike home home SameDatum (body.eval (callModel limit) home false level)
      (body.eval (callModel limit) home false level) :=
    (eval_alike (callModel_uniform limit) false level body written).mono
      fun _ _ => Value.Evaluated.sameDatum
  obtain ⟨_, _, _, ⟨_, isDatum⟩, kept⟩ := alike.of_ok ⟨sound, sound, rfl⟩ ran
  have bound : (once.withBinding home .numeric name first).Sound home :=
    kept.first.setTable .numeric ((kept.first .numeric).insert ⟨name, rfl, isRun⟩ (.datum isDatum))
  have twin : Twin home home middle (once.withBinding home .numeric name first) :=
    ⟨bound.of_tables entered, bound, by rw [entered]⟩
  obtain ⟨_, last, ranBound, ⟨rfl, isDatum⟩, kept⟩ := alike.of_ok twin again
  rw [kept.get?_datum isDatum]
  constructor
  · rintro ⟨_, _, _, _, ranFirst, ranSecond, stands⟩
    rw [ran] at ranFirst
    cases ranFirst
    rw [ranBound] at ranSecond
    cases ranSecond
    exact stands
  · intro stands
    exact ⟨first, once, second, last, ran, ranBound, stands⟩

end Twice

namespace Node

mutual
def words : Form → List String
  | .literal (.text word) _ => [word]
  | .operator name _ => [name]
  | .expression children _ => wordsOfAll children
  | _ => []

def wordsOfAll : List Form → List String
  | [] => []
  | node :: rest => node.words ++ wordsOfAll rest
end

end Node

def Value.word? : Value → Option String
  | .text word => some word
  | _ => none

namespace CondProcedure

def formalWords (definition : CondProcedure Value) : List String :=
  definition.formals.filterMap Value.word?

def clauseWords (definition : CondProcedure Value) : List String :=
  definition.clauses.flatMap fun clause => clause.test.words ++ clause.result.words

end CondProcedure

/-- The procedure that a word stands for. -/
def Table.procedure? (table : Table) (word : String) : Option (CondProcedure Value) :=
  match table.resolve (.text word) with
  | some (.procedure .numeric definition) => some definition
  | _ => none

theorem Table.mem_procedure? {table : Table} {word : String} {definition : CondProcedure Value} :
    definition ∈ table.procedure? word ↔
      table.resolve (.text word) = some (.procedure .numeric definition) := by
  unfold procedure?
  split
  · rename_i other found
    simp [found]
  · rename_i other
    simpa using other definition

/-- Words that stand for the same when they are looked up again: the procedures
among them read such words and their own formals only, and bind none of them,
nor `name`. -/
structure Table.Lasting (table : Table) (name : String) (words : List String) : Prop where
  apart : ∀ word ∈ words, word ≠ name ∧ word ≠ "define"
  formals : ∀ callee ∈ words, ∀ definition ∈ table.procedure? callee,
    ∀ formal ∈ definition.formalWords, formal ≠ name ∧ formal ∉ words
  clauses : ∀ callee ∈ words, ∀ definition ∈ table.procedure? callee,
    ∀ word ∈ definition.clauseWords,
      word ∈ words ∨ word ∈ definition.formalWords ∧ word ≠ "define"

instance (table : Table) (name : String) (words : List String) :
    Decidable (table.Lasting name words) :=
  decidable_of_iff
    ((∀ word ∈ words, word ≠ name ∧ word ≠ "define") ∧
      (∀ callee ∈ words, ∀ definition ∈ table.procedure? callee,
        ∀ formal ∈ definition.formalWords, formal ≠ name ∧ formal ∉ words) ∧
      ∀ callee ∈ words, ∀ definition ∈ table.procedure? callee,
        ∀ word ∈ definition.clauseWords,
          word ∈ words ∨ word ∈ definition.formalWords ∧ word ≠ "define")
    ⟨fun ⟨apart, formals, clauses⟩ => ⟨apart, formals, clauses⟩,
      fun lasting => ⟨lasting.apart, lasting.formals, lasting.clauses⟩⟩

/-- States that look names up as `table` does and agree on trusted names, which
stand for no procedures. -/
structure Steady (home : Nat) (table : Table) (name : String) (words : List String)
    (standing : Option Value) (trusted : String → Prop) (one other : State) : Prop where
  first : ∀ word ∈ words, one.binding home word = table.resolve (.text word)
  second : ∀ word ∈ words, other.binding home word = table.resolve (.text word)
  agree : ∀ word, trusted word → one.binding home word = other.binding home word
  data : ∀ word value, trusted word → one.binding home word = some value →
    value.isProcedure = false
  stands : (other.table home .numeric).get? (.text name) = standing

theorem Value.IsDatum.bound?_noProcedure {value bound : Value} (isDatum : value.IsDatum)
    (found : value.bound? = some bound) : bound.isProcedure = false := by
  rcases isDatum with rfl | isNumber
  · cases found
  · rw [isNumber.bound?_eq] at found
    cases found
    exact isNumber.not_procedure

section Steady

variable {home : Nat} {table : Table} {name : String} {words : List String}
variable {standing : Option Value} {trusted : String → Prop}

theorem Steady.binding_eq {one other : State}
    (steady : Steady home table name words standing trusted one other) {word : String}
    (known : word ∈ words ∨ trusted word) : one.binding home word = other.binding home word := by
  rcases known with lasts | trusts
  · rw [steady.first word lasts, steady.second word lasts]
  · exact steady.agree word trusts

theorem Steady.mono {fewer : String → Prop} {one other : State}
    (steady : Steady home table name words standing trusted one other)
    (part : ∀ word, fewer word → trusted word) :
    Steady home table name words standing fewer one other where
  first := steady.first
  second := steady.second
  agree word known := steady.agree word (part word known)
  data word value known := steady.data word value (part word known)
  stands := steady.stands

theorem resolve_steady {word : String} (known : word ∈ words ∨ trusted word) :
    Pairs Failure.PastReading (Steady home table name words standing trusted)
      (Steady home table name words standing trusted)
      (fun found found' => found = found' ∧ ∀ value, found = some value →
        value.isProcedure = true → word ∈ words ∧ table.resolve (.text word) = some value)
      (Eval.resolve home .numeric (.text word)) (Eval.resolve home .numeric (.text word)) := by
  intro one other steady
  rw [Eval.resolve_run, Eval.resolve_run]
  refine .ok steady ⟨steady.binding_eq known, fun value found isProcedure => ?_⟩
  rcases known with lasts | trusts
  · exact ⟨lasts, (steady.first word lasts).symm.trans found⟩
  · rw [steady.data word value trusts found] at isProcedure
    cases isProcedure

theorem formalWords_texts {definition : CondProcedure Value} {formals : List String}
    (texts : definition.formals = formals.map .text) : definition.formalWords = formals := by
  simp [CondProcedure.formalWords, texts, List.filterMap_map, Function.comp_def, Value.word?]

/-- Once a call has bound its formals in both states, they are trusted. -/
theorem bindFormals_steady (lasting : table.Lasting name words) {callee : String}
    {definition : CondProcedure Value} {arguments : List Value} (member : callee ∈ words)
    (isProcedure : definition ∈ table.procedure? callee) (sound : definition.Sound home)
    (data : ∀ argument ∈ arguments, argument.IsDatum) :
    Pairs Failure.PastReading (Steady home table name words standing trusted)
      (Steady home table name words standing fun word =>
        trusted word ∨ word ∈ definition.formalWords)
      (fun _ _ => True) (bindFormals home [.numeric] definition.formals arguments)
      (bindFormals home [.numeric] definition.formals arguments) := by
  have apart := lasting.formals callee member definition isProcedure
  obtain ⟨formals, texts⟩ := exists_texts sound.formals
  rw [formalWords_texts texts] at apart ⊢
  rw [texts]
  intro one other steady
  have alone : [Reading.numeric].Nodup := by decide
  obtain ⟨after, ran, tables⟩ := bindFormals_run home alone formals arguments one
  obtain ⟨after', ran', tables'⟩ := bindFormals_run home alone formals arguments other
  have binds := tables .numeric
  have binds' := tables' .numeric
  simp only [List.mem_singleton, if_true] at binds binds'
  rw [ran, ran']
  have given : ∀ word ∈ formals, ∃ value, supplied word formals arguments = some value ∧
      (value.IsDatum ∨ value = .unbound) := by
    intro word formal
    cases found : supplied word formals arguments with
    | none => exact absurd formal (supplied_eq_none_iff.mp found)
    | some value => exact ⟨value, rfl, (supplied_member found).imp_left (data value)⟩
  -- the tables agree on the formals, and neither changes what lasts
  have free : ∀ word ∈ words, word ∉ formals := fun word inside formal =>
    (apart word formal).2 inside
  refine .ok ⟨fun word inside => ?_, fun word inside => ?_, fun word known => ?_,
    fun word value known found => ?_, ?_⟩ trivial
  · rw [binds.binding_other (free word inside), steady.first word inside]
  · rw [binds'.binding_other (free word inside), steady.second word inside]
  · by_cases formal : word ∈ formals
    · obtain ⟨value, isGiven, _⟩ := given word formal
      rw [binds.binding_formal isGiven, binds'.binding_formal isGiven]
    · rw [binds.binding_other formal, binds'.binding_other formal]
      exact steady.agree word (known.resolve_right formal)
  · by_cases formal : word ∈ formals
    · obtain ⟨argument, isGiven, isDatum | rfl⟩ := given word formal
      · rw [binds.binding_formal isGiven] at found
        exact isDatum.bound?_noProcedure found
      · rw [binds.binding_formal isGiven] at found
        cases found
    · rw [binds.binding_other formal] at found
      exact steady.data word value (known.resolve_right formal) found
  · rw [binds'.get?, supplied_eq_none_iff.mpr fun formal => (apart name formal).1 rfl]
    exact steady.stands

/-- Calls that give the same value in each two steady states. -/
def Lasts (home : Nat) (table : Table) (name : String) (words : List String)
    (standing : Option Value) (call : CallModel) : Prop :=
  ∀ (trusted : String → Prop) (level : Nat) (callee : String) (definition : CondProcedure Value)
    (arguments : List Value), callee ∈ words → definition ∈ table.procedure? callee →
    (∀ argument ∈ arguments, argument.IsDatum) →
    Pairs Failure.PastReading (Steady home table name words standing trusted)
      (Steady home table name words standing trusted) SameDatum
      (call level definition arguments) (call level definition arguments)

theorem apply_steady {call : CallModel} (lasts : Lasts home table name words standing call)
    (sound : table.Sound home .numeric) (level : Nat) {procedure : Value} {arguments : List Value}
    (isProcedure : procedure.isProcedure = true)
    (found : ∃ callee, callee ∈ words ∧ table.resolve (.text callee) = some procedure)
    (data : ∀ argument ∈ arguments, argument.IsDatum) :
    Pairs Failure.PastReading (Steady home table name words standing trusted)
      (Steady home table name words standing trusted) SameDatum
      (procedure.apply call level arguments) (procedure.apply call level arguments) := by
  obtain ⟨callee, isWord, bound⟩ := found
  cases procedure with
  | builtin operation =>
      refine Pairs.mono (.ofExcept (operation.apply_documented _)) fun _ _ applied => ?_
      exact ⟨applied.1, Builtin.apply_isDatum applied.2⟩
  | procedure reading definition =>
      cases sound.resolve_fits bound with
      | procedure _ =>
          exact lasts trusted level callee definition arguments isWord
            (Table.mem_procedure?.mpr bound) data
      | datum isDatum => simp [isDatum.not_procedure] at isProcedure
      | word isWord => exact absurd isWord nofun
  | _ => cases isProcedure

mutual
theorem eval_steady {call : CallModel} (lasts : Lasts home table name words standing call)
    (lasting : table.Lasting name words) (sound : table.Sound home .numeric) (both : Bool)
    (level : Nat) {first : Bool} (node : Form) (written : node.WrittenAt first)
    (known : ∀ word ∈ node.words, word ∈ words ∨ trusted word ∧ word ≠ "define") :
    Pairs Failure.PastReading (Steady home table name words standing trusted)
      (Steady home table name words standing trusted)
      (fun value value' => value = value' ∧ (first = false → value.IsDatum) ∧
        (value.isProcedure = true →
          ∃ callee, callee ∈ words ∧ table.resolve (.text callee) = some value))
      (node.eval call home both level) (node.eval call home both level) := by
  cases node with
  | blank => exact written.elim
  | literal value depth =>
      obtain ⟨word, rfl, _⟩ := written
      have isKnown := (known word (by simp [Node.words])).imp_right And.left
      rw [Node.eval]
      refine .bind (resolve_steady isKnown) ?_
      rintro found _ ⟨rfl, _⟩
      refine .bind (.ofExcept (Value.toNumber_documented _)) ?_
      rintro number _ ⟨rfl, _⟩
      refine .pure ⟨rfl, fun _ => Value.isDatum_ofNumber number, fun isProcedure => ?_⟩
      simp [(Value.isDatum_ofNumber number).not_procedure] at isProcedure
  | operator symbol depth =>
      have isKnown := (known symbol (by simp [Node.words])).imp_right And.left
      obtain ⟨rfl, _⟩ := written
      rw [Node.eval]
      refine .bind (resolve_steady isKnown) ?_
      rintro found _ ⟨rfl, procedures⟩
      refine .pure ⟨rfl, nofun, fun isProcedure => ?_⟩
      cases found with
      | none => cases isProcedure
      | some value => exact ⟨symbol, procedures value rfl isProcedure⟩
  | expression children frame =>
      cases children with
      | nil => exact .throw ⟨.notFound _, rfl⟩
      | cons head operands =>
          have parts : ∀ word ∈ head.words ++ Node.wordsOfAll operands,
              word ∈ words ∨ trusted word ∧ word ≠ "define" := known
          -- neither a lasting name nor a trusted one is `define`, so nothing is entered
          have notDefine : Node.isDefine (.expression (head :: operands) frame : Form) = false := by
            cases head with
            | operator symbol depth =>
                rcases parts symbol (by simp [Node.words]) with isWord | ⟨_, different⟩
                · exact isDefine_operator (lasting.apart symbol isWord).2
                · exact isDefine_operator different
            | _ => rfl
          rw [Node.eval]
          simp only [notDefine, Bool.false_eq_true, if_false]
          refine .bind (eval_steady lasts lasting sound both (level + 1) head written.2.1
            fun word member => parts word (List.mem_append_left _ member)) ?_
          rintro procedure _ ⟨rfl, _, found⟩
          refine .bind (applicable_pairs head procedure) fun _ _ isProcedure => ?_
          refine .bind (evalAll_steady lasts lasting sound both (level + 2) operands written.2.2
            fun word member => parts word (List.mem_append_right _ member)) ?_
          rintro arguments _ ⟨rfl, data⟩
          refine (apply_steady lasts sound level isProcedure (found isProcedure) data).mono ?_
          rintro value _ ⟨rfl, isDatum⟩
          exact ⟨rfl, fun _ => isDatum, by simp [isDatum.not_procedure]⟩

theorem evalAll_steady {call : CallModel} (lasts : Lasts home table name words standing call)
    (lasting : table.Lasting name words) (sound : table.Sound home .numeric) (both : Bool)
    (level : Nat) (nodes : List Form) (written : Node.WrittenRow false nodes)
    (known : ∀ word ∈ Node.wordsOfAll nodes, word ∈ words ∨ trusted word ∧ word ≠ "define") :
    Pairs Failure.PastReading (Steady home table name words standing trusted)
      (Steady home table name words standing trusted)
      (fun values values' => values = values' ∧ ∀ value ∈ values, value.IsDatum)
      (evalAll call home both level nodes) (evalAll call home both level nodes) := by
  cases nodes with
  | nil => exact .pure ⟨rfl, by simp⟩
  | cons node rest =>
      have parts : ∀ word ∈ node.words ++ Node.wordsOfAll rest,
          word ∈ words ∨ trusted word ∧ word ≠ "define" := known
      rw [evalAll]
      refine .bind (eval_steady lasts lasting sound both level node written.1
        fun word member => parts word (List.mem_append_left _ member)) ?_
      rintro value _ ⟨rfl, isDatum, _⟩
      refine .bind (evalAll_steady lasts lasting sound both level rest written.2
        fun word member => parts word (List.mem_append_right _ member)) ?_
      rintro values _ ⟨rfl, data⟩
      exact .pure ⟨rfl, List.forall_mem_cons.mpr ⟨isDatum rfl, data⟩⟩
end

/-- A call trusts its formals while it runs; nothing that it calls makes the
two states differ on them. -/
theorem callWithin_lasts (lasting : table.Lasting name words) (sound : table.Sound home .numeric)
    (limit room : Nat) : Lasts home table name words standing (callWithin limit room) := by
  induction room with
  | zero =>
      intro trusted level callee definition arguments isWord bound data
      have fits := (sound.resolve_fits (Table.mem_procedure?.mp bound)).sound
      rw [callWithin, fits.home]
      -- even a call without room binds its formals before it fails
      refine Pairs.relax (.bind (bindFormals_steady lasting isWord bound fits data) fun _ _ _ =>
        .throw ⟨.tooDeep limit, rfl⟩) ?_
      exact fun _ _ steady => steady.mono fun _ => .inl
  | succ room ih =>
      intro trusted level callee definition arguments isWord bound data
      cases level with
      | succ level => exact ih trusted level callee definition arguments isWord bound data
      | zero =>
          have fits := (sound.resolve_fits (Table.mem_procedure?.mp bound)).sound
          have known : ∀ clause ∈ definition.clauses,
              ∀ word ∈ clause.test.words ++ clause.result.words,
                word ∈ words ∨ word ∈ definition.formalWords ∧ word ≠ "define" :=
            fun clause member word inside =>
              lasting.clauses callee isWord definition bound word
                (List.mem_flatMap.mpr ⟨clause, member, inside⟩)
          rw [callWithin, fits.home]
          refine Pairs.relax (.bind (bindFormals_steady lasting isWord bound fits data)
            fun _ _ _ => .get fun _ _ _ => ?_) fun _ _ steady => steady.mono fun _ => .inl
          rw [fits.clauses_eq, fits.clauses_eq]
          refine .bind (selectClause_pairs _ fun clause member => ?_) ?_
          · refine (evalWithin_pairs limit room (eval_steady ih lasting sound false 2 clause.test
              (fits.clauses clause member).test fun word inside => ?_)).mono fun _ _ same => ?_
            · exact (known clause member word (List.mem_append_left _ inside)).imp_right
                (And.imp_left .inr)
            · rw [same.1]
          · rintro _ _ ⟨rfl, clause, member, rfl⟩
            refine (evalWithin_pairs limit room (eval_steady ih lasting sound false 1 clause.result
              (fits.clauses clause member).result fun word inside => ?_)).mono fun _ _ same => ?_
            · exact (known clause member word (List.mem_append_right _ inside)).imp_right
                (And.imp_left .inr)
            · exact ⟨same.1, same.2.1 rfl⟩

/-- A form that looks up lasting names only gives its value again: evaluating it
bound formals at most, and a call binds its formals before it reads them. -/
theorem repeats_of_lasting {limit level : Nat} {body : Form} {state once : State} {first : Value}
    (sound : state.Sound home) (written : body.WrittenAt false)
    (lasting : (state.table home .numeric).Lasting name words)
    (uses : ∀ word ∈ body.words, word ∈ words)
    (ran : body.eval (callModel limit) home false level state = .ok first once) :
    Repeats limit home level name body state := by
  have pairs : ∀ standing, Pairs Failure.PastReading
      (Steady home (state.table home .numeric) name words standing fun _ => False)
      (Steady home (state.table home .numeric) name words standing fun _ => False) _
      (body.eval (callModel limit) home false level)
      (body.eval (callModel limit) home false level) :=
    fun standing => eval_steady (callWithin_lasts lasting (sound .numeric) limit limit) lasting
      (sound .numeric) false level body written fun word member => .inl (uses word member)
  have alone : Steady home (state.table home .numeric) name words
      ((state.table home .numeric).get? (.text name)) (fun _ => False) state state :=
    ⟨fun _ _ => rfl, fun _ _ => rfl, fun _ => False.elim, fun _ _ => False.elim, rfl⟩
  obtain ⟨_, _, _, _, kept⟩ := (pairs _).of_ok alone ran
  have bound : Steady home (state.table home .numeric) name words (some first) (fun _ => False)
      state (once.withBinding home .numeric name first) := by
    refine ⟨fun _ _ => rfl, fun word isWord => ?_, fun _ => False.elim, fun _ _ => False.elim, ?_⟩
    · rw [← kept.first word isWord, State.binding, State.binding, Table.resolve_eq_bind,
        Table.resolve_eq_bind, State.get?_withBinding, if_neg (lasting.apart word isWord).1]
    · rw [State.get?_withBinding, if_pos rfl]
  obtain ⟨_, last, again, ⟨rfl, _⟩, kept⟩ := (pairs _).of_ok bound ran
  exact ⟨first, once, first, last, ran, again, kept.stands⟩

end Steady

/-- After the definition of a constant, both tables bind it to one value exactly
if its place holds a word, or a form that gives what the name stands for when it
is evaluated again. Forms that look up lasting names only are such forms. -/
theorem constants_agree_iff_repeat {interpreter : Interpreter} {limit : Nat} {task : Task}
    {source name : String} {body : Form} {outer inner : Int} {frame : Frame} {reply : Reply}
    {state after : State} (reached : interpreter.Reached state)
    (isTask : task = .define ∨ task = .evaluate)
    (read : Node.readForm source = .ok (constantForm name body outer inner frame))
    (done : interpreter.perform limit task source state = .ok reply after) :
    (after.AgreesOn interpreter.home name ↔
      body.isLiteral = true ∨
        Repeats limit interpreter.home task.constantLevel name body state) ∧
    ((∃ words, (state.table interpreter.home .numeric).Lasting name words ∧
        ∀ word ∈ body.words, word ∈ words) →
      after.AgreesOn interpreter.home name) := by
  obtain ⟨_, _, ⟨text, same, isRun⟩, written, _⟩ :=
    (Node.isRead_of_readForm read).resolve_left nofun
  cases same
  obtain ⟨middle, numeric, symbolic⟩ := perform_constant isTask read done
  obtain ⟨first, once, ran, entered⟩ := enterDefinition_constant_ok numeric
  obtain ⟨second, twice, again, enteredAgain⟩ := enterDefinition_constant_ok symbolic
  rw [agreesOn_of_constant enteredAgain]
  cases isLiteral : body.isLiteral with
  | true =>
      have stands : (twice.table interpreter.home .numeric).get? (.text name) = some second := by
        cases body with
        | literal value depth =>
            cases ran
            cases again
            rw [entered, State.get?_withBinding, if_pos rfl]
        | _ => cases isLiteral
      exact ⟨⟨fun _ => .inl rfl, fun _ => stands⟩, fun _ => stands⟩
  | false =>
      rw [constantOf_form isLiteral] at ran again
      have repeats := repeats_iff reached.sound isRun written ran entered again
      refine ⟨by simp [repeats], ?_⟩
      rintro ⟨words, lasting, uses⟩
      exact repeats.mp (repeats_of_lasting reached.sound written lasting uses ran)

theorem ok_of_attempt {α : Type} {action : Eval α} {state : State}
    (succeeds : (attempt action state).1.isOk = true) :
    ∃ a, action state = .ok a (attempt action state).2 := by
  rw [attempt, EStateM.run] at succeeds ⊢
  cases ran : action state with
  | ok a after => exact ⟨a, rfl⟩
  | error failure after =>
      rw [ran] at succeeds
      cases succeeds

/-- A constant that counts itself up ends with two values; the value of a call
of a procedure that reads its formal only is the same in both tables. -/
theorem constants_agree_iff_repeat_counter :
    let interpreter : Interpreter := ⟨0, 10⟩
    let counting := (attempt (interpreter.serve 50 (.perform .define "(define x 1)")) {}).2
    let squaring := (attempt (interpreter.serve 50
      (.perform .define "(define (square n) (cond (else (* n n))))")) {}).2
    (interpreter.Reached counting ∧ interpreter.Reached squaring) ∧
    (∃ body frame reply after,
      Node.readForm "(define x (+ x 1))" = .ok (constantForm "x" body 1 1 frame) ∧
      interpreter.perform 50 .define "(define x (+ x 1))" counting = .ok reply after ∧
      ¬ after.AgreesOn 0 "x" ∧ ¬ Repeats 50 0 0 "x" body counting) ∧
    ∃ body frame reply after,
      Node.readForm "(define x (square 5))" = .ok (constantForm "x" body 1 1 frame) ∧
      interpreter.perform 50 .evaluate "(define x (square 5))" squaring = .ok reply after ∧
      after.AgreesOn 0 "x" := by
  intro interpreter counting squaring
  have reached : interpreter.Reached counting := .serve 50 _ (.start rfl)
  have reached' : interpreter.Reached squaring := .serve 50 _ (.start rfl)
  refine ⟨⟨reached, reached'⟩, ?_, ?_⟩
  · have read : Node.readForm "(define x (+ x 1))" = .ok (constantForm "x"
        (.expression [.operator "+" 2, .literal (.text "x") 2, .literal (.text "1") 2] ⟨1, 1, none⟩)
        1 1 ⟨0, 2, none⟩) := rfl
    let outcome := attempt (interpreter.perform 50 .define "(define x (+ x 1))") counting
    have succeeds : outcome.1.isOk = true := by decide +kernel
    obtain ⟨reply, done⟩ := ok_of_attempt succeeds
    have differ : ¬ outcome.2.AgreesOn 0 "x" := by
      rintro ⟨value, numeric, symbolic⟩
      have two : (some value).bind Value.number? = some (.int 2) := by
        rw [← numeric]
        decide +kernel
      have three : (some value).bind Value.number? = some (.int 3) := by
        rw [← symbolic]
        decide +kernel
      cases two.symm.trans three
    refine ⟨_, _, reply, _, read, done, differ, fun repeats => differ ?_⟩
    exact (constants_agree_iff_repeat reached (.inl rfl) read done).1.mpr (.inr repeats)
  · have read : Node.readForm "(define x (square 5))" = .ok (constantForm "x"
        (.expression [.operator "square" 2, .literal (.text "5") 2] ⟨1, 1, none⟩)
        1 1 ⟨0, 2, none⟩) := rfl
    let outcome := attempt (interpreter.perform 50 .evaluate "(define x (square 5))") squaring
    have succeeds : outcome.1.isOk = true := by decide +kernel
    obtain ⟨reply, done⟩ := ok_of_attempt succeeds
    have lasting : (squaring.table 0 .numeric).Lasting "x" ["square", "5", "else", "*"] := by
      decide +kernel
    refine ⟨_, _, reply, _, read, done, ?_⟩
    exact (constants_agree_iff_repeat reached' (.inr rfl) read done).2
      ⟨_, lasting, by simp [Node.words, Node.wordsOfAll]⟩

end Stepper
