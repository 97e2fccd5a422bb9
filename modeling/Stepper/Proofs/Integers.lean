import Stepper.Proofs.Arithmetic
import Stepper.Proofs.Scoping

/-!
Which terms give integers. Only tests give truth values, so a term that ends in
no test gives an integer, provided that calls get as many arguments as they have
formals and that clauses find the formals which they read as the call bound them.
-/

namespace Stepper

namespace Program

/-- Whether a call of a name can give a truth value. -/
inductive TruthValued (program : Program) : String → Prop where
  | builtin {name : String} {operation : Builtin}
      (means : program.meaning name = some (.builtin operation))
      (isTest : operation = .equals ∨ operation = .otherwise) : TruthValued program name
  | procedure {procedure : Procedure} {clause : Guard × Term String} {inner : String}
      (has : program.Has procedure) (inside : clause ∈ procedure.clauses)
      (last : clause.2.head? = some inner) (truthValued : TruthValued program inner) :
      TruthValued program procedure.name

/-- Whether a term can give a truth value. -/
def GivesTruth {α : Type} (program : Program) (term : Term α) : Prop :=
  ∃ name, term.head? = some name ∧ program.TruthValued name

/-- Terms in which each call gets the arguments that it needs, none of them a
truth value. -/
inductive Sound {α : Type} (program : Program) : Term α → Prop where
  | leaf (a : α) : Sound program (.leaf a)
  | call {name : String} {operands : List (Term α)}
      (enough : ∀ procedure, program.meaning name = some (.procedure procedure) →
        procedure.formals.length ≤ operands.length)
      (sound : ∀ operand ∈ operands, Sound program operand)
      (integers : ∀ operand ∈ operands, ¬ program.GivesTruth operand) :
      Sound program (.call name operands)

/-- Programs whose steps can be shown as text: clauses read own formals and
integers, which are no names; a result reads a formal only before calls that can
bind it, those of the guards included; results are sound. -/
structure Traceable (program : Program) : Prop where
  plain : program.Plain
  formals : ∀ name, program.IsFormal name → ¬ IsInteger name
  names : ∀ procedure, program.Has procedure → ¬ IsInteger procedure.name
  reads : ∀ procedure, program.Has procedure → ∀ name, .read name ∈ procedure.actions →
    name ∈ procedure.formals ∨ IsInteger name
  words : ∀ procedure, program.Has procedure → ∀ clause ∈ procedure.clauses,
    ∀ word ∈ clause.1.words, word ∈ procedure.formals ∨ ¬ program.IsFormal word
  orderly : ∀ procedure, program.Has procedure → ∀ path ∈ procedure.paths,
    program.Orderly path.2
  settled : ∀ procedure, program.Has procedure → ∀ path ∈ procedure.paths,
    ∀ name, .read name ∈ path.2 → ¬ program.Touches path.1 name
  sound : ∀ procedure, program.Has procedure → ∀ clause ∈ procedure.clauses,
    program.Sound clause.2

/-- Well scoped programs can be traced, if their results are sound. -/
theorem WellScoped.traceable {program : Program} (wellScoped : program.WellScoped)
    (sound : ∀ procedure, program.Has procedure → ∀ clause ∈ procedure.clauses,
      program.Sound clause.2) : program.Traceable where
  plain := wellScoped.plain
  formals name isFormal integer := (wellScoped.integer_free integer).2 isFormal
  names procedure has := wellScoped.names procedure (mem_of_meaning has)
  reads procedure has name read := wellScoped.allowed procedure (mem_of_meaning has) _ read
  words procedure has clause inside word member := by
    refine .inr fun isFormal => ?_
    obtain ⟨other, among, formal⟩ := isFormal.exists_mem
    exact wellScoped.words procedure (mem_of_meaning has) clause inside word member other among
      formal
  orderly procedure has path inside :=
    (List.pairwise_append.mp (wellScoped.orderly procedure (mem_of_meaning has) path inside)).2.1
  settled procedure has path inside _ read :=
    (wellScoped.orderly procedure (mem_of_meaning has) path inside).not_touches read
  sound := sound

/-- Whether calls can lead from one state to another, as far as the numeric table
shows. -/
def Leads (program : Program) (home : Nat) (base state : State) : Prop :=
  Table.Drifts program.IsFormal (base.table home .numeric) (state.table home .numeric)

theorem Leads.after {program : Program} {home : Nat} {base state after : State}
    {actions : List (Action String)} (leads : program.Leads home base state)
    (changes : Changes home (program.Touches actions) state after) :
    program.Leads home base after :=
  leads.trans (changes.numeric.mono touches_isFormal)

/-- Binding formals to integers changes a table as calls do. -/
theorem drifts_of_binds {program : Program} {procedure : Procedure} {numbers : List Int}
    {before after : Table} (has : program.Has procedure)
    (binds : Table.Binds procedure.formals (numbers.map .int) before after) :
    Table.Drifts program.IsFormal before after := by
  have areNumbers : ∀ argument ∈ numbers.map Value.int, argument.IsNumber := by
    intro argument member
    obtain ⟨n, _, rfl⟩ := List.mem_map.mp member
    rfl
  exact (binds.drifts areNumbers).mono fun name formal => ⟨procedure, has, formal⟩

theorem Leads.bind {program : Program} {home : Nat} {base state bound : State}
    {procedure : Procedure} {numbers : List Int} (leads : program.Leads home base state)
    (has : program.Has procedure)
    (binds : Table.Binds procedure.formals (numbers.map .int) (state.table home .numeric)
      (bound.table home .numeric)) : program.Leads home base bound :=
  leads.trans (drifts_of_binds has binds)

variable {program : Program} {home : Nat} {base : State}

theorem Traceable.integer_free (traceable : program.Traceable) {text : String}
    (integer : IsInteger text) : program.meaning text = none ∧ ¬ program.IsFormal text :=
  Program.integer_free traceable.formals traceable.names integer

theorem Leads.read_free {state : State} (leads : program.Leads home base state)
    (shows : (base.table home .numeric).Shows program home .numeric) {text : String}
    (free : program.meaning text = none ∧ ¬ program.IsFormal text) :
    state.read home (.text text) = (Value.text text).toNumber := by
  rw [State.read, shows.resolve_free leads free.1 free.2]
  rfl

theorem Traceable.read_spells (traceable : program.Traceable) {state : State}
    (shows : (base.table home .numeric).Shows program home .numeric)
    (leads : program.Leads home base state) {text : String} (integer : IsInteger text)
    {number : Number} (read : state.read home (.text text) = .ok number) :
    ∃ n, number = .int n ∧ Spells text n := by
  rw [leads.read_free shows (traceable.integer_free integer)] at read
  exact integer.spells read

/-- A result finds each formal that it reads as the call bound it. -/
theorem Traceable.binding_result (traceable : program.Traceable) {procedure : Procedure}
    (has : program.Has procedure) {arguments : List Value} {state bound middle : State}
    {earlier later : List (Guard × Term String)} {chosen : Guard × Term String}
    (split : procedure.clauses = earlier ++ chosen :: later)
    (binds : Table.Binds procedure.formals arguments (state.table home .numeric)
      (bound.table home .numeric))
    (changes : Changes home
      (program.Touches (Procedure.guardActions (earlier ++ [chosen]))) bound middle)
    {name : String} (reads : .read name ∈ chosen.2.actions) :
    (∃ value, supplied name procedure.formals arguments = some value ∧
      middle.binding home name = value.bound?) ∨
    supplied name procedure.formals arguments = none ∧ IsInteger name := by
  cases given : supplied name procedure.formals arguments with
  | some value =>
      have kept := traceable.settled procedure has _ (Procedure.mem_paths split) name reads
      exact .inl ⟨value, rfl, (changes.keeps name kept).trans (binds.binding_formal given)⟩
  | none =>
      have inside : chosen ∈ procedure.clauses := by simp [split]
      exact .inr ⟨rfl, (traceable.reads procedure has name
        (Procedure.result_mem_actions inside reads)).resolve_left (supplied_eq_none_iff.mp given)⟩

end Program

theorem Builtin.apply_integers {operation : Builtin} {numbers : List Int} {value : Value}
    (notDefine : operation ≠ .define) (applied : operation.apply (numbers.map .int) = .ok value) :
    (∃ n, value = .int n) ∨ operation = .equals ∨ operation = .otherwise := by
  cases operation with
  | add => exact .inl ⟨_, Except.ok.inj (applied.symm.trans (Operation.sum.apply_ints numbers))⟩
  | subtract =>
      exact .inl ⟨_, Except.ok.inj (applied.symm.trans (Operation.difference.apply_ints numbers))⟩
  | multiply =>
      exact .inl ⟨_, Except.ok.inj (applied.symm.trans (Operation.product.apply_ints numbers))⟩
  | equals => exact .inr (.inl rfl)
  | otherwise => exact .inr (.inr rfl)
  | define => exact absurd rfl notDefine

/-- Calls on integers that give integers, unless they can give a truth value. -/
def IntegerCalls (program : Program) (home : Nat) (base : State) (call : CallModel) : Prop :=
  ∀ (level serial : Nat) (procedure : Procedure) (numbers : List Int) (state after : State)
    (value : Value), program.Has procedure → program.Leads home base state →
    procedure.formals.length ≤ numbers.length →
    call level (procedure.compiled home serial) (numbers.map .int) state = .ok value after →
    (∃ n, value = .int n) ∨ program.TruthValued procedure.name

section Integers

variable {program : Program} {home : Nat} {base : State} {call : CallModel} {both : Bool}

theorem apply_integer (integral : IntegerCalls program home base call) {level : Nat}
    {name : String} {procedure value : Value} {numbers : List Int} {state after : State}
    (notDefine : name ≠ "define") (leads : program.Leads home base state)
    (stands : Stands home .numeric (program.meaning name) (some procedure))
    (enough : ∀ definition, program.meaning name = some (.procedure definition) →
      definition.formals.length ≤ numbers.length)
    (done : procedure.apply call level (numbers.map .int) state = .ok value after) :
    (∃ n, value = .int n) ∨ program.TruthValued name := by
  generalize means : program.meaning name = callee at stands
  cases stands with
  | builtin operation =>
      have known : operation ≠ .define := by
        rintro rfl
        exact notDefine (Program.builtin_of_meaning means).symm
      rw [Value.apply] at done
      cases applied : operation.apply (numbers.map .int) with
      | error failure =>
          rw [applied] at done
          cases done
      | ok result =>
          rw [applied] at done
          cases done
          exact (Builtin.apply_integers known applied).imp_right (.builtin means)
  | procedure _ definition serial =>
      obtain ⟨rfl, has⟩ := Program.has_of_meaning means
      exact integral level serial definition numbers state after value has leads
        (enough definition means) done

mutual
theorem eval_integer (shows : (base.table home .numeric).Shows program home .numeric)
    (framed : Framed program home call) (integral : IntegerCalls program home base call)
    (term : Term String) {level depth : Nat} {state after : State} {value : Value}
    (plain : .call "define" ∉ term.actions) (orderly : program.Orderly term.actions)
    (sound : program.Sound term) (leads : program.Leads home base state)
    (reads : ∀ name, .read name ∈ term.actions → ∀ number,
      state.read home (.text name) = .ok number → ∃ n, number = .int n)
    (done : Node.eval call home both level ((term.map .text).node depth) state =
      .ok value after) :
    (∃ n, value = .int n) ∨ program.GivesTruth term := by
  cases term with
  | leaf name =>
      obtain ⟨rfl, number, rfl, read⟩ := eval_leaf_ok done
      obtain ⟨n, rfl⟩ := reads name (List.mem_singleton.mpr rfl) number read
      exact .inl ⟨n, rfl⟩
  | call name operands =>
      simp only [Term.actions, List.mem_append, List.mem_singleton, Action.call.injEq,
        not_or] at plain
      obtain ⟨_⟩ | ⟨enough, sounds, integers⟩ := sound
      obtain ⟨procedure, arguments, middle, bound, isProcedure, ran, applied⟩ :=
        eval_call_ok (Ne.symm plain.2) done
      have governs := shows.governs.drift leads
      obtain ⟨numbers, rfl, length, later⟩ := evalAll_integers shows framed integral operands
        plain.1 (List.pairwise_append.mp orderly).1 sounds integers leads
        (fun other read => reads other (List.mem_append_left _ read)) ran
      have truth := apply_integer integral (Ne.symm plain.2) later
        (governs name procedure bound isProcedure)
        (fun definition means => length ▸ enough definition means) applied
      exact truth.imp_right fun truthValued => ⟨name, rfl, truthValued⟩

theorem evalAll_integers (shows : (base.table home .numeric).Shows program home .numeric)
    (framed : Framed program home call) (integral : IntegerCalls program home base call)
    (operands : List (Term String)) {level depth : Nat} {state after : State}
    {values : List Value} (plain : .call "define" ∉ Term.actionsOfAll operands)
    (orderly : program.Orderly (Term.actionsOfAll operands))
    (sound : ∀ operand ∈ operands, program.Sound operand)
    (integers : ∀ operand ∈ operands, ¬ program.GivesTruth operand)
    (leads : program.Leads home base state)
    (reads : ∀ name, .read name ∈ Term.actionsOfAll operands → ∀ number,
      state.read home (.text name) = .ok number → ∃ n, number = .int n)
    (done : evalAll call home both level (Term.nodes depth (Term.mapAll .text operands)) state =
      .ok values after) :
    ∃ numbers : List Int, values = numbers.map .int ∧ operands.length = numbers.length ∧
      program.Leads home base after := by
  cases operands with
  | nil =>
      cases done
      exact ⟨[], rfl, rfl, leads⟩
  | cons operand rest =>
      simp only [Term.actionsOfAll, List.mem_append, not_or] at plain
      have split := List.pairwise_append.mp orderly
      obtain ⟨value, middle, others, ran, more, rfl⟩ := evalAll_cons_ok done
      have first := eval_integer shows framed integral operand plain.1 split.1
        (sound operand List.mem_cons_self) leads
        (fun name read => reads name (List.mem_append_left _ read)) ran
      obtain ⟨n, rfl⟩ := first.resolve_right (integers operand List.mem_cons_self)
      obtain ⟨_, changes⟩ := eval_text_changes framed operand plain.1
        (shows.governs.drift leads) ran
      obtain ⟨numbers, rfl, length, later⟩ := evalAll_integers shows framed integral rest plain.2
        split.2.1 (fun operand member => sound operand (List.mem_cons_of_mem _ member))
        (fun operand member => integers operand (List.mem_cons_of_mem _ member))
        (leads.after changes)
        (fun name read number => by
          rw [changes.read_eq (orderly.not_touches read)]
          exact reads name (List.mem_append_right _ read) number)
        more
      exact ⟨n :: numbers, rfl, by simp [length], later⟩
end

/-- The arguments that formals get are integers, if all arguments are. -/
theorem supplied_integer {name : String} {formals : List String} {numbers : List Int}
    {value : Value} (enough : formals.length ≤ numbers.length)
    (given : supplied name formals (numbers.map .int) = some value) : ∃ n, value = .int n := by
  have member := supplied_of_length (by simpa using enough) given
  obtain ⟨n, _, rfl⟩ := List.mem_map.mp member
  exact ⟨n, rfl⟩

theorem run_integer (shows : (base.table home .numeric).Shows program home .numeric)
    (traceable : program.Traceable) {limit room : Nat}
    (integral : IntegerCalls program home base (callWithin limit room)) {procedure : Procedure}
    (has : program.Has procedure) {numbers : List Int} {state bound after : State} {value : Value}
    (enough : procedure.formals.length ≤ numbers.length) (leads : program.Leads home base state)
    (binds : Table.Binds procedure.formals (numbers.map .int) (state.table home .numeric)
      (bound.table home .numeric))
    (done : procedure.run limit home room bound = .ok value after) :
    (∃ n, value = .int n) ∨ program.TruthValued procedure.name := by
  have framed : Framed program home (callWithin limit room) :=
    callWithin_framed traceable.plain limit room
  have inBound := leads.bind has binds
  have governs := shows.governs.drift inBound
  obtain ⟨earlier, chosen, later, middle, split, _, changes, _, ran⟩ :=
    run_ok traceable.plain framed has governs done
  have inside : chosen ∈ procedure.clauses := by simp [split]
  have inMiddle := inBound.after changes
  have reads : ∀ name, .read name ∈ chosen.2.actions → ∀ number,
      middle.read home (.text name) = .ok number → ∃ n, number = .int n := by
    intro name reads number read
    rcases traceable.binding_result has split binds changes reads with
      ⟨value, given, bound⟩ | ⟨_, integer⟩
    · obtain ⟨n, rfl⟩ := supplied_integer enough given
      rw [State.read, ← State.binding, bound] at read
      cases read
      exact ⟨n, rfl⟩
    · obtain ⟨n, rfl, _⟩ := traceable.read_spells shows inMiddle integer read
      exact ⟨n, rfl⟩
  have truth := eval_integer shows framed integral chosen.2 (traceable.plain.result has inside)
    (traceable.orderly procedure has _ (Procedure.mem_paths split))
    (traceable.sound procedure has chosen inside) inMiddle reads ran
  rcases truth with integer | ⟨inner, last, truthValued⟩
  · exact .inl integer
  · exact .inr (.procedure has inside last truthValued)

theorem callWithin_integer (shows : (base.table home .numeric).Shows program home .numeric)
    (traceable : program.Traceable) (limit room : Nat) :
    IntegerCalls program home base (callWithin limit room) := by
  induction room with
  | zero =>
      intro level serial procedure numbers state after value _ _ _ done
      obtain ⟨failed, run⟩ := callWithin_zero limit home serial procedure (numbers.map .int) state
        level
      rw [run] at done
      cases done
  | succ room ih =>
      intro level serial procedure numbers state after value has leads enough done
      cases level with
      | succ level =>
          rw [callWithin] at done
          exact ih level serial procedure numbers state after value has leads enough done
      | zero =>
          obtain ⟨bound, binds, run⟩ := callWithin_succ limit home serial procedure
            (numbers.map .int) state room
          rw [run] at done
          exact run_integer shows traceable ih has enough leads binds.numeric done

end Integers

end Stepper
