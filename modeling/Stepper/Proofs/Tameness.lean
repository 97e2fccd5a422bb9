import Stepper.Proofs.Decimal
import Stepper.Proofs.Effects

/-!
Tame values: integers, truth values and `nan`, or words that spell one of these.
Arithmetic keeps to them. So does a program whose clauses read own formals
and integers and whose calls give an argument for each formal: its runs bind
formals to tame values only, and no formal that has a value loses it.
-/

namespace Stepper

/-- Whether a text spells an integer, a truth value or `nan`. -/
def TameWord (text : String) : Prop :=
  IsInteger text ∨ text ∈ ["#t", "#f", "NaN"]

instance (text : String) : Decidable (TameWord text) :=
  inferInstanceAs (Decidable (_ ∨ _))

inductive Number.Tame : Number → Prop where
  | int (n : Int) : Tame (.int n)
  | nan : Tame .nan

inductive Value.Tame : Value → Prop where
  | int (n : Int) : Tame (.int n)
  | nan : Tame (.double .nan)
  | bool (truth : Bool) : Tame (.bool truth)
  | word {spelling : String} (tame : TameWord spelling) (isRun : Token.IsRun spelling) :
      Tame (.text spelling)

namespace Number.Tame

variable {left right result : Number}

theorem combine {onInts : Int → Int → Int} {onDoubles : Double → Double → Double}
    (nanLeft : ∀ x, onDoubles .nan x = .nan) (nanRight : ∀ x, onDoubles x .nan = .nan)
    (first : left.Tame) (second : right.Tame)
    (done : Number.combine onInts onDoubles left right = .ok result) : result.Tame := by
  cases first with
  | int m =>
      cases second with
      | int n =>
          cases done
          exact .int _
      | nan =>
          obtain ⟨x, _, rest⟩ := of_except_bind_ok done
          cases rest
          rw [nanRight]
          exact .nan
  | nan =>
      obtain ⟨x, isNan, rest⟩ := of_except_bind_ok done
      obtain ⟨y, _, rest⟩ := of_except_bind_ok rest
      cases isNan
      cases rest
      rw [nanLeft]
      exact .nan

theorem add (first : left.Tame) (second : right.Tame) (done : left.add right = .ok result) :
    result.Tame :=
  combine (fun _ => rfl) (fun x => by cases x <;> rfl) first second done

theorem sub (first : left.Tame) (second : right.Tame) (done : left.sub right = .ok result) :
    result.Tame :=
  combine (fun _ => rfl) (fun x => by cases x <;> rfl) first second done

theorem mul (first : left.Tame) (second : right.Tame) (done : left.mul right = .ok result) :
    result.Tame :=
  combine (fun _ => rfl) (fun x => by cases x <;> rfl) first second done

theorem foldlM {operation : Number → Number → Except Failure Number}
    (keeps : ∀ {left right result : Number}, left.Tame → right.Tame →
      operation left right = .ok result → result.Tame)
    {numbers : List Number} (tame : ∀ number ∈ numbers, number.Tame) {start total : Number}
    (first : start.Tame) (done : numbers.foldlM operation start = .ok total) : total.Tame := by
  induction numbers generalizing start with
  | nil =>
      cases done
      exact first
  | cons number numbers ih =>
      obtain ⟨next, combined, rest⟩ := of_except_bind_ok done
      obtain ⟨isTame, others⟩ := List.forall_mem_cons.mp tame
      exact ih others (keeps first isTame combined) rest

theorem difference {numbers : List Number} (tame : ∀ number ∈ numbers, number.Tame)
    {rest : Number} (done : Number.difference numbers = .ok rest) : rest.Tame := by
  cases numbers with
  | nil =>
      cases done
      exact .int 0
  | cons first numbers =>
      obtain ⟨isTame, others⟩ := List.forall_mem_cons.mp tame
      obtain ⟨taken, summed, subtracted⟩ := of_except_bind_ok done
      exact isTame.sub (foldlM add others (.int 0) summed) subtracted

theorem value {number : Number} (tame : number.Tame) : (Value.ofNumber number).Tame := by
  cases tame with
  | int n => exact .int n
  | nan => exact .nan

end Number.Tame

theorem TameWord.number {text : String} (tame : TameWord text) {number : Number}
    (read : (Value.text text).toNumber = .ok number) : number.Tame := by
  rcases tame with integer | member
  · obtain ⟨n, rfl, _⟩ := integer.spells read
    exact .int n
  · simp only [List.mem_cons, List.not_mem_nil, or_false] at member
    rcases member with rfl | rfl | rfl <;>
    · cases read
      exact .nan

namespace Value

theorem Tame.number {value : Value} (tame : value.Tame) {number : Number}
    (read : value.toNumber = .ok number) : number.Tame := by
  cases tame with
  | int n =>
      cases read
      exact .int n
  | nan =>
      cases read
      exact .nan
  | bool truth =>
      cases read
      exact .int _
  | word tame _ => exact tame.number read

theorem Tame.not_procedure {value : Value} (tame : value.Tame) : value.isProcedure = false := by
  cases tame <;> rfl

theorem Tame.bound?_eq {value : Value} (tame : value.Tame) : value.bound? = some value := by
  cases tame <;> rfl

/-- A procedure is no number. -/
theorem tame_of_procedure {value : Value} (isProcedure : value.isProcedure = true)
    {number : Number} (read : value.toNumber = .ok number) : number.Tame := by
  cases value with
  | builtin operation =>
      cases read
      exact .nan
  | procedure reading definition =>
      cases read
      exact .nan
  | _ => cases isProcedure

theorem mapM_toNumber_tame {arguments : List Value} (tame : ∀ argument ∈ arguments, argument.Tame)
    {numbers : List Number} (read : arguments.mapM toNumber = .ok numbers) :
    ∀ number ∈ numbers, number.Tame := by
  induction arguments generalizing numbers with
  | nil =>
      cases read
      simp
  | cons argument arguments ih =>
      rw [List.mapM_cons] at read
      obtain ⟨number, first, rest⟩ := of_except_bind_ok read
      obtain ⟨others, more, finished⟩ := of_except_bind_ok rest
      cases finished
      obtain ⟨isTame, tameRest⟩ := List.forall_mem_cons.mp tame
      exact List.forall_mem_cons.mpr ⟨isTame.number first, ih tameRest more⟩

end Value

/-- Builtins other than `define` keep to tame values. -/
theorem Builtin.apply_tame {operation : Builtin} (known : operation ≠ .define)
    {arguments : List Value} (tame : ∀ argument ∈ arguments, argument.Tame) {value : Value}
    (applied : operation.apply arguments = .ok value) : value.Tame := by
  cases operation with
  | add =>
      obtain ⟨numbers, read, rest⟩ := of_except_bind_ok applied
      obtain ⟨total, summed, finished⟩ := of_except_bind_ok rest
      cases finished
      exact (Number.Tame.foldlM .add (Value.mapM_toNumber_tame tame read) (.int 0) summed).value
  | subtract =>
      obtain ⟨numbers, read, rest⟩ := of_except_bind_ok applied
      obtain ⟨total, subtracted, finished⟩ := of_except_bind_ok rest
      cases finished
      exact (Number.Tame.difference (Value.mapM_toNumber_tame tame read) subtracted).value
  | multiply =>
      obtain ⟨numbers, read, rest⟩ := of_except_bind_ok applied
      obtain ⟨total, multiplied, finished⟩ := of_except_bind_ok rest
      cases finished
      exact (Number.Tame.foldlM .mul (Value.mapM_toNumber_tame tame read) (.int 1)
        multiplied).value
  | equals =>
      rw [apply.eq_def] at applied
      simp only at applied
      split at applied
      · obtain ⟨x, _, rest⟩ := of_except_bind_ok applied
        obtain ⟨y, _, finished⟩ := of_except_bind_ok rest
        cases finished
        exact .bool _
      · cases applied
  | otherwise =>
      cases applied
      exact .bool true
  | define => exact absurd rfl known

namespace Term

variable {α β : Type}

mutual
/-- The calls of a term: the names, and how many operands each gets. -/
def calls : Term α → List (String × Nat)
  | .leaf _ => []
  | .call name operands => (name, operands.length) :: callsOfAll operands

def callsOfAll : List (Term α) → List (String × Nat)
  | [] => []
  | operand :: rest => operand.calls ++ callsOfAll rest
end

theorem mem_callsOfAll {call : String × Nat} {operands : List (Term α)} :
    call ∈ callsOfAll operands ↔ ∃ operand ∈ operands, call ∈ operand.calls := by
  induction operands with
  | nil => simp [callsOfAll]
  | cons operand rest ih => simp [callsOfAll, ih]

mutual
theorem calls_map (f : α → β) (term : Term α) : (term.map f).calls = term.calls := by
  cases term with
  | leaf a => rfl
  | call name operands =>
      rw [map, calls, calls, callsOfAll_mapAll f operands, mapAll_eq_map, List.length_map]

theorem callsOfAll_mapAll (f : α → β) (operands : List (Term α)) :
    callsOfAll (mapAll f operands) = callsOfAll operands := by
  cases operands with
  | nil => rfl
  | cons operand rest =>
      rw [mapAll, callsOfAll, callsOfAll, calls_map f operand, callsOfAll_mapAll f rest]
end

end Term

/-- The terms that calls of a procedure can evaluate. -/
def Procedure.terms (procedure : Procedure) : List (Term String) :=
  procedure.clauses.flatMap fun clause =>
    match clause.1 with
    | .word _ => [clause.2]
    | .test test => [test, clause.2]

theorem Procedure.result_mem_terms {procedure : Procedure} {clause : Guard × Term String}
    (inside : clause ∈ procedure.clauses) : clause.2 ∈ procedure.terms := by
  refine List.mem_flatMap.mpr ⟨clause, inside, ?_⟩
  cases clause.1 <;> simp

theorem Procedure.test_mem_terms {procedure : Procedure} {clause : Guard × Term String}
    {test : Term String} (inside : clause ∈ procedure.clauses) (guard : clause.1 = .test test) :
    test ∈ procedure.terms :=
  List.mem_flatMap.mpr ⟨clause, inside, by simp [guard]⟩

namespace Program

/-- How many arguments a call of a name needs. -/
def arity (program : Program) (name : String) : Nat :=
  match program.meaning name with
  | some (.procedure procedure) => procedure.formals.length
  | _ => 0

/-- Whether a term calls no definition, and each call has the arguments that it
needs. -/
def Feeds {α : Type} (program : Program) (term : Term α) : Prop :=
  ∀ call ∈ term.calls, call.1 ≠ "define" ∧ program.arity call.1 ≤ call.2

instance {α : Type} (program : Program) (term : Term α) : Decidable (program.Feeds term) :=
  inferInstanceAs (Decidable (∀ call ∈ term.calls, _))

/-- Programs whose clauses read own formals and integers only and give each call
the arguments that it needs. -/
structure SelfSufficient (program : Program) : Prop where
  reads : ∀ procedure ∈ program, ∀ name, .read name ∈ procedure.actions →
    name ∈ procedure.formals ∨ IsInteger name
  feeds : ∀ procedure ∈ program, ∀ term ∈ procedure.terms, program.Feeds term

theorem arity_of_meaning {program : Program} {name : String} {procedure : Procedure}
    (means : program.meaning name = some (.procedure procedure)) :
    program.arity name = procedure.formals.length := by
  rw [arity, means]

variable {program : Program} {α β : Type}

theorem Feeds.operand {name : String} {operands : List (Term α)}
    (feeds : program.Feeds (.call name operands)) {operand : Term α} (member : operand ∈ operands) :
    program.Feeds operand :=
  fun call inside => feeds call
    (List.mem_cons_of_mem _ (Term.mem_callsOfAll.mpr ⟨operand, member, inside⟩))

theorem Feeds.call {name : String} {operands : List (Term α)}
    (feeds : program.Feeds (.call name operands)) :
    name ≠ "define" ∧ program.arity name ≤ operands.length :=
  feeds (name, operands.length) List.mem_cons_self

theorem Feeds.map (f : α → β) {term : Term α} (feeds : program.Feeds term) :
    program.Feeds (term.map f) := by
  rw [Feeds, Term.calls_map]
  exact feeds

end Program

/-- A table that binds names to tame values, or to what they mean in a program. -/
structure Table.Tame (program : Program) (home : Nat) (reading : Reading) (table : Table) :
    Prop where
  named : table.Named
  binding : ∀ name value, table.resolve (.text name) = some value →
    value.Tame ∨ value.isProcedure = true ∧
      Stands home reading (program.meaning name) (some value)

theorem Table.Shows.tame {program : Program} {home : Nat} {reading : Reading} {table : Table}
    (shows : table.Shows program home reading) : table.Tame program home reading := by
  refine ⟨shows.named, fun name value bound => .inr ?_⟩
  have stands := shows.stands name
  rw [bound] at stands
  refine ⟨?_, stands⟩
  generalize program.meaning name = callee at stands
  cases stands with
  | builtin operation => rfl
  | procedure _ definition serial => rfl

namespace Table.Binds

variable {formals : List String} {arguments : List Value} {before after : Table}
variable (binds : Binds formals arguments before after)
variable (values : ∀ argument ∈ arguments, argument.Tame)

include binds values

theorem tame {program : Program} {home : Nat} {reading : Reading}
    (tame : before.Tame program home reading) : after.Tame program home reading := by
  refine ⟨binds.named tame.named, fun name value bound => ?_⟩
  rw [binds.resolve] at bound
  cases given : supplied name formals arguments with
  | none =>
      simp only [given] at bound
      exact tame.binding name value bound
  | some argument =>
      simp only [given] at bound
      rcases supplied_member given with member | rfl
      · rw [(values argument member).bound?_eq] at bound
        cases bound
        exact .inl (values _ member)
      · cases bound

/-- With enough arguments each formal has a tame value. -/
theorem resolve_formal (enough : formals.length ≤ arguments.length) {name : String}
    (formal : name ∈ formals) :
    ∃ value, after.resolve (.text name) = some value ∧ value.Tame := by
  rw [binds.resolve]
  cases given : supplied name formals arguments with
  | none => exact absurd formal (supplied_eq_none_iff.mp given)
  | some argument =>
      have isTame := values argument (supplied_of_length enough given)
      exact ⟨argument, isTame.bound?_eq, isTame⟩

end Table.Binds

theorem Table.Binds.binding_isSome {home : Nat} {formals : List String} {arguments : List Value}
    {before after : State}
    (binds : Table.Binds formals arguments (before.table home .numeric) (after.table home .numeric))
    (values : ∀ argument ∈ arguments, argument.Tame) (enough : formals.length ≤ arguments.length)
    (name : String) (formal : name ∈ formals) : (after.binding home name).isSome := by
  obtain ⟨value, bound, _⟩ := binds.resolve_formal values enough formal
  exact Option.isSome_iff_exists.mpr ⟨value, bound⟩

/-- What a run keeps: a tame numeric table stays tame, what has a value keeps
having one, and the symbolic table is the same. -/
structure Program.Proceeds (program : Program) (home : Nat) (before after : State) : Prop where
  tame : (before.table home .numeric).Tame program home .numeric →
    (after.table home .numeric).Tame program home .numeric
  bound : ∀ name, (before.binding home name).isSome → (after.binding home name).isSome
  symbolic : after.table home .symbolic = before.table home .symbolic

namespace Program.Proceeds

variable {program : Program} {home : Nat} {before middle after : State}

theorem refl (state : State) : program.Proceeds home state state :=
  ⟨id, fun _ => id, rfl⟩

theorem trans (first : program.Proceeds home before middle)
    (second : program.Proceeds home middle after) : program.Proceeds home before after :=
  ⟨second.tame ∘ first.tame, fun name held => second.bound name (first.bound name held),
    second.symbolic.trans first.symbolic⟩

end Program.Proceeds

theorem State.Binds.proceeds {program : Program} {home : Nat} {formals : List String}
    {arguments : List Value} {before after : State}
    (binds : State.Binds home formals arguments before after)
    (enough : formals.length ≤ arguments.length)
    (values : ∀ argument ∈ arguments, argument.Tame) : program.Proceeds home before after := by
  refine ⟨binds.numeric.tame values, fun name held => ?_, binds.symbolic⟩
  by_cases formal : name ∈ formals
  · exact binds.numeric.binding_isSome values enough name formal
  · rw [binds.numeric.binding_other formal]
    exact held

/-- Whether a leaf reads as a tame number: it spells one, or it has a value. -/
def State.Reads (state : State) (home : Nat) (text : String) : Prop :=
  TameWord text ∨ (state.binding home text).isSome

/-- Calls that keep to tame values. -/
def CallModel.Tame (program : Program) (home : Nat) (call : CallModel) : Prop :=
  ∀ (level serial : Nat) (procedure : Procedure) (arguments : List Value) (state after : State)
    (value : Value), program.Has procedure →
    (state.table home .numeric).Tame program home .numeric →
    procedure.formals.length ≤ arguments.length → (∀ argument ∈ arguments, argument.Tame) →
    call level (procedure.compiled home serial) arguments state = .ok value after →
    value.Tame ∧ program.Proceeds home state after

section Runs

variable {program : Program} {home : Nat} {both : Bool} {call : CallModel}

theorem State.Reads.proceed {state after : State} {text : String} (reads : state.Reads home text)
    (proceeds : program.Proceeds home state after) : after.Reads home text :=
  reads.imp id (proceeds.bound text)

/-- What clauses read is tame if own formals have values. -/
theorem Program.SelfSufficient.reads_tamely (sufficient : program.SelfSufficient)
    {procedure : Procedure} (member : procedure ∈ program) {state : State} {text : String}
    (read : .read text ∈ procedure.actions)
    (formal : text ∈ procedure.formals → (state.binding home text).isSome) :
    state.Reads home text :=
  (sufficient.reads procedure member text read).elim (fun own => .inr (formal own))
    fun integer => .inl (.inl integer)

theorem Table.Tame.number {state : State}
    (tame : (state.table home .numeric).Tame program home .numeric) {text : String}
    (reads : state.Reads home text) {number : Number}
    (read : (((state.table home .numeric).resolve (.text text)).getD (.text text)).toNumber =
      .ok number) : number.Tame := by
  cases bound : (state.table home .numeric).resolve (.text text) with
  | some value =>
      rw [bound] at read
      rcases tame.binding text value bound with isTame | ⟨isProcedure, _⟩
      · exact isTame.number read
      · exact Value.tame_of_procedure isProcedure read
  | none =>
      rw [bound] at read
      rcases reads with word | held
      · exact word.number read
      · rw [State.binding, bound] at held
        cases held

theorem apply_tame (calls : call.Tame program home) {level : Nat} {name : String}
    {procedure value : Value} {arguments : List Value} {state after : State}
    (notDefine : name ≠ "define") (tame : (state.table home .numeric).Tame program home .numeric)
    (stands : Stands home .numeric (program.meaning name) (some procedure))
    (enough : program.arity name ≤ arguments.length)
    (values : ∀ argument ∈ arguments, argument.Tame)
    (done : procedure.apply call level arguments state = .ok value after) :
    value.Tame ∧ program.Proceeds home state after := by
  generalize means : program.meaning name = callee at stands
  cases stands with
  | builtin operation =>
      have known : operation ≠ .define := by
        rintro rfl
        exact notDefine (Program.builtin_of_meaning means).symm
      rw [Value.apply] at done
      cases applied : operation.apply arguments with
      | error failure =>
          rw [applied] at done
          cases done
      | ok result =>
          rw [applied] at done
          cases done
          exact ⟨Builtin.apply_tame known values applied, .refl _⟩
  | procedure _ definition serial =>
      rw [Program.arity_of_meaning means] at enough
      obtain ⟨rfl, has⟩ := Program.has_of_meaning means
      exact calls level serial definition arguments state after value has tame enough values done

mutual
theorem eval_tame (calls : call.Tame program home) (term : Term String) {level depth : Nat}
    {state after : State} {value : Value} (feeds : program.Feeds term)
    (reads : ∀ text, .read text ∈ term.actions → state.Reads home text)
    (tame : (state.table home .numeric).Tame program home .numeric)
    (done : Node.eval call home both level ((term.map .text).node depth) state =
      .ok value after) :
    value.Tame ∧ program.Proceeds home state after := by
  cases term with
  | leaf text =>
      obtain ⟨rfl, number, rfl, read⟩ := eval_leaf_ok done
      have isRead := reads text (List.mem_singleton.mpr rfl)
      exact ⟨(tame.number isRead read).value, .refl _⟩
  | call name operands =>
      obtain ⟨notDefine, enough⟩ := feeds.call
      obtain ⟨procedure, arguments, middle, bound, isProcedure, ran, applied⟩ :=
        eval_call_ok notDefine done
      obtain ⟨values, count, first⟩ := evalAll_tame calls operands
        (fun operand member => feeds.operand member)
        (fun text read => reads text (List.mem_append_left _ read)) tame ran
      rw [← count] at enough
      rcases tame.binding name procedure bound with isTame | ⟨_, stands⟩
      · rw [isTame.not_procedure] at isProcedure
        cases isProcedure
      · obtain ⟨isTame, second⟩ := apply_tame calls notDefine (first.tame tame) stands enough values
          applied
        exact ⟨isTame, first.trans second⟩

theorem evalAll_tame (calls : call.Tame program home) (operands : List (Term String))
    {level depth : Nat} {state after : State} {values : List Value}
    (feeds : ∀ operand ∈ operands, program.Feeds operand)
    (reads : ∀ text, .read text ∈ Term.actionsOfAll operands → state.Reads home text)
    (tame : (state.table home .numeric).Tame program home .numeric)
    (done : evalAll call home both level (Term.nodes depth (Term.mapAll .text operands)) state =
      .ok values after) :
    (∀ value ∈ values, value.Tame) ∧ values.length = operands.length ∧
      program.Proceeds home state after := by
  cases operands with
  | nil =>
      cases done
      exact ⟨by simp, rfl, .refl _⟩
  | cons operand rest =>
      obtain ⟨fed, feedsRest⟩ := List.forall_mem_cons.mp feeds
      obtain ⟨value, middle, others, ran, more, rfl⟩ := evalAll_cons_ok done
      obtain ⟨isTame, first⟩ := eval_tame calls operand fed
        (fun text read => reads text (List.mem_append_left _ read)) tame ran
      obtain ⟨values, count, second⟩ := evalAll_tame calls rest feedsRest
        (fun text read => (reads text (List.mem_append_right _ read)).proceed first)
        (first.tame tame) more
      refine ⟨List.forall_mem_cons.mpr ⟨isTame, values⟩, ?_, first.trans second⟩
      rw [List.length_cons, List.length_cons, count]
end

/-- The clause that is selected, if own formals have values. -/
theorem selectClause_tame (sufficient : program.SelfSufficient) (calls : call.Tame program home)
    {procedure : Procedure} (member : procedure ∈ program) {eval : Form → Eval Value} {level : Nat}
    (runs : ∀ node state value after, eval node state = .ok value after →
      Node.eval call home both level node state = .ok value after)
    {clauses : List (Guard × Term String)}
    (part : ∀ clause ∈ clauses, clause ∈ procedure.clauses) {state after : State} {result : Form}
    (formals : ∀ name ∈ procedure.formals, (state.binding home name).isSome)
    (tame : (state.table home .numeric).Tame program home .numeric)
    (done : selectClause eval procedure.name (Procedure.clauseNodes clauses) state =
      .ok result after) :
    (∃ chosen ∈ clauses, result = (chosen.2.map .text).node 3) ∧
      program.Proceeds home state after := by
  induction clauses generalizing state with
  | nil => cases done
  | cons clause clauses ih =>
      rw [Procedure.clauseNodes, List.map_cons, selectClause] at done
      obtain ⟨tested, middle, test, rest⟩ := Eval.of_bind_ok done
      have ran := runs _ _ _ _ test
      have first : program.Proceeds home state middle := by
        cases guard : clause.1 with
        | word name =>
            simp only [guard, Guard.node, eval_operator] at ran
            cases ran
            exact .refl _
        | test term =>
            simp only [guard, Guard.node] at ran
            have inside := part clause List.mem_cons_self
            have fed := sufficient.feeds procedure member term
              (Procedure.test_mem_terms inside guard)
            refine (eval_tame calls term fed (fun text read => ?_) tame ran).2
            have does : .read text ∈ clause.1.actions := by
              rw [guard]
              exact read
            exact sufficient.reads_tamely member (Procedure.test_mem_actions inside does)
              (formals text)
      split at rest
      · cases rest
        exact ⟨⟨clause, List.mem_cons_self, rfl⟩, first⟩
      · obtain ⟨⟨chosen, among, selected⟩, second⟩ := ih
          (fun other inside => part other (List.mem_cons_of_mem _ inside))
          (fun name formal => first.bound name (formals name formal)) (first.tame tame) rest
        exact ⟨⟨chosen, List.mem_cons_of_mem _ among, selected⟩, first.trans second⟩

theorem run_tame (sufficient : program.SelfSufficient) {limit room : Nat}
    (calls : (callWithin limit room).Tame program home) {procedure : Procedure}
    (member : procedure ∈ program) {state after : State} {value : Value}
    (formals : ∀ name ∈ procedure.formals, (state.binding home name).isSome)
    (tame : (state.table home .numeric).Tame program home .numeric)
    (done : procedure.run limit home room state = .ok value after) :
    value.Tame ∧ program.Proceeds home state after := by
  obtain ⟨result, middle, selected, rest⟩ := Eval.of_bind_ok done
  obtain ⟨⟨chosen, inside, rfl⟩, first⟩ := selectClause_tame sufficient calls member
    (fun _ _ _ _ within => (evalWithin_ok within).2) (fun _ => id) formals tame selected
  obtain ⟨_, ran⟩ := evalWithin_ok rest
  obtain ⟨isTame, second⟩ := eval_tame calls chosen.2
    (sufficient.feeds procedure member _ (Procedure.result_mem_terms inside))
    (fun text read => sufficient.reads_tamely member (Procedure.result_mem_actions inside read)
      fun formal => first.bound text (formals text formal))
    (first.tame tame) ran
  exact ⟨isTame, first.trans second⟩

theorem callWithin_tame (sufficient : program.SelfSufficient) (limit room : Nat) :
    (callWithin limit room).Tame program home := by
  induction room with
  | zero =>
      intro level serial procedure arguments state after value _ _ _ _ done
      obtain ⟨failed, run⟩ := callWithin_zero limit home serial procedure arguments state level
      rw [run] at done
      cases done
  | succ room ih =>
      intro level serial procedure arguments state after value has tame enough values done
      cases level with
      | succ level =>
          rw [callWithin] at done
          exact ih level serial procedure arguments state after value has tame enough values done
      | zero =>
          obtain ⟨bound, binds, run⟩ :=
            callWithin_succ limit home serial procedure arguments state room
          rw [run] at done
          have first : program.Proceeds home state bound := binds.proceeds enough values
          obtain ⟨isTame, second⟩ := run_tame sufficient ih (Program.mem_of_meaning has)
            (binds.numeric.binding_isSome values enough) (first.tame tame) done
          exact ⟨isTame, first.trans second⟩

end Runs

end Stepper
