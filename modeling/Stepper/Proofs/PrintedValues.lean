import Stepper.Proofs.Callees
import Stepper.Proofs.NumeralGrammar

/-!
Values that are written out and read again on their own. Integers, `nan` and
the infinities come back as the numbers that they are. Truth values do not:
they are written as symbols, and an unbound symbol stands for no number.
-/

namespace Stepper

open Token (IsRun)

/-- The numbers whose text is read as themselves: integers that have a text,
`nan` and the infinities. -/
inductive Value.Restorable : Value → Prop where
  | int {n : Int} (bounded : n.natAbs < integerBound) : Restorable (.int n)
  | nan : Restorable (.double .nan)
  | infinite (negative : Bool) : Restorable (.double (.infinite negative))

/-- Whether a table gives no value to a text, nor to a number that it spells. -/
structure Table.Lacks (table : Table) (text : String) : Prop where
  word : table.resolve (.text text) = none
  number : ∀ number, Number.parse text = .ok (some number) → table.resolve (.ofNumber number) = none

/-- What a text stands for as a literal on its own, where nothing is bound to it:
evaluating it gives a number and changes nothing. -/
def StandsFor (text : String) (number : Number) : Prop :=
  ∃ key, Node.read text = .ok (.literal key 0) ∧
    ∀ limit home both state, (state.table home .numeric).Lacks text →
      evaluate limit home both (.literal key 0) state = .ok (.ofNumber number) state

section Words

variable {text : String} {number : Number}

theorem standsFor_number (isRun : IsRun text) (spells : Number.parse text = .ok (some number)) :
    StandsFor text number := by
  refine ⟨.ofNumber number, ?_, fun limit home both state lacks => ?_⟩
  · rw [Node.read_bare (Phrase.content_word isRun), Node.bareLiteral, spells]
    rfl
  · exact eval_number (lacks.number number spells)

theorem standsFor_symbol (isRun : IsRun text) (symbol : Number.parse text = .ok none) :
    StandsFor text .nan := by
  refine ⟨.text text, ?_, fun limit home both state lacks => ?_⟩
  · rw [Node.read_bare (Phrase.content_word isRun), Node.bareLiteral, symbol]
    rfl
  · have noNumber : (Value.text text).toNumber = .ok .nan := ofText_of_symbol symbol
    rw [evaluate, eval_literal, lacks.word, Option.getD_none, noNumber]

end Words

theorem Value.Restorable.standsFor {value : Value} (restorable : value.Restorable) :
    ∃ text number, value.format = .ok text ∧ value.toNumber = .ok number ∧
      StandsFor text number := by
  cases restorable with
  | @int n bounded =>
      refine ⟨integerDigits n, .int n, (format_int n).trans (if_pos bounded), rfl, ?_⟩
      exact standsFor_number (isRun_integerDigits bounded) (parse_integerDigits bounded)
  | nan =>
      refine ⟨"NaN", .nan, rfl, rfl, standsFor_symbol ?_ rfl⟩
      exact ⟨by decide, List.all_eq_true.mp (by decide)⟩
  | infinite negative =>
      refine ⟨_, _, rfl, rfl, standsFor_number ?_ ?_⟩
      · cases negative <;> exact ⟨by decide, List.all_eq_true.mp (by decide)⟩
      · cases negative <;> rfl

theorem standsFor_truth (truth : Bool) :
    ∃ text, (Value.bool truth).format = .ok text ∧ StandsFor text .nan := by
  refine ⟨_, rfl, standsFor_symbol ?_ ?_⟩
  · cases truth <;> exact ⟨by decide, List.all_eq_true.mp (by decide)⟩
  · cases truth <;> rfl

/-- In a session that was given texts no number is a key, so that only the text matters. -/
theorem Interpreter.Reached.lacks {interpreter : Interpreter} {state : State}
    (reached : interpreter.Reached state) {text : String}
    (unbound : (state.table interpreter.home .numeric).resolve (.text text) = none) :
    (state.table interpreter.home .numeric).Lacks text :=
  ⟨unbound, fun number _ =>
    (reached.sound .numeric).named.resolve_number _ (Value.isNumber_ofNumber number)⟩

/-- An integer that has a text, `nan` or an infinity, written out and read again,
evaluates to the number that it is, wherever neither its text nor the number is
bound. A truth value evaluates to `nan`. -/
theorem printed_values_read_back :
    (∀ value : Value, value.Restorable →
      ∃ text number, value.format = .ok text ∧ value.toNumber = .ok number ∧
        StandsFor text number) ∧
    (∀ truth, ∃ text, (Value.bool truth).format = .ok text ∧ StandsFor text .nan) ∧
    ∀ (interpreter : Interpreter) state text, interpreter.Reached state →
      (state.table interpreter.home .numeric).resolve (.text text) = none →
      (state.table interpreter.home .numeric).Lacks text :=
  ⟨fun _ => Value.Restorable.standsFor, standsFor_truth, fun _ _ _ reached => reached.lacks⟩

theorem printed_values_read_back_negative :
    (Value.int (-12)).format = .ok "-12" ∧
    ∃ key, Node.read "-12" = .ok (.literal key 0) ∧
      evaluate 50 0 true (.literal key 0) {} = .ok (.int (-12)) {} := by
  obtain ⟨restored, -, unnumbered⟩ := printed_values_read_back
  have bounded : (-12 : Int).natAbs < integerBound := by decide +kernel
  have digits : (Value.int (-12)).format = .ok "-12" := (format_int _).trans (if_pos bounded)
  obtain ⟨text, number, written, ⟨⟩, key, read, stands⟩ := restored _ (.int bounded)
  cases digits.symm.trans written
  have lacks := unnumbered ⟨0, 10⟩ {} "-12" (.start rfl) rfl
  exact ⟨digits, key, read, stands 50 0 true {} lacks⟩

/-- Definition trees need not come from texts: this one makes a number a key. -/
def numberKeyed : State :=
  (Interpreter.performOn ⟨0, 10⟩ 50 .define (.expression
    [.operator "define" 1, .literal (.int 5) 1, .literal (.text "7") 1] ⟨0, 1, none⟩) {}).2

/-- A truth value comes back as `nan` where its text is unbound, and an integer
as another one where it is itself a key. -/
theorem printed_values_lost :
    (∃ text, Interpreter.perform ⟨0, 10⟩ 50 .evaluate "(= 1 1)" {} = .ok (.value (.bool true)) {} ∧
      (Value.bool true).toNumber = .ok (.int 1) ∧ (Value.bool true).format = .ok text ∧
      (({} : State).table 0 .numeric).resolve (.text text) = none ∧
      Interpreter.perform ⟨0, 10⟩ 50 .evaluate text {} = .ok (.value (.double .nan)) {}) ∧
    ∃ text, Interpreter.perform ⟨0, 10⟩ 50 .evaluate "(+ 2 3)" numberKeyed =
        .ok (.value (.int 5)) numberKeyed ∧
      (Value.int 5).toNumber = .ok (.int 5) ∧ (Value.int 5).format = .ok text ∧
      (numberKeyed.table 0 .numeric).resolve (.text text) = none ∧
      Interpreter.perform ⟨0, 10⟩ 50 .evaluate text numberKeyed =
        .ok (.value (.int 7)) numberKeyed := by
  refine ⟨⟨"#t", rfl, rfl, rfl, rfl, rfl⟩, "5", rfl, rfl, ?_, rfl, rfl⟩
  decide +kernel

end Stepper
