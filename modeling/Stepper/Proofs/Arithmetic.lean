import Stepper.Proofs.Decimal
import Stepper.Proofs.Evaluation
import Stepper.Proofs.Spelling

/-!
Arithmetic from text to value: the text of an arithmetic expression evaluates in
a fresh workspace to the integer that direct arithmetic gives.
-/

namespace Stepper

/-- The operations of arithmetic. -/
inductive Operation where
  | sum
  | difference
  | product
deriving DecidableEq

namespace Operation

def builtin : Operation → Builtin
  | .sum => .add
  | .difference => .subtract
  | .product => .multiply

/-- What an operation gives on integers. -/
def compute : Operation → List Int → Int
  | .sum, numbers => numbers.sum
  | .difference, [] => 0
  | .difference, first :: rest => first - rest.sum
  | .product, numbers => numbers.prod

end Operation

/-- An expression over the operations, with integers written in decimal. -/
inductive Arithmetic where
  | leaf (numeral : Decimal)
  | apply (operation : Operation) (operands : List Arithmetic)

namespace Arithmetic

mutual
def value : Arithmetic → Int
  | .leaf numeral => numeral.value
  | .apply operation operands => operation.compute (values operands)

def values : List Arithmetic → List Int
  | [] => []
  | operand :: rest => operand.value :: values rest
end

mutual
def phrase : Arithmetic → Phrase
  | .leaf numeral => .argument numeral.text
  | .apply operation operands => .form (.operator operation.builtin.symbol :: phrases operands)

def phrases : List Arithmetic → List Phrase
  | [] => []
  | operand :: rest => operand.phrase :: phrases rest
end

/-- An expression as source text, with single spaces. -/
def text (expression : Arithmetic) : String :=
  expression.phrase.text

end Arithmetic

namespace Number

theorem foldlM_add (numbers : List Int) (start : Int) :
    (numbers.map Number.int).foldlM add (.int start) = .ok (.int (start + numbers.sum)) := by
  induction numbers generalizing start with
  | nil =>
      rw [List.map_nil, List.foldlM_nil, List.sum_nil, Int.add_zero]
      rfl
  | cons n numbers ih =>
      rw [List.map_cons, List.foldlM_cons]
      change (numbers.map Number.int).foldlM add (.int (start + n)) = _
      rw [ih, List.sum_cons, Int.add_assoc]

theorem foldlM_mul (numbers : List Int) (start : Int) :
    (numbers.map Number.int).foldlM mul (.int start) = .ok (.int (start * numbers.prod)) := by
  induction numbers generalizing start with
  | nil =>
      rw [List.map_nil, List.foldlM_nil, List.prod_nil, Int.mul_one]
      rfl
  | cons n numbers ih =>
      rw [List.map_cons, List.foldlM_cons]
      change (numbers.map Number.int).foldlM mul (.int (start * n)) = _
      rw [ih, List.prod_cons, Int.mul_assoc]

theorem sum_ints (numbers : List Int) : sum (numbers.map .int) = .ok (.int numbers.sum) := by
  rw [sum, foldlM_add, Int.zero_add]

theorem product_ints (numbers : List Int) :
    product (numbers.map .int) = .ok (.int numbers.prod) := by
  rw [product, foldlM_mul, Int.one_mul]

theorem difference_ints (numbers : List Int) :
    difference (numbers.map .int) = .ok (.int (Operation.difference.compute numbers)) := by
  cases numbers with
  | nil => rfl
  | cons first rest =>
      simp only [List.map_cons, difference, sum_ints]
      rfl

theorem mapM_toNumber_ints (numbers : List Int) :
    (numbers.map Value.int).mapM Value.toNumber = .ok (numbers.map .int) := by
  induction numbers with
  | nil => rfl
  | cons n numbers ih =>
      rw [List.map_cons, List.mapM_cons, ih]
      rfl

end Number

theorem Operation.apply_ints (operation : Operation) (numbers : List Int) :
    operation.builtin.apply (numbers.map .int) = .ok (.int (operation.compute numbers)) := by
  cases operation with
  | sum =>
      simp only [builtin, Builtin.apply, Number.mapM_toNumber_ints, bind, Except.bind,
        Number.sum_ints]
      rfl
  | difference =>
      simp only [builtin, Builtin.apply, Number.mapM_toNumber_ints, bind, Except.bind,
        Number.difference_ints]
      rfl
  | product =>
      simp only [builtin, Builtin.apply, Number.mapM_toNumber_ints, bind, Except.bind,
        Number.product_ints]
      rfl

namespace Arithmetic

mutual
theorem spelled_phrase (expression : Arithmetic) : expression.phrase.SpelledAt false := by
  cases expression with
  | leaf numeral => exact ⟨rfl, numeral.text_isRun⟩
  | apply operation operands =>
      refine ⟨⟨rfl, ?_⟩, spelled_phrases operands⟩
      cases operation <;> exact ⟨by decide, List.all_eq_true.mp (by decide)⟩

theorem spelled_phrases (operands : List Arithmetic) : Phrase.SpelledRow false (phrases operands) := by
  cases operands with
  | nil => trivial
  | cons operand rest => exact ⟨spelled_phrase operand, spelled_phrases rest⟩
end

variable {call : CallModel} {home : Nat} {both : Bool} {state : State}

theorem resolve_symbol (fresh : state.workspace home = .fresh) (operation : Operation) :
    (state.table home .numeric).resolve (.text operation.builtin.symbol) =
      some (.builtin operation.builtin) := by
  rw [State.table, fresh]
  exact (Workspace.resolve_fresh _).trans (by rw [Builtin.named?_symbol]; rfl)

theorem resolve_numeral (fresh : state.workspace home = .fresh) (numeral : Decimal) :
    (state.table home .numeric).resolve (.text numeral.text) = none := by
  rw [State.table, fresh]
  exact (Workspace.resolve_fresh _).trans (by rw [numeral.isInteger_text.not_builtin]; rfl)

theorem eval_apply (fresh : state.workspace home = .fresh) (operation : Operation)
    {operands : List Arithmetic} {level depth : Nat} {frame : Frame}
    (given : evalAll call home both (level + 2) (Phrase.nodes (depth + 1) (phrases operands))
      state = .ok ((values operands).map .int) state) :
    Node.eval call home both level
        (.expression (Phrase.nodes (depth + 1)
          (.operator operation.builtin.symbol :: phrases operands)) frame) state =
      .ok (.int (operation.compute (values operands))) state := by
  have notDefine : operation.builtin.symbol ≠ "define" := by cases operation <;> decide
  rw [Phrase.nodes, Phrase.node, eval_call notDefine (resolve_symbol fresh operation) rfl,
    Eval.bind_ok given, Value.apply, operation.apply_ints]
  rfl

mutual
theorem eval_phrase (fresh : state.workspace home = .fresh) (expression : Arithmetic)
    (level depth : Nat) :
    Node.eval call home both level (expression.phrase.node depth) state =
      .ok (.int expression.value) state := by
  cases expression with
  | leaf numeral =>
      rw [phrase, Phrase.node, eval_literal, resolve_numeral fresh, Option.getD_none,
        Value.toNumber, numeral.ofText_text]
      rfl
  | apply operation operands =>
      exact eval_apply fresh operation (evalAll_phrases fresh operands (level + 2) (depth + 1))

theorem evalAll_phrases (fresh : state.workspace home = .fresh) (operands : List Arithmetic)
    (level depth : Nat) :
    evalAll call home both level (Phrase.nodes depth (phrases operands)) state =
      .ok ((values operands).map .int) state := by
  cases operands with
  | nil => rfl
  | cons operand rest =>
      rw [phrases, Phrase.nodes, evalAll_cons, Eval.bind_ok (eval_phrase fresh operand level depth),
        Eval.bind_ok (evalAll_phrases fresh rest level depth)]
      rfl
end

theorem read_leaf (numeral : Decimal) :
    Node.readForm (leaf numeral).text = .ok (.literal (.int numeral.value) 0) := by
  have nonempty : (leaf numeral).text ≠ "" := numeral.text_isRun.1
  have bare := Phrase.content_text (spelled_phrase (leaf numeral))
  rw [Node.readForm, if_neg nonempty, text, Node.read_bare bare]
  simp only [Node.bareLiteral, numeral.parse_text]
  rfl

theorem read_apply (operation : Operation) (operands : List Arithmetic) :
    Node.readForm (apply operation operands).text =
      .ok (Phrase.tree (.operator operation.builtin.symbol :: phrases operands)) :=
  Node.readForm_form (Phrase.content_text (spelled_phrase (apply operation operands)))

end Arithmetic

/-- In a fresh workspace the text of an arithmetic expression evaluates to its
value and changes nothing. -/
theorem evaluate_arithmetic {interpreter : Interpreter} {state : State}
    (fresh : interpreter.IsFresh state) (limit : Nat) (expression : Arithmetic) :
    interpreter.perform limit .evaluate expression.text state =
      .ok (.value (.int expression.value)) state := by
  cases expression with
  | leaf numeral =>
      have plain : (state.table interpreter.home .numeric).resolve (.int numeral.value) = none := by
        rw [State.table, fresh]
        exact Workspace.named_fresh.resolve_eq_none fun name => rfl
      have value : evaluate limit interpreter.home true (.literal (.int numeral.value) 0) state =
          .ok (.int numeral.value) state := by
        rw [evaluate, eval_literal, plain]
        rfl
      rw [Interpreter.perform_evaluate (Arithmetic.read_leaf numeral), Eval.bind_ok value]
      rfl
  | apply operation operands =>
      have value : evaluate limit interpreter.home true
          (Phrase.tree (.operator operation.builtin.symbol :: Arithmetic.phrases operands)) state =
          .ok (.int (operation.compute (Arithmetic.values operands))) state :=
        Arithmetic.eval_apply fresh operation (Arithmetic.evalAll_phrases fresh operands 2 1)
      rw [Interpreter.perform_evaluate (Arithmetic.read_apply operation operands),
        Eval.bind_ok value]
      rfl

theorem evaluate_arithmetic_started :
    let started := Interpreter.start (fun _ => none) initialLimit {} {}
    started.interpreter.IsFresh started.state ∧
      started.interpreter.perform started.limit .evaluate "(- (+ 10 -3) (*) (- +012))"
          started.state = .ok (.value (.int (-6))) started.state := by
  have fresh := Interpreter.start_isFresh (fun _ => none) initialLimit {} {} rfl
  let ten : Decimal := ⟨.none, ['1', '0'], by decide, List.all_eq_true.mp (by decide), by decide⟩
  let negative : Decimal := ⟨.minus, ['3'], by decide, List.all_eq_true.mp (by decide), by decide⟩
  let padded : Decimal :=
    ⟨.plus, ['0', '1', '2'], by decide, List.all_eq_true.mp (by decide), by decide⟩
  let expression : Arithmetic := .apply .difference
    [.apply .sum [.leaf ten, .leaf negative], .apply .product [],
      .apply .difference [.leaf padded]]
  have spelled : expression.text = "(- (+ 10 -3) (*) (- +012))" := by decide +kernel
  exact ⟨fresh, spelled ▸ evaluate_arithmetic fresh _ expression⟩

end Stepper
