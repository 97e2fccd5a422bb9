import Stepper.Proofs.Arithmetic

/-!
Trees of arithmetic over integers and named constants. Where the numeric table
holds the builtins and such constants only, a tree evaluates to the amount that
direct arithmetic gives, and evaluation changes nothing.
-/

namespace Stepper

open Token (IsRun)

/-! ### Numerals -/

theorem Text.spanDigits_lt_ten (chars : List Char) :
    ∀ digit ∈ (spanDigits chars).1, digit < 10 := by
  induction chars with
  | nil => simp [spanDigits]
  | cons c rest ih =>
      rw [spanDigits]
      split
      · rename_i digit found
        simpa using ⟨digitValue?_lt_ten found, ih⟩
      · simp

theorem Text.digitsToNat_lt {digits : List Nat} (small : ∀ digit ∈ digits, digit < 10) :
    digitsToNat digits < Nat.pow 10 digits.length := by
  have general : ∀ total, digits.foldl (fun total digit => 10 * total + digit) total <
      (total + 1) * Nat.pow 10 digits.length := by
    induction digits with
    | nil => simp
    | cons digit rest ih =>
        intro total
        obtain ⟨first, others⟩ := List.forall_mem_cons.mp small
        calc rest.foldl (fun total digit => 10 * total + digit) (10 * total + digit)
            < (10 * total + digit + 1) * Nat.pow 10 rest.length := ih others _
          _ ≤ (10 * (total + 1)) * Nat.pow 10 rest.length :=
            Nat.mul_le_mul_right _ (by omega)
          _ = (total + 1) * Nat.pow 10 (digit :: rest).length := by
            rw [List.length_cons, Nat.pow_eq, Nat.pow_eq, Nat.pow_succ]
            ring
  rw [digitsToNat]
  simpa using general 0

theorem Numeral.integer_digits {chars : List Char} {negative : Bool} {digits : List Nat}
    (parsed : parse? chars = some (.integer negative digits)) : ∀ digit ∈ digits, digit < 10 := by
  rw [parse?, unsigned?] at parsed
  split at parsed
  · cases parsed
  · dsimp only at parsed
    split at parsed
    · cases parsed
      exact Text.spanDigits_lt_ten _
    · split at parsed
      · cases parsed
      · obtain ⟨_, _, other⟩ := Option.map_eq_some_iff.mp parsed
        cases other

/-- The integer that a text spells, if it spells one that can be read. -/
def spelled? (text : String) : Option Int :=
  match Number.ofText text with
  | .ok (.int n) => some n
  | _ => none

theorem spells_of_ofText {text : String} {n : Int} (read : Number.ofText text = .ok (.int n)) :
    Spells text n := by
  refine ⟨?_, read⟩
  rw [Number.ofText] at read
  split at read
  · cases read
  · rename_i numeral parsed
    cases numeral with
    | integer negative digits => exact ⟨negative, digits, parsed⟩
    | decimal negative whole fraction exponent => cases read
    | infinity negative => cases read

theorem spelled?_eq_some_iff {text : String} {n : Int} :
    spelled? text = some n ↔ Spells text n := by
  constructor
  · intro found
    rw [spelled?] at found
    split at found
    · rename_i read
      cases found
      exact spells_of_ofText read
    · cases found
  · intro spells
    have read : Number.ofText text = .ok (.int n) := spells.number
    rw [spelled?, read]

/-- An integer that can be read can be written. -/
theorem Spells.bounded {text : String} {n : Int} (spells : Spells text n) :
    n.natAbs < integerBound := by
  obtain ⟨⟨negative, digits, parsed⟩, read⟩ := spells
  simp only [Value.toNumber, Number.ofText, parsed, Numeral.value] at read
  split at read
  · cases read
  · rename_i short
    cases read
    have size : (Double.signed negative (Text.digitsToNat digits)).natAbs =
        Text.digitsToNat digits := by
      cases negative <;> simp [Double.signed]
    have powers : ∀ bound, digits.length ≤ bound → Text.digitsToNat digits < Nat.pow 10 bound :=
      fun bound short => Nat.lt_of_lt_of_le (Text.digitsToNat_lt (Numeral.integer_digits parsed))
        (Nat.pow_le_pow_right (Nat.succ_pos 9) short)
    rw [size, integerBound]
    exact powers maxDigits (Nat.not_lt.mp short)

/-- A word that spells an integer is read as it. -/
theorem Spells.readForm {text : String} {n : Int} (spells : Spells text n) (isRun : IsRun text) :
    Node.readForm text = .ok (.literal (.int n) 0) := by
  have bare := Phrase.content_word isRun
  obtain ⟨⟨negative, digits, parsed⟩, read⟩ := spells
  simp only [Value.toNumber, Number.ofText, parsed] at read
  rw [Node.readForm, if_neg isRun.1, Node.read_bare bare, Node.bareLiteral, Number.parse, parsed]
  simp only [read]
  rfl

/-! ### Amounts -/

/-- Whether a text is an integer in digits, with no blanks around it. -/
def isDigits (text : String) : Bool :=
  match Numeral.parse? text.toList with
  | some (.integer ..) => true
  | _ => false

theorem isDigits_integerDigits {n : Int} (bounded : n.natAbs < integerBound) :
    isDigits (integerDigits n) = true := by
  have parsed := (Decimal.ofInt n bounded).parse?_text
  rw [Text.trim_of_no_blank fun c member => ((Decimal.ofInt n bounded).text_solid c member).1,
    Decimal.text_ofInt] at parsed
  rw [isDigits, parsed]

/-- The operation that a name stands for. -/
def Operation.named? (name : String) : Option Operation :=
  [.sum, .difference, .product].find? fun operation => operation.builtin.symbol == name

theorem Operation.symbol_of_named? {name : String} {operation : Operation}
    (named : Operation.named? name = some operation) : operation.builtin.symbol = name := by
  simpa using List.find?_some named

/-- What a leaf denotes: a constant of that name, or the integer it spells. -/
def Value.amount (constants : String → Option Int) : Value → Option Int
  | .int n => some n
  | .text word =>
    match constants word with
    | some n => some n
    | none => spelled? word
  | _ => none

/-- An integer, if it can be written. -/
def writable? (n : Int) : Option Int :=
  if n.natAbs < integerBound then some n else none

theorem writable?_eq_some {m n : Int} (written : writable? m = some n) :
    m = n ∧ n.natAbs < integerBound := by
  rw [writable?] at written
  split at written
  · rename_i bounded
    cases written
    exact ⟨rfl, bounded⟩
  · cases written

namespace Node

mutual
/-- The integer that a tree over the operations denotes. There is none if a leaf
of it denotes no integer, or if an expression in it has too many digits. -/
def amount (constants : String → Option Int) : Form → Option Int
  | .literal value _ => value.amount constants
  | .expression (.operator name _ :: operands) _ => do
    let operation ← Operation.named? name
    let numbers ← amounts constants operands
    writable? (operation.compute numbers)
  | _ => none

def amounts (constants : String → Option Int) : List Form → Option (List Int)
  | [] => some []
  | node :: rest => do
    let n ← node.amount constants
    let numbers ← amounts constants rest
    return n :: numbers
end

variable {constants : String → Option Int}

/-- What it takes for an expression to denote an integer. -/
theorem of_amount_expression {children : List Form} {frame : Frame} {n : Int}
    (denotes : (Node.expression children frame).amount constants = some n) :
    ∃ (operation : Operation) (place : Int) (operands : List Form) (numbers : List Int),
      children = .operator operation.builtin.symbol place :: operands ∧
      amounts constants operands = some numbers ∧ operation.compute numbers = n ∧
      n.natAbs < integerBound := by
  cases children with
  | nil => cases denotes
  | cons head operands =>
      cases head with
      | operator name place =>
          rw [amount] at denotes
          obtain ⟨operation, named, rest⟩ := Option.bind_eq_some_iff.mp denotes
          obtain ⟨numbers, given, written⟩ := Option.bind_eq_some_iff.mp rest
          obtain ⟨computed, bounded⟩ := writable?_eq_some written
          rw [← Operation.symbol_of_named? named]
          exact ⟨operation, place, operands, numbers, rfl, given, computed, bounded⟩
      | _ => cases denotes

theorem amount_frame (children : List Form) (frame other : Frame) :
    (Node.expression children frame).amount constants =
      (Node.expression children other).amount constants := by
  cases children with
  | nil => rfl
  | cons head operands => cases head <;> rfl

theorem amount_apply (operation : Operation) {operands : List Form} {numbers : List Int}
    (given : amounts constants operands = some numbers)
    (bounded : (operation.compute numbers).natAbs < integerBound) (place : Int) (frame : Frame) :
    (Node.expression (.operator operation.builtin.symbol place :: operands) frame).amount
      constants = some (operation.compute numbers) := by
  have named : Operation.named? operation.builtin.symbol = some operation := by
    cases operation <;> rfl
  simp only [amount, named, given, writable?, bounded, if_true, Option.bind_eq_bind,
    Option.bind_some]

theorem of_amounts_cons {node : Form} {rest : List Form} {numbers : List Int}
    (denote : amounts constants (node :: rest) = some numbers) :
    ∃ n others, node.amount constants = some n ∧ amounts constants rest = some others ∧
      numbers = n :: others := by
  rw [amounts] at denote
  obtain ⟨n, first, more⟩ := Option.bind_eq_some_iff.mp denote
  obtain ⟨others, later, same⟩ := Option.bind_eq_some_iff.mp more
  cases same
  exact ⟨n, others, first, later, rfl⟩

theorem amounts_cons {node : Form} {rest : List Form} {n : Int} {others : List Int}
    (first : node.amount constants = some n) (later : amounts constants rest = some others) :
    amounts constants (node :: rest) = some (n :: others) := by
  rw [amounts, first, later]
  rfl

end Node

/-! ### Tables of constants -/

/-- A table that holds the builtins and constants only. A constant is bound to a
word that spells its value, and no integer is a name. -/
structure Table.HoldsOnly (table : Table) (constants : String → Option Int) : Prop where
  named : table.Named
  builtin : ∀ operation : Builtin,
    table.resolve (.text operation.symbol) = some (.builtin operation)
  constant : ∀ name n, constants name = some n →
    ∃ literal, IsRun literal ∧ Spells literal n ∧ table.resolve (.text name) = some (.text literal)
  symbol : ∀ name n, constants name = some n → isDigits name = false
  other : ∀ name, constants name = none → Builtin.named? name = none →
    table.resolve (.text name) = none

namespace Table.HoldsOnly

variable {table : Table} {constants : String → Option Int}

theorem fresh : Workspace.fresh.numeric.HoldsOnly fun _ => none where
  named := Workspace.named_fresh
  builtin operation := by
    rw [Workspace.resolve_fresh, Builtin.named?_symbol]
    rfl
  constant _ _ found := by cases found
  symbol _ _ found := by cases found
  other name _ notBuiltin := by
    rw [Workspace.resolve_fresh, notBuiltin]
    rfl

/-- A constant may be added, or bound anew, under a name that is neither an
integer nor a builtin. -/
theorem insert (holds : table.HoldsOnly constants) {name literal : String} {n : Int}
    (isRun : IsRun literal) (spells : Spells literal n)
    (symbol : isDigits name = false) (notBuiltin : Builtin.named? name = none) :
    (table.insert (.text name) (.text literal)).HoldsOnly
      (Function.update constants name (some n)) := by
  -- a text is always present, so the new binding is what the name resolves to
  have resolve : ∀ other, (table.insert (.text name) (.text literal)).resolve (.text other) =
      if other = name then some (.text literal) else table.resolve (.text other) := by
    intro other
    rw [Table.resolve_eq_bind, Table.get?_insert, Table.resolve_eq_bind]
    split <;> rfl
  refine ⟨holds.named.insert name _, fun operation => ?_, fun other m found => ?_,
    fun other m found => ?_, fun other unknown free => ?_⟩
  · have different : operation.symbol ≠ name := by
      rintro rfl
      rw [Builtin.named?_symbol] at notBuiltin
      cases notBuiltin
    rw [resolve, if_neg different, holds.builtin]
  · by_cases same : other = name
    · subst same
      rw [Function.update_self] at found
      cases found
      exact ⟨literal, isRun, spells, by rw [resolve, if_pos rfl]⟩
    · rw [Function.update_of_ne same] at found
      obtain ⟨bound, isRun, spells, resolved⟩ := holds.constant other m found
      exact ⟨bound, isRun, spells, by rw [resolve, if_neg same, resolved]⟩
  · by_cases same : other = name
    · exact same ▸ symbol
    · rw [Function.update_of_ne same] at found
      exact holds.symbol other m found
  · have different : other ≠ name := by
      rintro rfl
      rw [Function.update_self] at unknown
      cases unknown
    rw [Function.update_of_ne different] at unknown
    rw [resolve, if_neg different, holds.other other unknown free]

theorem digits_free (holds : table.HoldsOnly constants) {n : Int}
    (bounded : n.natAbs < integerBound) : constants (integerDigits n) = none := by
  cases found : constants (integerDigits n) with
  | none => rfl
  | some m =>
      have symbol := holds.symbol _ m found
      rw [isDigits_integerDigits bounded] at symbol
      cases symbol

theorem amount_digits (holds : table.HoldsOnly constants) {n : Int}
    (bounded : n.natAbs < integerBound) :
    (Value.text (integerDigits n)).amount constants = some n := by
  simp only [Value.amount, holds.digits_free bounded]
  exact spelled?_eq_some_iff.mpr (spells_integerDigits bounded)

/-- What a leaf stands for in the table is the integer that it denotes. -/
theorem toNumber_amount (holds : table.HoldsOnly constants) {value : Value} {n : Int}
    (denotes : value.amount constants = some n) :
    ((table.resolve value).getD value).toNumber = .ok (.int n) := by
  cases value with
  | int m =>
      cases denotes
      rw [holds.named.resolve_number (.int n) rfl]
      rfl
  | text text =>
      cases found : constants text with
      | some m =>
          simp only [Value.amount, found] at denotes
          cases denotes
          obtain ⟨literal, _, spells, resolved⟩ := holds.constant text n found
          rw [resolved]
          exact spells.number
      | none =>
          simp only [Value.amount, found] at denotes
          have spells := spelled?_eq_some_iff.mp denotes
          rw [holds.other text found spells.integer.not_builtin]
          exact spells.number
  | _ => cases denotes

end Table.HoldsOnly

/-- A constant: a name that is neither an integer nor a builtin, and a word that
spells its value. -/
structure Constant where
  name : String
  literal : String
  value : Int
  isName : IsRun name
  isWord : IsRun literal
  spells : Spells literal value
  symbol : isDigits name = false
  notBuiltin : Builtin.named? name = none

namespace Constant

variable (constant : Constant)

/-- The items of the definition of a constant. -/
def items : List Phrase :=
  [.operator "define", .argument constant.name, .argument constant.literal]

theorem define_run (limit home : Nat) (reading : Reading) (state : State) :
    ∃ after, define limit home reading (Phrase.tree constant.items) state = .ok () after ∧
      ∀ other, after.table home other = (state.setTable home reading
        ((state.table home reading).insert (.text constant.name)
          (.text constant.literal))).table home other := by
  cases reading with
  | symbolic => exact ⟨_, rfl, fun _ => rfl⟩
  | numeric =>
      have words : ∃ report, (Event.definedConstant (.text constant.name)).report = .ok report :=
        ⟨_, rfl⟩
      obtain ⟨report, words⟩ := words
      obtain ⟨after, reported, same⟩ := Eval.report_run words
        (state.setTable home .numeric ((state.table home .numeric).insert (.text constant.name)
          (.text constant.literal)))
      exact ⟨after, reported, same home⟩

/-- A definition adds its constant to the table. -/
theorem perform_define (interpreter : Interpreter) (limit : Nat) {source : String} {state : State}
    {constants : String → Option Int}
    (spelled : Token.content source = (Phrase.form constant.items).tokens)
    (holds : (state.table interpreter.home .numeric).HoldsOnly constants) :
    ∃ after, interpreter.perform limit .define source state = .ok .done after ∧
      (after.table interpreter.home .numeric).HoldsOnly
        (Function.update constants constant.name (some constant.value)) := by
  obtain ⟨middle, numeric, entered⟩ := constant.define_run limit interpreter.home .numeric state
  obtain ⟨after, symbolic, last⟩ := constant.define_run limit interpreter.home .symbolic middle
  refine ⟨after, ?_, ?_⟩
  · rw [Interpreter.perform_keeping (Node.readForm_form spelled) rfl, Eval.bind_ok numeric,
      Eval.bind_ok symbolic]
    rfl
  · rw [last, State.table_setTable_other _ _ (by decide), entered, State.table_setTable]
    exact holds.insert constant.isWord constant.spells constant.symbol constant.notBuiltin

end Constant

/-! ### Evaluation -/

section Evaluation

variable {call : CallModel} {home : Nat} {both : Bool} {state : State}
variable {constants : String → Option Int}

mutual
theorem eval_amount (holds : (state.table home .numeric).HoldsOnly constants) (node : Form)
    (level : Nat) {n : Int} (denotes : node.amount constants = some n) :
    Node.eval call home both level node state = .ok (.int n) state := by
  cases node with
  | blank => cases denotes
  | operator name depth => cases denotes
  | literal value depth =>
      rw [eval_literal, holds.toNumber_amount denotes]
      rfl
  | expression children frame =>
      obtain ⟨operation, place, operands, numbers, rfl, given, rfl, _⟩ :=
        Node.of_amount_expression denotes
      have notDefine : operation.builtin.symbol ≠ "define" := by cases operation <;> decide
      rw [eval_call notDefine (holds.builtin _) rfl,
        Eval.bind_ok (evalAll_amounts holds operands (level + 2) given), Value.apply,
        operation.apply_ints]
      rfl

theorem evalAll_amounts (holds : (state.table home .numeric).HoldsOnly constants)
    (nodes : List Form) (level : Nat) {numbers : List Int}
    (denote : Node.amounts constants nodes = some numbers) :
    evalAll call home both level nodes state = .ok (numbers.map .int) state := by
  cases nodes with
  | nil =>
      cases denote
      rfl
  | cons node rest =>
      obtain ⟨n, others, first, later, rfl⟩ := Node.of_amounts_cons denote
      rw [evalAll_cons, Eval.bind_ok (eval_amount holds node level first),
        Eval.bind_ok (evalAll_amounts holds rest level later)]
      rfl
end

end Evaluation

end Stepper
