import Stepper.Proofs.Amounts
import Stepper.Proofs.Expansion
import Stepper.Proofs.Views

/-!
Views keep the value. A view of arithmetic is itself a text of arithmetic, and
what stands in it for an expression denotes what the expression does, so the
view evaluates to the value of the tree, whatever its level.
-/

namespace Stepper

open Token (IsRun)

/-- Whether a word is the amount of a tree in digits. -/
def ShowsAmount (constants : String → Option Int) (node : Form) (word : String) : Prop :=
  ∃ n, node.amount constants = some n ∧ n.natAbs < integerBound ∧ word = integerDigits n

variable {constants : String → Option Int}

namespace Node

mutual
/-- Every expression that a view of arithmetic cuts can be written. -/
theorem amount_cuts {level : Number} (node : Form) {n : Int}
    (denotes : node.amount constants = some n) :
    ∀ cut ∈ node.cuts level, ∃ word, ShowsAmount constants cut word := by
  cases node with
  | expression children frame =>
      obtain ⟨operation, place, operands, numbers, rfl, given, _, bounded⟩ :=
        of_amount_expression denotes
      rw [cuts]
      split
      · intro cut member
        rw [List.mem_singleton.mp member]
        exact ⟨_, n, denotes, bounded, rfl⟩
      · exact amounts_cuts operands given
  | _ => simp [cuts]

theorem amounts_cuts {level : Number} (nodes : List Form) {numbers : List Int}
    (denote : amounts constants nodes = some numbers) :
    ∀ cut ∈ cutsOfAll level nodes, ∃ word, ShowsAmount constants cut word := by
  cases nodes with
  | nil => simp [cutsOfAll]
  | cons node rest =>
      obtain ⟨n, others, first, later, _⟩ := of_amounts_cons denote
      rw [cutsOfAll, List.forall_mem_append]
      exact ⟨amount_cuts node first, amounts_cuts rest later⟩
end

end Node

section Amounts

variable {limit home : Nat} {level : Number} {state : State} {table : Table}

mutual
/-- A view of arithmetic is spelled as it should be and denotes what the tree
does, wherever it stands. -/
theorem amount_view (holds : table.HoldsOnly constants) (node : Form)
    (written : node.WrittenAt false) {n : Int} (denotes : node.amount constants = some n) {view : Phrase}
    (viewed : node.ViewAs level (ShowsAmount constants) view) :
    view.SpelledAt false ∧ ∀ depth, (view.node depth).amount constants = some n := by
  cases node with
  | blank => cases denotes
  | operator name depth => cases denotes
  | literal value depth =>
      obtain ⟨text, rfl, rfl⟩ := viewed
      obtain ⟨_, same, isRun⟩ := written
      cases same
      exact ⟨⟨rfl, isRun⟩, fun _ => denotes⟩
  | expression children frame =>
      obtain ⟨operation, place, operands, numbers, rfl, given, rfl, bounded⟩ :=
        Node.of_amount_expression denotes
      rw [Node.ViewAs] at viewed
      split at viewed
      · obtain ⟨_, ⟨m, same, _, rfl⟩, rfl⟩ := viewed
        cases denotes.symm.trans same
        exact ⟨⟨rfl, isRun_integerDigits bounded⟩, fun _ => holds.amount_digits bounded⟩
      · obtain ⟨_, ⟨_, row, rfl, viewedRow, rfl⟩, rfl⟩ := viewed
        obtain ⟨_, ⟨_, isRun⟩, writtenRow⟩ := written
        obtain ⟨spelled, again⟩ := amounts_view holds operands writtenRow given viewedRow
        exact ⟨⟨⟨rfl, isRun⟩, spelled⟩,
          fun depth => Node.amount_apply operation (again (depth + 1)) bounded _ _⟩

theorem amounts_view (holds : table.HoldsOnly constants) (nodes : List Form)
    (written : Node.WrittenRow false nodes) {numbers : List Int}
    (denote : Node.amounts constants nodes = some numbers) {row : List Phrase}
    (viewed : Node.ViewRow level (ShowsAmount constants) nodes row) :
    Phrase.SpelledRow false row ∧
      ∀ depth, Node.amounts constants (Phrase.nodes depth row) = some numbers := by
  cases nodes with
  | nil =>
      cases viewed
      exact ⟨trivial, fun _ => denote⟩
  | cons node rest =>
      obtain ⟨n, others, first, later, rfl⟩ := Node.of_amounts_cons denote
      obtain ⟨view, more, here, viewedRest, rfl⟩ := viewed
      obtain ⟨spelled, again⟩ := amount_view holds node written.1 first here
      obtain ⟨spelledRest, againRest⟩ := amounts_view holds rest written.2 later viewedRest
      exact ⟨⟨spelled, spelledRest⟩,
        fun depth => Node.amounts_cons (again depth) (againRest depth)⟩
end

/-- Amounts are written without a change of the state. -/
theorem shown_amounts (holds : (state.table home .numeric).HoldsOnly constants)
    (nodes : List Form)
    (denote : ∀ node ∈ nodes, ∃ word, ShowsAmount constants node word) :
    Shown limit home (ShowsAmount constants) nodes state state := by
  induction nodes with
  | nil => exact .nil
  | cons node rest ih =>
      obtain ⟨here, later⟩ := List.forall_mem_cons.mp denote
      obtain ⟨_, n, denotes, bounded, rfl⟩ := here
      refine .cons ?_ ⟨n, denotes, bounded, rfl⟩ (ih later)
      have evaluated : evaluate limit home false node state = .ok (.int n) state :=
        eval_amount holds node 0 denotes
      rw [writeValue, Eval.bind_ok evaluated, (format_int n).trans (if_pos bounded)]
      rfl

/-- A leaf on its own is shown as a word that spells what it denotes. -/
theorem renderLiteral_amount (holds : table.HoldsOnly constants) {value : Value} {n : Int}
    (denotes : value.amount constants = some n)
    (isRun : ∀ word, value = .text word → IsRun word)
    (bounded : ∀ m, value = .int m → m.natAbs < integerBound) :
    ∃ word, renderLiteral table value = .ok word ∧ IsRun word ∧ Spells word n := by
  cases value with
  | int m =>
      cases denotes
      have short := bounded n rfl
      exact ⟨integerDigits n, (holds.named.renderLiteral_int n).trans (if_pos short),
        isRun_integerDigits short, spells_integerDigits short⟩
  | text word =>
      cases found : constants word with
      | some m =>
          simp only [Value.amount, found] at denotes
          cases denotes
          obtain ⟨literal, isLiteral, spells, resolved⟩ := holds.constant word n found
          refine ⟨literal, ?_, isLiteral, spells⟩
          rw [renderLiteral, resolved]
          rfl
      | none =>
          simp only [Value.amount, found] at denotes
          have spells := spelled?_eq_some_iff.mp denotes
          refine ⟨word, ?_, isRun word rfl, spells⟩
          rw [renderLiteral, holds.other word found spells.integer.not_builtin]
          rfl
  | _ => cases denotes

end Amounts

theorem ofText_of_parse {text : String} {number : Number}
    (parsed : Number.parse text = .ok (some number)) : Number.ofText text = .ok number := by
  rw [Number.parse] at parsed
  rw [Number.ofText]
  cases found : Numeral.parse? (Text.trim text.toList) with
  | none =>
      rw [found] at parsed
      cases parsed
  | some numeral =>
      simp only [found] at parsed
      cases value : numeral.value with
      | error failure =>
          rw [value] at parsed
          cases parsed
      | ok other =>
          rw [value] at parsed
          cases parsed
          exact value

/-- A number on its own is read from a text that spells it. -/
theorem bounded_of_readForm {source : String} {m depth : Int}
    (read : Node.readForm source = .ok (.literal (.int m) depth)) : m.natAbs < integerBound := by
  rw [Node.readForm] at read
  split at read
  · cases read
  · rcases Node.of_read read with ⟨_, blank⟩ | ⟨text, _, literal⟩ | ⟨_, _, root⟩
    · cases blank
    · rw [Node.bareLiteral] at literal
      obtain ⟨parsed, found, rest⟩ := of_except_bind_ok literal
      rcases parsed with _ | n | x
      · cases rest
      · cases rest
        exact (spells_of_ofText (ofText_of_parse found)).bounded
      · cases rest
    · cases root

section Session

variable {interpreter : Interpreter} {state : State} {source : String} {root : Form} {n : Int}

/-- The view of arithmetic at any level is arithmetic of the same amount. -/
theorem explain_amount {home : Nat} (holds : (state.table home .numeric).HoldsOnly constants)
    (read : Node.readForm source = .ok root) (denotes : root.amount constants = some n)
    (limit : Nat) (level : Number) :
    ∃ view again, explain limit home level root state = .ok view state ∧
      Node.readForm view = .ok again ∧ again.amount constants = some n := by
  have isRead := Node.isRead_of_readForm read
  cases root with
  | blank => cases denotes
  | operator name depth => cases denotes
  | literal value depth =>
      have isRun : ∀ word, value = .text word → IsRun word := by
        rintro word rfl
        rcases isRead with ⟨number, _, same⟩ | ⟨_, same, isRun⟩
        · cases number <;> cases same
        · cases same
          exact isRun
      have bounded : ∀ m, value = .int m → m.natAbs < integerBound := by
        rintro m rfl
        exact bounded_of_readForm read
      obtain ⟨word, shown, isWord, spells⟩ := renderLiteral_amount holds denotes isRun bounded
      refine ⟨word, _, ?_, spells.readForm isWord, rfl⟩
      rw [explain, Eval.bind_get, shown]
      rfl
  | expression children frame =>
      have written : (Node.expression children frame).WrittenAt false := by
        rcases isRead with ⟨_, _, same⟩ | written
        · cases same
        · exact written
      have shown : Shown limit home (ShowsAmount constants)
          ((Node.expression children frame).cuts level) state state :=
        shown_amounts holds _ (Node.amount_cuts _ denotes)
      obtain ⟨view, viewed, explained⟩ := explain_view _ written rfl shown
      obtain ⟨spelled, again⟩ := amount_view holds _ written denotes viewed
      refine ⟨view.text, ?_⟩
      cases view with
      | operator name => cases spelled.1
      | form row =>
          refine ⟨_, explained, Node.readForm_form (Phrase.content_text spelled), ?_⟩
          exact (Node.amount_frame ..).trans (again 0)
      -- the view is one word only where it cuts the whole expression
      | argument word =>
          rw [Node.ViewAs] at viewed
          split at viewed
          · obtain ⟨_, ⟨m, same, bounded, rfl⟩, isWord⟩ := viewed
            cases isWord
            cases denotes.symm.trans same
            exact ⟨_, explained, (spells_integerDigits bounded).readForm spelled.2, rfl⟩
          · obtain ⟨_, _, isForm⟩ := viewed
            cases isForm

theorem perform_amount (holds : (state.table interpreter.home .numeric).HoldsOnly constants)
    (read : Node.readForm source = .ok root) (denotes : root.amount constants = some n)
    (limit : Nat) :
    interpreter.perform limit .evaluate source state = .ok (.value (.int n)) state := by
  have evaluated : evaluate limit interpreter.home true root state = .ok (.int n) state :=
    eval_amount holds root 0 denotes
  rw [Interpreter.perform_evaluate read, Eval.bind_ok evaluated]
  rfl

end Session

/-- Where the numeric table holds the builtins and constants only, every view of
arithmetic can be read, and it evaluates to the value of the whole. -/
theorem views_keep_the_value {interpreter : Interpreter} {state : State}
    (holds : (state.table interpreter.home .numeric).HoldsOnly constants) {source : String}
    {root : Form} (read : Node.readForm source = .ok root) {n : Int}
    (denotes : root.amount constants = some n) (limit : Nat) (level : Number) :
    interpreter.perform limit .evaluate source state = .ok (.value (.int n)) state ∧
      ∃ view again,
        interpreter.perform limit (.explain level) source state = .ok (.view view) state ∧
        Node.readForm view = .ok again ∧
        interpreter.perform limit .evaluate view state = .ok (.value (.int n)) state := by
  obtain ⟨view, again, explained, readAgain, same⟩ := explain_amount holds read denotes limit level
  refine ⟨perform_amount holds read denotes limit, view, again, ?_, readAgain,
    perform_amount holds readAgain same limit⟩
  rw [Interpreter.perform_keeping read rfl, Eval.bind_ok explained]
  rfl

/-- `(define rate -7)`. -/
def rate : Constant where
  name := "rate"
  literal := "-7"
  value := -7
  isName := ⟨by decide, List.all_eq_true.mp (by decide)⟩
  isWord := ⟨by decide, List.all_eq_true.mp (by decide)⟩
  spells := ⟨by decide, rfl⟩
  symbol := by decide
  notBuiltin := by decide

/-- `(define total 0099)`. -/
def total : Constant where
  name := "total"
  literal := "0099"
  value := 99
  isName := ⟨by decide, List.all_eq_true.mp (by decide)⟩
  isWord := ⟨by decide, List.all_eq_true.mp (by decide)⟩
  spells := ⟨by decide, rfl⟩
  symbol := by decide
  notBuiltin := by decide

theorem views_keep_the_value_rates :
    let source := "(- (* rate (+ 2 3)) total (*))"
    ∃ first state root,
      Interpreter.perform ⟨0, 10⟩ 50 .define "(define rate -7)" {} = .ok .done first ∧
      Interpreter.perform ⟨0, 10⟩ 50 .define "(define total 0099)" first = .ok .done state ∧
      Node.readForm source = .ok root ∧
      Interpreter.perform ⟨0, 10⟩ 50 .evaluate source state = .ok (.value (.int (-135))) state ∧
      ∃ view again,
        Interpreter.perform ⟨0, 10⟩ 50 (.explain (.int 2)) source state = .ok (.view view) state ∧
        Node.readForm view = .ok again ∧
        Interpreter.perform ⟨0, 10⟩ 50 .evaluate view state = .ok (.value (.int (-135))) state := by
  intro source
  let items : List Phrase := [.operator "-",
    .form [.operator "*", .argument "rate", .form [.operator "+", .argument "2", .argument "3"]],
    .argument "total", .form [.operator "*"]]
  have fresh : (State.table {} 0 .numeric).HoldsOnly fun _ => none := Table.HoldsOnly.fresh
  have spelledRate : Token.content "(define rate -7)" = (Phrase.form rate.items).tokens := by
    decide +kernel
  have spelledTotal : Token.content "(define total 0099)" = (Phrase.form total.items).tokens := by
    decide +kernel
  have spelled : Token.content source = (Phrase.form items).tokens := by decide +kernel
  obtain ⟨first, defined, holdsRate⟩ :=
    rate.perform_define ⟨0, 10⟩ 50 spelledRate fresh
  obtain ⟨state, definedTotal, holds⟩ := total.perform_define ⟨0, 10⟩ 50 spelledTotal holdsRate
  have read := Node.readForm_form spelled
  have denotes : (Phrase.tree items).amount (Function.update (Function.update (fun _ => none)
      rate.name (some rate.value)) total.name (some total.value)) = some (-135) := by
    decide +kernel
  obtain ⟨evaluated, views⟩ := views_keep_the_value holds read denotes 50 (.int 2)
  exact ⟨first, state, _, defined, definedTotal, read, evaluated, views⟩

end Stepper
