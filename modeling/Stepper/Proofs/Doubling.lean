import Stepper.Proofs.Arithmetic
import Stepper.Proofs.LexicalScope
import Stepper.Proofs.Stepping

/-!
Powers of two by doubling: the values and the traces of a procedure that calls
itself twice, for every argument.
-/

namespace Stepper

open Token (IsRun)

/-- `(C 0 y)` is twice `y`, and `(C 1 n)` is the `n`th power of two. -/
def doubling : Procedure :=
  ackermann "C"

namespace doubling

def program : Program := [doubling]

theorem wellScoped : program.WellScoped :=
  Program.wellScoped_of_reads_first (by decide +kernel) (by decide +kernel) (by decide +kernel)
    (by decide +kernel) (by decide +kernel)

theorem has : program.Has doubling := rfl

/-- The result that the guards of a call select. -/
def result (x y : Int) : Term String :=
  if y = 0 then .leaf "0"
  else if x = 0 then .call "*" [.leaf "2", .leaf "y"]
  else if y = 1 then .leaf "2"
  else .call "C" [.call "-" [.leaf "x", .leaf "1"],
    .call "C" [.leaf "x", .call "-" [.leaf "y", .leaf "1"]]]

theorem result_zero {y : Int} (positive : 0 < y) :
    result 0 y = .call "*" [.leaf "2", .leaf "y"] := by
  simp [result, Int.ne_of_gt positive]

theorem result_one {y : Int} (large : 1 < y) :
    result 1 y = .call "C" [.call "-" [.leaf "x", .leaf "1"],
      .call "C" [.leaf "x", .call "-" [.leaf "y", .leaf "1"]]] := by
  have nonzero : y ≠ 0 := by omega
  simp [result, nonzero, Int.ne_of_gt large]

theorem apply_double (n : Int) :
    Builtin.multiply.apply [.int 2, .int n] = .ok (.int (2 * n)) :=
  (Operation.apply_ints .product [2, n]).trans (by simp [Operation.compute])

theorem apply_less (n : Int) :
    Builtin.subtract.apply [.int n, .int 1] = .ok (.int (n - 1)) :=
  (Operation.apply_ints .difference [n, 1]).trans (by simp [Operation.compute])

/-! ### Values -/

theorem call_succ (depth : Nat) (x y : Int) :
    program.call (depth + 1) doubling [.int x, .int y] =
      (result x y).value program (program.call depth)
        (lookIn doubling.formals [.int x, .int y]) := by
  -- the guards compute, so only the choice between the results is left
  change (if y == 0 then _ else if x == 0 then _ else if y == 1 then _ else _) = _
  rw [result]
  simp only [beq_iff_eq]
  split_ifs <;> rfl

theorem call_zero (depth : Nat) {y : Int} (positive : 0 < y) :
    program.call (depth + 1) doubling [.int 0, .int y] = .ok (.int (2 * y)) := by
  rw [call_succ, result_zero positive]
  exact apply_double y

theorem call_one {depth : Nat} {y : Int} {inner : Value} (large : 1 < y)
    (called : program.call depth doubling [.int 1, .int (y - 1)] = .ok inner) :
    program.call (depth + 1) doubling [.int 1, .int y] =
      program.call depth doubling [.int 0, inner] := by
  let value (term : Term String) : Except Failure Value :=
    term.value program (program.call depth) (lookIn doubling.formals [.int 1, .int y])
  have first : value (.call "-" [.leaf "x", .leaf "1"]) = .ok (.int 0) := rfl
  have less : value (.call "-" [.leaf "y", .leaf "1"]) = .ok (.int (y - 1)) := apply_less y
  have second : value (.call "C" [.leaf "x", .call "-" [.leaf "y", .leaf "1"]]) = .ok inner := by
    have one : value (.leaf "x") = .ok (.int 1) := rfl
    simp only [value] at one less ⊢
    rw [Term.value, Term.values, Term.values, one, less]
    exact called
  rw [call_succ, result_one large]
  simp only [value] at first second
  rw [Term.value, Term.values, Term.values, first, second]
  rfl

theorem call_power (n : Nat) :
    program.call (n + 1) doubling [.int 1, .int (n + 1 : Nat)] = .ok (.int (2 ^ (n + 1))) := by
  induction n with
  | zero => rfl
  | succ n ih =>
      have less : ((n + 1 + 1 : Nat) : Int) - 1 = (n + 1 : Nat) := by omega
      rw [call_one (by omega) (less ▸ ih), call_zero n (Int.pow_pos (by decide)),
        Int.pow_succ' 2 (n + 1)]

theorem levels : program.levels = 9 := by decide +kernel

/-! ### Steps -/

theorem spells_zero : Spells "0" 0 := ⟨by decide, rfl⟩

theorem spells_one : Spells "1" 1 := ⟨by decide, rfl⟩

theorem spells_two : Spells "2" 2 := ⟨by decide, rfl⟩

theorem isRun_name : IsRun "C" := ⟨by decide, List.all_eq_true.mp rfl⟩

theorem bounded_of_le_two {n : Int} (small : n.natAbs ≤ 2) : n.natAbs < integerBound :=
  Nat.lt_of_le_of_lt small (by decide +kernel)

theorem closed_zero : (Term.leaf "0").Closed := .leaf (n := 0) (bounded_of_le_two (by decide))

theorem closed_one : (Term.leaf "1").Closed := .leaf (n := 1) (bounded_of_le_two (by decide))

theorem closed_two : (Term.leaf "2").Closed := .leaf (n := 2) (bounded_of_le_two (by decide))

theorem closed_call {name : String} {first second : Term String} (isRun : IsRun name)
    (closed : first.Closed) (other : second.Closed) : (Term.call name [first, second]).Closed := by
  refine .call isRun fun operand among => ?_
  simp only [List.mem_cons, List.not_mem_nil, or_false] at among
  rcases among with rfl | rfl
  · exact closed
  · exact other

section Steps

variable {home : Nat} {base : State} {limit : Nat}

theorem eval_equals (ready : Ready program home base) {bound : State}
    (reaches : program.Reaches home base bound) {left right : String} {m n : Int}
    (readLeft : bound.read home (.text left) = .ok (.int m))
    (readRight : bound.read home (.text right) = .ok (.int n)) :
    evaluate limit home false ((Guard.test (.call "=" [.leaf left, .leaf right])).node 3) bound =
      .ok (.bool (m == n)) bound := by
  have known : Builtin.equals ≠ .define := by decide
  have means : program.meaning "=" = some (.builtin .equals) := rfl
  have reads : List.Forall₂ (fun leaf n => bound.read home (.text leaf) = .ok (.int n))
      [left, right] [m, n] := .cons readLeft (.cons readRight .nil)
  exact eval_builtin known (ready.binding_builtin reaches means).1 reads rfl 0

theorem selectClause_result (ready : Ready program home base) {bound : State}
    (reaches : program.Reaches home base bound) {x y : Int}
    (readX : bound.read home (.text "x") = .ok (.int x))
    (readY : bound.read home (.text "y") = .ok (.int y)) :
    selectClause (evaluate limit home false) "C" (Procedure.clauseNodes doubling.clauses) bound =
      .ok (((result x y).map .text).node 3) bound := by
  have read0 := ready.read_spells reaches spells_zero
  have read1 := ready.read_spells reaches spells_one
  have means : program.meaning "else" = some (.builtin .otherwise) := rfl
  have otherwise : evaluate limit home false ((Guard.word "else").node 3) bound =
      .ok (.builtin .otherwise) bound := by
    rw [evaluate, Guard.node, eval_operator, ← State.binding,
      (ready.binding_builtin reaches means).1]
    rfl
  rw [Procedure.clauseNodes, doubling, ackermann,
    List.map_cons, selectClause_cons_run (eval_equals ready reaches readY read0),
    List.map_cons, selectClause_cons_run (eval_equals ready reaches readX read0),
    List.map_cons, selectClause_cons_run (eval_equals ready reaches readY read1),
    List.map_cons, selectClause_cons_run otherwise, result]
  simp only [Value.isTruthy, Value.isPresent, beq_iff_eq, if_true]
  split_ifs <;> rfl

theorem allowed_result {x y : Int} {name : String} (read : .read name ∈ (result x y).actions) :
    program.Allows doubling (.read name) := by
  have inside : ∃ clause ∈ doubling.clauses, clause.2 = result x y := by
    rw [result]
    split_ifs <;> simp [doubling, ackermann]
  obtain ⟨clause, member, same⟩ := inside
  rw [← same] at read
  exact wellScoped.allowed doubling (Program.mem_of_meaning has) _
    (Procedure.result_mem_actions member read)

theorem stepsTo_result (ready : Ready program home base) {x y : Int}
    (boundedX : x.natAbs < integerBound) (boundedY : y.natAbs < integerBound)
    {term : Term String} (selected : result x y = term) :
    program.StepsTo home base limit "C" [.leaf (integerDigits x), .leaf (integerDigits y)]
      (.text (term.map (substitution doubling.formals [x, y])).phrase.text) := by
  subst selected
  have spell : List.Forall₂ Spells [integerDigits x, integerDigits y] [x, y] :=
    .cons (spells_integerDigits boundedX) (.cons (spells_integerDigits boundedY) .nil)
  refine ready.stepsTo_symbolic has spell (fun bound reaches reads => ?_) fun name read => ?_
  · exact selectClause_result ready reaches (reads "x" x rfl) (reads "y" y rfl)
  · rcases allowed_result read with formal | integer
    · simp only [doubling, ackermann, List.mem_cons, List.not_mem_nil, or_false] at formal
      rcases formal with rfl | rfl
      · exact .inl ⟨x, rfl, boundedX⟩
      · exact .inl ⟨y, rfl, boundedY⟩
    · have notFormal := (wellScoped.integer_free integer).2
      exact .inr ⟨fun formal => notFormal ⟨doubling, has, formal⟩, integer⟩

theorem stepsTo_double (ready : Ready program home base) {y : Int} (positive : 0 < y)
    (bounded : y.natAbs < integerBound) :
    program.StepsTo home base limit "C" [.leaf "0", .leaf (integerDigits y)]
      (.text (Term.call "*" [.leaf "2", .leaf (integerDigits y)]).phrase.text) :=
  stepsTo_result ready (x := 0) (bounded_of_le_two (by decide)) bounded (result_zero positive)

theorem stepsTo_two (ready : Ready program home base) :
    program.StepsTo home base limit "C" [.leaf "1", .leaf "1"]
      (.text (Term.leaf "2").phrase.text) :=
  stepsTo_result ready (x := 1) (y := 1) (bounded_of_le_two (by decide))
    (bounded_of_le_two (by decide)) rfl

theorem stepsTo_calls (ready : Ready program home base) {y : Int} (large : 1 < y)
    (bounded : y.natAbs < integerBound) :
    program.StepsTo home base limit "C" [.leaf "1", .leaf (integerDigits y)]
      (.text (Term.call "C" [.call "-" [.leaf "1", .leaf "1"],
        .call "C" [.leaf "1", .call "-" [.leaf (integerDigits y), .leaf "1"]]]).phrase.text) :=
  stepsTo_result ready (x := 1) (bounded_of_le_two (by decide)) bounded (result_one large)

theorem reducesTo_less (ready : Ready program home base) {text : String} {n : Int}
    (spells : Spells text n) (bounded : (n - 1).natAbs < integerBound) :
    program.ReducesTo home base limit (.call "-" [.leaf text, .leaf "1"])
      (.leaf (integerDigits (n - 1))) := by
  have known : Builtin.subtract ≠ .define := by decide
  have means : program.meaning "-" = some (.builtin .subtract) := rfl
  have spell : List.Forall₂ Spells [text, "1"] [n, 1] := .cons spells (.cons spells_one .nil)
  exact ready.reducesTo_builtin means known spell (apply_less n) bounded

theorem reducesTo_double (ready : Ready program home base) {n : Int}
    (bounded : n.natAbs < integerBound) (boundedDouble : (2 * n).natAbs < integerBound) :
    program.ReducesTo home base limit (.call "*" [.leaf "2", .leaf (integerDigits n)])
      (.leaf (integerDigits (2 * n))) := by
  have known : Builtin.multiply ≠ .define := by decide
  have means : program.meaning "*" = some (.builtin .multiply) := rfl
  have spell : List.Forall₂ Spells ["2", integerDigits n] [2, n] :=
    .cons spells_two (.cons (spells_integerDigits bounded) .nil)
  exact ready.reducesTo_builtin means known spell (apply_double n) boundedDouble

/-- A call whose second operand is a call too. -/
theorem stepsTo_inside {first better second : Term String} {name : String}
    {operands : List (Term String)} (reduces : program.ReducesTo home base limit first better)
    (inside : program.ReducesTo home base limit (.call name operands) second) :
    program.StepsTo home base limit "C" [first, .call name operands]
      (.text (Term.call "C" [better, second]).phrase.text) :=
  Ready.stepsTo_operands (List.mem_cons_of_mem _ (List.mem_singleton.mpr rfl))
    (.cons reduces (.cons inside .nil))

/-! ### Nested calls -/

/-- The operands of a call, inside as many calls that each double it. -/
def nest (operands : List (Term String)) : Nat → List (Term String)
  | 0 => operands
  | count + 1 => [.leaf "0", .call "C" (nest operands count)]

theorem nest_succ (operands : List (Term String)) (count : Nat) :
    nest operands (count + 1) = nest [.leaf "0", .call "C" operands] count := by
  induction count with
  | zero => rfl
  | succ count ih => rw [nest, ih, nest]

theorem closed_nest {operands : List (Term String)} (closed : (Term.call "C" operands).Closed)
    (count : Nat) : (Term.call "C" (nest operands count)).Closed := by
  induction count with
  | zero => exact closed
  | succ count ih => exact closed_call isRun_name closed_zero ih

theorem stepsTo_nest (ready : Ready program home base) {operands others : List (Term String)}
    (closed : (Term.call "C" others).Closed)
    (steps : program.StepsTo home base limit "C" operands
      (.text (Term.call "C" others).phrase.text)) (count : Nat) :
    program.StepsTo home base limit "C" (nest operands count)
      (.text (Term.call "C" (nest others count)).phrase.text) := by
  induction count with
  | zero => exact steps
  | succ count ih =>
      exact stepsTo_inside (ready.reducesTo_leaf limit spells_zero.integer)
        (ready.reducesTo_step has (closed_nest closed count) ih)

/-- Whether a trace from a call of `C` is some texts and then an integer. -/
def Ends (home : Nat) (base : State) (limit : Nat) (operands : List (Term String)) (count : Nat)
    (n : Int) : Prop :=
  ∃ texts : List String, texts.length = count ∧
    program.TracesTo home base limit "C" operands (texts.map .text ++ [.int n])

theorem ends_nest (ready : Ready program home base) {operands others : List (Term String)}
    (closed : (Term.call "C" others).Closed)
    (steps : program.StepsTo home base limit "C" operands
      (.text (Term.call "C" others).phrase.text))
    {depth count : Nat} {n : Int} (ends : Ends home base limit (nest others depth) count n) :
    Ends home base limit (nest operands depth) (count + 1) n := by
  obtain ⟨texts, rfl, traces⟩ := ends
  exact ⟨_ :: texts, rfl, Ready.tracesTo_step (closed_nest closed depth)
    (stepsTo_nest ready closed steps depth) traces⟩

theorem closed_double {y : Int} (bounded : y.natAbs < integerBound) :
    (Term.call "*" [.leaf "2", .leaf (integerDigits y)]).Closed :=
  closed_call (isRun_symbol .multiply) closed_two (.leaf bounded)

/-- The outermost call gives a product, and that its value. -/
theorem ends_outermost (ready : Ready program home base) {y : Int} (positive : 0 < y)
    (bounded : y.natAbs < integerBound) (boundedTwice : (2 * y).natAbs < integerBound) :
    Ends home base limit [.leaf "0", .leaf (integerDigits y)] 1 (2 * y) := by
  have means : program.meaning "*" = some (.builtin .multiply) := rfl
  have spell : List.Forall₂ Spells ["2", integerDigits y] [2, y] :=
    .cons spells_two (.cons (spells_integerDigits bounded) .nil)
  have last : program.TracesTo home base limit "*" [.leaf "2", .leaf (integerDigits y)]
      [.int (2 * y)] :=
    Ready.tracesTo_int boundedTwice (ready.stepsTo_builtin means spell (apply_double y))
  exact ⟨[_], rfl, Ready.tracesTo_step (closed_double bounded)
    (stepsTo_double ready positive bounded) last⟩

/-- The innermost call is doubled in two steps, by way of a product. -/
theorem ends_innermost (ready : Ready program home base) {y : Int} (positive : 0 < y)
    (bounded : y.natAbs < integerBound) (boundedTwice : (2 * y).natAbs < integerBound)
    {depth count : Nat} {n : Int}
    (ends : Ends home base limit (nest [.leaf "0", .leaf (integerDigits (2 * y))] depth) count n) :
    Ends home base limit (nest [.leaf "0", .leaf (integerDigits y)] (depth + 1)) (count + 2) n := by
  have zero := ready.reducesTo_leaf limit spells_zero.integer
  have toProduct := stepsTo_inside zero
    (ready.reducesTo_step has (closed_double bounded) (stepsTo_double ready positive bounded))
  have toValue := stepsTo_inside zero (reducesTo_double ready bounded boundedTwice)
  rw [nest_succ]
  refine ends_nest ready ?_ toProduct (ends_nest ready ?_ toValue ends)
  · exact closed_call isRun_name closed_zero (closed_double bounded)
  · exact closed_call isRun_name closed_zero (.leaf boundedTwice)

theorem bounded_power {m n : Nat} (le : m ≤ n) (bounded : 2 ^ n < integerBound) :
    ((2 : Int) ^ m).natAbs < integerBound := by
  rw [Int.natAbs_pow]
  exact Nat.lt_of_le_of_lt (Nat.pow_le_pow_right (by decide) le) bounded

theorem ends_double (ready : Ready program home base) {depth m n : Nat} (total : depth + m + 1 = n)
    (bounded : 2 ^ n < integerBound) :
    Ends home base limit (nest [.leaf "0", .leaf (integerDigits (2 ^ m))] depth) (2 * depth + 1)
      (2 ^ n) := by
  have positive (m : Nat) : 0 < (2 : Int) ^ m := Int.pow_pos (by decide)
  have twice (m : Nat) : (2 : Int) ^ (m + 1) = 2 * 2 ^ m := Int.pow_succ' 2 m
  induction depth generalizing m with
  | zero =>
      obtain rfl : n = m + 1 := by omega
      have boundedTwice := twice m ▸ bounded_power (Nat.le_refl _) bounded
      rw [twice]
      exact ends_outermost ready (positive m) (bounded_power (Nat.le_succ m) bounded) boundedTwice
  | succ depth ih =>
      have boundedTwice := twice m ▸ bounded_power (by omega) bounded
      have ends := ih (m := m + 1) (by omega)
      rw [twice] at ends
      exact ends_innermost ready (positive m) (bounded_power (by omega) bounded) boundedTwice ends

/-- A call on `y` is replaced in two steps by one on `y - 1` that is to be doubled. -/
theorem ends_calls (ready : Ready program home base) {y : Int} (large : 1 < y)
    (bounded : y.natAbs < integerBound) {depth count : Nat} {n : Int}
    (ends : Ends home base limit (nest [.leaf "1", .leaf (integerDigits (y - 1))] (depth + 1))
      count n) :
    Ends home base limit (nest [.leaf "1", .leaf (integerDigits y)] depth) (count + 2) n := by
  have boundedLess : (y - 1).natAbs < integerBound := by omega
  have less : program.ReducesTo home base limit (.call "-" [.leaf "1", .leaf "1"]) (.leaf "0") :=
    reducesTo_less ready spells_one (bounded_of_le_two (by decide))
  have inner := stepsTo_inside (ready.reducesTo_leaf limit spells_one.integer)
    (reducesTo_less ready (spells_integerDigits bounded) boundedLess)
  have closedInner := closed_call isRun_name closed_one (.leaf boundedLess)
  have settles := stepsTo_inside less (ready.reducesTo_step has closedInner inner)
  rw [nest_succ] at ends
  refine ends_nest ready ?_ (stepsTo_calls ready large bounded) (ends_nest ready ?_ settles ends)
  · have isRun := isRun_symbol .subtract
    exact closed_call isRun_name (closed_call isRun closed_one closed_one)
      (closed_call isRun_name closed_one (closed_call isRun (.leaf bounded) closed_one))
  · exact closed_call isRun_name closed_zero closedInner

/-- The trace of `(C 1 (m + 1))` inside `depth` calls that double it. -/
theorem ends_power (ready : Ready program home base) {depth m n : Nat} (total : depth + m + 1 = n)
    (several : 2 ≤ n) (bounded : 2 ^ n < integerBound) :
    Ends home base limit (nest [.leaf "1", .leaf (integerDigits (m + 1 : Nat))] depth)
      (4 * m + 2 * depth) (2 ^ n) := by
  -- each round trades one of `m` for a call around what is left
  induction m generalizing depth with
  | zero =>
      obtain ⟨fewer, rfl⟩ : ∃ fewer, depth = fewer + 1 := ⟨depth - 1, by omega⟩
      have two := stepsTo_inside (ready.reducesTo_leaf limit spells_zero.integer)
        (ready.reducesTo_step has closed_two (stepsTo_two ready))
      have count : 4 * 0 + 2 * (fewer + 1) = 2 * fewer + 1 + 1 := by omega
      have ends : Ends home base limit (nest [.leaf "0", .leaf "2"] fewer) _ _ :=
        ends_double ready (m := 1) (by omega) bounded
      rw [nest_succ, count]
      exact ends_nest ready (closed_call isRun_name closed_zero closed_two) two ends
  | succ m ih =>
      have less : ((m + 1 + 1 : Nat) : Int) - 1 = (m + 1 : Nat) := by omega
      have small : n < integerBound := Nat.lt_trans Nat.lt_two_pow_self bounded
      have count : 4 * (m + 1) + 2 * depth = 4 * m + 2 * (depth + 1) + 2 := by omega
      have ends : Ends home base limit (nest _ (depth + 1)) _ _ := ih (by omega)
      rw [← less] at ends
      rw [count]
      exact ends_calls ready (by omega) (by omega) ends

end Steps

/-! ### Sessions -/

theorem text_call (digits : String) :
    (Term.call "C" [.leaf "1", .leaf digits]).phrase.text = "(C 1 " ++ digits ++ ")" := by
  apply String.toList_injective
  simp [Term.phrase, Term.phrases, Phrase.text, Phrase.texts, Node.parenthesized,
    String.intercalate_cons_cons]

theorem closed_power {n : Nat} (bounded : n < integerBound) :
    (Term.call "C" [.leaf "1", .leaf (integerDigits n)]).Closed :=
  closed_call isRun_name closed_one (.leaf bounded)

theorem content_power {n : Nat} (bounded : n < integerBound) :
    Token.content ("(C 1 " ++ integerDigits n ++ ")") =
      (Term.call "C" [.leaf "1", .leaf (integerDigits n)]).phrase.tokens := by
  rw [← text_call]
  exact Phrase.content_text (Term.spelledAt_phrase _ (closed_power bounded).legible)

theorem evaluate_power {n : Nat} (positive : 0 < n) (bounded : n < integerBound) :
    program.evaluate n (.call "C" [.leaf "1", .leaf (integerDigits n)]) = .ok (.int (2 ^ n)) := by
  obtain ⟨m, rfl⟩ : ∃ m, n = m + 1 := ⟨n - 1, by omega⟩
  have look : lookIn [] [] (integerDigits (m + 1 : Nat)) = .ok (.int (m + 1 : Nat)) :=
    toNumber_integerDigits (by omega)
  have one : lookIn [] [] "1" = .ok (.int 1) := rfl
  have calls : program.meaning "C" = some (.procedure doubling) := rfl
  rw [Program.evaluate, Term.value, Term.values, Term.values, Term.values, Term.value, Term.value,
    one, look, calls]
  simp only [bind, Except.bind, pure, Except.pure, Value.ofNumber, Callee.apply]
  exact call_power m

theorem perform_evaluate_power {interpreter : Interpreter} {state : State}
    (shows : (state.table interpreter.home .numeric).Shows program interpreter.home .numeric)
    {n limit : Nat} (positive : 0 < n) (bounded : n < integerBound) (enough : 4 + 12 * n ≤ limit) :
    ∃ after, interpreter.perform limit .evaluate ("(C 1 " ++ integerDigits n ++ ")") state =
      .ok (.value (.int (2 ^ n))) after := by
  have closed := closed_power bounded
  refine interpreter.perform_evaluate_ok wellScoped shows (content_power bounded)
    (fun _ => closed.integer) ?_ (fun callee calls isFormal => ?_) ?_
    (evaluate_power positive bounded)
  · simp [Term.actions, Term.actionsOfAll]
  · obtain rfl : callee = "C" := by simpa [Term.actions, Term.actionsOfAll] using calls
    exact absurd (wellScoped.meaning_formal "C" isFormal) (by decide)
  · -- the call itself takes four levels
    change 4 + _ ≤ limit
    rw [Program.roomFor, levels]
    omega

theorem perform_trace_power {interpreter : Interpreter} {state : State}
    (ready : Ready program interpreter.home state) {n limit : Nat} (several : 2 ≤ n)
    (bounded : 2 ^ n < integerBound) (enough : 4 * n - 3 ≤ interpreter.cap) :
    ∃ (texts : List String) (after : State), texts.length = 4 * n - 4 ∧
      interpreter.perform limit .trace ("(C 1 " ++ integerDigits n ++ ")") state =
        .ok (.steps (texts.map .text ++ [.int (2 ^ n)])) after := by
  obtain ⟨m, rfl⟩ : ∃ m, n = m + 1 := ⟨n - 1, by omega⟩
  have ends : Ends interpreter.home state limit (nest _ 0) _ _ :=
    ends_power ready (Nat.zero_add (m + 1)) several bounded
  obtain ⟨texts, count, traces⟩ := ends
  have spelled := content_power (Nat.lt_trans Nat.lt_two_pow_self bounded)
  have within : (texts.map Value.text ++ [Value.int (2 ^ (m + 1))]).length ≤ interpreter.cap := by
    simp only [List.length_append, List.length_map, List.length_singleton, count]
    omega
  obtain ⟨after, traced⟩ := interpreter.perform_trace_run spelled traces within
  exact ⟨texts, after, by omega, traced⟩

def source : String :=
  "(define (C x y)\n  (cond ((= y 0) 0)\n        ((= x 0) (* 2 y))\n        ((= y 1) 2)\n" ++
    "        (else (C (- x 1) (C x (- y 1))))))"

theorem content_source : Token.content source = doubling.phrase.tokens := by decide +kernel

end doubling

/-- After `C` is defined, `(C 1 n)` evaluates to the `n`th power of two, if the
limit leaves room for `n` calls inside each other, and a trace arrives there in
`4 * n - 3` steps. -/
theorem doubling_gives_powers_of_two {interpreter : Interpreter} {state : State}
    (fresh : interpreter.IsFresh state) (limit : Nat) :
    ∃ defined, interpreter.perform limit .define doubling.source state = .ok .done defined ∧
      ∀ n : Nat, 2 ≤ n → 2 ^ n < integerBound →
        (∀ limit, 4 + 12 * n ≤ limit → ∃ after,
          interpreter.perform limit .evaluate ("(C 1 " ++ integerDigits n ++ ")") defined =
            .ok (.value (.int (2 ^ n))) after) ∧
        ∀ limit, 4 * n - 3 ≤ interpreter.cap →
          ∃ (texts : List String) (after : State), texts.length = 4 * n - 4 ∧
            interpreter.perform limit .trace ("(C 1 " ++ integerDigits n ++ ")") defined =
              .ok (.steps (texts.map .text ++ [.int (2 ^ n)])) after := by
  have start := Interpreter.Defined.start fresh
  obtain ⟨defined, done, shows⟩ :=
    interpreter.perform_define limit doubling.content_source start.shows
  refine ⟨defined, done, fun n several bounded => ⟨fun limit enough => ?_, fun limit enough => ?_⟩⟩
  · have small : n < integerBound := Nat.lt_trans Nat.lt_two_pow_self bounded
    exact doubling.perform_evaluate_power (shows .numeric) (by omega) small enough
  · exact doubling.perform_trace_power ⟨doubling.wellScoped, shows⟩ several bounded enough

theorem doubling_gives_powers_of_two_ten :
    let interpreter : Interpreter := ⟨0, 100⟩
    interpreter.IsFresh {} ∧
    ∃ defined, interpreter.perform initialLimit .define doubling.source {} = .ok .done defined ∧
      (∃ after, interpreter.perform initialLimit .evaluate "(C 1 10)" defined =
        .ok (.value (.int 1024)) after) ∧
      ∃ (texts : List String) (after : State), texts.length = 36 ∧
        interpreter.perform initialLimit .trace "(C 1 10)" defined =
          .ok (.steps (texts.map .text ++ [.int 1024])) after := by
  have fresh : (⟨0, 100⟩ : Interpreter).IsFresh {} := rfl
  obtain ⟨defined, done, powers⟩ := doubling_gives_powers_of_two fresh initialLimit
  obtain ⟨evaluated, traced⟩ := powers 10 (by decide) (by decide +kernel)
  exact ⟨fresh, defined, done, evaluated initialLimit (by decide), traced initialLimit (by decide)⟩

end Stepper
