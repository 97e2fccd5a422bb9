import Stepper.Proofs.Callees
import Stepper.Proofs.Loading
import Stepper.Proofs.NumeralGrammar
import Stepper.Proofs.ViewValues

/-!
A constant reads back as the value that it was defined with, if its value form is
a number or an expression that has no definition in it and whose evaluation leaves
the name alone. A constant that is defined as a word stands for that word, not for
what the word is bound to.
-/

namespace Stepper

open Token (IsRun content isContent opening closing scan)

/-! ### The text of a definition -/

/-- The definition of a constant, as it is written. -/
def definitionText (name value : String) : String :=
  "(define " ++ name ++ " " ++ value ++ ")"

namespace Token

theorem filter_scan_closing (kind : Kind) (reversed chars : List Char) :
    (scan kind reversed (chars ++ [')'])).filter isContent =
      (scan kind reversed chars).filter isContent ++ [closing] := by
  induction chars generalizing kind reversed with
  | nil =>
      have closed : scan kind reversed ([] ++ [')']) =
          ofRun kind reversed ++ [closing, ⟨"", .endOfInput⟩] := rfl
      have ended : scan kind reversed [] = ofRun kind reversed ++ [⟨"", .endOfInput⟩] := rfl
      have nothing : [closing, ⟨"", .endOfInput⟩].filter isContent = [closing] := rfl
      have none : [(⟨"", .endOfInput⟩ : Token)].filter isContent = [] := rfl
      rw [closed, ended, List.filter_append, List.filter_append, nothing, none, List.append_nil]
  | cons c chars ih =>
      by_cases inRun : isRunChar c = true
      · rw [List.cons_append, scan, if_pos inRun, ih, scan, if_pos inRun]
      · rw [List.cons_append, filter_scan_delimiter inRun, ih, filter_scan_delimiter inRun]
        simp only [List.append_assoc]

/-- Whatever text stands for the value, it is scanned as on its own. -/
theorem content_definition {name : String} (isRun : IsRun name) (value : String) :
    content (definitionText name value) =
      opening :: ⟨"define", .operatorName⟩ :: ⟨name, .argument⟩ :: (content value ++ [closing]) := by
  have isDefine : IsRun "define" := ⟨by decide, List.all_eq_true.mp (by decide)⟩
  have letters : (definitionText name value).toList =
      '(' :: ("define".toList ++ ' ' :: (name.toList ++ ' ' :: (value.toList ++ [')']))) := by
    simp only [definitionText, String.toList_append, List.append_assoc]
    rfl
  have opened : ∀ rest, scan .argument [] ('(' :: rest) = opening :: scan .operatorName [] rest :=
    fun _ => rfl
  have spaced : ∀ rest, scan .argument [] (' ' :: rest) = ⟨" ", .space⟩ :: scan .argument [] rest :=
    fun _ => rfl
  rw [content, tokenize, letters, opened, scan_lexeme isDefine (.inr ⟨_, .inl rfl⟩), spaced,
    scan_lexeme isRun (.inr ⟨_, .inl rfl⟩), spaced, List.filter_cons_of_pos rfl,
    List.filter_cons_of_pos rfl, List.filter_cons_of_neg (by decide), List.filter_cons_of_pos rfl,
    List.filter_cons_of_neg (by decide), filter_scan_closing]
  rfl

end Token

/-- A definition is read as that of a constant with the value form in place. -/
theorem readForm_definition {name value : String} (isRun : IsRun name) {phrase : Phrase}
    (spelled : content value = phrase.tokens) :
    ∃ frame, Node.readForm (definitionText name value) =
      .ok (constantForm name (phrase.node 1) 1 1 frame) := by
  have tokens : content (definitionText name value) =
      (Phrase.form [.operator "define", .argument name, phrase]).tokens := by
    rw [Token.content_definition isRun, spelled]
    simp [Phrase.tokens, Phrase.tokensOfAll]
  exact ⟨_, Node.readForm_form tokens⟩

/-! ### Value forms without definitions -/

namespace Phrase

mutual
theorem callees_node (depth other : Nat) (phrase : Phrase) :
    (phrase.node depth).callees = (phrase.node other).callees := by
  cases phrase with
  | form items => exact calleesOfAll_nodes (depth + 1) (other + 1) items
  | _ => rfl

theorem calleesOfAll_nodes (depth other : Nat) (items : List Phrase) :
    Node.calleesOfAll (nodes depth items) = Node.calleesOfAll (nodes other items) := by
  cases items with
  | nil => rfl
  | cons item rest =>
      rw [nodes, nodes, Node.calleesOfAll, Node.calleesOfAll, callees_node depth other item,
        calleesOfAll_nodes depth other rest]
end

end Phrase

namespace Node

theorem isDefine_of_callees {head : Form} {operands : List Form} {frame : Frame}
    (free : "define" ∉ calleesOfAll (head :: operands)) :
    isDefine (.expression (head :: operands) frame : Form) = false := by
  cases head with
  | operator name depth =>
      refine isDefine_operator fun same => free ?_
      rw [same]
      exact List.mem_cons_self
  | _ => rfl

mutual
theorem targets_of_callees (node : Form) (free : "define" ∉ node.callees) : node.targets = [] := by
  cases node with
  | expression children frame =>
      have nothing : defined (.expression children frame) = [] := by
        rcases children with _ | ⟨head, _ | ⟨target, rest⟩⟩
        · rfl
        · rfl
        · rw [defined, isDefine_of_callees free]
          rfl
      rw [targets, nothing, targetsOfAll_of_callees children free, List.nil_append]
  | _ => rfl

theorem targetsOfAll_of_callees (nodes : List Form) (free : "define" ∉ calleesOfAll nodes) :
    targetsOfAll nodes = [] := by
  cases nodes with
  | nil => rfl
  | cons node rest =>
      rw [targetsOfAll, targets_of_callees node fun member => free (List.mem_append_left _ member),
        targetsOfAll_of_callees rest fun member => free (List.mem_append_right _ member)]
      rfl
end

end Node

section Placement

variable {call : CallModel} {home : Nat}

mutual
/-- A phrase without definitions evaluates alike wherever it stands, under one
reading or both. -/
theorem eval_node_eq (both both' : Bool) (level depth depth' : Nat) (phrase : Phrase)
    (free : "define" ∉ (phrase.node depth).callees) :
    (phrase.node depth).eval call home both level =
      (phrase.node depth').eval call home both' level := by
  cases phrase with
  | operator name => rw [Phrase.node, Phrase.node, Node.eval, Node.eval]
  | argument text => rw [Phrase.node, Phrase.node, Node.eval, Node.eval]
  | form items =>
      exact eval_form_eq both both' level (depth + 1) (depth' + 1) ⟨depth, 1, none⟩
        ⟨depth', 1, none⟩ items free

theorem eval_form_eq (both both' : Bool) (level depth depth' : Nat) (frame frame' : Frame)
    (items : List Phrase) (free : "define" ∉ Node.calleesOfAll (Phrase.nodes depth items)) :
    Node.eval call home both level (.expression (Phrase.nodes depth items) frame) =
      Node.eval call home both' level (.expression (Phrase.nodes depth' items) frame') := by
  cases items with
  | nil => rw [Phrase.nodes, Phrase.nodes, Node.eval, Node.eval]
  | cons head operands =>
      have free' := free
      rw [Phrase.calleesOfAll_nodes depth depth'] at free'
      have freeHead : "define" ∉ (head.node depth).callees := fun member =>
        free (List.mem_append_left _ member)
      have freeOperands : "define" ∉ Node.calleesOfAll (Phrase.nodes depth operands) :=
        fun member => free (List.mem_append_right _ member)
      have shown : ∀ value, applicable (head.node depth) value =
          applicable (head.node depth') value := by
        intro value
        rw [applicable, applicable, Phrase.render_node, Phrase.render_node]
      rw [Phrase.nodes, Phrase.nodes, Node.eval, Node.eval]
      simp only [Node.isDefine_of_callees free, Node.isDefine_of_callees free', Bool.false_eq_true,
        if_false, shown, eval_node_eq both both' (level + 1) depth depth' head freeHead,
        evalAll_nodes_eq both both' (level + 2) depth depth' operands freeOperands]

theorem evalAll_nodes_eq (both both' : Bool) (level depth depth' : Nat) (items : List Phrase)
    (free : "define" ∉ Node.calleesOfAll (Phrase.nodes depth items)) :
    evalAll call home both level (Phrase.nodes depth items) =
      evalAll call home both' level (Phrase.nodes depth' items) := by
  cases items with
  | nil => rfl
  | cons item rest =>
      have freeItem : "define" ∉ (item.node depth).callees := fun member =>
        free (List.mem_append_left _ member)
      have freeRest : "define" ∉ Node.calleesOfAll (Phrase.nodes depth rest) := fun member =>
        free (List.mem_append_right _ member)
      rw [Phrase.nodes, Phrase.nodes, evalAll, evalAll,
        eval_node_eq both both' level depth depth' item freeItem,
        evalAll_nodes_eq both both' level depth depth' rest freeRest]
end

end Placement

/-! ### Constants -/

/-- Value forms that a constant gets its value from: numbers, and expressions
without definitions that leave the name alone. -/
inductive Settles (table : Table) (name : String) : Form → Prop where
  | number (number : Number) (depth : Int) : Settles table name (.literal (.ofNumber number) depth)
  | expression {children : List Form} {frame : Frame}
      (free : "define" ∉ Node.callees (.expression children frame))
      (spares : table.Spares (.expression children frame) name) :
      Settles table name (.expression children frame)

section Constants

variable {interpreter : Interpreter} {limit : Nat} {name value : String} {state after : State}

theorem Node.readForm_bare {source text : String} (bare : content source = [⟨text, .argument⟩]) :
    Node.readForm source = Node.bareLiteral text := by
  have nonempty : source ≠ "" := by
    rintro rfl
    cases bare
  rw [Node.readForm, if_neg nonempty, Node.read_bare bare]

theorem Node.of_readForm {source : String} {form : Form}
    (read : Node.readForm source = .ok form) :
    (∃ text, content source = [⟨text, .argument⟩] ∧ bareLiteral text = .ok form) ∨
      ∃ items, content source = (Phrase.form items).tokens ∧ form = Phrase.tree items := by
  rw [Node.readForm] at read
  split at read
  · cases read
  · rename_i nonempty
    rcases Node.of_read read with ⟨empty, _⟩ | bareOrForm
    · exact absurd empty nonempty
    · exact bareOrForm

theorem Value.toNumber_of_number? {value : Value} {number : Number}
    (isNumber : value.number? = some number) : value.toNumber = .ok number := by
  cases value with
  | bool truth => exact congrArg Except.ok (Option.some.inj isNumber)
  | int n => exact congrArg Except.ok (Option.some.inj isNumber)
  | double x => exact congrArg Except.ok (Option.some.inj isNumber)
  | _ => cases isNumber

/-- A number on its own evaluates to itself: no number is a key. -/
theorem evaluate_number (sound : state.Sound interpreter.home) (number : Number) (depth : Int) :
    evaluate limit interpreter.home true (.literal (.ofNumber number) depth) state =
      .ok (.ofNumber number) state :=
  eval_number ((sound .numeric).named.resolve_number _ (Value.isNumber_ofNumber number))

/-- A word is evaluated to the number that it stands for. -/
theorem perform_evaluate_word (isRun : IsRun name) (symbol : Number.parse name = .ok none)
    {bound : Value} {number : Number}
    (stands : (state.table interpreter.home .numeric).resolve (.text name) = some bound)
    (denotes : bound.toNumber = .ok number) :
    interpreter.perform limit .evaluate name state = .ok (.value (.ofNumber number)) state := by
  have read : Node.readForm name = .ok (.literal (.text name) 0) := by
    rw [Node.readForm_bare (Phrase.content_word isRun), Node.bareLiteral, symbol]
    rfl
  have evaluated : evaluate limit interpreter.home true (.literal (.text name) 0) state =
      .ok (.ofNumber number) state := by
    rw [evaluate, eval_literal, stands, Option.getD_some, denotes]
  rw [Interpreter.perform_evaluate read, Eval.bind_ok evaluated]
  rfl

/-- The value form of a constant is evaluated twice, the second time with the name
bound to its first value; the numeric table is then as this evaluation left it. -/
theorem perform_define_constant {body : Form} {outer inner : Int} {frame : Frame} {reply : Reply}
    (read : Node.readForm value = .ok (constantForm name body outer inner frame))
    (defined : interpreter.perform limit .define value state = .ok reply after) :
    ∃ first once middle second twice,
      constantOf limit interpreter.home 0 body state = .ok first once ∧
      (∀ reading, middle.table interpreter.home reading =
        (once.withBinding interpreter.home .numeric name first).table interpreter.home reading) ∧
      constantOf limit interpreter.home 0 body middle = .ok second twice ∧
      after.table interpreter.home .numeric = twice.table interpreter.home .numeric := by
  obtain ⟨middle, numeric, symbolic⟩ := perform_constant (.inl rfl) read defined
  obtain ⟨first, once, ran, tables⟩ := enterDefinition_constant_ok numeric
  obtain ⟨second, twice, ranAgain, tablesAgain⟩ := enterDefinition_constant_ok symbolic
  refine ⟨first, once, middle, second, twice, ran, tables, ranAgain, ?_⟩
  rw [tablesAgain, State.withBinding, State.table_setTable_other _ _ (by decide)]

/-- A constant that is defined as a word is bound to the word as it is written. -/
theorem word_stands (isRun : IsRun name) {word : String}
    (bare : content value = [⟨word, .argument⟩]) {reply : Reply}
    (defined : interpreter.perform limit .define (definitionText name value) state =
      .ok reply after) :
    (after.table interpreter.home .numeric).resolve (.text name) = some (.text word) := by
  have spelled : content value = (Phrase.argument word).tokens := bare
  obtain ⟨frame, read⟩ := readForm_definition isRun spelled
  obtain ⟨_, _, middle, _, _, first, tables, second, same⟩ := perform_define_constant read defined
  cases first
  cases second
  rw [same, tables, Table.resolve_eq_bind, State.get?_withBinding, if_pos rfl]
  rfl

/-- A constant that is defined by an expression is bound to the value of the
expression. -/
theorem value_stands (sound : state.Sound interpreter.home) (isRun : IsRun name)
    {items : List Phrase} (spelled : content value = (Phrase.form items).tokens)
    (free : "define" ∉ (Phrase.tree items).callees)
    (spares : (state.table interpreter.home .numeric).Spares (Phrase.tree items) name)
    {result : Value} {evaluated : State} (isNumber : result.IsNumber)
    (ran : evaluate limit interpreter.home true (Phrase.tree items) state = .ok result evaluated)
    {reply : Reply}
    (defined : interpreter.perform limit .define (definitionText name value) state =
      .ok reply after) :
    (after.table interpreter.home .numeric).resolve (.text name) = some result := by
  obtain ⟨frame, read⟩ := readForm_definition isRun spelled
  obtain ⟨first, once, middle, second, twice, ranFirst, tables, ranSecond, same⟩ :=
    perform_define_constant read defined
  -- the value form stands one level deeper in the definition than on its own
  have placed : evaluate limit interpreter.home true (Phrase.tree items) =
      constantOf limit interpreter.home 0 ((Phrase.form items).node 1) :=
    eval_form_eq true false 0 1 2 _ _ items free
  obtain ⟨rfl, rfl⟩ : result = first ∧ evaluated = once := by
    rw [placed, ranFirst] at ran
    cases ran
    exact ⟨rfl, rfl⟩
  have written : ((Phrase.form items).node 1).WrittenAt false :=
    ⟨rfl, Phrase.writtenRow_nodes 2 items (Phrase.scannedRow_of_content spelled)⟩
  have callees : ((Phrase.form items).node 1).callees = (Phrase.tree items).callees :=
    Phrase.calleesOfAll_nodes 2 1 items
  have nothing : ((Phrase.form items).node 1).targets = [] :=
    Node.targets_of_callees _ (callees ▸ free)
  have evaluates : ∀ standing, Maintains
      (Sparing interpreter.home ((state.table interpreter.home .numeric).Calls (Phrase.tree items))
        name standing) _ (constantOf limit interpreter.home 0 ((Phrase.form items).node 1)) :=
    fun standing => evaluate_spares limit written (by simp [nothing])
      fun callee member => .here (callees ▸ member)
  have kept := evaluates _ state (.of_sound sound spares)
  rw [ranFirst] at kept
  have bound := (kept.2.rebind kept.1).of_tables tables
  have keptAgain := evaluates _ middle bound
  rw [ranSecond] at keptAgain
  rw [same, Table.resolve_eq_bind, keptAgain.2.stands]
  exact isNumber.bound?_eq

end Constants

/-- A constant that is defined by a number, or by an expression without definitions
that leaves the name alone, evaluates to the value of its value form. One that is
defined as a word that spells no number evaluates to `nan`. -/
theorem constant_reads_back {interpreter : Interpreter} {state once after : State}
    (reached : interpreter.Reached state) {limit : Nat} {name value : String} {form : Form}
    {result : Value} {number : Number} (isRun : IsRun name)
    (symbol : Number.parse name = .ok none) (read : Node.readForm value = .ok form)
    (evaluated : interpreter.perform limit .evaluate value state = .ok (.value result) once)
    (isNumber : result.number? = some number)
    (defined : interpreter.perform limit .define (definitionText name value) state =
      .ok .done after) :
    (Settles (state.table interpreter.home .numeric) name form →
      interpreter.perform limit .evaluate name after = .ok (.value (.ofNumber number)) after) ∧
    ∀ word depth, form = .literal (.text word) depth →
      interpreter.perform limit .evaluate name after = .ok (.value (.double .nan)) after := by
  have ran : evaluate limit interpreter.home true form state = .ok result once := by
    rw [Interpreter.perform_evaluate read] at evaluated
    obtain ⟨_, _, ran, done⟩ := Eval.of_bind_ok evaluated
    cases done
    exact ran
  rcases Node.of_readForm read with ⟨text, bare, literal⟩ | ⟨items, spelled, rfl⟩
  · have stands := word_stands isRun bare defined
    obtain ⟨parsed, parses, rest⟩ := of_except_bind_ok literal
    cases parsed with
    | none =>
        cases rest
        refine ⟨fun settles => ?_, fun word depth same => ?_⟩
        · generalize isText : (Node.literal (Value.text text) 0 : Form) = form at settles
          cases settles with
          | number number depth => cases number <;> cases isText
          | expression => cases isText
        · exact perform_evaluate_word isRun symbol stands (ofText_of_symbol parses)
    | some denoted =>
        cases rest
        refine ⟨fun _ => ?_, fun word depth same => by cases denoted <;> cases same⟩
        rw [evaluate_number reached.sound] at ran
        cases ran
        obtain rfl : denoted = number := by
          cases denoted <;> exact Option.some.inj isNumber
        exact perform_evaluate_word isRun symbol stands (ofText_of_parse parses)
  · refine ⟨fun settles => ?_, fun word depth same => by cases same⟩
    cases settles with
    | expression free spares =>
        have stands := value_stands reached.sound isRun spelled free spares
          (by rw [Value.IsNumber, isNumber]; rfl) ran defined
        exact perform_evaluate_word isRun symbol stands (Value.toNumber_of_number? isNumber)

def Value.int? : Value → Option Int
  | .int n => some n
  | _ => none

/-- The integer that a value form evaluates to, and the one that the constant then
evaluates to. -/
def Interpreter.readBack? (interpreter : Interpreter) (limit : Nat) (name value : String)
    (state : State) : Option (Int × Option Int) :=
  match interpreter.perform limit .evaluate value state,
    interpreter.perform limit .define (definitionText name value) state with
  | .ok (.value (.int n)) _, .ok .done after =>
    match interpreter.perform limit .evaluate name after with
    | .ok (.value other) _ => some (n, other.int?)
    | _ => none
  | _, _ => none

theorem Interpreter.of_readBack? {interpreter : Interpreter} {limit : Nat} {name value : String}
    {state : State} {n : Int} {found : Option Int}
    (runs : interpreter.readBack? limit name value state = some (n, found)) :
    ∃ once after last other,
      interpreter.perform limit .evaluate value state = .ok (.value (.int n)) once ∧
      interpreter.perform limit .define (definitionText name value) state = .ok .done after ∧
      interpreter.perform limit .evaluate name after = .ok (.value other) last ∧
      other.int? = found := by
  unfold Interpreter.readBack? at runs
  split at runs
  · rename_i m once after evaluated defined
    split at runs
    · rename_i other last again
      cases runs
      exact ⟨once, after, last, other, evaluated, defined, again, rfl⟩
    · cases runs
  · cases runs

/-- Two procedures, the second of which has `x` as its formal. -/
def namesakeSession : State :=
  (attempt (Interpreter.serve ⟨0, 10⟩ 50 (.load
    "(define (f y) (cond (else (* y y)))) (define (g x) (cond (else x)))")) {}).2

theorem constant_reads_back_square :
    Interpreter.Reached ⟨0, 10⟩ namesakeSession ∧
      ∃ form once after,
        Node.readForm "(f (+ 1 2))" = .ok form ∧
        Interpreter.perform ⟨0, 10⟩ 50 .evaluate "(f (+ 1 2))" namesakeSession =
          .ok (.value (.int 9)) once ∧
        Interpreter.perform ⟨0, 10⟩ 50 .define (definitionText "x" "(f (+ 1 2))") namesakeSession =
          .ok .done after ∧
        Settles (namesakeSession.table 0 .numeric) "x" form ∧
        Interpreter.perform ⟨0, 10⟩ 50 .evaluate "x" after = .ok (.value (.int 9)) after := by
  have reached : Interpreter.Reached ⟨0, 10⟩ namesakeSession := .serve 50 _ (.start rfl)
  have isRun : IsRun "x" := ⟨by decide, List.all_eq_true.mp (by decide)⟩
  have symbol : Number.parse "x" = .ok none := rfl
  have read : Node.readForm "(f (+ 1 2))" = .ok (.expression [.operator "f" 1,
      .expression [.operator "+" 2, .literal (.text "1") 2, .literal (.text "2") 2] ⟨1, 1, none⟩]
      ⟨0, 2, none⟩) := rfl
  have runs : Interpreter.readBack? ⟨0, 10⟩ 50 "x" "(f (+ 1 2))" namesakeSession =
      some (9, some 9) := by decide +kernel
  have settles : Settles (namesakeSession.table 0 .numeric) "x" (.expression [.operator "f" 1,
      .expression [.operator "+" 2, .literal (.text "1") 2, .literal (.text "2") 2] ⟨1, 1, none⟩]
      ⟨0, 2, none⟩) :=
    .expression (by decide) (Table.spares_of_closed ["f", "+", "else", "*"] (by decide +kernel)
      (by decide +kernel) (by decide +kernel))
  obtain ⟨once, after, _, _, evaluated, defined, _, _⟩ := Interpreter.of_readBack? runs
  exact ⟨reached, _, once, after, read, evaluated, defined, settles,
    (constant_reads_back reached isRun symbol read evaluated rfl defined).1 settles⟩

/-- Whether a constant evaluates to something else than its value form did. -/
def Interpreter.Misreads (interpreter : Interpreter) (limit : Nat) (name value : String)
    (state : State) : Prop :=
  ∃ n once after last other,
    interpreter.perform limit .evaluate value state = .ok (.value (.int n)) once ∧
    interpreter.perform limit .define (definitionText name value) state = .ok .done after ∧
    interpreter.perform limit .evaluate name after = .ok (.value other) last ∧ other ≠ .int n

theorem Interpreter.misreads_of_readBack? {interpreter : Interpreter} {limit : Nat}
    {name value : String} {state : State} {n : Int} {found : Option Int}
    (runs : interpreter.readBack? limit name value state = some (n, found))
    (differs : found ≠ some n) : interpreter.Misreads limit name value state := by
  obtain ⟨once, after, last, other, evaluated, defined, again, isFound⟩ := of_readBack? runs
  refine ⟨n, once, after, last, other, evaluated, defined, again, ?_⟩
  rintro rfl
  exact differs isFound.symm

def loaded (source : String) : State :=
  (attempt (Interpreter.serve ⟨0, 10⟩ 50 (.load source)) {}).2

/-- A constant that is defined as a word does not stand for what the word is bound
to. One whose value form binds the name, or holds the definition of a constant by
an expression, may get another value, since the form is evaluated twice. -/
theorem constants_can_misread :
    (∀ source, Interpreter.Reached ⟨0, 10⟩ (loaded source)) ∧
    Interpreter.Misreads ⟨0, 10⟩ 50 "a" "b" (loaded "(define b 5)") ∧
    Interpreter.Misreads ⟨0, 10⟩ 50 "x" "(f 3)" (loaded "(define (f x) (cond (else 7)))") ∧
    Interpreter.Misreads ⟨0, 10⟩ 50 "n" "(+ (f (define x (g 3))) x)"
      (loaded "(define (g x) (cond (else 7))) (define (f y) (cond (else 0)))") := by
  have word : Interpreter.readBack? ⟨0, 10⟩ 50 "a" "b" (loaded "(define b 5)") =
      some (5, none) := by decide +kernel
  have formal : Interpreter.readBack? ⟨0, 10⟩ 50 "x" "(f 3)"
      (loaded "(define (f x) (cond (else 7)))") = some (7, some 3) := by decide +kernel
  have nested : Interpreter.readBack? ⟨0, 10⟩ 50 "n" "(+ (f (define x (g 3))) x)"
      (loaded "(define (g x) (cond (else 7))) (define (f y) (cond (else 0)))") =
        some (3, some 7) := by decide +kernel
  exact ⟨fun _ => .serve 50 _ (.start rfl), Interpreter.misreads_of_readBack? word (by decide),
    Interpreter.misreads_of_readBack? formal (by decide),
    Interpreter.misreads_of_readBack? nested (by decide)⟩

end Stepper
