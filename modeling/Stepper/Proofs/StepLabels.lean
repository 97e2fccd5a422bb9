import Stepper.Proofs.Confinement
import Stepper.Proofs.Labels

/-!
The labels of a tree after a step. A step changes the arguments of a call in
their places. An argument that it evaluates becomes a literal with the depth of
the argument; one that it steps on becomes the tree that the text of that step
is read as, and this is labelled as a tree on its own, from depth 0.
-/

namespace Stepper

/-- Whether a step reduces an operand by a step of its own: it is no literal, and
the symbolic table binds its operator to something that is there. -/
def Table.stepsOn (symbolic : Table) (operand : Form) : Bool :=
  !operand.isLiteral &&
    ((symbolic.resolve (operatorKey operand)).map Value.isPresent).getD false

/-- What a step that succeeds leaves in the place of an operand. -/
inductive Node.LeavesFor : Form → Form → Prop where
  | literal (value : Value) (depth : Int) : LeavesFor (.literal value depth) (.literal value depth)
  /-- A value has the depth of the expression that was evaluated. -/
  | value (children : List Form) (frame : Frame) (value : Value) :
      LeavesFor (.expression children frame) (.literal value frame.depth)
  /-- A tree that was read keeps the labels of its own text. -/
  | tree (children : List Form) (frame : Frame) {root : Form} (outermost : root.depth? = some 0)
      (agree : root.DepthsAgree) : LeavesFor (.expression children frame) root

theorem Node.LeavesFor.depthsAgree {operand left : Form} (leaves : operand.LeavesFor left) :
    left.DepthsAgree := by
  cases leaves with
  | literal value depth => exact depthsAgree_literal value depth
  | value children frame value => exact depthsAgree_literal value frame.depth
  | tree children frame outermost agree => exact agree

theorem labels_of_reread {value : Value} (legible : value.Legible) {root : Form}
    (read : reread value = .ok root) : root.depth? = some 0 ∧ root.DepthsAgree := by
  obtain ⟨source, formatted, read⟩ := of_except_bind_ok read
  have nonempty := (legible.isPhrase formatted).readsBack.nonempty
  rcases Node.of_read read with ⟨empty, _⟩ | ⟨text, _, literal⟩ | ⟨items, spelled, rfl⟩
  · exact absurd empty nonempty
  · rcases Node.of_bareLiteral literal with rfl | ⟨number, rfl⟩
    · exact ⟨rfl, Node.depthsAgree_literal _ _⟩
    · exact ⟨rfl, Node.depthsAgree_literal _ _⟩
  · exact ⟨rfl, Phrase.depthsAgree_tree (Phrase.scannedRow_of_content spelled)⟩

section Arguments

variable {limit home : Nat} {state after : State}

theorem evaluate_keeps_symbolic {node : Form} {value : Value} (sound : state.Sound home)
    (written : node.WrittenAt false)
    (done : evaluate limit home false node state = .ok value after) :
    after.table home .symbolic = state.table home .symbolic := by
  have confined := evaluate_confined sound limit false (.inr written)
    (fun _ => List.mem_append_left node.targets) fun _ => List.mem_append_right _
  rw [attempt_ok done] at confined
  exact confined.symbolic rfl

/-- An operand that is not stepped on keeps its depth, and the symbolic table is
as it was. -/
theorem reduceArgument_leaves {node reduced : Form} (sound : state.Sound home)
    (written : node.WrittenAt false)
    (done : reduceArgument limit home none (expand limit home node) node state =
      ((reduced, none), after)) :
    node.LeavesFor reduced ∧
      if (state.table home .symbolic).stepsOn node then reduced.depth? = some 0
      else reduced.depth? = node.depth? ∧
        after.table home .symbolic = state.table home .symbolic := by
  cases node with
  | blank => exact written.elim
  | operator name depth => cases written.1
  | literal value depth =>
      cases done
      exact ⟨.literal value depth, rfl, rfl⟩
  | expression children frame =>
      have legible := (expand_keeps limit (.expression children frame) (.inr written) state sound).1
      have seen : (get : StateM State State) state = (state, state) := rfl
      rw [reduceArgument, stateM_bind seen] at done
      simp only [Table.stepsOn, Node.isLiteral, Bool.not_false, Bool.true_and]
      split at done
      · rename_i steps
        rw [if_pos steps]
        rcases stepped : expand limit home (.expression children frame) state with
          ⟨⟨left, failure | value⟩, middle⟩
        · rw [stateM_bind stepped] at done
          cases done
        · rw [stepped] at legible
          rw [stateM_bind stepped] at done
          cases read : reread value with
          | error failure =>
              have failed : (Except.ok value >>= reread : Except Failure Form) =
                .error failure := read
              simp only [failed] at done
              cases done
          | ok root =>
              have again : (Except.ok value >>= reread : Except Failure Form) = .ok root := read
              simp only [again] at done
              cases done
              obtain ⟨outermost, agree⟩ := labels_of_reread legible read
              exact ⟨.tree children frame outermost agree, outermost⟩
      · rename_i evaluates
        rw [if_neg evaluates]
        rcases tried : attempt (evaluate limit home false (.expression children frame)) state with
          ⟨failure | value, middle⟩
        · rw [stateM_bind tried] at done
          cases done
        · rw [stateM_bind tried] at done
          cases done
          exact ⟨.value children frame value, rfl,
            evaluate_keeps_symbolic sound written (of_attempt_ok tried)⟩

/-- The operands keep their depth exactly if none of them is stepped on. Up to the
first that is, the symbolic table does not change. -/
theorem reduceArguments_leaves {before nodes children : List Form} {depth : Int}
    (sound : state.Sound home) (written : Node.WrittenRow false nodes)
    (labelled : ∀ node ∈ nodes, node.depth? = some depth) (inner : depth ≠ 0)
    (done : reduceArguments limit home none before nodes state = ((children, none), after)) :
    ∃ reduced, children = before ++ reduced ∧ List.Forall₂ Node.LeavesFor nodes reduced ∧
      ((∀ child ∈ reduced, child.depth? = some depth) ↔
        ∀ node ∈ nodes, (state.table home .symbolic).stepsOn node = false) := by
  induction nodes generalizing before state with
  | nil =>
      rw [reduceArguments] at done
      cases done
      exact ⟨[], (List.append_nil _).symm, .nil, by simp⟩
  | cons node rest ih =>
      obtain ⟨reduced, middle, first, later⟩ := reduceArguments_cons done
      have kept := (reduceArgument_keeps limit (expand_keeps limit node (.inr written.1)) written.1
        state sound).2
      rw [first] at kept
      obtain ⟨leaves, labels⟩ := reduceArgument_leaves sound written.1 first
      obtain ⟨others, rfl, leavesRest, depths⟩ := ih kept written.2
        (fun other member => labelled other (List.mem_cons_of_mem _ member)) later
      refine ⟨reduced :: others, by simp, .cons leaves leavesRest, ?_⟩
      cases steps : (state.table home .symbolic).stepsOn node with
      | true =>
          rw [if_pos steps] at labels
          -- what a step gave was read from a text of its own, so it lies at depth zero
          have moved : ¬ reduced.depth? = some depth := by
            rw [labels]
            intro same
            exact inner (Option.some.inj same).symm
          simp [moved, steps]
      | false =>
          rw [if_neg (by simp [steps])] at labels
          rw [labels.2] at depths
          rw [List.forall_mem_cons, List.forall_mem_cons, depths, labels.1,
            labelled node List.mem_cons_self]
          simp [steps]

theorem leavesFor_literals {nodes : List Form} {literals : List (Value × Int)}
    (literal : literalArguments? nodes = some literals) (symbolic : Table) :
    List.Forall₂ Node.LeavesFor nodes nodes ∧ ∀ node ∈ nodes, symbolic.stepsOn node = false := by
  induction nodes generalizing literals with
  | nil => exact ⟨.nil, by simp⟩
  | cons node rest ih =>
      cases node with
      | literal value depth =>
          obtain ⟨others, found, rfl⟩ := Option.map_eq_some_iff.mp literal
          obtain ⟨leaves, steps⟩ := ih found
          exact ⟨.cons (.literal value depth) leaves, List.forall_mem_cons.mpr ⟨rfl, steps⟩⟩
      | _ => cases literal

/-- A step on a call changes the tree only if it reduces arguments. -/
theorem expand_call_node {head node : Form} {operands : List Form} {frame : Frame} {value : Value}
    (ran : expand limit home (.expression (head :: operands) frame) state =
      (⟨node, .ok value⟩, after)) :
    ((∃ literals, literalArguments? operands = some literals) ∧
        node = .expression (head :: operands) frame) ∨
      ∃ changed middle, node = .expression changed frame ∧
        reduceArguments limit home frame.anchor [head] operands state =
          ((changed, none), middle) := by
  rw [expand] at ran
  cases literal : literalArguments? operands with
  | some literals =>
      simp only [literal] at ran
      rcases tried : attempt (do
        let arguments ← actuals limit home literals
        expandCall limit home (operatorKey (.expression (head :: operands) frame)) (some head)
          arguments) state with ⟨result, last⟩
      rw [stateM_bind tried] at ran
      cases ran
      exact .inl ⟨⟨literals, rfl⟩, rfl⟩
  | none =>
      simp only [literal] at ran
      rcases reduced : reduceArguments limit home frame.anchor [head] operands state with
        ⟨⟨changed, failure⟩, middle⟩
      rw [stateM_bind reduced] at ran
      cases failure with
      | some failure => cases ran
      | none =>
          rcases tried : attempt (flattenNow home (.expression changed frame)) middle with
            ⟨result, last⟩
          simp only at ran
          rw [stateM_bind tried] at ran
          cases ran
          exact .inr ⟨changed, middle, rfl, rfl⟩

theorem expand_empty_node {node : Form} {frame : Frame} {value : Value}
    (ran : expand limit home (.expression [] frame) state = (⟨node, .ok value⟩, after)) :
    node = .expression [] frame := by
  rw [expand] at ran
  rcases tried : attempt (expandCall limit home (operatorKey (.expression [] frame)) none [])
    state with ⟨result, last⟩
  rw [stateM_bind tried] at ran
  cases ran
  rfl

end Arguments

/-- What a step leaves of an expression: its head, and arguments that are labelled
as they were or as trees of their own. -/
theorem depthsAgree_of_leaves {head : Form} {operands reduced : List Form} {frame : Frame}
    (agree : (Node.expression (head :: operands) frame).DepthsAgree)
    (leaves : List.Forall₂ Node.LeavesFor operands reduced) :
    (Node.expression (head :: reduced) frame).DepthsAgree ↔
      ∀ child ∈ reduced, child.depth? = some (frame.depth + 1) := by
  have inside : ∀ child ∈ reduced, child.DepthsAgree := by
    intro child member
    clear agree
    induction leaves with
    | nil => cases member
    | cons first _ ih =>
        rcases List.mem_cons.mp member with rfl | later
        · exact first.depthsAgree
        · exact ih later
  rw [Node.depthsAgree_expression_iff] at agree ⊢
  rw [List.forall_mem_cons]
  constructor
  · intro labelled child member
    exact (labelled.2 child member).1
  · intro labelled
    exact ⟨agree head List.mem_cons_self, fun child member =>
      ⟨labelled child member, inside child member⟩⟩

/-- After a step on an expression that was read, its head is as it was, and each
argument is labelled as it was or, if it was stepped on, as a tree of its own. So
the depths of the tree agree exactly if no argument is an expression whose operator
the symbolic table binds. -/
theorem step_keeps_depths_iff {interpreter : Interpreter} {state after : State}
    (reached : interpreter.Reached state) {source : String} {children : List Form} {frame : Frame}
    (read : Node.read source = .ok (.expression children frame)) {limit : Nat} {node : Form}
    {value : Value}
    (ran : expand limit interpreter.home (.expression children frame) state =
      (⟨node, .ok value⟩, after)) :
    ∃ changed, node = .expression changed frame ∧ changed.head? = children.head? ∧
      List.Forall₂ Node.LeavesFor children.tail changed.tail ∧
      (node.DepthsAgree ↔
        ∀ operand ∈ children.tail,
          (state.table interpreter.home .symbolic).stepsOn operand = false) := by
  obtain ⟨items, scanned, root⟩ := Node.exists_items_of_read read
  have agree : (Node.expression children frame : Form).DepthsAgree :=
    root ▸ Phrase.depthsAgree_tree scanned
  have written : (Node.expression children frame : Form).WrittenAt false :=
    root ▸ Phrase.writtenAt_tree scanned
  have outermost : frame.depth = 0 := by
    cases root
    rfl
  cases children with
  | nil =>
      obtain rfl := expand_empty_node ran
      exact ⟨[], rfl, rfl, .nil, by simp [agree]⟩
  | cons head operands =>
      rcases expand_call_node ran with ⟨⟨literals, literal⟩, rfl⟩ | ⟨changed, middle, rfl, reduced⟩
      · obtain ⟨leaves, steps⟩ :=
          leavesFor_literals literal (state.table interpreter.home .symbolic)
        exact ⟨head :: operands, rfl, rfl, leaves, iff_of_true agree steps⟩
      · rw [written.1] at reduced
        have labelled := (Node.depthsAgree_expression_iff.mp agree)
        obtain ⟨others, rfl, leaves, depths⟩ := reduceArguments_leaves reached.sound written.2.2
          (fun operand member => (labelled operand (List.mem_cons_of_mem _ member)).1)
          (by omega) reduced
        exact ⟨head :: others, rfl, rfl, leaves, (depthsAgree_of_leaves agree leaves).trans depths⟩

theorem Stepped.exists_ok {α : Type} {ran : Stepped α × State}
    (succeeds : ran.1.result.isOk = true) :
    ∃ node value after, ran = (⟨node, .ok value⟩, after) := by
  obtain ⟨⟨node, failure | value⟩, after⟩ := ran
  · cases succeeds
  · exact ⟨node, value, after, rfl⟩

/-- A procedure `f` under both readings. -/
def successorSession : State :=
  (attempt (Interpreter.serve ⟨0, 10⟩ 50 (.perform .define "(define (f x) (cond (else (+ x 1))))"))
    {}).2

/-- A step keeps the depths where it evaluates `(* 2 3)`, and does not where it
steps on `(f 1)`. -/
theorem step_keeps_depths_iff_successor :
    let product : Form := .expression [.operator "*" 2, .literal (.text "2") 2,
      .literal (.text "3") 2] ⟨1, 1, none⟩
    let call : Form := .expression [.operator "f" 2, .literal (.text "1") 2] ⟨1, 1, none⟩
    let evaluated : Form := .expression [.operator "+" 1, product] ⟨0, 2, none⟩
    let stepped : Form := .expression [.operator "+" 1, product, call] ⟨0, 2, none⟩
    Interpreter.Reached ⟨0, 10⟩ successorSession ∧
      Node.read "(+ (* 2 3))" = .ok evaluated ∧ Node.read "(+ (* 2 3) (f 1))" = .ok stepped ∧
      (∃ node value after, expand 50 0 evaluated successorSession = (⟨node, .ok value⟩, after) ∧
        node.DepthsAgree) ∧
      ∃ node value after, expand 50 0 stepped successorSession = (⟨node, .ok value⟩, after) ∧
        ¬ node.DepthsAgree := by
  intro product call evaluated stepped
  have reached : Interpreter.Reached ⟨0, 10⟩ successorSession := .serve 50 _ (.start rfl)
  have readEvaluated : Node.read "(+ (* 2 3))" = .ok evaluated := rfl
  have readStepped : Node.read "(+ (* 2 3) (f 1))" = .ok stepped := rfl
  have facts : (expand 50 0 evaluated successorSession).1.result.isOk = true ∧
      (expand 50 0 stepped successorSession).1.result.isOk = true ∧
      (successorSession.table 0 .symbolic).stepsOn product = false ∧
      (successorSession.table 0 .symbolic).stepsOn call = true := by
    decide +kernel
  obtain ⟨evaluates, steps, onProduct, onCall⟩ := facts
  obtain ⟨first, firstValue, firstAfter, ranEvaluated⟩ := Stepped.exists_ok evaluates
  obtain ⟨second, secondValue, secondAfter, ranStepped⟩ := Stepped.exists_ok steps
  obtain ⟨_, _, _, _, kept⟩ := step_keeps_depths_iff reached readEvaluated ranEvaluated
  obtain ⟨_, _, _, _, lost⟩ := step_keeps_depths_iff reached readStepped ranStepped
  refine ⟨reached, readEvaluated, readStepped,
    ⟨first, firstValue, firstAfter, ranEvaluated, kept.mpr (by simpa using onProduct)⟩,
    second, secondValue, secondAfter, ranStepped, fun agree => ?_⟩
  have absent := lost.mp agree call (by simp [call])
  rw [onCall] at absent
  cases absent

end Stepper
