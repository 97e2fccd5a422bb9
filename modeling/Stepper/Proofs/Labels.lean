import Stepper.Proofs.Peeling

/-!
The labels of trees. The depths that reading gives to nodes grow by one from each
expression to its children, and the height that it keeps at a root is the number
of levels of parentheses of that tree, whatever stands before it in the text.
-/

namespace Stepper

open Token (content)

namespace Node

variable {α : Type}

/-- The nesting at which a node was read. -/
def depth? : Node α → Option Int
  | .blank => none
  | .literal _ depth => some depth
  | .operator _ depth => some depth
  | .expression _ frame => some frame.depth

mutual
/-- The nodes of a tree, the tree itself first. -/
def parts : Node α → List (Node α)
  | .expression children frame => .expression children frame :: partsOfAll children
  | node => [node]

def partsOfAll : List (Node α) → List (Node α)
  | [] => []
  | node :: rest => node.parts ++ partsOfAll rest
end

mutual
/-- The levels of parentheses of a tree. -/
def nesting : Node α → Nat
  | .expression children _ => nestingOfAll children + 1
  | _ => 0

def nestingOfAll : List (Node α) → Nat
  | [] => 0
  | node :: rest => max node.nesting (nestingOfAll rest)
end

/-- Whether every child of an expression in a tree is labelled as one level
deeper than that expression. -/
def DepthsAgree (root : Node α) : Prop :=
  ∀ children frame, .expression children frame ∈ root.parts →
    ∀ child ∈ children, child.depth? = some (frame.depth + 1)

theorem mem_partsOfAll {part : Node α} {nodes : List (Node α)} :
    part ∈ partsOfAll nodes ↔ ∃ node ∈ nodes, part ∈ node.parts := by
  induction nodes with
  | nil => simp [partsOfAll]
  | cons node rest ih => simp [partsOfAll, ih]

theorem depthsAgree_expression_iff {children : List (Node α)} {frame : Frame} :
    (expression children frame).DepthsAgree ↔
      ∀ child ∈ children, child.depth? = some (frame.depth + 1) ∧ child.DepthsAgree := by
  constructor
  · intro agree child member
    refine ⟨agree children frame List.mem_cons_self child member, fun inner label inside => ?_⟩
    exact agree inner label (List.mem_cons_of_mem _ (mem_partsOfAll.mpr ⟨child, member, inside⟩))
  · intro agree inner label inside
    rcases List.mem_cons.mp inside with same | inside
    · cases same
      exact fun child member => (agree child member).1
    · obtain ⟨child, member, inside⟩ := mem_partsOfAll.mp inside
      exact (agree child member).2 inner label inside

theorem depthsAgree_literal (value : α) (depth : Int) : (literal value depth).DepthsAgree := by
  intro children frame inside
  simp [parts] at inside

end Node

namespace Phrase

variable {items : List Phrase}

theorem depth?_node (phrase : Phrase) (depth : Nat) :
    (phrase.node depth).depth? = some (depth : Int) := by
  cases phrase <;> rfl

theorem mem_nodes {depth : Nat} {child : Form} :
    child ∈ nodes depth items ↔ ∃ item ∈ items, child = item.node depth := by
  induction items with
  | nil => simp [nodes]
  | cons item rest ih => simp [nodes, ih]

mutual
theorem nesting_node (phrase : Phrase) (depth : Nat) :
    (phrase.node depth).nesting = phrase.height := by
  cases phrase with
  | form items => rw [node, Node.nesting, height, nestingOfAll_nodes items (depth + 1)]
  | _ => rfl

theorem nestingOfAll_nodes (items : List Phrase) (depth : Nat) :
    Node.nestingOfAll (nodes depth items) = heightOfAll items := by
  cases items with
  | nil => rfl
  | cons item rest =>
      rw [nodes, Node.nestingOfAll, heightOfAll, nesting_node item depth,
        nestingOfAll_nodes rest depth]
end

mutual
/-- The parts of a tree are trees of phrases that a scan finds. -/
theorem exists_phrase_of_part {first : Bool} (phrase : Phrase) (depth : Nat)
    (scanned : phrase.ScannedAt first) :
    ∀ part ∈ (phrase.node depth).parts,
      ∃ (inner : Phrase) (place : Bool) (level : Nat),
        inner.ScannedAt place ∧ part = inner.node level := by
  intro part inside
  cases phrase with
  | form items =>
      rcases List.mem_cons.mp inside with rfl | inside
      · exact ⟨form items, first, depth, scanned, rfl⟩
      · exact exists_phrase_of_parts items (depth + 1) scanned part inside
  | operator name =>
      obtain rfl := List.mem_singleton.mp inside
      exact ⟨operator name, first, depth, scanned, rfl⟩
  | argument text =>
      obtain rfl := List.mem_singleton.mp inside
      exact ⟨argument text, first, depth, scanned, rfl⟩

theorem exists_phrase_of_parts {first : Bool} (items : List Phrase) (depth : Nat)
    (scanned : ScannedRow first items) :
    ∀ part ∈ Node.partsOfAll (nodes depth items),
      ∃ (inner : Phrase) (place : Bool) (level : Nat),
        inner.ScannedAt place ∧ part = inner.node level := by
  intro part inside
  cases items with
  | nil => cases inside
  | cons item rest =>
      rcases List.mem_append.mp inside with here | later
      · exact exists_phrase_of_part item depth scanned.1 part here
      · exact exists_phrase_of_parts rest depth scanned.2 part later
end

/-- An expression inside a tree is the tree of a form. -/
theorem exists_form_of_part {first : Bool} {depth : Nat} (scanned : ScannedRow first items)
    {children : List Form} {frame : Frame}
    (inside : .expression children frame ∈ Node.partsOfAll (nodes depth items)) :
    ∃ (row : List Phrase) (level : Nat), ScannedRow true row ∧
      children = nodes (level + 1) row ∧ frame = { depth := level } := by
  obtain ⟨inner, place, level, found, same⟩ := exists_phrase_of_parts items depth scanned _ inside
  cases inner with
  | form row =>
      cases same
      exact ⟨row, level, found, rfl, rfl⟩
  | _ => cases same

theorem not_operator_of_scannedRow {depth : Nat} {child : Form} (scanned : ScannedRow false items)
    (member : child ∈ nodes depth items) (name : String) (level : Int) :
    child ≠ .operator name level := by
  induction items with
  | nil => cases member
  | cons item rest ih =>
      rcases List.mem_cons.mp member with rfl | later
      · intro same
        cases item with
        | operator other => cases scanned.1.1
        | _ => cases same
      · exact ih scanned.2 later

/-- A scan finds operators at the start of forms only. -/
theorem not_operator_of_tail {depth : Nat} {child : Form} (scanned : ScannedRow true items)
    (member : child ∈ (nodes depth items).tail) (name : String) (level : Int) :
    child ≠ .operator name level := by
  cases items with
  | nil => cases member
  | cons item rest => exact not_operator_of_scannedRow scanned.2 member name level

theorem depthsAgree_tree (scanned : ScannedRow true items) : (tree items).DepthsAgree := by
  intro children frame inside child member
  rcases List.mem_cons.mp inside with same | inside
  · cases same
    obtain ⟨item, _, rfl⟩ := mem_nodes.mp member
    exact depth?_node item 1
  · obtain ⟨row, level, _, rfl, rfl⟩ := exists_form_of_part scanned inside
    obtain ⟨item, _, rfl⟩ := mem_nodes.mp member
    exact depth?_node item (level + 1)

/-- The deepest expression of a tree lies one level above its height. -/
theorem isGreatest_depth (items : List Phrase) :
    IsGreatest {depth | depth ∈ (tree items).expressionDepths}
      (((form items).height : Int) - 1) := by
  have same : (tree items).expressionDepths = ((form items).node 0).expressionDepths := rfl
  have positive : 0 < (form items).height := Nat.succ_pos _
  constructor
  · have deepest := exists_depth (form items) 0 (k := (form items).height - 1) (by omega)
    rw [Set.mem_ofPred_eq, same]
    convert deepest using 1
    omega
  · intro depth member
    have bounds := depth_bounds (form items) 0 depth (same ▸ member)
    omega

end Phrase

/-- The expressions that a text is read as are the trees of forms. -/
theorem Node.exists_items_of_readAll {source : String} {children : List Form} {frame : Frame}
    (member : .expression children frame ∈ (readAll source).1) :
    ∃ items, Phrase.ScannedRow true items ∧ .expression children frame = Phrase.tree items := by
  rcases of_readAll member with ⟨_, _, literal⟩ | isTree
  · rcases of_bareLiteral literal with same | ⟨_, same⟩ <;> cases same
  · exact isTree

/-- Every expression that is read from a text, be it that the reading fails later,
stands at depth 0. The children of an expression in it stand one level deeper than
that expression, operators only as first children. Its height is its number of
levels of parentheses, one more than the largest depth of an expression in it;
the expressions inside keep none. -/
theorem trees_are_labelled_by_nesting {source : String} {children : List Form} {frame : Frame}
    (member : .expression children frame ∈ (Node.readAll source).1) :
    let root : Form := .expression children frame
    frame.depth = 0 ∧ root.DepthsAgree ∧
      (∀ inner label, .expression inner label ∈ Node.partsOfAll children → label.height = 1) ∧
      (∀ inner label, .expression inner label ∈ root.parts →
        ∀ child ∈ inner.tail, ∀ name depth, child ≠ .operator name depth) ∧
      frame.height = root.nesting ∧
      IsGreatest {depth | depth ∈ root.expressionDepths} (frame.height - 1) := by
  obtain ⟨items, scanned, same⟩ := Node.exists_items_of_readAll member
  cases same
  refine ⟨rfl, Phrase.depthsAgree_tree scanned, ?_, ?_, ?_, Phrase.isGreatest_depth items⟩
  · intro inner label inside
    obtain ⟨_, _, _, _, rfl⟩ := Phrase.exists_form_of_part scanned inside
    rfl
  · intro inner label inside child later
    rcases List.mem_cons.mp inside with same | inside
    · cases same
      exact Phrase.not_operator_of_tail scanned later
    · obtain ⟨row, level, found, rfl, _⟩ := Phrase.exists_form_of_part scanned inside
      exact Phrase.not_operator_of_tail found later
  · exact congrArg Int.ofNat (Phrase.nesting_node (.form items) 0).symm

/-- A nested form, a less nested one and a parenthesis that closes nothing. -/
theorem trees_are_labelled_by_nesting_later :
    ∃ first second : Form,
      Node.readAll "(f (g (h 1))) ((k) 2) )" =
        ([first, second], some (.malformed (.unmatchedClose "(f (g (h 1))) ((k) 2) )"))) ∧
      first.height? = some 3 ∧ second.height? = some 2 ∧ second.DepthsAgree ∧
      2 = second.nesting ∧ IsGreatest {depth | depth ∈ second.expressionDepths} 1 := by
  have read : Node.readAll "(f (g (h 1))) ((k) 2) )" =
      ([.expression [.operator "f" 1, .expression [.operator "g" 2,
          .expression [.operator "h" 3, .literal (.text "1") 3] ⟨2, 1, none⟩] ⟨1, 1, none⟩]
          ⟨0, 3, none⟩,
        .expression [.expression [.operator "k" 2] ⟨1, 1, none⟩, .literal (.text "2") 1]
          ⟨0, 2, none⟩],
        some (.malformed (.unmatchedClose "(f (g (h 1))) ((k) 2) )"))) := rfl
  have member : .expression [.expression [.operator "k" 2] ⟨1, 1, none⟩, .literal (.text "2") 1]
      ⟨0, 2, none⟩ ∈ (Node.readAll "(f (g (h 1))) ((k) 2) )").1 := by
    rw [read]
    exact List.mem_cons_of_mem _ List.mem_cons_self
  obtain ⟨_, agree, _, _, _, greatest⟩ := trees_are_labelled_by_nesting member
  exact ⟨_, _, read, rfl, rfl, agree, rfl, greatest⟩

end Stepper
