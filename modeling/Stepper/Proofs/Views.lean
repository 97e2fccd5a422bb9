import Stepper.Proofs.Reachable

/-!
What a view evaluates and what it shows. A view evaluates the outermost
expressions that its level cuts, from left to right, and is the phrase of the
tree with each of them replaced by the word for its value.
-/

namespace Stepper

theorem Phrase.writtenAt_tree {items : List Phrase} (scanned : ScannedRow true items) :
    (tree items).WrittenAt false :=
  ⟨rfl, writtenRow_nodes 1 items scanned⟩

namespace Node

theorem exists_items_of_read {source : String} {children : List Form} {frame : Frame}
    (read : Node.read source = .ok (.expression children frame)) :
    ∃ items, Phrase.ScannedRow true items ∧ .expression children frame = Phrase.tree items := by
  rcases of_read read with ⟨_, blank⟩ | ⟨_, _, literal⟩ | ⟨items, spelled, root⟩
  · cases blank
  · rcases of_bareLiteral literal with root | ⟨_, root⟩ <;> cases root
  · exact ⟨items, Phrase.scannedRow_of_content spelled, root⟩

theorem exists_items_of_readForm {source : String} {children : List Form} {frame : Frame}
    (read : readForm source = .ok (.expression children frame)) :
    ∃ items, Phrase.ScannedRow true items ∧ .expression children frame = Phrase.tree items := by
  rw [readForm] at read
  split at read
  · cases read
  · exact exists_items_of_read read

mutual
/-- The expressions that a view at `level` replaces by their values, in order. -/
def cuts (level : Number) : Form → List Form
  | .expression children frame =>
    if level.atMost (frame.depth + 1) then [.expression children frame]
    else cutsOfAll level children
  | _ => []

def cutsOfAll (level : Number) : List Form → List Form
  | [] => []
  | node :: rest => node.cuts level ++ cutsOfAll level rest
end

mutual
/-- Whether a phrase is the view of a tree at `level`, where `shows` tells which
word may stand for an expression that is cut. -/
def ViewAs (level : Number) (shows : Form → String → Prop) : Form → Phrase → Prop
  | .blank, _ => False
  | .literal value _, view => ∃ text, value = .text text ∧ view = .argument text
  | .operator name _, view => view = .operator name
  | .expression children frame, view =>
    if level.atMost (frame.depth + 1) then
      ∃ text, shows (.expression children frame) text ∧ view = .argument text
    else ∃ row, ViewRow level shows children row ∧ view = .form row

def ViewRow (level : Number) (shows : Form → String → Prop) : List Form → List Phrase → Prop
  | [], row => row = []
  | node :: rest, row =>
    ∃ view others, node.ViewAs level shows view ∧ ViewRow level shows rest others ∧
      row = view :: others
end

mutual
theorem WrittenAt.of_cuts {level : Number} {first : Bool} (node : Form)
    (written : node.WrittenAt first) : ∀ cut ∈ node.cuts level, cut.WrittenAt false := by
  cases node with
  | expression children frame =>
      rw [cuts]
      split
      · intro cut member
        rw [List.mem_singleton.mp member]
        exact written
      · exact WrittenRow.of_cuts children written.2
  | _ => simp [cuts]

theorem WrittenRow.of_cuts {level : Number} {first : Bool} (nodes : List Form)
    (written : WrittenRow first nodes) : ∀ cut ∈ cutsOfAll level nodes, cut.WrittenAt false := by
  cases nodes with
  | nil => simp [cutsOfAll]
  | cons node rest =>
      rw [cutsOfAll, List.forall_mem_append]
      exact ⟨WrittenAt.of_cuts node written.1, WrittenRow.of_cuts rest written.2⟩
end

mutual
/-- A view that cuts nothing is the text of the tree. -/
theorem ViewAs.render {level : Number} {shows : Form → String → Prop} (node : Form)
    {view : Phrase} (viewed : node.ViewAs level shows view) (whole : node.cuts level = []) :
    node.render = .ok view.text := by
  cases node with
  | blank => exact viewed.elim
  | literal value depth =>
      obtain ⟨text, rfl, rfl⟩ := viewed
      rfl
  | operator name depth =>
      cases viewed
      rfl
  | expression children frame =>
      rw [cuts] at whole
      rw [ViewAs] at viewed
      split at whole
      · cases whole
      · rename_i deep
        rw [if_neg deep] at viewed
        obtain ⟨row, viewedRow, rfl⟩ := viewed
        rw [Node.render, ViewRow.renderAll children viewedRow whole]
        rfl

theorem ViewRow.renderAll {level : Number} {shows : Form → String → Prop} (nodes : List Form)
    {row : List Phrase} (viewed : ViewRow level shows nodes row)
    (whole : cutsOfAll level nodes = []) : renderAll nodes = .ok (Phrase.texts row) := by
  cases nodes with
  | nil =>
      cases viewed
      rfl
  | cons node rest =>
      obtain ⟨view, others, here, more, rfl⟩ := viewed
      obtain ⟨wholeNode, wholeRest⟩ := List.append_eq_nil_iff.mp whole
      rw [Node.renderAll, ViewAs.render node here wholeNode,
        ViewRow.renderAll rest more wholeRest]
      rfl
end

end Node

/-- Evaluate a tree and write its value. -/
def writeValue (limit home : Nat) (node : Form) : Eval String := do
  let value ← evaluate limit home false node
  Eval.ofExcept value.format

/-- A run that writes the values of some trees in order. -/
inductive Shown (limit home : Nat) (shows : Form → String → Prop) :
    List Form → State → State → Prop where
  | nil {state : State} : Shown limit home shows [] state state
  | cons {node : Form} {rest : List Form} {text : String} {state middle after : State}
      (wrote : writeValue limit home node state = .ok text middle) (correct : shows node text)
      (later : Shown limit home shows rest middle after) :
      Shown limit home shows (node :: rest) state after

section Run

variable {limit home : Nat} {level : Number} {shows : Form → String → Prop}

theorem Shown.of_append {nodes others : List Form} {state after : State}
    (shown : Shown limit home shows (nodes ++ others) state after) :
    ∃ middle, Shown limit home shows nodes state middle ∧
      Shown limit home shows others middle after := by
  induction nodes generalizing state with
  | nil => exact ⟨state, .nil, shown⟩
  | cons node rest ih =>
      cases shown with
      | cons wrote correct later =>
          obtain ⟨middle, first, second⟩ := ih later
          exact ⟨middle, .cons wrote correct first, second⟩

mutual
/-- A view evaluates what it cuts and nothing else, and shows the rest as written. -/
theorem explain_view {first : Bool} (node : Form) (written : node.WrittenAt first)
    (compound : node.isLiteral = false) {state after : State}
    (shown : Shown limit home shows (node.cuts level) state after) :
    ∃ view, node.ViewAs level shows view ∧
      explain limit home level node state = .ok view.text after := by
  cases node with
  | blank => exact written.elim
  | literal value depth => cases compound
  | operator name depth =>
      cases shown
      exact ⟨.operator name, rfl, rfl⟩
  | expression children frame =>
      rw [Node.cuts] at shown
      rw [explain]
      by_cases cut : level.atMost (frame.depth + 1) = true
      · rw [if_pos cut] at shown ⊢
        cases shown with
        | cons wrote correct later =>
            cases later
            exact ⟨.argument _, by rw [Node.ViewAs, if_pos cut]; exact ⟨_, correct, rfl⟩, wrote⟩
      · rw [if_neg cut] at shown ⊢
        obtain ⟨row, viewed, ran⟩ := explainChildren_view children written.2 shown
        refine ⟨.form row, by rw [Node.ViewAs, if_neg cut]; exact ⟨row, viewed, rfl⟩, ?_⟩
        rw [Eval.bind_ok ran]
        rfl

theorem explainChildren_view {first : Bool} (children : List Form)
    (written : Node.WrittenRow first children) {state after : State}
    (shown : Shown limit home shows (Node.cutsOfAll level children) state after) :
    ∃ row, Node.ViewRow level shows children row ∧
      explainChildren limit home level children state = .ok (Phrase.texts row) after := by
  cases children with
  | nil =>
      cases shown
      exact ⟨[], rfl, rfl⟩
  | cons node rest =>
      obtain ⟨middle, here, later⟩ := shown.of_append
      obtain ⟨others, viewed, ran⟩ := explainChildren_view rest written.2 later
      cases node with
      | blank => exact written.1.elim
      | literal value depth =>
          cases here
          obtain ⟨text, rfl, _⟩ := written.1
          have item : (Eval.ofExcept (Value.text text).format : Eval String) state =
              .ok text state := rfl
          refine ⟨.argument text :: others, ⟨_, _, ⟨text, rfl, rfl⟩, viewed, rfl⟩, ?_⟩
          rw [explainChildren, Eval.bind_ok item, Eval.bind_ok ran]
          rfl
      | operator name depth =>
          cases here
          refine ⟨.operator name :: others, ⟨_, _, rfl, viewed, rfl⟩, ?_⟩
          rw [explainChildren, Eval.bind_ok ran]
          rfl
      | expression inner frame =>
          obtain ⟨view, viewedHere, ranHere⟩ :=
            explain_view (.expression inner frame) written.1 rfl here
          refine ⟨view :: others, ⟨_, _, viewedHere, viewed, rfl⟩, ?_⟩
          rw [explainChildren, Eval.bind_ok ranHere, Eval.bind_ok ran]
          rfl
end

end Run

end Stepper
