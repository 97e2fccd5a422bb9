import Stepper.Proofs.Effects

/-!
Trusted reads. Nothing restores the formals that a call binds, so a formal can
be trusted only until a call that can bind it. In a term whose reads are all
trusted, each leaf may be replaced by what it reads at the start.
-/

namespace Stepper

/-- The number that a leaf stands for in a state. -/
def State.read (state : State) (home : Nat) (leaf : Value) : Except Failure Number :=
  (((state.table home .numeric).resolve leaf).getD leaf).toNumber

/-- A name that is not bound anew reads as before. -/
theorem Changes.read_eq {home : Nat} {rebound : String → Prop} {before after : State}
    {name : String} (changes : Changes home rebound before after) (kept : ¬ rebound name) :
    after.read home (.text name) = before.read home (.text name) := by
  rw [State.read, State.read, ← State.binding, ← State.binding, changes.keeps name kept]

/-- Whether no name is read after a call that can bind it. -/
def Program.Orderly (program : Program) (actions : List (Action String)) : Prop :=
  actions.Pairwise fun earlier later =>
    ∀ callee name, earlier = .call callee → later = .read name → ¬ program.Rebinds callee name

/-- It is enough that no formal is read after a call of a procedure. -/
theorem Program.orderly_of_reads_first {program : Program} {actions : List (Action String)}
    (first : actions.Pairwise fun earlier later =>
      ∀ procedure ∈ program, ∀ other ∈ program, ∀ formal ∈ other.formals,
        ¬ (earlier = .call procedure.name ∧ later = .read formal)) : program.Orderly actions := by
  refine first.imp ?_
  rintro earlier later apart callee name calls reads rebinds
  obtain ⟨procedure, has, named⟩ := rebinds.has
  obtain ⟨other, hasOther, formal⟩ := rebinds.isFormal
  exact apart procedure (mem_of_meaning has) other (mem_of_meaning hasOther) name formal
    ⟨named ▸ calls, reads⟩

/-- Names that no call binds can be read at any time. -/
theorem Program.orderly_of_outside {program : Program} {actions : List (Action String)}
    (outside : ∀ name, .read name ∈ actions → ¬ program.IsFormal name) :
    program.Orderly actions := by
  have all : actions.Pairwise fun _ _ => True := List.pairwise_of_forall fun _ _ => trivial
  refine all.imp_of_mem ?_
  rintro earlier later _ inside _ callee name rfl rfl rebinds
  exact outside name inside rebinds.isFormal

section

variable {program : Program} {call : CallModel} {home : Nat} {both : Bool} {state : State}

theorem eval_leaf {level : Nat} {leaf : Value} {depth : Int} :
    Node.eval call home both level (.literal leaf depth) state =
      match state.read home leaf with
      | .ok number => .ok (.ofNumber number) state
      | .error failure => .error failure state :=
  eval_literal

/-- A call depends on its operands only through what they give. -/
theorem eval_call_congr {name : String} {level : Nat} {depth depth' : Int}
    {operands operands' : List Form} {frame frame' : Frame} (notDefine : name ≠ "define")
    (same : evalAll call home both (level + 2) operands state =
      evalAll call home both (level + 2) operands' state) :
    Node.eval call home both level (.expression (.operator name depth :: operands) frame) state =
      Node.eval call home both level (.expression (.operator name depth' :: operands') frame')
        state := by
  rw [eval_application notDefine, eval_application notDefine]
  split
  · cases ran : evalAll call home both (level + 2) operands' state with
    | ok arguments middle => rw [Eval.bind_ok ran, Eval.bind_ok (same.trans ran)]
    | error failure middle => rw [Eval.bind_error ran, Eval.bind_error (same.trans ran)]
  · rfl

theorem evaluate_tree {limit : Nat} {name : String} (operands : List (Term String))
    (notDefine : name ≠ "define") :
    evaluate limit home both (Phrase.tree (.operator name :: Term.phrases operands)) state =
      Node.eval (callModel limit) home both 0 (((Term.call name operands).map .text).node 0)
        state := by
  rw [Phrase.tree, Phrase.nodes, Phrase.node, Term.nodes_phrases, evaluate, Term.map, Term.node]
  exact eval_call_congr notDefine rfl

/-- What a leaf reads can stand for it, in every state that keeps its binding. -/
def Replaces (program : Program) (home : Nat) (state : State) (name : String) (leaf : Value) : Prop :=
  ∀ later, Changes home program.IsFormal state later →
    later.binding home name = state.binding home name →
    later.read home (.text name) = later.read home leaf

theorem Replaces.after {name : String} {leaf : Value} {later : State}
    {actions : List (Action String)} (replaces : Replaces program home state name leaf)
    (changes : Changes home (program.Touches actions) state later)
    (kept : ¬ program.Touches actions name) : Replaces program home later name leaf := by
  have wide : Changes home program.IsFormal state later :=
    changes.mono Program.touches_isFormal
  intro last more same
  exact replaces last (wide.trans more) (same.trans (changes.keeps name kept))

theorem Program.Orderly.not_touches {earlier later : List (Action String)} {name : String}
    (orderly : program.Orderly (earlier ++ later)) (reads : .read name ∈ later) :
    ¬ program.Touches earlier name := by
  rintro ⟨callee, calls, rebinds⟩
  exact (List.pairwise_append.mp orderly).2.2 _ calls _ reads callee name rfl rfl rebinds

mutual
theorem eval_replaced (framed : Framed program home call) {leaf : String → Value}
    (term : Term String) (level depth : Nat) {state : State}
    (plain : .call "define" ∉ term.actions) (orderly : program.Orderly term.actions)
    (governs : program.Governs home state)
    (replaces : ∀ name, .read name ∈ term.actions → Replaces program home state name (leaf name)) :
    Node.eval call home both level ((term.map .text).node depth) state =
      Node.eval call home both level ((term.map leaf).node depth) state := by
  cases term with
  | leaf name =>
      rw [Term.map, Term.map, Term.node, Term.node, eval_leaf, eval_leaf,
        replaces name (List.mem_singleton.mpr rfl) state (.refl state) rfl]
  | call name operands =>
      simp only [Term.actions, List.mem_append, List.mem_singleton, Action.call.injEq,
        not_or] at plain
      rw [Term.map, Term.map, Term.node, Term.node]
      refine eval_call_congr (Ne.symm plain.2) ?_
      exact evalAll_replaced framed operands (level + 2) (depth + 1) plain.1
        (List.pairwise_append.mp orderly).1 governs
        fun name reads => replaces name (List.mem_append_left _ reads)

theorem evalAll_replaced (framed : Framed program home call) {leaf : String → Value}
    (operands : List (Term String)) (level depth : Nat) {state : State}
    (plain : .call "define" ∉ Term.actionsOfAll operands)
    (orderly : program.Orderly (Term.actionsOfAll operands)) (governs : program.Governs home state)
    (replaces : ∀ name, .read name ∈ Term.actionsOfAll operands →
      Replaces program home state name (leaf name)) :
    evalAll call home both level (Term.nodes depth (Term.mapAll .text operands)) state =
      evalAll call home both level (Term.nodes depth (Term.mapAll leaf operands)) state := by
  cases operands with
  | nil => rfl
  | cons operand rest =>
      simp only [Term.actionsOfAll, List.mem_append, not_or] at plain
      have split := List.pairwise_append.mp orderly
      have first := eval_replaced framed operand level depth plain.1 split.1 governs
        fun name reads => replaces name (List.mem_append_left _ reads)
      rw [Term.mapAll, Term.mapAll, Term.nodes, Term.nodes, evalAll_cons, evalAll_cons]
      cases ran : Node.eval call home both level ((operand.map .text).node depth) state with
      | error failure middle => rw [Eval.bind_error ran, Eval.bind_error (first.symm.trans ran)]
      | ok value middle =>
          obtain ⟨_, changes⟩ := eval_text_changes framed operand plain.1 governs ran
          have more := evalAll_replaced framed rest level depth plain.2 split.2.1
            (governs.after changes)
            fun name reads => (replaces name (List.mem_append_right _ reads)).after changes
              (orderly.not_touches reads)
          rw [Eval.bind_ok ran, Eval.bind_ok (first.symm.trans ran)]
          simp only [bind, EStateM.bind, more]
end

end

end Stepper
