import Stepper.Proofs.Phrase
import Stepper.Proofs.State

/-!
Programs: procedures that are given by the clauses of a `cond`, in the syntax
of terms. A term says in which order its evaluation reads leaves and calls
names; a program says what each name stands for after its definitions.
-/

namespace Stepper

/-- A leaf, or the call of a name on operands. -/
inductive Term (α : Type) where
  | leaf (a : α)
  | call (name : String) (operands : List (Term α))

/-- What the evaluation of a term does. -/
inductive Action (α : Type) where
  | read (a : α)
  | call (name : String)
deriving DecidableEq

/-- The word that an action is about. -/
def Action.word : Action String → String
  | .read text => text
  | .call name => name

namespace Term

variable {α β : Type}

@[elab_as_elim, induction_eliminator]
theorem induction {motive : Term α → Prop} (leaf : ∀ a, motive (.leaf a))
    (call : ∀ name operands, (∀ operand ∈ operands, motive operand) →
      motive (.call name operands)) (term : Term α) : motive term := by
  match term with
  | .leaf a => exact leaf a
  | .call name operands =>
      exact call name operands fun operand member => induction leaf call operand
termination_by sizeOf term
decreasing_by
  have smaller := List.sizeOf_lt_of_mem member
  simp only [Term.call.sizeOf_spec]
  omega

mutual
def map (f : α → β) : Term α → Term β
  | .leaf a => .leaf (f a)
  | .call name operands => .call name (mapAll f operands)

def mapAll (f : α → β) : List (Term α) → List (Term β)
  | [] => []
  | operand :: rest => operand.map f :: mapAll f rest
end

mutual
/-- The actions of a term in the order of its evaluation. -/
def actions : Term α → List (Action α)
  | .leaf a => [.read a]
  | .call name operands => actionsOfAll operands ++ [.call name]

def actionsOfAll : List (Term α) → List (Action α)
  | [] => []
  | operand :: rest => operand.actions ++ actionsOfAll rest
end

mutual
/-- The tree of a term that stands `depth` levels deep. -/
def node (depth : Nat) : Term Value → Form
  | .leaf value => .literal value depth
  | .call name operands =>
    .expression (.operator name (depth + 1 : Nat) :: nodes (depth + 1) operands) { depth }

def nodes (depth : Nat) : List (Term Value) → List Form
  | [] => []
  | operand :: rest => operand.node depth :: nodes depth rest
end

mutual
def phrase : Term String → Phrase
  | .leaf text => .argument text
  | .call name operands => .form (.operator name :: phrases operands)

def phrases : List (Term String) → List Phrase
  | [] => []
  | operand :: rest => operand.phrase :: phrases rest
end

theorem mapAll_eq_map (f : α → β) (operands : List (Term α)) :
    mapAll f operands = operands.map fun operand => operand.map f := by
  induction operands with
  | nil => rfl
  | cons operand rest ih => rw [mapAll, ih, List.map_cons]

theorem mem_actionsOfAll {action : Action α} {operands : List (Term α)} :
    action ∈ actionsOfAll operands ↔ ∃ operand ∈ operands, action ∈ operand.actions := by
  induction operands with
  | nil => simp [actionsOfAll]
  | cons operand rest ih => simp [actionsOfAll, ih]

/-- The name that a term calls last. -/
def head? : Term α → Option String
  | .leaf _ => none
  | .call name _ => some name

theorem head?_map (f : α → β) (term : Term α) : (term.map f).head? = term.head? := by
  cases term with
  | leaf a => rfl
  | call name operands => rfl

mutual
theorem node_phrase (depth : Nat) (term : Term String) :
    term.phrase.node depth = (term.map .text).node depth := by
  cases term with
  | leaf text => rfl
  | call name operands =>
      rw [phrase, Phrase.node, Phrase.nodes, Phrase.node, map, node, nodes_phrases]

theorem nodes_phrases (depth : Nat) (operands : List (Term String)) :
    Phrase.nodes depth (phrases operands) = nodes depth (mapAll .text operands) := by
  cases operands with
  | nil => rfl
  | cons operand rest =>
      rw [phrases, Phrase.nodes, mapAll, nodes, node_phrase, nodes_phrases]
end

mutual
theorem call_mem_actions_map (f : α → β) (name : String) (term : Term α) :
    .call name ∈ (term.map f).actions ↔ .call name ∈ term.actions := by
  cases term with
  | leaf a => simp [map, actions]
  | call callee operands =>
      simp [map, actions, call_mem_actionsOfAll_mapAll f name operands]

theorem call_mem_actionsOfAll_mapAll (f : α → β) (name : String) (operands : List (Term α)) :
    .call name ∈ actionsOfAll (mapAll f operands) ↔ .call name ∈ actionsOfAll operands := by
  cases operands with
  | nil => simp [mapAll, actionsOfAll]
  | cons operand rest =>
      simp [mapAll, actionsOfAll, call_mem_actions_map f name operand,
        call_mem_actionsOfAll_mapAll f name rest]
end

mutual
theorem read_mem_actions_map (f : α → β) (b : β) (term : Term α) :
    .read b ∈ (term.map f).actions ↔ ∃ a, .read a ∈ term.actions ∧ f a = b := by
  cases term with
  | leaf a => simp [map, actions, eq_comm]
  | call callee operands =>
      simp [map, actions, read_mem_actionsOfAll_mapAll f b operands]

theorem read_mem_actionsOfAll_mapAll (f : α → β) (b : β) (operands : List (Term α)) :
    .read b ∈ actionsOfAll (mapAll f operands) ↔
      ∃ a, .read a ∈ actionsOfAll operands ∧ f a = b := by
  cases operands with
  | nil => simp [mapAll, actionsOfAll]
  | cons operand rest =>
      simp [mapAll, actionsOfAll, read_mem_actions_map f b operand,
        read_mem_actionsOfAll_mapAll f b rest, or_and_right, exists_or]
end

mutual
theorem map_map {γ : Type} (f : α → β) (g : β → γ) (term : Term α) :
    (term.map f).map g = term.map fun a => g (f a) := by
  cases term with
  | leaf a => rfl
  | call name operands => rw [map, map, map, mapAll_mapAll]

theorem mapAll_mapAll {γ : Type} (f : α → β) (g : β → γ) (operands : List (Term α)) :
    mapAll g (mapAll f operands) = mapAll (fun a => g (f a)) operands := by
  cases operands with
  | nil => rfl
  | cons operand rest => rw [mapAll, mapAll, mapAll, map_map, mapAll_mapAll]
end

mutual
theorem map_self (term : Term α) : (term.map fun a => a) = term := by
  cases term with
  | leaf a => rfl
  | call name operands => rw [map, mapAll_self]

theorem mapAll_self (operands : List (Term α)) : mapAll (fun a => a) operands = operands := by
  cases operands with
  | nil => rfl
  | cons operand rest => rw [mapAll, map_self, mapAll_self]
end

mutual
theorem node_text_inj {depth : Nat} {term other : Term String}
    (same : (term.map .text).node depth = (other.map .text).node depth) : term = other := by
  cases term with
  | leaf text =>
      cases other with
      | leaf text' =>
          cases same
          rfl
      | call name operands => cases same
  | call name operands =>
      cases other with
      | leaf text => cases same
      | call name' operands' =>
          simp only [map, node, Node.expression.injEq, List.cons.injEq, Node.operator.injEq,
            and_true] at same
          obtain ⟨rfl, rest⟩ := same
          rw [nodes_text_inj rest]

theorem nodes_text_inj {depth : Nat} {operands others : List (Term String)}
    (same : nodes depth (mapAll .text operands) = nodes depth (mapAll .text others)) :
    operands = others := by
  cases operands with
  | nil =>
      cases others with
      | nil => rfl
      | cons other rest => cases same
  | cons operand rest =>
      cases others with
      | nil => cases same
      | cons other rest' =>
          simp only [mapAll, nodes, List.cons.injEq] at same
          rw [node_text_inj same.1, nodes_text_inj same.2]
end

end Term

/-- The test of a clause: a word such as `else`, or a term. -/
inductive Guard where
  | word (name : String)
  | test (term : Term String)

namespace Guard

def phrase : Guard → Phrase
  | .word name => .operator name
  | .test term => term.phrase

def node (depth : Nat) : Guard → Form
  | .word name => .operator name depth
  | .test term => (term.map .text).node depth

def actions : Guard → List (Action String)
  | .word _ => []
  | .test term => term.actions

/-- The words that a guard tests as such. -/
def words : Guard → List String
  | .word name => [name]
  | .test _ => []

theorem node_phrase (depth : Nat) (guard : Guard) : guard.phrase.node depth = guard.node depth := by
  cases guard with
  | word name => rfl
  | test term => exact term.node_phrase depth

end Guard

/-- A definition `(define (name formal …) (cond (guard result) …))`. -/
structure Procedure where
  name : String
  formals : List String
  clauses : List (Guard × Term String)

namespace Procedure

def header (procedure : Procedure) : Phrase :=
  .form (.operator procedure.name :: procedure.formals.map .argument)

def body (procedure : Procedure) : Phrase :=
  .form (.operator "cond" ::
    procedure.clauses.map fun clause => .form [clause.1.phrase, clause.2.phrase])

def phrase (procedure : Procedure) : Phrase :=
  .form [.operator "define", procedure.header, procedure.body]

def clauseNodes (clauses : List (Guard × Term String)) : List (Clause Value) :=
  clauses.map fun clause => ⟨clause.1.node 3, (clause.2.map .text).node 3⟩

/-- The procedure as a table holds it. -/
def compiled (procedure : Procedure) (home serial : Nat) : CondProcedure Value where
  serial
  home
  name := procedure.name
  formals := procedure.formals.map .text
  clauses := clauseNodes procedure.clauses

/-- What the guards of some clauses do, tested in order. -/
def guardActions (clauses : List (Guard × Term String)) : List (Action String) :=
  clauses.flatMap fun clause => clause.1.actions

theorem guardActions_concat (clauses : List (Guard × Term String)) (clause : Guard × Term String) :
    guardActions (clauses ++ [clause]) = guardActions clauses ++ clause.1.actions := by
  simp [guardActions]

/-- What calls of the procedure can do. -/
def actions (procedure : Procedure) : List (Action String) :=
  procedure.clauses.flatMap fun clause => clause.1.actions ++ clause.2.actions

theorem test_mem_actions {procedure : Procedure} {clause : Guard × Term String}
    {action : Action String} (inside : clause ∈ procedure.clauses)
    (member : action ∈ clause.1.actions) : action ∈ procedure.actions :=
  List.mem_flatMap.mpr ⟨clause, inside, List.mem_append_left _ member⟩

theorem guard_mem_actions {procedure : Procedure} {clauses : List (Guard × Term String)}
    {action : Action String} (part : ∀ clause ∈ clauses, clause ∈ procedure.clauses)
    (member : action ∈ guardActions clauses) : action ∈ procedure.actions := by
  obtain ⟨clause, inside, does⟩ := List.mem_flatMap.mp member
  exact test_mem_actions (part clause inside) does

theorem result_mem_actions {procedure : Procedure} {clause : Guard × Term String}
    {action : Action String} (inside : clause ∈ procedure.clauses)
    (member : action ∈ clause.2.actions) : action ∈ procedure.actions :=
  List.mem_flatMap.mpr ⟨clause, inside, List.mem_append_right _ member⟩

/-- What can be done up to the end of each clause, if `before` was done already:
by the guards, then by the result. -/
def pathsFrom (before : List (Action String)) :
    List (Guard × Term String) → List (List (Action String) × List (Action String))
  | [] => []
  | clause :: rest =>
    (before ++ clause.1.actions, clause.2.actions) :: pathsFrom (before ++ clause.1.actions) rest

def paths (procedure : Procedure) : List (List (Action String) × List (Action String)) :=
  pathsFrom [] procedure.clauses

theorem mem_pathsFrom (before : List (Action String)) (earlier later : List (Guard × Term String))
    (chosen : Guard × Term String) :
    (before ++ guardActions (earlier ++ [chosen]), chosen.2.actions) ∈
      pathsFrom before (earlier ++ chosen :: later) := by
  induction earlier generalizing before with
  | nil =>
      rw [List.nil_append, List.nil_append, pathsFrom, guardActions, List.flatMap_singleton]
      exact List.mem_cons_self
  | cons clause earlier ih =>
      have member := ih (before ++ clause.1.actions)
      rw [List.append_assoc] at member
      rw [List.cons_append, List.cons_append, pathsFrom, guardActions, List.flatMap_cons]
      exact List.mem_cons_of_mem _ member

theorem mem_paths {procedure : Procedure} {earlier later : List (Guard × Term String)}
    {chosen : Guard × Term String} (split : procedure.clauses = earlier ++ chosen :: later) :
    (guardActions (earlier ++ [chosen]), chosen.2.actions) ∈ procedure.paths := by
  rw [paths, split]
  exact mem_pathsFrom [] earlier later chosen

end Procedure

/-- What a name stands for. -/
inductive Callee where
  | builtin (operation : Builtin)
  | procedure (definition : Procedure)

/-- The procedures of a session, the latest definition first. -/
abbrev Program : Type := List Procedure

namespace Program

/-- What a name stands for after the definitions of a program. A definition
takes the values of its formals away before it gives its name one. -/
def meaning : Program → String → Option Callee
  | [], name => (Builtin.named? name).map .builtin
  | procedure :: earlier, name =>
    if name = procedure.name then some (.procedure procedure)
    else if name ∈ procedure.formals then none
    else meaning earlier name

/-- Whether a procedure can be called, by its name. -/
def Has (program : Program) (procedure : Procedure) : Prop :=
  program.meaning procedure.name = some (.procedure procedure)

/-- Whether a call can bind a name. -/
def IsFormal (program : Program) (name : String) : Prop :=
  ∃ procedure, program.Has procedure ∧ name ∈ procedure.formals

/-- Whether a call of `callee` can bind `name`, itself or through another call. -/
inductive Rebinds (program : Program) : (callee name : String) → Prop where
  | formal {procedure : Procedure} {name : String} (has : program.Has procedure)
      (formal : name ∈ procedure.formals) : Rebinds program procedure.name name
  | through {procedure : Procedure} {inner name : String} (has : program.Has procedure)
      (calls : .call inner ∈ procedure.actions) (rebinds : Rebinds program inner name) :
      Rebinds program procedure.name name

/-- Whether one of some actions can bind `name`. -/
def Touches {α : Type} (program : Program) (actions : List (Action α)) (name : String) : Prop :=
  ∃ callee, .call callee ∈ actions ∧ program.Rebinds callee name

/-- Whether no procedure holds a definition in its clauses. -/
def Plain (program : Program) : Prop :=
  ∀ procedure, program.Has procedure → .call "define" ∉ procedure.actions

theorem Plain.test {program : Program} (plain : program.Plain) {procedure : Procedure}
    (has : program.Has procedure) {clause : Guard × Term String}
    (inside : clause ∈ procedure.clauses) : .call "define" ∉ clause.1.actions :=
  fun calls => plain procedure has (Procedure.test_mem_actions inside calls)

theorem Plain.result {program : Program} (plain : program.Plain) {procedure : Procedure}
    (has : program.Has procedure) {clause : Guard × Term String}
    (inside : clause ∈ procedure.clauses) : .call "define" ∉ clause.2.actions :=
  fun calls => plain procedure has (Procedure.result_mem_actions inside calls)

theorem Plain.guards {program : Program} (plain : program.Plain) {procedure : Procedure}
    (has : program.Has procedure) :
    .call "define" ∉ Procedure.guardActions procedure.clauses :=
  fun calls => plain procedure has (Procedure.guard_mem_actions (fun _ => id) calls)

theorem has_of_meaning {program : Program} {name : String} {procedure : Procedure}
    (means : program.meaning name = some (.procedure procedure)) :
    name = procedure.name ∧ program.Has procedure := by
  have named : name = procedure.name := by
    induction program with
    | nil =>
        rw [meaning] at means
        cases found : Builtin.named? name <;> simp [found] at means
    | cons latest earlier ih =>
        rw [meaning] at means
        split at means
        · rename_i same
          cases means
          exact same
        · split at means
          · cases means
          · exact ih means
  refine ⟨named, ?_⟩
  rw [Has, ← named]
  exact means

theorem mem_of_meaning {program : Program} {name : String} {procedure : Procedure}
    (means : program.meaning name = some (.procedure procedure)) : procedure ∈ program := by
  induction program with
  | nil =>
      rw [meaning] at means
      cases found : Builtin.named? name <;> simp [found] at means
  | cons latest earlier ih =>
      rw [meaning] at means
      split at means
      · cases means
        exact List.mem_cons_self
      · split at means
        · cases means
        · exact List.mem_cons_of_mem _ (ih means)

/-- A name that is neither a procedure nor a builtin stands for nothing. -/
theorem meaning_eq_none {program : Program} {name : String}
    (unknown : Builtin.named? name = none)
    (other : ∀ procedure ∈ program, procedure.name ≠ name) : program.meaning name = none := by
  induction program with
  | nil => rw [meaning, unknown, Option.map_none]
  | cons latest earlier ih =>
      have different : name ≠ latest.name := fun same => other latest List.mem_cons_self same.symm
      rw [meaning, if_neg different, ih fun procedure member => other procedure (by simp [member])]
      split <;> rfl

theorem Rebinds.isFormal {program : Program} {callee name : String}
    (rebinds : program.Rebinds callee name) : program.IsFormal name := by
  induction rebinds with
  | formal has formal => exact ⟨_, has, formal⟩
  | through _ _ _ ih => exact ih

theorem touches_isFormal {α : Type} {program : Program} {actions : List (Action α)} (name : String)
    (touches : program.Touches actions name) : program.IsFormal name := by
  obtain ⟨callee, _, rebinds⟩ := touches
  exact rebinds.isFormal

theorem Touches.mono {α β : Type} {program : Program} {actions : List (Action α)}
    {wider : List (Action β)}
    (inside : ∀ callee, .call callee ∈ actions → .call callee ∈ wider) {name : String}
    (touches : program.Touches actions name) : program.Touches wider name := by
  obtain ⟨callee, calls, rebinds⟩ := touches
  exact ⟨callee, inside callee calls, rebinds⟩

/-- Only procedures bind names. -/
theorem Rebinds.has {program : Program} {callee name : String}
    (rebinds : program.Rebinds callee name) :
    ∃ procedure, program.Has procedure ∧ procedure.name = callee := by
  cases rebinds with
  | formal has _ => exact ⟨_, has, rfl⟩
  | through has _ _ => exact ⟨_, has, rfl⟩

theorem builtin_of_meaning {program : Program} {name : String} {operation : Builtin}
    (means : program.meaning name = some (.builtin operation)) : operation.symbol = name := by
  induction program with
  | nil =>
      rw [meaning] at means
      cases found : Builtin.named? name with
      | none => simp [found] at means
      | some other =>
          simp only [found, Option.map_some, Option.some.injEq, Callee.builtin.injEq] at means
          rw [← means]
          exact Builtin.symbol_of_named? found
  | cons latest earlier ih =>
      rw [meaning] at means
      split at means
      · cases means
      · split at means
        · cases means
        · exact ih means

end Program

end Stepper
