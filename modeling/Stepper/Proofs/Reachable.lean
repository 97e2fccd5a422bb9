import Stepper.Proofs.Effects
import Stepper.Proofs.Failures

/-!
What an interpreter can hold that was only ever given texts. Its tables bind
runs of characters to words, data, builtins and procedures; the trees in these
procedures are as they were read.
-/

namespace Stepper

open Token (IsRun content)

/-- A word of a source text. -/
def Value.IsWord (value : Value) : Prop :=
  ∃ text, value = .text text ∧ IsRun text

/-- What evaluating a form gives: a number, a truth value or nothing. -/
def Value.IsDatum (value : Value) : Prop :=
  value = .nil ∨ value.IsNumber

theorem Value.isDatum_ofNumber (number : Number) : (Value.ofNumber number).IsDatum :=
  .inr (Value.isNumber_ofNumber number)

theorem Builtin.apply_isDatum {operation : Builtin} {arguments : List Value} {value : Value}
    (applied : operation.apply arguments = .ok value) : value.IsDatum := by
  by_cases isDefine : operation = .define
  · subst isDefine
    cases applied
    exact .inl rfl
  · exact .inr (Builtin.apply_isNumber isDefine applied)

namespace Node

mutual
/-- Trees as they are read inside parentheses. An operator stands only at the
start of an expression, and nothing is kept for later changes. -/
def WrittenAt (first : Bool) : Form → Prop
  | .blank => False
  | .literal value _ => value.IsWord
  | .operator name _ => first = true ∧ IsRun name
  | .expression children frame => frame.anchor = none ∧ WrittenRow true children

def WrittenRow (first : Bool) : List Form → Prop
  | [] => True
  | node :: rest => node.WrittenAt first ∧ WrittenRow false rest
end

theorem WrittenRow.of_mem {nodes : List Form} (written : WrittenRow false nodes) {node : Form}
    (member : node ∈ nodes) : node.WrittenAt false := by
  induction nodes with
  | nil => cases member
  | cons first rest ih =>
      rcases List.mem_cons.mp member with rfl | later
      · exact written.1
      · exact ih written.2 later

theorem WrittenRow.tail {first : Bool} {nodes : List Form} (written : WrittenRow first nodes) :
    WrittenRow false nodes.tail := by
  cases nodes with
  | nil => trivial
  | cons node rest => exact written.2

/-- What a text can be read as: a number, or a word or an expression as written. -/
def IsRead (node : Form) : Prop :=
  (∃ number depth, node = .literal (.ofNumber number) depth) ∨ node.WrittenAt false

end Node

namespace Phrase

mutual
theorem writtenAt_node {first : Bool} (depth : Nat) (phrase : Phrase)
    (scanned : phrase.ScannedAt first) : (phrase.node depth).WrittenAt first := by
  cases phrase with
  | operator name => exact scanned
  | argument text => exact ⟨text, rfl, scanned⟩
  | form items => exact ⟨rfl, writtenRow_nodes (depth + 1) items scanned⟩

theorem writtenRow_nodes {first : Bool} (depth : Nat) (items : List Phrase)
    (scanned : ScannedRow first items) : Node.WrittenRow first (nodes depth items) := by
  cases items with
  | nil => trivial
  | cons item rest =>
      exact ⟨writtenAt_node depth item scanned.1, writtenRow_nodes depth rest scanned.2⟩
end

theorem isRead_tree {items : List Phrase} (scanned : ScannedRow true items) : (tree items).IsRead :=
  .inr ⟨rfl, writtenRow_nodes 1 items scanned⟩

end Phrase

namespace Node

theorem isRead_bareLiteral {source text : String} {root : Form}
    (bare : content source = [⟨text, .argument⟩]) (read : bareLiteral text = .ok root) :
    root.IsRead := by
  have isRun : IsRun text :=
    Phrase.runsIn_content source ⟨text, .argument⟩ (by simp [bare]) (.inr rfl)
  rcases of_bareLiteral read with rfl | ⟨number, rfl⟩
  · exact .inr ⟨text, rfl, isRun⟩
  · exact .inl ⟨number, 0, rfl⟩

theorem isRead_of_read {source : String} {root : Form} (nonempty : source ≠ "")
    (read : Node.read source = .ok root) : root.IsRead := by
  rcases of_read read with ⟨empty, _⟩ | ⟨text, bare, literal⟩ | ⟨items, spelled, rfl⟩
  · exact absurd empty nonempty
  · exact isRead_bareLiteral bare literal
  · exact Phrase.isRead_tree (Phrase.scannedRow_of_content spelled)

theorem isRead_of_readForm {source : String} {root : Form} (read : readForm source = .ok root) :
    root.IsRead := by
  rw [readForm] at read
  split at read
  · cases read
  · rename_i nonempty
    exact isRead_of_read nonempty read

theorem IsRead.writtenAt {children : List Form} {frame : Frame}
    (isRead : (Node.expression children frame : Form).IsRead) :
    (Node.expression children frame : Form).WrittenAt false := by
  rcases isRead with ⟨_, _, same⟩ | written
  · cases same
  · exact written

/-- What the trees of a text can be: a bare argument alone, or forms. -/
theorem of_readAll {source : String} {root : Form} (member : root ∈ (readAll source).1) :
    (∃ text, content source = [⟨text, .argument⟩] ∧ bareLiteral text = .ok root) ∨
      ∃ items, Phrase.ScannedRow true items ∧ root = Phrase.tree items := by
  by_cases bare : ∃ text, content source = [⟨text, .argument⟩]
  · obtain ⟨text, bare⟩ := bare
    simp only [readAll, bareArgument?_eq_some_iff.mpr bare] at member
    cases literal : bareLiteral text with
    | error cause => simp [literal] at member
    | ok node =>
        simp only [literal, List.mem_singleton] at member
        exact .inl ⟨text, bare, member ▸ literal⟩
  · rw [readAll_parse (not_exists.mp bare)] at member
    obtain ⟨items, inside, same⟩ := List.mem_map.mp member
    have whole := Phrase.parseForms_sound (content source).length (Phrase.content_genuine source)
    exact .inr ⟨items, Phrase.scannedRow_of_forms whole.symm items inside, same.symm⟩

theorem isRead_of_readAll {source : String} : ∀ root ∈ (readAll source).1, root.IsRead := by
  intro root member
  rcases of_readAll member with ⟨text, bare, literal⟩ | ⟨items, scanned, rfl⟩
  · exact isRead_bareLiteral bare literal
  · exact Phrase.isRead_tree scanned

mutual
/-- A tree that was not kept for changes is never changed. -/
theorem WrittenAt.revised {first : Bool} (revision : Revision) (node : Form)
    (written : node.WrittenAt first) : node.revised revision = node := by
  cases node with
  | expression children frame =>
      rw [Node.revised, written.1, if_neg (by simp), WrittenRow.revised revision children written.2]
  | _ => rfl

theorem WrittenRow.revised {first : Bool} (revision : Revision) (nodes : List Form)
    (written : WrittenRow first nodes) : revisedAll revision nodes = nodes := by
  cases nodes with
  | nil => rfl
  | cons node rest =>
      rw [revisedAll, WrittenAt.revised revision node written.1,
        WrittenRow.revised revision rest written.2]
end

end Node

/-- A clause as it was read. -/
structure Clause.Written (clause : Clause Value) : Prop where
  test : clause.test.WrittenAt true
  result : clause.result.WrittenAt false

theorem upToDate_written (revisions : List Revision) {clauses : List (Clause Value)}
    (written : ∀ clause ∈ clauses, clause.Written) :
    Clause.upToDate revisions clauses = clauses := by
  induction revisions with
  | nil => rfl
  | cons revision revisions ih =>
      rw [Clause.upToDate, List.foldr_cons, ← Clause.upToDate, ih]
      refine (List.map_congr_left fun clause member => ?_).trans (List.map_id clauses)
      rw [Clause.revised, (written clause member).test.revised,
        (written clause member).result.revised]
      rfl

/-- Each clause of a `cond` is one of the forms in its body. -/
theorem exists_mem_of_condClauses {nodes : List Form} {clauses : List (Clause Value)}
    (split : condClauses nodes = .ok clauses) :
    ∀ clause ∈ clauses, ∃ frame, .expression [clause.test, clause.result] frame ∈ nodes := by
  induction nodes generalizing clauses with
  | nil =>
      cases split
      simp
  | cons node rest ih =>
      rw [condClauses.eq_def] at split
      split at split
      · contradiction
      · rename_i test result frame others same
        cases same
        obtain ⟨later, ran, done⟩ := of_except_bind_ok split
        cases done
        refine List.forall_mem_cons.mpr ⟨⟨frame, List.mem_cons_self⟩, fun clause member => ?_⟩
        obtain ⟨frame', inside⟩ := ih ran clause member
        exact ⟨frame', List.mem_cons_of_mem _ inside⟩
      · obtain ⟨shown, _, failed⟩ := of_except_bind_ok split
        cases failed

theorem condClauses_written {nodes : List Form} {clauses : List (Clause Value)}
    (written : Node.WrittenRow false nodes) (split : condClauses nodes = .ok clauses) :
    ∀ clause ∈ clauses, clause.Written := by
  intro clause member
  obtain ⟨frame, inside⟩ := exists_mem_of_condClauses split clause member
  obtain ⟨_, test, result, _⟩ := written.of_mem inside
  exact ⟨test, result⟩

theorem headerFormals_words {nodes : List Form} {formals : List Value}
    (written : Node.WrittenRow false nodes) (read : headerFormals nodes = .ok formals) :
    ∀ formal ∈ formals, formal.IsWord := by
  induction nodes generalizing formals with
  | nil =>
      cases read
      simp
  | cons node rest ih =>
      cases node with
      | literal value depth =>
          obtain ⟨later, ran, done⟩ := of_except_bind_ok read
          cases done
          simpa using ⟨written.1, ih written.2 ran⟩
      | _ =>
          obtain ⟨shown, _, failed⟩ := of_except_bind_ok read
          cases failed

/-- A procedure of the workspace `home` whose parts are as they were read. -/
structure CondProcedure.Sound (home : Nat) (definition : CondProcedure Value) : Prop where
  home : definition.home = home
  formals : ∀ formal ∈ definition.formals, formal.IsWord
  clauses : ∀ clause ∈ definition.clauses, clause.Written

theorem CondProcedure.Sound.clauses_eq {home : Nat} {definition : CondProcedure Value}
    (sound : definition.Sound home) (state : State) :
    state.clauses definition = definition.clauses :=
  upToDate_written state.revisions sound.clauses

/-- What a table may bind a name to. Builtins have no symbolic reading, and a
procedure stands in the table of its own reading. -/
inductive Value.Fits (home : Nat) : Reading → Value → Prop where
  | datum {reading : Reading} {value : Value} (isDatum : value.IsDatum) : Fits home reading value
  | word {reading : Reading} {value : Value} (isWord : value.IsWord) : Fits home reading value
  | unbound (reading : Reading) : Fits home reading .unbound
  | builtin (operation : Builtin) : Fits home .numeric (.builtin operation)
  | procedure {reading : Reading} {definition : CondProcedure Value}
      (sound : definition.Sound home) : Fits home reading (.procedure reading definition)

structure Table.Sound (home : Nat) (reading : Reading) (table : Table) : Prop where
  keys : ∀ binding ∈ table.bindings, binding.1.IsWord
  values : ∀ binding ∈ table.bindings, binding.2.Fits home reading

namespace Table.Sound

variable {home : Nat} {reading : Reading} {table : Table}

theorem named (sound : table.Sound home reading) : table.Named := by
  intro binding member
  obtain ⟨word, isText, _⟩ := sound.keys binding member
  exact ⟨word, isText⟩

theorem resolve_fits (sound : table.Sound home reading) {key value : Value}
    (bound : table.resolve key = some value) : value.Fits home reading := by
  rw [resolve_eq_bind, get?] at bound
  obtain ⟨found, taken, isBound⟩ := Option.bind_eq_some_iff.mp bound
  obtain ⟨binding, first, rfl⟩ := Option.map_eq_some_iff.mp taken
  have fits := sound.values binding (List.mem_of_find?_eq_some first)
  have same : binding.2 = value := by
    unfold Value.bound? at isBound
    split at isBound
    · cases isBound
    · cases isBound
    · exact Option.some.inj isBound
  exact same ▸ fits

theorem mem_insertInto {key value : Value} {bindings : List (Value × Value)}
    {binding : Value × Value} (member : binding ∈ Table.insertInto key value bindings) :
    binding ∈ bindings ∨
      binding.2 = value ∧ (binding.1 = key ∨ ∃ old, (binding.1, old) ∈ bindings) := by
  induction bindings with
  | nil =>
      obtain rfl := List.mem_singleton.mp member
      exact .inr ⟨rfl, .inl rfl⟩
  | cons first rest ih =>
      rw [insertInto] at member
      split at member
      · rcases List.mem_cons.mp member with rfl | member
        · exact .inr ⟨rfl, .inr ⟨first.2, List.mem_cons_self⟩⟩
        · exact .inl (List.mem_cons_of_mem _ member)
      · rcases List.mem_cons.mp member with rfl | member
        · exact .inl List.mem_cons_self
        · rcases ih member with inside | ⟨isValue, isKey | ⟨old, inside⟩⟩
          · exact .inl (List.mem_cons_of_mem _ inside)
          · exact .inr ⟨isValue, .inl isKey⟩
          · exact .inr ⟨isValue, .inr ⟨old, List.mem_cons_of_mem _ inside⟩⟩

theorem insert (sound : table.Sound home reading) {key value : Value} (isWord : key.IsWord)
    (fits : value.Fits home reading) : (table.insert key value).Sound home reading := by
  refine ⟨fun binding member => ?_, fun binding member => ?_⟩
  · rcases mem_insertInto member with inside | ⟨_, rfl | ⟨old, inside⟩⟩
    · exact sound.keys binding inside
    · exact isWord
    · exact sound.keys (binding.1, old) inside
  · rcases mem_insertInto member with inside | ⟨rfl, _⟩
    · exact sound.values binding inside
    · exact fits

end Table.Sound

/-- Both tables of a workspace hold what texts can put there. -/
def State.Sound (home : Nat) (state : State) : Prop :=
  ∀ reading, (state.table home reading).Sound home reading

theorem State.Sound.of_tables {home : Nat} {state after : State} (sound : state.Sound home)
    (same : ∀ reading, after.table home reading = state.table home reading) : after.Sound home := by
  intro reading
  rw [same]
  exact sound reading

theorem State.Sound.setTable {home : Nat} {state : State} (sound : state.Sound home)
    (reading : Reading) {table : Table} (kept : table.Sound home reading) :
    (state.setTable home reading table).Sound home := by
  intro other
  by_cases same : other = reading
  · subst same
    rw [State.table_setTable]
    exact kept
  · rw [State.table_setTable_other _ _ same]
    exact sound other

theorem isRun_symbol (operation : Builtin) : IsRun operation.symbol := by
  cases operation <;> exact ⟨by decide, List.all_eq_true.mp rfl⟩

theorem Workspace.sound_fresh (home : Nat) (reading : Reading) :
    (Workspace.fresh.table reading).Sound home reading := by
  cases reading with
  | symbolic => exact ⟨by simp [table, fresh, Table.empty], by simp [table, fresh, Table.empty]⟩
  | numeric =>
      refine ⟨fun binding member => ?_, fun binding member => ?_⟩
      · obtain ⟨operation, _, rfl⟩ := List.mem_map.mp member
        exact ⟨operation.symbol, rfl, isRun_symbol operation⟩
      · obtain ⟨operation, _, rfl⟩ := List.mem_map.mp member
        exact .builtin operation

namespace Interpreter

variable {interpreter : Interpreter} {state : State}

/-- Only a trace is announced. -/
theorem serve_perform {limit : Nat} {task : Task} {source : String} (untraced : task ≠ .trace) :
    interpreter.serve limit (.perform task source) = interpreter.perform limit task source := by
  cases task with
  | trace => exact absurd rfl untraced
  | _ => rfl

/-- What requests give in order, each with the state after it. A request that
fails does not end the session. -/
def transcript (interpreter : Interpreter) (limit : Nat) :
    List Request → State → List (Except Failure Reply × State)
  | [], _ => []
  | request :: rest, state =>
    let outcome := attempt (interpreter.serve limit request) state
    outcome :: interpreter.transcript limit rest outcome.2

/-- The states of a session in which an interpreter, fresh at first, was given
texts, whether or not it failed on them. -/
inductive Reached (interpreter : Interpreter) : State → Prop where
  | start {state : State} (fresh : interpreter.IsFresh state) : Reached interpreter state
  | serve {state : State} (limit : Nat) (request : Request) (earlier : Reached interpreter state) :
      Reached interpreter (attempt (interpreter.serve limit request) state).2

theorem IsFresh.sound (fresh : interpreter.IsFresh state) : state.Sound interpreter.home := by
  intro reading
  rw [State.table, fresh]
  exact Workspace.sound_fresh _ reading

end Interpreter

end Stepper
