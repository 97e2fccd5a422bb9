import Stepper.Proofs.Decimal
import Stepper.Proofs.Trust

/-!
Programs that the shared table cannot confuse: each formal is read before any
call that can bind it.
-/

namespace Stepper

/-- What the clauses of a procedure may do: call what is no formal, and read own
formals and integers. -/
def Program.Allows (program : Program) (procedure : Procedure) : Action String → Prop
  | .call name => name ≠ "define" ∧ ∀ other ∈ program, name ∉ other.formals
  | .read name => name ∈ procedure.formals ∨ IsInteger name

instance (program : Program) (procedure : Procedure) (action : Action String) :
    Decidable (program.Allows procedure action) :=
  match action with
  | .call name =>
    inferInstanceAs (Decidable (name ≠ "define" ∧ ∀ other ∈ program, name ∉ other.formals))
  | .read name => inferInstanceAs (Decidable (name ∈ procedure.formals ∨ IsInteger name))

/-- Programs that the shared table cannot confuse: formals are neither procedures
nor builtins nor integers, clauses read own formals and integers only, and no
formal is read after a call that can bind it. -/
structure Program.WellScoped (program : Program) : Prop where
  formals : ∀ procedure ∈ program, ∀ formal ∈ procedure.formals, ¬ IsInteger formal ∧
    Builtin.named? formal = none ∧ ∀ other ∈ program, other.name ≠ formal
  names : ∀ procedure ∈ program, ¬ IsInteger procedure.name
  words : ∀ procedure ∈ program, ∀ clause ∈ procedure.clauses, ∀ word ∈ clause.1.words,
    ∀ other ∈ program, word ∉ other.formals
  allowed : ∀ procedure ∈ program, ∀ action ∈ procedure.actions, program.Allows procedure action
  orderly : ∀ procedure ∈ program, ∀ path ∈ procedure.paths, program.Orderly (path.1 ++ path.2)

namespace Program

variable {program : Program}

theorem IsFormal.exists_mem {name : String} (isFormal : program.IsFormal name) :
    ∃ procedure ∈ program, name ∈ procedure.formals := by
  obtain ⟨procedure, has, formal⟩ := isFormal
  exact ⟨procedure, mem_of_meaning has, formal⟩

/-- Integers stand for nothing, if no formal and no procedure has one for its name. -/
theorem integer_free (formals : ∀ name, program.IsFormal name → ¬ IsInteger name)
    (names : ∀ procedure, program.Has procedure → ¬ IsInteger procedure.name) {text : String}
    (integer : IsInteger text) : program.meaning text = none ∧ ¬ program.IsFormal text := by
  refine ⟨?_, fun isFormal => formals text isFormal integer⟩
  cases means : program.meaning text with
  | none => rfl
  | some callee =>
      cases callee with
      | builtin operation =>
          have unknown := integer.not_builtin
          rw [← builtin_of_meaning means, Builtin.named?_symbol] at unknown
          cases unknown
      | procedure procedure =>
          obtain ⟨same, has⟩ := has_of_meaning means
          exact absurd (same ▸ integer) (names procedure has)

namespace WellScoped

theorem plain (wellScoped : program.WellScoped) : program.Plain :=
  fun procedure has calls =>
    (wellScoped.allowed procedure (mem_of_meaning has) _ calls).1 rfl

theorem meaning_formal (wellScoped : program.WellScoped) (name : String)
    (isFormal : program.IsFormal name) : program.meaning name = none := by
  obtain ⟨procedure, member, formal⟩ := isFormal.exists_mem
  obtain ⟨_, unknown, others⟩ := wellScoped.formals procedure member name formal
  exact meaning_eq_none unknown others

theorem integer_free (wellScoped : program.WellScoped) {text : String} (integer : IsInteger text) :
    program.meaning text = none ∧ ¬ program.IsFormal text := by
  refine Program.integer_free (fun name isFormal => ?_) (fun procedure has => ?_) integer
  · obtain ⟨procedure, member, formal⟩ := isFormal.exists_mem
    exact (wellScoped.formals procedure member name formal).1
  · exact wellScoped.names procedure (mem_of_meaning has)

theorem head_not_formal (wellScoped : program.WellScoped) {procedure : Procedure}
    (has : program.Has procedure) (name : String) (calls : .call name ∈ procedure.actions) :
    ¬ program.IsFormal name := by
  intro isFormal
  obtain ⟨other, member, formal⟩ := isFormal.exists_mem
  exact (wellScoped.allowed procedure (mem_of_meaning has) _ calls).2 other member formal

theorem word_not_formal (wellScoped : program.WellScoped) {procedure : Procedure}
    (has : program.Has procedure) {clause : Guard × Term String}
    (inside : clause ∈ procedure.clauses) (name : String) (word : clause.1 = .word name) :
    ¬ program.IsFormal name := by
  intro isFormal
  obtain ⟨other, member, formal⟩ := isFormal.exists_mem
  refine wellScoped.words procedure (mem_of_meaning has) clause inside name ?_ other member formal
  rw [word]
  exact List.mem_singleton.mpr rfl

end WellScoped

/-- It is enough that no formal is read after a call of a procedure. -/
theorem wellScoped_of_reads_first
    (formals : ∀ procedure ∈ program, ∀ formal ∈ procedure.formals, ¬ IsInteger formal ∧
      Builtin.named? formal = none ∧ ∀ other ∈ program, other.name ≠ formal)
    (names : ∀ procedure ∈ program, ¬ IsInteger procedure.name)
    (words : ∀ procedure ∈ program, ∀ clause ∈ procedure.clauses, ∀ word ∈ clause.1.words,
      ∀ other ∈ program, word ∉ other.formals)
    (allowed : ∀ procedure ∈ program, ∀ action ∈ procedure.actions,
      program.Allows procedure action)
    (first : ∀ procedure ∈ program, ∀ path ∈ procedure.paths,
      (path.1 ++ path.2).Pairwise fun earlier later =>
        ∀ called ∈ program, ∀ other ∈ program, ∀ formal ∈ other.formals,
          ¬ (earlier = .call called.name ∧ later = .read formal)) : program.WellScoped :=
  ⟨formals, names, words, allowed, fun procedure member path inside =>
    orderly_of_reads_first (first procedure member path inside)⟩

end Program

/-- A function that grows fast, under a name: on `0` and `y` it gives twice `y`, on
`1` and `n` the `n`th power of two. -/
def ackermann (name : String) : Procedure where
  name := name
  formals := ["x", "y"]
  clauses := [
    (.test (.call "=" [.leaf "y", .leaf "0"]), .leaf "0"),
    (.test (.call "=" [.leaf "x", .leaf "0"]), .call "*" [.leaf "2", .leaf "y"]),
    (.test (.call "=" [.leaf "y", .leaf "1"]), .leaf "2"),
    (.word "else", .call name [.call "-" [.leaf "x", .leaf "1"],
      .call name [.leaf "x", .call "-" [.leaf "y", .leaf "1"]]])]

theorem ackermann_wellScoped : Program.WellScoped [ackermann "A"] :=
  Program.wellScoped_of_reads_first (by decide +kernel) (by decide +kernel) (by decide +kernel)
    (by decide +kernel) (by decide +kernel)

end Stepper
