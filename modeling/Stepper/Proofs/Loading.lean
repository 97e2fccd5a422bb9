import Stepper.Proofs.Reference

/-!
Loading a text in one piece or in two. A text of whole forms leaves no run and
no parenthesis open, so what follows it is scanned and read as on its own.
-/

namespace Stepper

open Token (content isContent scan opening closing)
open Phrase (tree parse tokensOfForms)

namespace Token

/-- Whether a scan that gave a row is about to read a run as an argument. It is
after a closing parenthesis, and before any content unless in function position. -/
def Settled (kind : Kind) (row : List Token) : Prop :=
  row.getLast? = some closing ∨ row = [] ∧ kind = .argument

variable {kind : Kind} {reversed chars : List Char} {c : Char}

theorem ofRun_settled (runKind : kind = .operatorName ∨ kind = .argument)
    (settled : Settled kind ((ofRun kind reversed).filter isContent)) :
    kind = .argument ∧ reversed = [] := by
  cases reversed with
  | nil =>
      rcases settled with closed | ⟨_, isArgument⟩
      · cases closed
      · exact ⟨isArgument, rfl⟩
  | cons c run =>
      have one : (ofRun kind (c :: run)).filter isContent = ofRun kind (c :: run) := by
        rcases runKind with rfl | rfl <;> rfl
      rw [one] at settled
      rcases settled with closed | ⟨empty, _⟩
      · have same : (⟨_, kind⟩ : Token) = closing := Option.some.inj closed
        rcases runKind with rfl | rfl
        · cases congrArg Token.kind same
        · cases congrArg Token.kind same
      · cases empty

theorem filter_scan_delimiter (delimiter : ¬ isRunChar c = true) :
    (scan kind reversed (c :: chars)).filter isContent =
      (ofRun kind reversed).filter isContent ++
        ([⟨String.singleton c, .ofChar false c⟩].filter isContent ++
          (scan (.ofRun (c == '(')) [] chars).filter isContent) := by
  have joined := List.filter_append (p := isContent)
    [⟨String.singleton c, .ofChar false c⟩] (scan (.ofRun (c == '(')) [] chars)
  rw [scan, if_neg delimiter, List.filter_append, ← joined]
  rfl

theorem Settled.rest {before rest : List Token} (delimiter : ¬ isRunChar c = true)
    (settled : Settled kind (before ++
      ([⟨String.singleton c, .ofChar false c⟩].filter isContent ++ rest))) :
    Settled (.ofRun (c == '(')) rest := by
  by_cases empty : rest = []
  · subst empty
    rcases eq_delimiter delimiter with rfl | rfl | rfl | rfl
    · have opened : [(⟨String.singleton '(', .ofChar false '('⟩ : Token)].filter isContent =
          [opening] := rfl
      rw [opened, List.append_nil] at settled
      rcases settled with closed | ⟨nothing, _⟩
      · rw [List.getLast?_concat] at closed
        cases congrArg Token.kind (Option.some.inj closed)
      · simp at nothing
    all_goals exact .inr ⟨rfl, rfl⟩
  · refine .inl ?_
    rcases settled with closed | ⟨nothing, _⟩
    · rwa [List.getLast?_append_of_ne_nil _ (by simp [empty]),
        List.getLast?_append_of_ne_nil _ empty] at closed
    · simp [empty] at nothing

/-- A settled scan goes on as at the start of a text. -/
theorem filter_scan_append (runKind : kind = .operatorName ∨ kind = .argument)
    (settled : Settled kind ((scan kind reversed chars).filter isContent)) (more : List Char) :
    (scan kind reversed (chars ++ more)).filter isContent =
      (scan kind reversed chars).filter isContent ++ (scan .argument [] more).filter isContent := by
  induction chars generalizing kind reversed with
  | nil =>
      have ended : (scan kind reversed []).filter isContent =
          (ofRun kind reversed).filter isContent := by
        simp [scan, isContent]
      rw [ended] at settled
      obtain ⟨rfl, rfl⟩ := ofRun_settled runKind settled
      rfl
  | cons c chars ih =>
      by_cases inRun : isRunChar c = true
      · have here : ∀ others, scan kind reversed (c :: others) = scan kind (c :: reversed) others :=
          fun others => by rw [scan, if_pos inRun]
        rw [here] at settled
        rw [List.cons_append, here, here, ih runKind settled]
      · rw [filter_scan_delimiter inRun] at settled
        rw [List.cons_append, filter_scan_delimiter inRun, filter_scan_delimiter inRun,
          ih (ofRun_kind _) (settled.rest inRun)]
        simp only [List.append_assoc]

theorem settled_forms (forms : List (List Phrase)) : Settled .argument (tokensOfForms forms) := by
  rcases List.eq_nil_or_concat forms with rfl | ⟨others, items, rfl⟩
  · exact .inr ⟨rfl, rfl⟩
  · refine .inl ?_
    simp [tokensOfForms, Phrase.tokens, List.getLast?_cons]

theorem content_append {first : String} {forms : List (List Phrase)}
    (spelled : content first = tokensOfForms forms) (second : String) :
    content (first ++ second) = content first ++ content second := by
  have settled : Settled .argument (content first) := spelled ▸ settled_forms forms
  rw [content, tokenize, String.toList_append, filter_scan_append (.inr rfl) settled]
  rfl

end Token

namespace Node

/-- Whatever stands where a form should makes a text malformed. -/
theorem fault_kind (source : String) (row : List Token) :
    (fault source row).map Failure.kind = row.head?.map fun _ => .malformed := by
  cases row with
  | nil => rfl
  | cons token rest =>
      rw [fault]
      cases token.kind <;> rfl

theorem forms_of_readAll {source : String} (several : ∀ text, content source ≠ [⟨text, .argument⟩])
    (complete : (readAll source).2 = none) :
    ∃ forms, content source = tokensOfForms forms := by
  have whole := Phrase.parseForms_sound (content source).length (Phrase.content_genuine source)
  have ended : (parse (content source)).2 = [] := by
    have none : fault source (parse (content source)).2 = none := by
      rwa [readAll_parse several] at complete
    have kind := fault_kind source (parse (content source)).2
    rw [none] at kind
    simpa using kind.symm
  exact ⟨_, by rw [← whole, ← parse, ended, List.append_nil]⟩

theorem several_append {first second : String} {forms : List (List Phrase)}
    (spelled : content first = tokensOfForms forms)
    (several : ∀ text, content second ≠ [⟨text, .argument⟩]) (text : String) :
    content (first ++ second) ≠ [⟨text, .argument⟩] := by
  rw [Token.content_append spelled, spelled]
  cases forms with
  | nil => exact several text
  | cons items others =>
      intro bare
      cases (List.cons.inj bare).1

theorem readAll_append {first second : String}
    (several : ∀ text, content first ≠ [⟨text, .argument⟩])
    (complete : (readAll first).2 = none)
    (severalNext : ∀ text, content second ≠ [⟨text, .argument⟩]) :
    (readAll (first ++ second)).1 = (readAll first).1 ++ (readAll second).1 ∧
      (readAll (first ++ second)).2.map Failure.kind = (readAll second).2.map Failure.kind := by
  obtain ⟨forms, spelled⟩ := forms_of_readAll several complete
  rw [readAll_forms spelled several, readAll_eq_readTokens (several_append spelled severalNext),
    Token.content_append spelled, spelled, readTokens_forms,
    readTokens_parse (Phrase.content_genuine second), readAll_parse severalNext]
  exact ⟨rfl, by rw [fault_kind, fault_kind]⟩

end Node

namespace Interpreter

variable (interpreter : Interpreter) (limit : Nat)

theorem evalForms_append (forms others : List Form) :
    interpreter.evalForms limit (forms ++ others) = (do
      interpreter.evalForms limit forms
      interpreter.evalForms limit others) := by
  induction forms with
  | nil => rfl
  | cons form rest ih =>
      rw [List.cons_append, evalForms, evalForms, ih]
      simp only [bind_assoc]

/-- The end of a load, at the end of its text or where reading stopped. -/
def finish : Option Failure → Eval Unit
  | none => pure ()
  | some failure => throw failure

theorem load_eq (source : String) :
    interpreter.load limit source = (do
      interpreter.evalForms limit (Node.readAll source).1
      finish (Node.readAll source).2) := by
  unfold load
  obtain ⟨forms, _ | failure⟩ := Node.readAll source
  · rfl
  · rfl

theorem attempt_finish (action : Eval Unit) {failure other : Option Failure}
    (same : failure.map Failure.kind = other.map Failure.kind) (state : State) :
    let ended := attempt (action >>= fun _ => finish failure) state
    let otherEnded := attempt (action >>= fun _ => finish other) state
    ended.2 = otherEnded.2 ∧
      ended.1.mapError Failure.kind = otherEnded.1.mapError Failure.kind := by
  dsimp only [attempt, EStateM.run]
  cases ran : action state with
  | error cause after =>
      rw [Eval.bind_error ran, Eval.bind_error ran]
      exact ⟨rfl, rfl⟩
  | ok done after =>
      rw [Eval.bind_ok ran, Eval.bind_ok ran]
      cases failure with
      | none =>
          obtain rfl : other = none := by simpa using same.symm
          exact ⟨rfl, rfl⟩
      | some cause =>
          obtain ⟨otherCause, rfl, kind⟩ := Option.map_eq_some_iff.mp same.symm
          exact ⟨rfl, congrArg Except.error kind.symm⟩

/-- A text of whole forms and then another text read as the trees of both, and
load with the effect of the two in turn. -/
theorem load_in_pieces {first second : String}
    (several : ∀ text, content first ≠ [⟨text, .argument⟩])
    (complete : (Node.readAll first).2 = none)
    (severalNext : ∀ text, content second ≠ [⟨text, .argument⟩]) :
    ((Node.readAll (first ++ second)).1 = (Node.readAll first).1 ++ (Node.readAll second).1 ∧
      (Node.readAll (first ++ second)).2.map Failure.kind =
        (Node.readAll second).2.map Failure.kind) ∧
    ∀ (interpreter : Interpreter) (limit : Nat) (state : State),
      let whole := attempt (interpreter.load limit (first ++ second)) state
      let pieces := attempt (do
        interpreter.load limit first
        interpreter.load limit second) state
      whole.2 = pieces.2 ∧ whole.1.mapError Failure.kind = pieces.1.mapError Failure.kind := by
  obtain ⟨trees, ends⟩ := Node.readAll_append several complete severalNext
  refine ⟨⟨trees, ends⟩, fun interpreter limit state => ?_⟩
  have whole : interpreter.load limit (first ++ second) = (do
      interpreter.evalForms limit (Node.readAll first).1
      interpreter.evalForms limit (Node.readAll second).1
      finish (Node.readAll (first ++ second)).2) := by
    rw [load_eq, trees, evalForms_append, bind_assoc]
  have pieces : (do interpreter.load limit first; interpreter.load limit second) = (do
      interpreter.evalForms limit (Node.readAll first).1
      interpreter.evalForms limit (Node.readAll second).1
      finish (Node.readAll second).2) := by
    rw [load_eq, complete, load_eq, bind_assoc]
    rfl
  rw [whole, pieces, ← bind_assoc, ← bind_assoc]
  exact attempt_finish _ ends state

theorem load_in_pieces_stray :
    let first := "(define x 1)"
    let second := "y (define z 2)"
    ((∀ text, content first ≠ [⟨text, .argument⟩]) ∧ (Node.readAll first).2 = none ∧
      ∀ text, content second ≠ [⟨text, .argument⟩]) ∧
    ((Node.readAll (first ++ second)).1.length = 1 ∧
      (Node.readAll (first ++ second)).2.map Failure.kind = some .malformed) ∧
    ∀ (interpreter : Interpreter) (limit : Nat) (state : State),
      let whole := attempt (interpreter.load limit (first ++ second)) state
      let pieces := attempt (do
        interpreter.load limit first
        interpreter.load limit second) state
      whole.2 = pieces.2 ∧ whole.1.mapError Failure.kind = pieces.1.mapError Failure.kind := by
  intro first second
  have several : ∀ text, content first ≠ [⟨text, .argument⟩] := by
    intro text bare
    have five : (content first).length = 5 := by decide +kernel
    rw [bare] at five
    cases five
  have severalNext : ∀ text, content second ≠ [⟨text, .argument⟩] := by
    intro text bare
    have six : (content second).length = 6 := by decide +kernel
    rw [bare] at six
    cases six
  have complete : (Node.readAll first).2 = none := by decide +kernel
  obtain ⟨⟨trees, ends⟩, loads⟩ := load_in_pieces several complete severalNext
  refine ⟨⟨several, complete, severalNext⟩, ⟨?_, ?_⟩, loads⟩
  · rw [trees]
    decide +kernel
  · rw [ends]
    decide +kernel

end Interpreter

end Stepper
