import Stepper.Node.Render
import Stepper.Proofs.Reading

/-!
Phrases as source text, with single spaces between the items of a form. The
text of a phrase has the tokens of the phrase, so reading it gives its tree,
provided that names stand where a scan takes them for names: a run right after
an opening parenthesis is an operator, any other an argument.
-/

namespace Stepper

open Token (IsRun isContent content scan isRunChar)

namespace Phrase

mutual
def text : Phrase → String
  | .operator name => name
  | .argument text => text
  | .form items => Node.parenthesized (texts items)

def texts : List Phrase → List String
  | [] => []
  | item :: rest => item.text :: texts rest
end

mutual
/-- Whether the text of a phrase spells it at the start of a form, or elsewhere. -/
def SpelledAt (first : Bool) : Phrase → Prop
  | .operator name => first = true ∧ IsRun name
  | .argument text => first = false ∧ IsRun text
  | .form items => SpelledRow true items

def SpelledRow (first : Bool) : List Phrase → Prop
  | [] => True
  | item :: rest => item.SpelledAt first ∧ SpelledRow false rest
end

/-- What may follow an item: the end, a space or a closing parenthesis. -/
def Follows (chars : List Char) : Prop :=
  chars = [] ∨ ∃ rest, chars = ' ' :: rest ∨ chars = ')' :: rest

end Phrase

namespace Token

open Phrase (Follows)

variable {kind : Kind} {reversed run rest : List Char}

theorem scan_run (isRun : ∀ c ∈ run, isRunChar c = true) :
    scan kind reversed (run ++ rest) = scan kind (run.reverse ++ reversed) rest := by
  induction run generalizing reversed with
  | nil => rfl
  | cons c run ih =>
      have inRun : isRunChar c = true := isRun c (by simp)
      rw [List.cons_append, scan, if_pos inRun, ih fun d member => isRun d (by simp [member])]
      simp only [List.reverse_cons, List.append_assoc, List.cons_append, List.nil_append]

/-- A run that has been read is one token, and the scan goes on as after an argument. -/
theorem scan_follows (follows : Follows rest) :
    scan kind reversed rest = ofRun kind reversed ++ scan .argument [] rest := by
  rcases follows with rfl | ⟨rest, rfl | rfl⟩ <;> rfl

theorem scan_lexeme {lexeme : String} (isRun : IsRun lexeme) (follows : Follows rest) :
    scan kind [] (lexeme.toList ++ rest) = ⟨lexeme, kind⟩ :: scan .argument [] rest := by
  have nonempty : lexeme.toList.reverse.isEmpty = false := by
    cases letters : lexeme.toList with
    | nil => exact absurd (String.toList_inj.mp (letters.trans String.toList_empty.symm)) isRun.1
    | cons c cs => simp
  rw [scan_run isRun.2, scan_follows follows, List.append_nil]
  simp only [ofRun, nonempty, Bool.false_eq_true, if_false, List.reverse_reverse,
    String.ofList_toList, List.cons_append, List.nil_append]

end Token

namespace Phrase

theorem toList_texts_cons (item next : Phrase) (rest : List Phrase) :
    (" ".intercalate (texts (item :: next :: rest))).toList =
      item.text.toList ++ ' ' :: (" ".intercalate (texts (next :: rest))).toList := by
  simp only [texts, String.intercalate_cons_cons, String.toList_append, List.append_assoc]
  rfl

mutual
theorem scan_phrase {first : Bool} (phrase : Phrase) (spelled : phrase.SpelledAt first)
    {rest : List Char} (follows : Follows rest) :
    (scan (.ofRun first) [] (phrase.text.toList ++ rest)).filter isContent =
      phrase.tokens ++ (scan .argument [] rest).filter isContent := by
  cases phrase with
  | operator name =>
      obtain ⟨rfl, isRun⟩ := spelled
      rw [text, Token.scan_lexeme isRun follows, List.filter_cons_of_pos rfl]
      rfl
  | argument text =>
      obtain ⟨rfl, isRun⟩ := spelled
      rw [Phrase.text, Token.scan_lexeme isRun follows, List.filter_cons_of_pos rfl]
      rfl
  | form items =>
      have opened : scan (.ofRun first) [] ((form items).text.toList ++ rest) =
          Token.opening ::
            scan (.ofRun true) [] ((" ".intercalate (texts items)).toList ++ ')' :: rest) := by
        simp only [text, Node.parenthesized, String.toList_append, List.append_assoc]
        rfl
      rw [opened, List.filter_cons_of_pos rfl,
        scan_row items spelled (.inr ⟨rest, .inr rfl⟩), tokens]
      have closed : scan .argument [] (')' :: rest) = Token.closing :: scan .argument [] rest := rfl
      rw [closed, List.filter_cons_of_pos rfl]
      simp only [List.cons_append, List.append_assoc, List.nil_append]

theorem scan_row {first : Bool} (items : List Phrase) (spelled : SpelledRow first items)
    {rest : List Char} (follows : Follows rest) :
    (scan (.ofRun first) [] ((" ".intercalate (texts items)).toList ++ rest)).filter isContent =
      tokensOfAll items ++ (scan .argument [] rest).filter isContent := by
  match items with
  | [] => rw [texts, String.intercalate_nil, String.toList_empty, List.nil_append,
      Token.scan_follows follows]; rfl
  | [item] =>
      rw [texts, texts, String.intercalate_singleton, scan_phrase item spelled.1 follows]
      simp only [tokensOfAll, List.append_nil]
  | item :: next :: more =>
      rw [toList_texts_cons, List.append_assoc, List.cons_append,
        scan_phrase item spelled.1 (.inr ⟨_, .inl rfl⟩), tokensOfAll, List.append_assoc,
        ← scan_row (next :: more) spelled.2 follows]
      rfl
end

theorem content_text {phrase : Phrase} (spelled : phrase.SpelledAt false) :
    content phrase.text = phrase.tokens := by
  have scanned := scan_phrase phrase spelled (.inl rfl)
  rw [List.append_nil] at scanned
  have nothing : (scan .argument [] []).filter isContent = [] := rfl
  rw [nothing, List.append_nil] at scanned
  exact scanned

theorem content_word {text : String} (isRun : IsRun text) :
    content text = [⟨text, .argument⟩] := by
  have spelled : (argument text).SpelledAt false := ⟨rfl, isRun⟩
  exact content_text spelled

theorem read_text {items : List Phrase} (spelled : (form items).SpelledAt false) :
    Node.read (form items).text = .ok (tree items) :=
  Node.read_form (content_text spelled)

end Phrase

end Stepper
