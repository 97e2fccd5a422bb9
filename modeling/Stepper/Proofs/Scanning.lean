import Mathlib
import Stepper.Token

/-!
What scanning a text gives: parentheses and spaces as single characters, and
the runs between them.
-/

namespace Stepper.Token

def opening : Token := ⟨"(", .leftParen⟩

def closing : Token := ⟨")", .rightParen⟩

def isContent (token : Token) : Bool :=
  token.kind != .space && token.kind != .endOfInput

/-- The tokens of a text other than spaces and the end of the input. -/
def content (source : String) : List Token :=
  (tokenize source).filter isContent

theorem eq_delimiter {c : Char} (delimiter : ¬ isRunChar c = true) :
    c = '(' ∨ c = ')' ∨ c = ' ' ∨ c = '\n' := by
  simp only [isRunChar, Bool.and_eq_true, bne_iff_ne, not_and, Decidable.not_not] at delimiter
  by_cases isOpen : c = '('
  · exact .inl isOpen
  by_cases isClose : c = ')'
  · exact .inr (.inl isClose)
  by_cases isSpace : c = ' '
  · exact .inr (.inr (.inl isSpace))
  · exact .inr (.inr (.inr (delimiter ⟨⟨isOpen, isClose⟩, isSpace⟩)))

theorem ofRun_kind (afterOpen : Bool) :
    Kind.ofRun afterOpen = .operatorName ∨ Kind.ofRun afterOpen = .argument := by
  cases afterOpen
  · exact .inr rfl
  · exact .inl rfl

/-- A text that is one run of characters between delimiters. -/
def IsRun (text : String) : Prop :=
  text ≠ "" ∧ ∀ c ∈ text.toList, isRunChar c = true

theorem ofRun_member {kind : Kind} {reversed : List Char} {token : Token}
    (run : ∀ c ∈ reversed, isRunChar c = true) (member : token ∈ ofRun kind reversed) :
    token.kind = kind ∧ IsRun token.lexeme := by
  unfold ofRun at member
  split at member
  · cases member
  · rename_i nonempty
    obtain rfl := List.mem_singleton.mp member
    refine ⟨rfl, ?_, fun c inside => run c (by simpa using inside)⟩
    intro empty
    have letters := congrArg String.toList empty
    simp at letters
    simp [letters] at nonempty

/-- The tokens of a scan: spaces, the end, parentheses, and runs. -/
theorem scan_member {kind : Kind} {reversed chars : List Char} {token : Token}
    (runKind : kind = .operatorName ∨ kind = .argument)
    (run : ∀ c ∈ reversed, isRunChar c = true) (member : token ∈ scan kind reversed chars) :
    token.kind = .space ∨ token.kind = .endOfInput ∨ token = opening ∨ token = closing ∨
      (token.kind = .operatorName ∨ token.kind = .argument) ∧ IsRun token.lexeme := by
  induction chars generalizing kind reversed with
  | nil =>
      simp only [scan, List.mem_append, List.mem_singleton] at member
      rcases member with member | rfl
      · obtain ⟨rfl, isRun⟩ := ofRun_member run member
        exact .inr (.inr (.inr (.inr ⟨runKind, isRun⟩)))
      · exact .inr (.inl rfl)
  | cons c chars ih =>
      rw [scan] at member
      split at member
      · rename_i inRun
        refine ih runKind (fun d inside => ?_) member
        rcases List.mem_cons.mp inside with rfl | inside
        · exact inRun
        · exact run d inside
      · rename_i delimiter
        simp only [List.mem_append, List.mem_cons] at member
        rcases member with member | rfl | member
        · obtain ⟨rfl, isRun⟩ := ofRun_member run member
          exact .inr (.inr (.inr (.inr ⟨runKind, isRun⟩)))
        · rcases eq_delimiter delimiter with rfl | rfl | rfl | rfl
          · exact .inr (.inr (.inl rfl))
          · exact .inr (.inr (.inr (.inl rfl)))
          · exact .inl rfl
          · exact .inl rfl
        · exact ih (ofRun_kind _) (by simp) member

theorem content_member {source : String} {token : Token} (member : token ∈ content source) :
    token = opening ∨ token = closing ∨
      (token.kind = .operatorName ∨ token.kind = .argument) ∧ IsRun token.lexeme := by
  obtain ⟨scanned, kept⟩ := List.mem_filter.mp member
  simp only [isContent, Bool.and_eq_true, bne_iff_ne] at kept
  rcases scan_member (.inr rfl) (fun c inside => by cases inside) scanned with space | ended | genuine
  · exact absurd space kept.1
  · exact absurd ended kept.2
  · exact genuine

end Stepper.Token
