import Stepper.Node.Reader
import Stepper.Proofs.Scanning

/-!
Phrases: the grammar of source text. A form is a row of items between
parentheses; an item is an operator name, an argument or a form. Spaces only
separate tokens, so the grammar speaks about the tokens that are left when
spaces and the end of the input are dropped.
-/

namespace Stepper

inductive Phrase where
  | operator (name : String)
  | argument (text : String)
  | form (items : List Phrase)

namespace Phrase

open Token (opening closing)

mutual
/-- The tokens that spell a phrase. -/
def tokens : Phrase → List Token
  | .operator name => [⟨name, .operatorName⟩]
  | .argument text => [⟨text, .argument⟩]
  | .form items => opening :: (tokensOfAll items ++ [closing])

def tokensOfAll : List Phrase → List Token
  | [] => []
  | item :: rest => item.tokens ++ tokensOfAll rest
end

theorem mem_tokensOfAll {token : Token} {items : List Phrase} :
    token ∈ tokensOfAll items ↔ ∃ item ∈ items, token ∈ item.tokens := by
  induction items with
  | nil => simp [tokensOfAll]
  | cons item rest ih => simp [tokensOfAll, ih]

/-- The tokens of a row of forms, each given by its items. -/
def tokensOfForms (forms : List (List Phrase)) : List Token :=
  forms.flatMap fun items => (form items).tokens

mutual
/-- The levels of parentheses of a phrase. -/
def height : Phrase → Nat
  | .operator _ => 0
  | .argument _ => 0
  | .form items => heightOfAll items + 1

def heightOfAll : List Phrase → Nat
  | [] => 0
  | item :: rest => max item.height (heightOfAll rest)
end

mutual
/-- The tree of a phrase that stands `depth` levels deep. -/
def node (depth : Nat) : Phrase → Form
  | .operator name => .operator name depth
  | .argument text => .literal (.text text) depth
  | .form items => .expression (nodes (depth + 1) items) { depth }

def nodes (depth : Nat) : List Phrase → List Form
  | [] => []
  | item :: rest => item.node depth :: nodes depth rest
end

/-- The tree of a form that stands on its own. -/
def tree (items : List Phrase) : Form :=
  .expression (nodes 1 items) { depth := 0, height := (form items).height }

/-- Read items by recursive descent, up to the first token that begins none. An
opening parenthesis begins an item only if it is closed. `fuel` is at least the
number of tokens. -/
def descend : Nat → List Token → List Phrase × List Token
  | 0, tokens => ([], tokens)
  | _ + 1, [] => ([], [])
  | fuel + 1, token :: rest =>
    match token.kind with
    | .operatorName =>
      (.operator token.lexeme :: (descend fuel rest).1, (descend fuel rest).2)
    | .argument => (.argument token.lexeme :: (descend fuel rest).1, (descend fuel rest).2)
    | .leftParen =>
      match descend fuel rest with
      | (items, ⟨_, .rightParen⟩ :: after) =>
        (.form items :: (descend fuel after).1, (descend fuel after).2)
      | _ => ([], token :: rest)
    | _ => ([], token :: rest)

/-- Read forms by recursive descent, up to the first token that begins none. -/
def parseForms : Nat → List Token → List (List Phrase) × List Token
  | 0, tokens => ([], tokens)
  | _ + 1, [] => ([], [])
  | fuel + 1, token :: rest =>
    if token.kind = .leftParen then
      match descend fuel rest with
      | (items, ⟨_, .rightParen⟩ :: after) =>
        (items :: (parseForms fuel after).1, (parseForms fuel after).2)
      | _ => ([], token :: rest)
    else ([], token :: rest)

/-- The forms at the start of a row of tokens, and what is left of it. -/
def parse (tokens : List Token) : List (List Phrase) × List Token :=
  parseForms tokens.length tokens

/-- A token that can stand in a row of items. -/
def IsContent (token : Token) : Prop :=
  token = opening ∨ token = closing ∨ token.kind = .operatorName ∨ token.kind = .argument

/-- A row of tokens that begins with no form: an item outside parentheses, a
parenthesis that closes nothing, or one that is never closed. -/
inductive Offends : List Token → Prop where
  | item {token : Token} {rest : List Token}
      (leaf : token.kind = .operatorName ∨ token.kind = .argument) : Offends (token :: rest)
  | closed {rest : List Token} : Offends (closing :: rest)
  | unclosed {rest : List Token}
      (never : ∀ items tail, rest ≠ tokensOfAll items ++ closing :: tail) :
      Offends (opening :: rest)

theorem content_genuine (source : String) : ∀ token ∈ Token.content source, IsContent token := by
  intro token member
  rcases Token.content_member member with rfl | rfl | ⟨kind, _⟩
  · exact .inl rfl
  · exact .inr (.inl rfl)
  · exact .inr (.inr kind)

theorem IsContent.eq_opening {token : Token} (genuine : IsContent token)
    (kind : token.kind = .leftParen) : token = opening := by
  rcases genuine with rfl | rfl | other | other
  · rfl
  · cases kind
  · simp [kind] at other
  · simp [kind] at other

theorem IsContent.eq_closing {token : Token} (genuine : IsContent token)
    (kind : token.kind = .rightParen) : token = closing := by
  rcases genuine with rfl | rfl | other | other
  · cases kind
  · rfl
  · simp [kind] at other
  · simp [kind] at other

mutual
theorem descend_item (phrase : Phrase) {fuel : Nat} {more : List Token}
    (enough : (phrase.tokens ++ more).length ≤ fuel) :
    ∃ left, more.length ≤ left ∧ descend fuel (phrase.tokens ++ more) =
      (phrase :: (descend left more).1, (descend left more).2) := by
  cases fuel with
  | zero => cases phrase <;> simp [tokens] at enough
  | succ fuel =>
      cases phrase with
      | operator name =>
          refine ⟨fuel, by simp [tokens] at enough; omega, ?_⟩
          simp [tokens, descend]
      | argument text =>
          refine ⟨fuel, by simp [tokens] at enough; omega, ?_⟩
          simp [tokens, descend]
      | form items =>
          have inner : descend fuel (tokensOfAll items ++ closing :: more) =
              (items, closing :: more) :=
            descend_items items (by simp [tokens] at enough; simp; omega)
          refine ⟨fuel, by simp [tokens] at enough; omega, ?_⟩
          simp only [tokens, List.cons_append, List.append_assoc, List.nil_append, descend,
            opening, inner]
          rfl

theorem descend_items (items : List Phrase) {fuel : Nat} {tail : List Token}
    (enough : (tokensOfAll items ++ closing :: tail).length ≤ fuel) :
    descend fuel (tokensOfAll items ++ closing :: tail) = (items, closing :: tail) := by
  cases items with
  | nil =>
      cases fuel with
      | zero => simp at enough
      | succ fuel => rfl
  | cons item rest =>
      rw [tokensOfAll, List.append_assoc] at enough ⊢
      obtain ⟨left, room, read⟩ := descend_item item enough
      rw [read, descend_items rest room]
end

theorem descend_sound (fuel : Nat) {row : List Token} (genuine : ∀ token ∈ row, IsContent token) :
    tokensOfAll (descend fuel row).1 ++ (descend fuel row).2 = row := by
  fun_induction descend fuel row with
  | case1 row => rfl
  | case2 fuel => rfl
  | case3 fuel token rest kind ih =>
      have tail := ih fun token member => genuine token (by simp [member])
      simp only [tokensOfAll, tokens, List.cons_append, List.nil_append, List.cons.injEq]
      exact ⟨by rw [← kind], tail⟩
  | case4 fuel token rest kind ih =>
      have tail := ih fun token member => genuine token (by simp [member])
      simp only [tokensOfAll, tokens, List.cons_append, List.nil_append, List.cons.injEq]
      exact ⟨by rw [← kind], tail⟩
  | case5 fuel token rest kind items lexeme after found innerIH afterIH =>
      have inner := innerIH fun token member => genuine token (by simp [member])
      rw [found] at inner
      have closes : (⟨lexeme, .rightParen⟩ : Token) = closing :=
        IsContent.eq_closing (genuine _ (by simp [← inner])) rfl
      have later := afterIH fun token member => genuine token (by simp [← inner, member])
      rw [(genuine token (by simp)).eq_opening kind, ← inner, closes]
      simp only [tokensOfAll, tokens, List.cons_append, List.append_assoc, List.nil_append, later]
  | case6 fuel token rest => rfl
  | case7 fuel token rest => rfl

/-- Descent stops only at the end, at a closing parenthesis, or at an opening
one that is never closed. -/
theorem descend_stops {fuel : Nat} {row : List Token} (genuine : ∀ token ∈ row, IsContent token)
    (enough : row.length ≤ fuel) :
    (descend fuel row).2 = [] ∨ (∃ after, (descend fuel row).2 = closing :: after) ∨
      ∃ after, (descend fuel row).2 = opening :: after ∧
        ∀ items tail, after ≠ tokensOfAll items ++ closing :: tail := by
  fun_induction descend fuel row with
  | case1 row => exact .inl (List.eq_nil_of_length_eq_zero (Nat.le_zero.mp enough))
  | case2 fuel => exact .inl rfl
  | case3 fuel token rest kind ih =>
      exact ih (fun token member => genuine token (by simp [member])) (by simpa using enough)
  | case4 fuel token rest kind ih =>
      exact ih (fun token member => genuine token (by simp [member])) (by simpa using enough)
  | case5 fuel token rest kind items lexeme after found _ afterIH =>
      have whole := descend_sound fuel
        (fun token member => genuine token (List.mem_cons_of_mem _ member))
      rw [found] at whole
      have bound := congrArg List.length whole
      simp only [List.length_append, List.length_cons] at bound enough
      exact afterIH (fun token member => genuine token (by simp [← whole, member])) (by omega)
  | case6 fuel token rest kind open_ =>
      refine .inr (.inr ⟨rest, by rw [(genuine token (by simp)).eq_opening kind], ?_⟩)
      rintro items tail rfl
      exact open_ items ")" tail (descend_items items (by simpa using enough))
  | case7 fuel token rest notOperator notArgument notOpen =>
      rcases genuine token (by simp) with rfl | rfl | kind | kind
      · exact absurd rfl notOpen
      · exact .inr (.inl ⟨rest, rfl⟩)
      · exact absurd kind notOperator
      · exact absurd kind notArgument

theorem parseForms_sound (fuel : Nat) {row : List Token}
    (genuine : ∀ token ∈ row, IsContent token) :
    tokensOfForms (parseForms fuel row).1 ++ (parseForms fuel row).2 = row := by
  fun_induction parseForms fuel row with
  | case1 row => rfl
  | case2 fuel => rfl
  | case3 fuel token rest kind items lexeme after found ih =>
      have inner := descend_sound fuel
        (fun token member => genuine token (List.mem_cons_of_mem _ member))
      rw [found] at inner
      have closes : (⟨lexeme, .rightParen⟩ : Token) = closing :=
        IsContent.eq_closing (genuine _ (by simp [← inner])) rfl
      have later := ih fun token member => genuine token (by simp [← inner, member])
      rw [(genuine token (by simp)).eq_opening kind, ← inner, closes]
      simp only [tokensOfForms, List.flatMap_cons, tokens, List.cons_append, List.append_assoc,
        List.nil_append] at later ⊢
      rw [later]
  | case4 fuel token rest => rfl
  | case5 fuel token rest => rfl

theorem parseForms_stops {fuel : Nat} {row : List Token}
    (genuine : ∀ token ∈ row, IsContent token) (enough : row.length ≤ fuel) :
    (parseForms fuel row).2 = [] ∨ Offends (parseForms fuel row).2 := by
  fun_induction parseForms fuel row with
  | case1 row => exact .inl (List.eq_nil_of_length_eq_zero (Nat.le_zero.mp enough))
  | case2 fuel => exact .inl rfl
  | case3 fuel token rest kind items lexeme after found ih =>
      have whole := descend_sound fuel
        (fun token member => genuine token (List.mem_cons_of_mem _ member))
      rw [found] at whole
      have bound := congrArg List.length whole
      simp only [List.length_append, List.length_cons] at bound enough
      exact ih (fun token member => genuine token (by simp [← whole, member])) (by omega)
  | case4 fuel token rest kind open_ =>
      rw [(genuine token (by simp)).eq_opening kind]
      refine .inr (.unclosed ?_)
      rintro items tail rfl
      exact open_ items ")" tail (descend_items items (by simpa using enough))
  | case5 fuel token rest notOpen =>
      rcases genuine token (by simp) with rfl | rfl | kind | kind
      · exact absurd rfl notOpen
      · exact .inr .closed
      · exact .inr (.item (.inl kind))
      · exact .inr (.item (.inr kind))

end Phrase

end Stepper
