import Stepper.Proofs.Spelling
import Stepper.Proofs.State

/-!
Printing a tree and reading it again. A printed tree has a space wherever two
items meet and nowhere else, so the first item of each form is read as an
operator, whatever it was before. All else is read as it was.
-/

namespace Stepper

open Token (IsRun isContent content scan isRunChar opening closing)

namespace Token

/-- The lexemes of a text, spaces aside. -/
def lexemes (source : String) : List String :=
  ((tokenize source).filter fun token => token.kind != .space).map (·.lexeme)

/-- Whether operator names stand only right after an opening parenthesis.
`first` tells whether one stands before the tokens. -/
def InPlace (first : Bool) : List Token → Prop
  | [] => True
  | token :: rest =>
    (token.kind = .operatorName → first = true) ∧ InPlace (token.kind == .leftParen) rest

variable {kind : Kind} {reversed chars : List Char} {tokens : List Token}

theorem InPlace.after_opening {first : Bool} (inPlace : InPlace false tokens) :
    InPlace first tokens := by
  cases tokens with
  | nil => trivial
  | cons token rest => exact ⟨fun isName => absurd (inPlace.1 isName) (by simp), inPlace.2⟩

theorem InPlace.append {first : Bool} {later : List Token}
    (inPlace : InPlace first (tokens ++ later)) :
    InPlace first tokens ∧ ∃ next, InPlace next later := by
  induction tokens generalizing first with
  | nil => exact ⟨trivial, first, inPlace⟩
  | cons token rest ih =>
      obtain ⟨before, after⟩ := ih inPlace.2
      exact ⟨⟨inPlace.1, before⟩, after⟩

/-- The run before a delimiter is a name only after an opening parenthesis. -/
theorem InPlace.ofRun_append (runKind : kind = .operatorName ∨ kind = .argument)
    (inPlace : InPlace false tokens) :
    InPlace (kind == .operatorName) ((ofRun kind reversed).filter isContent ++ tokens) := by
  unfold ofRun
  split
  · exact inPlace.after_opening
  · rcases runKind with rfl | rfl
    · exact ⟨fun _ => rfl, inPlace⟩
    · exact ⟨fun isName => (nomatch isName), inPlace⟩

theorem scan_inPlace (runKind : kind = .operatorName ∨ kind = .argument) :
    InPlace (kind == .operatorName) ((scan kind reversed chars).filter isContent) := by
  induction chars generalizing kind reversed with
  | nil =>
      rw [scan, List.filter_append]
      exact InPlace.ofRun_append runKind trivial
  | cons c chars ih =>
      rw [scan]
      split
      · exact ih runKind
      · rename_i delimiter
        rw [List.filter_append]
        apply InPlace.ofRun_append runKind
        rcases eq_delimiter delimiter with rfl | rfl | rfl | rfl
        · exact ⟨fun isName => (by cases isName), ih (.inl rfl)⟩
        · exact ⟨fun isName => (by cases isName), ih (.inr rfl)⟩
        · exact ih (.inr rfl)
        · exact ih (.inr rfl)

theorem content_inPlace (source : String) : InPlace false (content source) :=
  scan_inPlace (.inr rfl)

theorem filter_ofRun (runKind : kind = .operatorName ∨ kind = .argument) :
    (ofRun kind reversed).filter (fun token => token.kind != .space) =
      (ofRun kind reversed).filter isContent := by
  unfold ofRun
  split
  · rfl
  · rcases runKind with rfl | rfl <;> rfl

theorem filter_scan (runKind : kind = .operatorName ∨ kind = .argument) :
    (scan kind reversed chars).filter (fun token => token.kind != .space) =
      (scan kind reversed chars).filter isContent ++ [⟨"", .endOfInput⟩] := by
  induction chars generalizing kind reversed with
  | nil =>
      rw [scan, List.filter_append, List.filter_append, filter_ofRun runKind, List.append_assoc]
      rfl
  | cons c chars ih =>
      rw [scan]
      split
      · exact ih runKind
      · rename_i delimiter
        have later : (scan (.ofRun (c == '(')) [] chars).filter (fun token => token.kind != .space) =
            (scan (.ofRun (c == '(')) [] chars).filter isContent ++ [⟨"", .endOfInput⟩] :=
          ih (ofRun_kind _)
        rw [List.filter_append, List.filter_append, filter_ofRun runKind, List.append_assoc]
        congr 1
        rcases eq_delimiter delimiter with rfl | rfl | rfl | rfl
        · exact congrArg (opening :: ·) later
        · exact congrArg (closing :: ·) later
        · exact later
        · exact later

theorem lexemes_eq (source : String) :
    lexemes source = (content source).map (·.lexeme) ++ [""] := by
  rw [lexemes, tokenize, filter_scan (.inr rfl), List.map_append]
  rfl

end Token

namespace Phrase

mutual
/-- Whether a scan can find a phrase at the start of a form, or elsewhere: only
there is a name an operator. -/
def ScannedAt (first : Bool) : Phrase → Prop
  | .operator name => first = true ∧ IsRun name
  | .argument text => IsRun text
  | .form items => ScannedRow true items

def ScannedRow (first : Bool) : List Phrase → Prop
  | [] => True
  | item :: rest => item.ScannedAt first ∧ ScannedRow false rest
end

section Scanned

open Token (InPlace)

/-- The runs among some tokens are runs of characters. -/
def RunsIn (row : List Token) : Prop :=
  ∀ token ∈ row, token.kind = .operatorName ∨ token.kind = .argument → IsRun token.lexeme

mutual
theorem scannedAt_of_tokens {first : Bool} (phrase : Phrase) {rest : List Token}
    (inPlace : InPlace first (phrase.tokens ++ rest)) (runs : RunsIn phrase.tokens) :
    phrase.ScannedAt first ∧ InPlace false rest := by
  cases phrase with
  | operator name =>
      obtain ⟨afterOpening, later⟩ := inPlace
      exact ⟨⟨afterOpening rfl, runs _ List.mem_cons_self (.inl rfl)⟩, later⟩
  | argument text => exact ⟨runs _ List.mem_cons_self (.inr rfl), inPlace.2⟩
  | form items =>
      rw [tokens, List.cons_append, List.append_assoc] at inPlace
      obtain ⟨row, next, later⟩ := scannedRow_of_tokens items inPlace.2
        fun token member => runs token (by simp [tokens, member])
      exact ⟨row, later.2⟩

theorem scannedRow_of_tokens {first : Bool} (items : List Phrase) {rest : List Token}
    (inPlace : InPlace first (tokensOfAll items ++ rest)) (runs : RunsIn (tokensOfAll items)) :
    ScannedRow first items ∧ ∃ next, InPlace next rest := by
  cases items with
  | nil => exact ⟨trivial, first, inPlace⟩
  | cons item items =>
      rw [tokensOfAll, List.append_assoc] at inPlace
      obtain ⟨here, more⟩ := scannedAt_of_tokens item inPlace
        fun token member => runs token (by simp [tokensOfAll, member])
      obtain ⟨row, later⟩ := scannedRow_of_tokens items more
        fun token member => runs token (by simp [tokensOfAll, member])
      exact ⟨⟨here, row⟩, later⟩
end

theorem runsIn_content (source : String) : RunsIn (content source) := by
  intro token member isRun
  rcases Token.content_member member with rfl | rfl | ⟨_, run⟩
  · rcases isRun with isRun | isRun <;> cases isRun
  · rcases isRun with isRun | isRun <;> cases isRun
  · exact run

/-- The forms that begin a text can be found by a scan. -/
theorem scannedRow_of_forms {source : String} {forms : List (List Phrase)} {rest : List Token}
    (spelled : content source = tokensOfForms forms ++ rest) :
    ∀ items ∈ forms, ScannedRow true items := by
  intro items member
  obtain ⟨before, after, rfl⟩ := List.append_of_mem member
  have split : content source = tokensOfForms before ++ ((form items).tokens ++
      (tokensOfForms after ++ rest)) := by
    simp only [spelled, tokensOfForms, List.flatMap_append, List.flatMap_cons, List.append_assoc]
  have inPlace := Token.content_inPlace source
  rw [split] at inPlace
  obtain ⟨_, next, here⟩ := inPlace.append
  refine (scannedAt_of_tokens (form items) here fun token inside => ?_).1
  exact runsIn_content source token (by simp [split, inside])

theorem scannedRow_of_content {source : String} {items : List Phrase}
    (spelled : content source = (form items).tokens) : ScannedRow true items := by
  have single : content source = tokensOfForms [items] ++ [] := by
    simpa [tokensOfForms] using spelled
  exact scannedRow_of_forms single items List.mem_cons_self

end Scanned

mutual
/-- A phrase as its text is read: what stands first in a form is its operator. -/
def respelled (first : Bool) : Phrase → Phrase
  | .operator name => .operator name
  | .argument text => if first then .operator text else .argument text
  | .form items => .form (respelledRow true items)

def respelledRow (first : Bool) : List Phrase → List Phrase
  | [] => []
  | item :: rest => item.respelled first :: respelledRow false rest
end

mutual
theorem text_respelled (first : Bool) (phrase : Phrase) :
    (phrase.respelled first).text = phrase.text := by
  cases phrase with
  | operator name => rfl
  | argument text => cases first <;> rfl
  | form items => rw [respelled, text, texts_respelledRow, ← text]

theorem texts_respelledRow (first : Bool) (items : List Phrase) :
    texts (respelledRow first items) = texts items := by
  cases items with
  | nil => rfl
  | cons item rest => rw [respelledRow, texts, text_respelled, texts_respelledRow, ← texts]
end

mutual
theorem lexemes_respelled (first : Bool) (phrase : Phrase) :
    (phrase.respelled first).tokens.map (·.lexeme) = phrase.tokens.map (·.lexeme) := by
  cases phrase with
  | operator name => rfl
  | argument text => cases first <;> rfl
  | form items =>
      simp only [respelled, tokens, List.map_cons, List.map_append, lexemes_respelledRow]

theorem lexemes_respelledRow (first : Bool) (items : List Phrase) :
    (tokensOfAll (respelledRow first items)).map (·.lexeme) =
      (tokensOfAll items).map (·.lexeme) := by
  cases items with
  | nil => rfl
  | cons item rest =>
      simp only [respelledRow, tokensOfAll, List.map_append, lexemes_respelled,
        lexemes_respelledRow]
end

mutual
theorem height_respelled (first : Bool) (phrase : Phrase) :
    (phrase.respelled first).height = phrase.height := by
  cases phrase with
  | operator name => rfl
  | argument text => cases first <;> rfl
  | form items => rw [respelled, height, heightOfAll_respelledRow, ← height]

theorem heightOfAll_respelledRow (first : Bool) (items : List Phrase) :
    heightOfAll (respelledRow first items) = heightOfAll items := by
  cases items with
  | nil => rfl
  | cons item rest =>
      rw [respelledRow, heightOfAll, height_respelled, heightOfAll_respelledRow, ← heightOfAll]
end

mutual
theorem spelledAt_respelled {first : Bool} (phrase : Phrase) (scanned : phrase.ScannedAt first) :
    (phrase.respelled first).SpelledAt first := by
  cases phrase with
  | operator name => exact scanned
  | argument text =>
      cases first with
      | false => exact ⟨rfl, scanned⟩
      | true => exact ⟨rfl, scanned⟩
  | form items => exact spelledRow_respelledRow items scanned

theorem spelledRow_respelledRow {first : Bool} (items : List Phrase)
    (scanned : ScannedRow first items) : SpelledRow first (respelledRow first items) := by
  cases items with
  | nil => trivial
  | cons item rest =>
      exact ⟨spelledAt_respelled item scanned.1, spelledRow_respelledRow rest scanned.2⟩
end

mutual
theorem render_node (depth : Nat) (phrase : Phrase) :
    (phrase.node depth).render = .ok phrase.text := by
  cases phrase with
  | operator name => rfl
  | argument text => rfl
  | form items =>
      rw [node, Node.render, renderAll_nodes]
      rfl

theorem renderAll_nodes (depth : Nat) (items : List Phrase) :
    Node.renderAll (nodes depth items) = .ok (texts items) := by
  cases items with
  | nil => rfl
  | cons item rest =>
      rw [nodes, Node.renderAll, render_node, renderAll_nodes]
      rfl
end

theorem render_tree (items : List Phrase) : (tree items).render = .ok (form items).text := by
  rw [tree, Node.render, renderAll_nodes]
  rfl

end Phrase

namespace Node

mutual
/-- Whether some expression of a tree has a literal as its first child. -/
def hasLiteralHead {α : Type} : Node α → Bool
  | .expression children _ => children.head?.any isLiteral || anyLiteralHead children
  | _ => false

def anyLiteralHead {α : Type} : List (Node α) → Bool
  | [] => false
  | node :: rest => node.hasLiteralHead || anyLiteralHead rest
end

end Node

namespace Phrase

mutual
theorem node_respelled (first : Bool) (depth : Nat) (phrase : Phrase) :
    (phrase.respelled first).node depth = phrase.node depth ↔
      (first && (phrase.node depth).isLiteral) = false ∧
        (phrase.node depth).hasLiteralHead = false := by
  cases phrase with
  | operator name => simp [respelled, node, Node.isLiteral, Node.hasLiteralHead]
  | argument text => cases first <;> simp [respelled, node, Node.isLiteral, Node.hasLiteralHead]
  | form items =>
      simp [respelled, node, Node.isLiteral, Node.hasLiteralHead,
        nodes_respelledRow true (depth + 1) items]

theorem nodes_respelledRow (first : Bool) (depth : Nat) (items : List Phrase) :
    nodes depth (respelledRow first items) = nodes depth items ↔
      (first && (nodes depth items).head?.any Node.isLiteral) = false ∧
        Node.anyLiteralHead (nodes depth items) = false := by
  cases items with
  | nil => simp [respelledRow, nodes, Node.anyLiteralHead]
  | cons item rest =>
      simp only [respelledRow, nodes, List.cons.injEq, node_respelled first depth item,
        nodes_respelledRow false depth rest, List.head?_cons, Option.any_some, Bool.false_and,
        Node.anyLiteralHead, Bool.or_eq_false_iff, true_and, and_assoc]
end

theorem tree_respelledRow (items : List Phrase) :
    tree (respelledRow true items) = tree items ↔ (tree items).hasLiteralHead = false := by
  have sameHeight : (form (respelledRow true items)).height = (form items).height :=
    height_respelled true (form items)
  simp [tree, sameHeight, nodes_respelledRow true 1 items, Node.hasLiteralHead]

theorem read_text_respelled {items : List Phrase} (scanned : ScannedRow true items) :
    content (form items).text = (form (respelledRow true items)).tokens ∧
      Node.read (form items).text = .ok (tree (respelledRow true items)) := by
  have spelled : (form (respelledRow true items)).SpelledAt false :=
    spelledAt_respelled (form items) scanned
  have sameText : (form (respelledRow true items)).text = (form items).text :=
    text_respelled false (form items)
  rw [← sameText]
  exact ⟨content_text spelled, read_text spelled⟩

end Phrase

/-- What a text can be read as: a blank, a bare argument or a form. -/
theorem Node.of_read {source : String} {root : Form} (read : Node.read source = .ok root) :
    (source = "" ∧ root = .blank) ∨
      (∃ text, content source = [⟨text, .argument⟩] ∧ bareLiteral text = .ok root) ∨
      ∃ items, content source = (Phrase.form items).tokens ∧ root = Phrase.tree items := by
  by_cases empty : source = ""
  · subst empty
    cases read
    exact .inl ⟨rfl, rfl⟩
  by_cases bare : ∃ text, content source = [⟨text, .argument⟩]
  · obtain ⟨text, bare⟩ := bare
    rw [read_bare bare] at read
    exact .inr (.inl ⟨text, bare, read⟩)
  by_cases single : ∃ items, content source = (Phrase.form items).tokens
  · obtain ⟨items, spelled⟩ := single
    rw [read_form spelled] at read
    exact .inr (.inr ⟨items, spelled, (Except.ok.inj read).symm⟩)
  · obtain ⟨cause, failed⟩ := read_malformed empty (not_exists.mp single) (not_exists.mp bare)
    rw [failed] at read
    cases read

theorem Node.of_bareLiteral {text : String} {root : Form} (read : bareLiteral text = .ok root) :
    root = .literal (.text text) 0 ∨ ∃ number, root = .literal (.ofNumber number) 0 := by
  obtain ⟨parsed, _, rest⟩ := of_except_bind_ok read
  cases parsed with
  | none => exact .inl (Except.ok.inj rest).symm
  | some number => exact .inr ⟨number, (Except.ok.inj rest).symm⟩

/-- A printed tree has the lexemes of its source and can be read. It is read as
it was unless an expression in it has a literal as its first child. -/
theorem printed_tree_reads_back {source : String} {children : List Form} {frame : Frame}
    (read : Node.read source = .ok (.expression children frame)) :
    ∃ text again, (Node.expression children frame : Form).render = .ok text ∧
      Token.lexemes text = Token.lexemes source ∧ Node.read text = .ok again ∧
      (again = .expression children frame ↔
        (Node.expression children frame : Form).hasLiteralHead = false) := by
  rcases Node.of_read read with ⟨_, blank⟩ | ⟨_, _, literal⟩ | ⟨items, spelled, root⟩
  · cases blank
  · rcases Node.of_bareLiteral literal with root | ⟨_, root⟩ <;> cases root
  · obtain ⟨tokens, again⟩ := Phrase.read_text_respelled (Phrase.scannedRow_of_content spelled)
    rw [root]
    refine ⟨_, _, Phrase.render_tree items, ?_, again, Phrase.tree_respelledRow items⟩
    rw [Token.lexemes_eq, Token.lexemes_eq, tokens, spelled]
    exact congrArg (· ++ [""]) (Phrase.lexemes_respelled false (.form items))

theorem printed_tree_reads_back_spaced :
    ∃ root text again, Node.read "(f ( g\n1) ())" = .ok root ∧ root.hasLiteralHead = true ∧
      root.render = .ok text ∧ Token.lexemes text = Token.lexemes "(f ( g\n1) ())" ∧
      Node.read text = .ok again ∧ again ≠ root := by
  have spelled : content "(f ( g\n1) ())" =
      (Phrase.form [.operator "f", .form [.argument "g", .argument "1"], .form []]).tokens := by
    decide +kernel
  obtain ⟨text, again, printed, lexemes, read, same⟩ :=
    printed_tree_reads_back (Node.read_form spelled)
  refine ⟨_, text, again, Node.read_form spelled, rfl, printed, lexemes, read, fun equal => ?_⟩
  cases same.mp equal

end Stepper
