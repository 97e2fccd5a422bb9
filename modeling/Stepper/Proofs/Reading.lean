import Stepper.Proofs.Phrase

/-!
The reader follows the grammar. It keeps the expressions that are still open on
a stack; reading a phrase leaves the stack as it was, with the tree of the phrase
as one more child of the innermost expression.
-/

namespace Stepper

open Phrase
open Token (opening closing content)

namespace Node

variable {source : String} {levels outer : List (List Form)} {children : List Form} {height : Nat}
variable {token : Token} {rest : List Token}

theorem readTokens_skip (kind : token.kind = .space ∨ token.kind = .endOfInput) :
    readTokens source levels height (token :: rest) = readTokens source levels height rest := by
  rw [readTokens.eq_def]
  rcases kind with kind | kind <;> simp only [kind]

theorem readTokens_open (kind : token.kind = .leftParen) :
    readTokens source levels height (token :: rest) =
      readTokens source ([] :: levels) (max height (levels.length + 1)) rest := by
  rw [readTokens.eq_def]
  simp only [kind]

theorem readTokens_operator (kind : token.kind = .operatorName) :
    readTokens source (children :: outer) height (token :: rest) =
      readTokens source ((.operator token.lexeme (outer.length + 1 : Nat) :: children) :: outer)
        height rest := by
  rw [readTokens.eq_def]
  simp only [kind, List.length_cons]

theorem readTokens_argument (kind : token.kind = .argument) :
    readTokens source (children :: outer) height (token :: rest) =
      readTokens source
        ((.literal (.text token.lexeme) (outer.length + 1 : Nat) :: children) :: outer)
        height rest := by
  rw [readTokens.eq_def]
  simp only [kind, List.length_cons]

theorem readTokens_close {siblings : List Form} (kind : token.kind = .rightParen) :
    readTokens source (children :: siblings :: outer) height (token :: rest) =
      readTokens source
        ((.expression children.reverse { depth := (outer.length + 1 : Nat) } :: siblings) :: outer)
        height rest := by
  rw [readTokens.eq_def]
  simp only [kind, Int.natCast_add, Int.cast_ofNat_Int]

theorem readTokens_close_root (kind : token.kind = .rightParen) :
    readTokens source [children] height (token :: rest) =
      (.expression children.reverse { depth := 0, height } :: (readTokens source [] 0 rest).1,
        (readTokens source [] 0 rest).2) := by
  rw [readTokens.eq_def]
  simp only [kind]

theorem readTokens_content (row : List Token) :
    readTokens source levels height (row.filter Token.isContent) =
      readTokens source levels height row := by
  induction row generalizing levels height with
  | nil => rfl
  | cons token row ih =>
      cases kind : token.kind with
      | space => rw [readTokens_skip (.inl kind), ← ih]; simp [Token.isContent, kind]
      | endOfInput => rw [readTokens_skip (.inr kind), ← ih]; simp [Token.isContent, kind]
      | leftParen =>
          rw [readTokens_open kind, ← ih, ← readTokens_open kind]
          simp [Token.isContent, kind]
      | operatorName =>
          cases levels with
          | nil => simp [Token.isContent, readTokens, kind]
          | cons children outer =>
              rw [readTokens_operator kind, ← ih, ← readTokens_operator kind]
              simp [Token.isContent, kind]
      | argument =>
          cases levels with
          | nil => simp [Token.isContent, readTokens, kind]
          | cons children outer =>
              rw [readTokens_argument kind, ← ih, ← readTokens_argument kind]
              simp [Token.isContent, kind]
      | rightParen =>
          rcases levels with _ | ⟨children, _ | ⟨siblings, outer⟩⟩
          · simp [Token.isContent, readTokens, kind]
          · rw [readTokens_close_root kind, ← ih, ← readTokens_close_root kind]
            simp [Token.isContent, kind]
          · rw [readTokens_close kind, ← ih, ← readTokens_close kind]
            simp [Token.isContent, kind]

mutual
/-- Reading a phrase inside an open expression adds its tree to the children of
that expression. -/
theorem readTokens_phrase (phrase : Phrase) {outer : List (List Form)} {children : List Form}
    {height : Nat} {rest : List Token} (within : outer.length + 1 ≤ height) :
    readTokens source (children :: outer) height (phrase.tokens ++ rest) =
      readTokens source ((phrase.node (outer.length + 1) :: children) :: outer)
        (max height (outer.length + 1 + phrase.height)) rest := by
  cases phrase with
  | operator name =>
      have kept : max height (outer.length + 1) = height := Nat.max_eq_left within
      simp only [tokens, List.cons_append, List.nil_append, readTokens_operator, node,
        Phrase.height, Nat.add_zero, kept]
  | argument text =>
      have kept : max height (outer.length + 1) = height := Nat.max_eq_left within
      simp only [tokens, List.cons_append, List.nil_append, readTokens_argument, node,
        Phrase.height, Nat.add_zero, kept]
  | form items =>
      have top : max (max height (outer.length + 1 + 1)) (outer.length + 1 + 1 + heightOfAll items) =
          max height (outer.length + 1 + (heightOfAll items + 1)) := by omega
      rw [tokens, List.cons_append, List.append_assoc, readTokens_open rfl,
        readTokens_phrases items (Nat.le_max_right _ _), List.cons_append,
        readTokens_close rfl]
      simp only [List.length_cons, List.append_nil, List.reverse_reverse, List.nil_append, top,
        node, Phrase.height]

theorem readTokens_phrases (items : List Phrase) {outer : List (List Form)}
    {children : List Form} {height : Nat} {rest : List Token} (within : outer.length + 1 ≤ height) :
    readTokens source (children :: outer) height (tokensOfAll items ++ rest) =
      readTokens source (((nodes (outer.length + 1) items).reverse ++ children) :: outer)
        (max height (outer.length + 1 + heightOfAll items)) rest := by
  cases items with
  | nil =>
      have kept : max height (outer.length + 1) = height := Nat.max_eq_left within
      simp only [tokensOfAll, List.nil_append, nodes, List.reverse_nil, heightOfAll, Nat.add_zero,
        kept]
  | cons item items =>
      have top : max (max height (outer.length + 1 + item.height))
            (outer.length + 1 + heightOfAll items) =
          max height (outer.length + 1 + max item.height (heightOfAll items)) := by omega
      rw [tokensOfAll, List.append_assoc, readTokens_phrase item within,
        readTokens_phrases items (Nat.le_trans within (Nat.le_max_left _ _))]
      simp only [top, nodes, List.reverse_cons, List.append_assoc, List.cons_append,
        List.nil_append, heightOfAll]
end

/-- Reading a form outside parentheses gives its tree. -/
theorem readTokens_form (items : List Phrase) :
    readTokens source [] 0 ((form items).tokens ++ rest) =
      (tree items :: (readTokens source [] 0 rest).1, (readTokens source [] 0 rest).2) := by
  have top : max (max 0 1) (1 + heightOfAll items) = heightOfAll items + 1 := by omega
  rw [tokens, List.cons_append, List.append_assoc, readTokens_open rfl,
    readTokens_phrases items (Nat.le_max_right _ _), List.cons_append, readTokens_close_root rfl]
  simp only [List.length_nil, Nat.zero_add, List.append_nil, List.reverse_reverse,
    List.nil_append, top, tree, Phrase.height]

theorem readTokens_forms (forms : List (List Phrase)) :
    readTokens source [] 0 (tokensOfForms forms ++ rest) =
      (forms.map tree ++ (readTokens source [] 0 rest).1, (readTokens source [] 0 rest).2) := by
  induction forms with
  | nil => rfl
  | cons items forms ih =>
      have split : tokensOfForms (items :: forms) ++ rest =
          (form items).tokens ++ (tokensOfForms forms ++ rest) := by
        simp only [tokensOfForms, List.flatMap_cons, List.append_assoc]
      rw [split, readTokens_form, ih]
      simp only [List.map_cons, List.cons_append]

/-- Inside an open expression that is never closed, reading finds no tree. -/
theorem readTokens_unclosed (row : List Token) {outer : List (List Form)} {children : List Form}
    {height : Nat} (genuine : ∀ token ∈ row, IsContent token)
    (never : ∀ items tail, row ≠ tokensOfAll items ++ closing :: tail)
    (within : outer.length + 1 ≤ height) :
    readTokens source (children :: outer) height row =
      ([], some (.malformed (.unmatchedOpen source))) := by
  have whole := descend_sound row.length genuine
  generalize (descend row.length row).1 = items at whole
  rcases descend_stops genuine (Nat.le_refl _) with ended | ⟨after, stopped⟩ | ⟨after, stopped, open_⟩
  · rw [ended] at whole
    rw [← whole, readTokens_phrases items within, readTokens.eq_2]
  · rw [stopped] at whole
    exact absurd whole.symm (never items after)
  · rw [stopped] at whole
    have shorter : after.length < row.length := by
      have bound := congrArg List.length whole
      simp only [List.length_append, List.length_cons] at bound
      omega
    have later : ∀ token ∈ after, IsContent token :=
      fun token member => genuine token (by simp [← whole, member])
    rw [← whole, readTokens_phrases items within, readTokens_open rfl]
    exact readTokens_unclosed after later open_ (Nat.le_max_right _ _)
termination_by row.length

/-- The failure to which the tokens left by the grammar lead. -/
def fault (source : String) : List Token → Option Failure
  | [] => none
  | token :: _ =>
    match token.kind with
    | .leftParen => some (.malformed (.unmatchedOpen source))
    | .rightParen => some (.malformed (.unmatchedClose source))
    | _ => some (.malformed (.outsideParentheses token.lexeme source))

theorem readTokens_offends {row : List Token} (genuine : ∀ token ∈ row, IsContent token)
    (offends : Offends row) : readTokens source [] 0 row = ([], fault source row) := by
  cases offends with
  | item leaf => rcases leaf with kind | kind <;> simp [readTokens, kind, fault]
  | closed => rfl
  | unclosed never =>
      rw [readTokens_open rfl, readTokens_unclosed _
        (fun token member => genuine token (List.mem_cons_of_mem _ member)) never
        (Nat.le_max_right _ _)]
      rfl

theorem bareArgument?_eq_some_iff {text : String} :
    bareArgument? (Token.tokenize source) = some text ↔ content source = [⟨text, .argument⟩] := by
  have contents : (Token.tokenize source).filter
      (fun token => token.kind != .space && token.kind != .endOfInput) = content source := rfl
  rw [bareArgument?, contents]
  split
  · rename_i token only
    rw [only]
    by_cases kind : token.kind = .argument
    · simp only [kind, if_true, Option.some.injEq, List.cons.injEq, and_true]
      exact ⟨fun same => by rw [← same, ← kind], fun same => by rw [same]⟩
    · simp only [kind, if_false, reduceCtorEq, List.cons.injEq, and_true, false_iff]
      exact fun same => kind (by rw [same])
  · rename_i several
    simp only [reduceCtorEq, false_iff]
    exact several _

theorem readAll_eq_readTokens (several : ∀ text, content source ≠ [⟨text, .argument⟩]) :
    readAll source = readTokens source [] 0 (content source) := by
  have noBare : bareArgument? (Token.tokenize source) = none := by
    cases bare : bareArgument? (Token.tokenize source) with
    | none => rfl
    | some text => exact absurd (bareArgument?_eq_some_iff.mp bare) (several text)
  rw [content, readTokens_content]
  simp only [readAll, noBare]

theorem readAll_forms {forms : List (List Phrase)} (spelled : content source = tokensOfForms forms)
    (several : ∀ text, content source ≠ [⟨text, .argument⟩]) :
    readAll source = (forms.map tree, none) := by
  have read : readTokens source [] 0 (tokensOfForms forms ++ []) = (forms.map tree ++ [], none) :=
    readTokens_forms forms
  rw [readAll_eq_readTokens several, spelled, ← List.append_nil (tokensOfForms forms), read,
    List.append_nil]

/-- Reading finds the trees of the forms that recursive descent finds, and fails
at what descent leaves. -/
theorem readTokens_parse {row : List Token} (genuine : ∀ token ∈ row, IsContent token) :
    readTokens source [] 0 row = ((parse row).1.map tree, fault source (parse row).2) := by
  have whole := parseForms_sound row.length genuine
  have left : ∀ token ∈ (parse row).2, IsContent token := by
    intro token member
    exact genuine token (by rw [← whole]; exact List.mem_append_right _ member)
  have stopped : readTokens source [] 0 (parse row).2 = ([], fault source (parse row).2) := by
    rcases parseForms_stops genuine (Nat.le_refl _) with ended | offends
    · rw [parse, ended]
      rfl
    · exact readTokens_offends left offends
  calc
    readTokens source [] 0 row = readTokens source [] 0 (tokensOfForms (parse row).1 ++
        (parse row).2) := congrArg (readTokens source [] 0) whole.symm
    _ = _ := by rw [readTokens_forms, stopped, List.append_nil]

theorem readAll_parse (several : ∀ text, content source ≠ [⟨text, .argument⟩]) :
    readAll source =
      ((parse (content source)).1.map tree, fault source (parse (content source)).2) := by
  rw [readAll_eq_readTokens several, readTokens_parse (content_genuine source)]

/-- A text that spells an integer with more digits than can be read. -/
def IsLong (text : String) : Prop :=
  ∃ negative digits, Numeral.parse? (Text.trim text.toList) = some (.integer negative digits) ∧
    maxDigits < digits.length

theorem bareLiteral_of_long {text : String} (long : IsLong text) :
    ∃ digits, bareLiteral text = .error (.badValue (.longNumeral digits)) := by
  obtain ⟨negative, digits, spelled, many⟩ := long
  refine ⟨digits.length, ?_⟩
  simp only [bareLiteral, Number.parse, spelled, Numeral.value, if_pos many]
  rfl

theorem bareLiteral_of_not_long {text : String} (short : ¬ IsLong text) :
    ∃ value, bareLiteral text = .ok (.literal value 0) := by
  cases spelled : Numeral.parse? (Text.trim text.toList) with
  | none => exact ⟨.text text, by simp only [bareLiteral, Number.parse, spelled]; rfl⟩
  | some numeral =>
      have denotes : ∃ number, numeral.value = .ok number := by
        cases numeral with
        | integer negative digits =>
            have few : ¬ maxDigits < digits.length :=
              fun many => short ⟨negative, digits, spelled, many⟩
            exact ⟨_, by rw [Numeral.value, if_neg few]⟩
        | decimal negative whole fraction exponent => exact ⟨_, rfl⟩
        | infinity negative => exact ⟨_, rfl⟩
      obtain ⟨number, value⟩ := denotes
      exact ⟨.ofNumber number, by simp only [bareLiteral, Number.parse, spelled, value]; rfl⟩

theorem fault_of_offends (source : String) {row : List Token} (offends : Offends row) :
    ∃ cause, fault source row = some (.malformed cause) := by
  cases offends with
  | @item token rest leaf =>
      refine ⟨.outsideParentheses token.lexeme source, ?_⟩
      rcases leaf with kind | kind <;> simp only [fault, kind]
  | closed => exact ⟨_, rfl⟩
  | unclosed never => exact ⟨_, rfl⟩

theorem read_bare {text : String} (bare : content source = [⟨text, .argument⟩]) :
    read source = bareLiteral text := by
  have nonempty : source ≠ "" := by
    rintro rfl
    cases bare
  rw [read, if_neg nonempty]
  simp only [readAll, bareArgument?_eq_some_iff.mpr bare]
  cases bareLiteral text with
  | ok node => rfl
  | error failure => rfl

theorem read_form {items : List Phrase} (spelled : content source = (form items).tokens) :
    read source = .ok (tree items) := by
  have nonempty : source ≠ "" := by
    rintro rfl
    cases spelled
  have all : readAll source = ([tree items], none) := by
    have forms : content source = tokensOfForms [items] := by simp [tokensOfForms, spelled]
    refine readAll_forms forms ?_
    intro text bare
    rw [spelled] at bare
    cases bare
  rw [read, if_neg nonempty, all]

theorem readForm_form {items : List Phrase} (spelled : content source = (form items).tokens) :
    readForm source = .ok (tree items) := by
  have nonempty : source ≠ "" := by
    rintro rfl
    cases spelled
  rw [readForm, if_neg nonempty, read_form spelled]

theorem read_malformed (nonempty : source ≠ "")
    (notForm : ∀ items, content source ≠ (form items).tokens)
    (several : ∀ text, content source ≠ [⟨text, .argument⟩]) :
    ∃ cause, read source = .error (.malformed cause) := by
  have whole := parseForms_sound (content source).length (content_genuine source)
  have stops := parseForms_stops (content_genuine source) (Nat.le_refl _)
  rw [read, if_neg nonempty, readAll_parse several]
  rw [← parse] at whole stops
  rcases parsed : parse (content source) with ⟨forms, left⟩
  rw [parsed] at whole stops
  rcases forms with _ | ⟨items, _ | ⟨next, more⟩⟩
  · rcases stops with rfl | offends
    · exact ⟨_, rfl⟩
    · obtain ⟨cause, failed⟩ := fault_of_offends source offends
      exact ⟨cause, by simp only [List.map_nil, failed]⟩
  · rcases stops with rfl | offends
    · exact absurd (by simpa [tokensOfForms] using whole.symm) (notForm items)
    · obtain ⟨cause, failed⟩ := fault_of_offends source offends
      exact ⟨cause, by simp only [List.map_cons, List.map_nil, failed]⟩
  · exact ⟨_, rfl⟩

theorem read_ne_blank (nonempty : source ≠ "") : read source ≠ .ok .blank := by
  intro blank
  by_cases bare : ∃ text, content source = [⟨text, .argument⟩]
  · obtain ⟨text, bare⟩ := bare
    rw [read_bare bare] at blank
    by_cases long : IsLong text
    · obtain ⟨digits, failed⟩ := bareLiteral_of_long long
      rw [failed] at blank
      cases blank
    · obtain ⟨value, literal⟩ := bareLiteral_of_not_long long
      rw [literal] at blank
      cases blank
  by_cases single : ∃ items, content source = (form items).tokens
  · obtain ⟨items, spelled⟩ := single
    rw [read_form spelled] at blank
    cases blank
  · obtain ⟨cause, failed⟩ := read_malformed nonempty (not_exists.mp single) (not_exists.mp bare)
    rw [failed] at blank
    cases blank

end Node

/-- A text whose content is not one argument reads as the trees of the forms
that recursive descent finds in it, and fails at what descent leaves, if that is
not the end. A text has one tree if it is one form or one argument; only a too
long integer makes an argument fail otherwise than as malformed. -/
theorem reading_follows_the_grammar (source : String) :
    ((∀ text, content source ≠ [⟨text, .argument⟩]) →
      Node.readAll source =
          ((parse (content source)).1.map tree, Node.fault source (parse (content source)).2) ∧
        tokensOfForms (parse (content source)).1 ++ (parse (content source)).2 = content source ∧
        ((parse (content source)).2 = [] ∨ Offends (parse (content source)).2 ∧
          ∃ cause, Node.fault source (parse (content source)).2 = some (.malformed cause)) ∧
        ((Node.readAll source).2 = none ↔ ∃ forms, content source = tokensOfForms forms) ∧
        ∀ forms, content source = tokensOfForms forms →
          Node.readAll source = (forms.map tree, none)) ∧
    (Node.read source = .ok .blank ↔ source = "") ∧
    (∀ items, content source = (form items).tokens → Node.read source = .ok (tree items)) ∧
    (∀ text, content source = [⟨text, .argument⟩] →
      (¬ Node.IsLong text → ∃ value, Node.read source = .ok (.literal value 0)) ∧
      (Node.IsLong text → ∃ digits, Node.read source = .error (.badValue (.longNumeral digits)))) ∧
    (source ≠ "" → (∀ items, content source ≠ (form items).tokens) →
      (∀ text, content source ≠ [⟨text, .argument⟩]) →
      ∃ cause, Node.read source = .error (.malformed cause)) := by
  have whole := parseForms_sound (content source).length (content_genuine source)
  have stops := parseForms_stops (content_genuine source) (Nat.le_refl _)
  refine ⟨fun several => ⟨Node.readAll_parse several, whole, ?_, ⟨?_, ?_⟩, ?_⟩, ⟨?_, ?_⟩, ?_, ?_,
    Node.read_malformed⟩
  · exact stops.imp id fun offends => ⟨offends, Node.fault_of_offends source offends⟩
  · intro complete
    rcases stops with ended | offends
    · exact ⟨_, by rw [← whole, ended, List.append_nil]⟩
    · obtain ⟨cause, failed⟩ := Node.fault_of_offends source offends
      rw [Node.readAll_parse several] at complete
      rw [← parse] at failed
      simp [failed] at complete
  · rintro ⟨forms, spelled⟩
    rw [Node.readAll_forms spelled several]
  · exact fun forms spelled => Node.readAll_forms spelled several
  · exact fun blank => Decidable.byContradiction fun nonempty => Node.read_ne_blank nonempty blank
  · rintro rfl
    rfl
  · exact fun items spelled => Node.read_form spelled
  · intro text bare
    rw [Node.read_bare bare]
    exact ⟨Node.bareLiteral_of_not_long, Node.bareLiteral_of_long⟩

theorem reading_stray_argument :
    (∀ text, content "(f (g 1)) x" ≠ [⟨text, .argument⟩]) ∧
      ∃ cause, Node.readAll "(f (g 1)) x" =
        ([tree [.operator "f", .form [.operator "g", .argument "1"]]],
          some (.malformed cause)) := by
  have tokens : content "(f (g 1)) x" =
      tokensOfForms [[.operator "f", .form [.operator "g", .argument "1"]]] ++
        [⟨"x", .argument⟩] := by decide +kernel
  have several : ∀ text, content "(f (g 1)) x" ≠ [⟨text, .argument⟩] := by
    intro text bare
    rw [tokens] at bare
    cases bare
  obtain ⟨read, _, stops, _⟩ := (reading_follows_the_grammar "(f (g 1)) x").1 several
  have parsed : parse (content "(f (g 1)) x") =
      ([[.operator "f", .form [.operator "g", .argument "1"]]], [⟨"x", .argument⟩]) := by
    rw [tokens]
    rfl
  rw [parsed] at read stops
  obtain ended | ⟨_, cause, failed⟩ := stops
  · cases ended
  · exact ⟨several, cause, by rw [read, failed]; rfl⟩

end Stepper
