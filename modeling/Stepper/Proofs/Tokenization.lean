import Stepper.Proofs.Spelling

/-!
Texts and rows of tokens. A scan loses nothing: the lexemes of its tokens spell
the text. Conversely a row whose tokens stand as those of a scan do is what a
scan of the text that it spells gives.
-/

namespace Stepper.Token

/-- The token that ends every row. -/
def ending : Token := ⟨"", .endOfInput⟩

/-- A parenthesis, a space or a line break, with the kind that belongs to it. -/
def IsDelimiter (token : Token) : Prop :=
  token = opening ∨ token = closing ∨ token = ⟨" ", .space⟩ ∨ token = ⟨"\n", .space⟩

/-- A run of characters between delimiters. -/
def IsWord (token : Token) : Prop :=
  (token.kind = .operatorName ∨ token.kind = .argument) ∧ IsRun token.lexeme

/-- Whether a token other than the end can stand right after `previous`, or at
the start of a text. No word follows a word, and a word is an operator name
exactly if it follows an opening parenthesis. -/
def MayFollow (previous : Option Token) (token : Token) : Prop :=
  token.IsDelimiter ∨
    token.IsWord ∧ (∀ other ∈ previous, ¬ other.IsWord) ∧
      (token.kind = .operatorName ↔ previous = some opening)

/-- Rows of tokens right after `previous`, or of a whole text. The end of the
input stands last and nowhere else. -/
def RowAfter (previous : Option Token) : List Token → Prop
  | [] => False
  | token :: rest =>
    token = ending ∧ rest = [] ∨ token.MayFollow previous ∧ RowAfter (some token) rest

/-- The text that a row of tokens spells. -/
def spelling (tokens : List Token) : String :=
  String.join (tokens.map lexeme)

theorem toList_spelling_cons (token : Token) (rest : List Token) :
    (spelling (token :: rest)).toList = token.lexeme.toList ++ (spelling rest).toList := by
  simp [spelling, String.toList_join]

theorem toList_spelling_append (tokens rest : List Token) :
    (spelling (tokens ++ rest)).toList = (spelling tokens).toList ++ (spelling rest).toList := by
  simp [spelling, String.toList_join]

theorem isDelimiter_iff {token : Token} :
    token.IsDelimiter ↔
      ∃ c, ¬ isRunChar c = true ∧ token = ⟨String.singleton c, .ofChar false c⟩ := by
  constructor
  · intro delimiter
    rcases delimiter with rfl | rfl | rfl | rfl
    · exact ⟨'(', by decide, rfl⟩
    · exact ⟨')', by decide, rfl⟩
    · exact ⟨' ', by decide, rfl⟩
    · exact ⟨'\n', by decide, rfl⟩
  · rintro ⟨c, delimiter, rfl⟩
    rcases eq_delimiter delimiter with rfl | rfl | rfl | rfl
    · exact .inl rfl
    · exact .inr (.inl rfl)
    · exact .inr (.inr (.inl rfl))
    · exact .inr (.inr (.inr rfl))

theorem IsDelimiter.not_isWord {token : Token} (delimiter : token.IsDelimiter) :
    ¬ token.IsWord := by
  intro word
  rcases delimiter with rfl | rfl | rfl | rfl <;> simp [IsWord, opening, closing] at word

/-- After a delimiter the kind of a run is that which the scan expects. -/
theorem ofRun_singleton (c : Char) :
    Kind.ofRun (c == '(') =
      Kind.ofRun (some ⟨String.singleton c, .ofChar false c⟩ = some opening) := by
  by_cases isOpen : c = '('
  · subst isOpen
    rfl
  · have notOpen : (c == '(') = false := by simpa using isOpen
    have other : ¬ (⟨String.singleton c, .ofChar false c⟩ : Token) = opening := by
      intro same
      have letters := congrArg (fun token => token.lexeme.toList) same
      exact isOpen (by simpa [opening] using letters)
    simp [notOpen, other]

section Scan

variable {previous : Option Token} {reversed chars : List Char}

theorem ofRun_eq_nil (kind : Kind) : ofRun kind [] = [] := rfl

theorem ofRun_reverse {word : Token} (isWord : word.IsWord) :
    ofRun word.kind word.lexeme.toList.reverse = [word] := by
  have nonempty : word.lexeme.toList ≠ [] := by
    intro empty
    exact isWord.2.1 (String.toList_inj.mp (empty.trans String.toList_empty.symm))
  simp [ofRun, nonempty]

theorem toList_spelling_ofRun (kind : Kind) (reversed : List Char) :
    (spelling (ofRun kind reversed)).toList = reversed.reverse := by
  cases reversed with
  | nil => rfl
  | cons c rest => simp [ofRun, spelling]

/-- The tokens of a scan spell the run that was read before it and the rest. -/
theorem toList_spelling_scan (kind : Kind) (reversed chars : List Char) :
    (spelling (scan kind reversed chars)).toList = reversed.reverse ++ chars := by
  induction chars generalizing kind reversed with
  | nil =>
      rw [scan, toList_spelling_append, toList_spelling_ofRun]
      rfl
  | cons c rest ih =>
      rw [scan]
      split
      · rw [ih]
        simp
      · rw [toList_spelling_append, toList_spelling_ofRun, toList_spelling_cons, ih]
        simp

theorem rowAfter_ofRun {row : List Token} (delimited : ∀ other ∈ previous, ¬ other.IsWord)
    (run : ∀ c ∈ reversed, isRunChar c = true) (later : ∀ previous, RowAfter previous row) :
    RowAfter previous (ofRun (.ofRun (previous = some opening)) reversed ++ row) := by
  cases reversed with
  | nil => exact later previous
  | cons c rest =>
      have only : ofRun (.ofRun (previous = some opening)) (c :: rest) =
          [⟨String.ofList (c :: rest).reverse, .ofRun (previous = some opening)⟩] := rfl
      rw [only]
      refine .inr ⟨.inr ⟨⟨ofRun_kind _, ?_⟩, delimited, ?_⟩, later _⟩
      · exact (ofRun_member run (only ▸ List.mem_cons_self)).2
      · by_cases isOpen : previous = some opening
        · simp [isOpen, Kind.ofRun]
        · simp [isOpen, Kind.ofRun]

/-- A scan gives a row. What was read of a run before it follows `previous`. -/
theorem rowAfter_scan (delimited : ∀ other ∈ previous, ¬ other.IsWord)
    (run : ∀ c ∈ reversed, isRunChar c = true) :
    RowAfter previous (scan (.ofRun (previous = some opening)) reversed chars) := by
  induction chars generalizing previous reversed with
  | nil =>
      rw [scan]
      exact rowAfter_ofRun delimited run fun _ => .inl ⟨rfl, rfl⟩
  | cons c rest ih =>
      rw [scan]
      split
      · rename_i inRun
        exact ih delimited (List.forall_mem_cons.mpr ⟨inRun, run⟩)
      · rename_i delimiter
        have isDelimiter := isDelimiter_iff.mpr ⟨c, delimiter, rfl⟩
        have later : RowAfter (some ⟨String.singleton c, .ofChar false c⟩)
            (scan (.ofRun (c == '(')) [] rest) := by
          rw [ofRun_singleton]
          refine ih ?_ (by simp)
          intro other same
          cases same
          exact isDelimiter.not_isWord
        exact rowAfter_ofRun delimited run fun _ => .inr ⟨.inl isDelimiter, later⟩

/-- What a scan finds next, be it that a word was just read or a delimiter, is
the row that the rest of the text spells. -/
theorem scan_rowAfter {tokens : List Token} (row : RowAfter previous tokens) :
    (∀ word ∈ previous, word.IsWord →
      scan word.kind word.lexeme.toList.reverse (spelling tokens).toList = word :: tokens) ∧
    ((∀ other ∈ previous, ¬ other.IsWord) →
      scan (.ofRun (previous = some opening)) [] (spelling tokens).toList = tokens) := by
  induction tokens generalizing previous with
  | nil => exact row.elim
  | cons token rest ih =>
      rw [toList_spelling_cons]
      rcases row with ⟨rfl, rfl⟩ | ⟨delimiter | ⟨isWord, delimited, kind⟩, later⟩
      · constructor
        · intro word _ isWord
          have ended : scan word.kind word.lexeme.toList.reverse [] =
              ofRun word.kind word.lexeme.toList.reverse ++ [ending] := rfl
          exact ended.trans (by rw [ofRun_reverse isWord]; rfl)
        · intro _
          rfl
      · have notWord := delimiter.not_isWord
        have next := (ih later).2 (by
          intro other same
          cases same
          exact notWord)
        obtain ⟨c, outside, rfl⟩ := isDelimiter_iff.mp delimiter
        rw [← ofRun_singleton] at next
        rw [String.toList_singleton, List.singleton_append]
        constructor
        · intro word _ isWord
          rw [scan, if_neg outside, ofRun_reverse isWord, next]
          rfl
        · intro _
          rw [scan, if_neg outside, ofRun_eq_nil, next]
          rfl
      -- a word: the scan collects it, and the first part of the hypothesis then ends it
      · have expected : Kind.ofRun (previous = some opening) = token.kind := by
          by_cases isOpen : previous = some opening
          · simp [isOpen, Kind.ofRun, kind.mpr isOpen]
          · have argument : token.kind = .argument :=
              isWord.1.resolve_left fun isOperator => isOpen (kind.mp isOperator)
            simp [isOpen, Kind.ofRun, argument]
        constructor
        · intro word same isWord
          exact absurd isWord (delimited word same)
        · intro _
          rw [expected, scan_run isWord.2.2, List.append_nil]
          exact (ih later).1 token rfl isWord

end Scan

theorem rowAfter_tokenize (source : String) : RowAfter none (tokenize source) :=
  rowAfter_scan (by simp) (by simp)

theorem spelling_tokenize (source : String) : spelling (tokenize source) = source := by
  rw [← String.toList_inj, tokenize, toList_spelling_scan]
  rfl

theorem tokenize_spelling {tokens : List Token} (row : RowAfter none tokens) :
    tokenize (spelling tokens) = tokens :=
  (scan_rowAfter row).2 (by simp)

/-- Texts and rows of tokens correspond one to one: the tokens of a text are the
one row that spells it. No character is taken for the end of the input, so a
scan never comes to a halt before the end. -/
theorem texts_and_rows_correspond :
    (∀ source tokens, tokenize source = tokens ↔
      RowAfter none tokens ∧ spelling tokens = source) ∧
    ∀ c previous, classify (some (String.singleton c)) previous ≠ .endOfInput := by
  refine ⟨fun source tokens => ⟨?_, ?_⟩, fun c previous => ?_⟩
  · rintro rfl
    exact ⟨rowAfter_tokenize source, spelling_tokenize source⟩
  · rintro ⟨row, rfl⟩
    exact tokenize_spelling row
  · have classified : classify (some (String.singleton c)) previous =
        .ofChar (previous = some "(") c := by
      simp [classify]
    rw [classified, Kind.ofChar]
    split
    · simp
    split
    · simp
    split
    · simp
    · rcases ofRun_kind (previous = some "(") with kind | kind <;> simp [kind]

end Stepper.Token
