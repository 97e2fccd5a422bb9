import Stepper.Proofs.Tokenization

/-!
Reading a run. The search for the end of a run goes on over every position of
its kind, and nothing else stops it: the end of the input is a position of its
own kind, and so is every one after it. The search ends, then, unless the end
of the input is sought from there on. What it gives is the longest segment of
the kind, and a scan that goes from run to run in this way gives the tokens.
-/

namespace Stepper.Token

/-- The character at a position; past the end there is none. -/
def pieceAt (source : String) (position : Nat) : Option String :=
  source.toList[position]?.map String.singleton

/-- The text from one position up to another. -/
def slice (source : String) (start stop : Nat) : String :=
  String.ofList ((source.toList.drop start).take (stop - start))

/-- The search for the end of a run: from which position it comes to which. -/
inductive EndsAt (source : String) (kind : Kind) (previous : Option String) : Nat → Nat → Prop where
  | stop {position : Nat} (other : classify (pieceAt source position) previous ≠ kind) :
      EndsAt source kind previous position position
  | next {position stop : Nat} (same : classify (pieceAt source position) previous = kind)
      (later : EndsAt source kind previous (position + 1) stop) :
      EndsAt source kind previous position stop

/-- A segment of a text from `start` on whose characters are all of one kind. -/
structure IsSegment (source : String) (start : Nat) (kind : Kind) (previous : Option String)
    (run : String) : Prop where
  begins : run.toList <+: source.toList.drop start
  ofKind : ∀ c ∈ run.toList, classify (some (String.singleton c)) previous = kind

structure IsLongest (source : String) (start : Nat) (kind : Kind) (previous : Option String)
    (run : String) : Prop where
  segment : IsSegment source start kind previous run
  longest : ∀ other, IsSegment source start kind previous other → other.length ≤ run.length

/-- What stands before each character of a run, for the reader of that run. -/
def runContext : Kind → Option String
  | .operatorName => some "("
  | _ => none

/-- The scan of a text from a position on, where `previous` stands before that
position. A run is read whole, any other character is a token by itself. -/
inductive Scans (source : String) : Nat → Option String → List Token → Prop where
  | ended {position : Nat} {previous : Option String} (past : pieceAt source position = none) :
      Scans source position previous [ending]
  | delimiter {position : Nat} {previous : Option String} {piece : String} {kind : Kind}
      {rest : List Token} (here : pieceAt source position = some piece)
      (classified : classify (some piece) previous = kind)
      (single : kind = .leftParen ∨ kind = .rightParen ∨ kind = .space)
      (later : Scans source (position + 1) (pieceAt source position) rest) :
      Scans source position previous (⟨piece, kind⟩ :: rest)
  | run {position : Nat} {previous : Option String} {kind : Kind} {run : String}
      {rest : List Token} (classified : classify (pieceAt source position) previous = kind)
      (isRun : kind = .operatorName ∨ kind = .argument)
      (read : readRun? source position kind (runContext kind) = some run)
      (later : Scans source (position + run.length)
        (pieceAt source (position + run.length - 1)) rest) :
      Scans source position previous (⟨run, kind⟩ :: rest)

section Classify

variable {c : Char} (afterOpen : Bool) (previous : Option String)

theorem classify_singleton :
    classify (some (String.singleton c)) previous = .ofChar (previous = some "(") c := by
  simp [classify]

theorem ofChar_delimiter (delimiter : ¬ isRunChar c = true) :
    Kind.ofChar afterOpen c = .ofChar false c := by
  rcases eq_delimiter delimiter with rfl | rfl | rfl | rfl <;> rfl

theorem ofChar_single (delimiter : ¬ isRunChar c = true) :
    Kind.ofChar afterOpen c = .leftParen ∨ Kind.ofChar afterOpen c = .rightParen ∨
      Kind.ofChar afterOpen c = .space := by
  rcases eq_delimiter delimiter with rfl | rfl | rfl | rfl
  · exact .inl rfl
  · exact .inr (.inl rfl)
  · exact .inr (.inr rfl)
  · exact .inr (.inr rfl)

theorem ofChar_isRunChar (inRun : isRunChar c = true) :
    Kind.ofChar afterOpen c = .ofRun afterOpen := by
  simp only [isRunChar, Bool.and_eq_true, bne_iff_ne] at inRun
  obtain ⟨⟨⟨notOpen, notClose⟩, notSpace⟩, notBreak⟩ := inRun
  rw [Kind.ofChar, if_neg notOpen, if_neg notClose, if_neg (by simp [notSpace, notBreak])]

/-- The characters of a run are those that are of its kind. -/
theorem ofChar_eq_ofRun_iff : Kind.ofChar afterOpen c = .ofRun afterOpen ↔ isRunChar c = true := by
  refine ⟨fun same => ?_, ofChar_isRunChar afterOpen⟩
  apply Decidable.byContradiction
  intro delimiter
  rcases ofRun_kind afterOpen with kind | kind <;>
    rcases ofChar_single afterOpen delimiter with single | single | single <;>
    simp [kind, single] at same

theorem ofChar_ne_endOfInput : Kind.ofChar afterOpen c ≠ .endOfInput := by
  by_cases inRun : isRunChar c = true
  · rcases ofRun_kind afterOpen with kind | kind <;> simp [ofChar_isRunChar afterOpen inRun, kind]
  · rcases ofChar_single afterOpen inRun with single | single | single <;> simp [single]

end Classify

section Search

variable {source : String} {start position stop : Nat} {kind : Kind} {previous : Option String}

theorem pieceAt_eq_none_iff : pieceAt source position = none ↔ source.length ≤ position := by
  rw [pieceAt, Option.map_eq_none_iff, List.getElem?_eq_none_iff, String.length_toList]

theorem pieceAt_of_drop_nil (ended : source.toList.drop position = []) :
    pieceAt source position = none := by
  rw [pieceAt, ← List.head?_drop, ended, List.head?_nil, Option.map_none]

theorem drop_succ {c : Char} {rest : List Char} (here : source.toList.drop position = c :: rest) :
    source.toList.drop (position + 1) = rest := by
  rw [← List.drop_drop, here, List.drop_one, List.tail_cons]

theorem pieceAt_of_drop {c : Char} {rest : List Char}
    (here : source.toList.drop position = c :: rest) :
    pieceAt source position = some (String.singleton c) := by
  have found : source.toList[position]? = some c := by
    rw [← List.head?_drop, here, List.head?_cons]
  rw [pieceAt, found, Option.map_some]

/-- Whether a character is of the kind that is sought. -/
def isOfKind (kind : Kind) (previous : Option String) (c : Char) : Bool :=
  decide (Kind.ofChar (previous = some "(") c = kind)

theorem isOfKind_iff {c : Char} :
    isOfKind kind previous c = true ↔ classify (some (String.singleton c)) previous = kind := by
  rw [isOfKind, decide_eq_true_eq, classify_singleton]

theorem readRun?_eq (ends : ¬ (kind = .endOfInput ∧ source.length ≤ start)) :
    readRun? source start kind previous =
      some (String.ofList ((source.toList.drop start).takeWhile (isOfKind kind previous))) := by
  rw [readRun?, if_neg ends]
  rfl

/-- From a position that is counted from the start, reading goes forward only. -/
theorem readRunFrom_natCast :
    readRunFrom source (start : Int) kind previous = .ok (readRun? source start kind previous) :=
  rfl

/-- From the end of the input on, the search for it never ends. -/
theorem EndsAt.not_past (search : EndsAt source kind previous start stop) :
    ¬ (kind = .endOfInput ∧ source.length ≤ start) := by
  induction search with
  | stop other =>
      rintro ⟨rfl, past⟩
      exact other (by rw [pieceAt_eq_none_iff.mpr past]; rfl)
  | next same later ih =>
      rintro ⟨isEnd, past⟩
      exact ih ⟨isEnd, by omega⟩

/-- Any other search ends right after the characters of its kind. -/
theorem endsAt_takeWhile (ends : ¬ (kind = .endOfInput ∧ source.length ≤ start)) :
    EndsAt source kind previous start
      (start + ((source.toList.drop start).takeWhile (isOfKind kind previous)).length) := by
  -- The search is followed along the text that is left from its position on.
  generalize left : source.toList.drop start = chars
  induction chars generalizing start with
  | nil =>
      have past := pieceAt_of_drop_nil left
      refine .stop fun same => ends ⟨?_, pieceAt_eq_none_iff.mp past⟩
      rw [past] at same
      exact same.symm
  | cons c rest ih =>
      have here := pieceAt_of_drop left
      by_cases ofKind : isOfKind kind previous c = true
      · have same := isOfKind_iff.mp ofKind
        have notEnd : ¬ (kind = .endOfInput ∧ source.length ≤ start + 1) := by
          rintro ⟨rfl, _⟩
          rw [classify_singleton] at same
          exact ofChar_ne_endOfInput _ same
        rw [List.takeWhile_cons_of_pos ofKind, List.length_cons, Nat.add_comm _ 1, ← Nat.add_assoc]
        exact .next (here ▸ same) (ih notEnd (drop_succ left))
      · rw [List.takeWhile_cons_of_neg ofKind, List.length_nil, Nat.add_zero]
        exact .stop fun same => ofKind (isOfKind_iff.mpr (here ▸ same))

theorem EndsAt.unique {other : Nat} (search : EndsAt source kind previous start stop)
    (again : EndsAt source kind previous start other) : other = stop := by
  induction search with
  | stop different =>
      cases again with
      | stop _ => rfl
      | next same _ => exact absurd same different
  | next same later ih =>
      cases again with
      | stop different => exact absurd same different
      | next _ again => exact ih again

theorem exists_endsAt_iff :
    (∃ stop, EndsAt source kind previous start stop) ↔
      ¬ (kind = .endOfInput ∧ source.length ≤ start) :=
  ⟨fun ⟨_, search⟩ => search.not_past, fun ends => ⟨_, endsAt_takeWhile ends⟩⟩

/-- The reader gives the text up to where the search ends. -/
theorem EndsAt.readRun? (search : EndsAt source kind previous start stop) :
    readRun? source start kind previous = some (slice source start stop) := by
  have taken := (endsAt_takeWhile search.not_past).unique search
  rw [readRun?_eq search.not_past, slice, taken, Nat.add_sub_cancel_left,
    ← List.prefix_iff_eq_take.mp (List.takeWhile_prefix _)]

theorem readRun?_eq_none_iff :
    readRun? source start kind previous = none ↔
      ¬ ∃ stop, EndsAt source kind previous start stop := by
  constructor
  · rintro missing ⟨stop, search⟩
    cases missing.symm.trans search.readRun?
  · intro endless
    rw [readRun?, if_pos (Decidable.not_not.mp fun ends => endless (exists_endsAt_iff.mpr ends))]

theorem isLongest_takeWhile :
    IsLongest source start kind previous
      (String.ofList ((source.toList.drop start).takeWhile (isOfKind kind previous))) := by
  refine ⟨⟨?_, fun c inside => ?_⟩, fun other segment => ?_⟩
  · rw [String.toList_ofList]
    exact List.takeWhile_prefix _
  · rw [String.toList_ofList] at inside
    exact isOfKind_iff.mp (List.mem_takeWhile_imp inside)
  · obtain ⟨rest, whole⟩ := segment.begins
    have ofKind : ∀ c ∈ other.toList, isOfKind kind previous c = true :=
      fun c inside => isOfKind_iff.mpr (segment.ofKind c inside)
    rw [← whole, List.takeWhile_append_of_pos ofKind]
    simp

theorem IsLongest.eq_empty {run : String} (longest : IsLongest source start kind previous run)
    (past : source.length ≤ start) : run = "" := by
  have begins := longest.segment.begins
  rw [List.drop_of_length_le (by rwa [String.length_toList])] at begins
  rw [← String.toList_inj, List.prefix_nil.mp begins, String.toList_empty]

theorem EndsAt.isLongest (search : EndsAt source kind previous start stop) :
    IsLongest source start kind previous (slice source start stop) := by
  have read := search.readRun?
  rw [readRun?_eq search.not_past] at read
  exact Option.some.inj read ▸ isLongest_takeWhile

end Search

section Scan

variable {source : String} {position : Nat} {kind : Kind} {previous : Option String}

/-- Read in its own context, a run goes on as long as its characters can be in one. -/
theorem isOfKind_runContext (afterOpen : Bool) :
    isOfKind (.ofRun afterOpen) (runContext (.ofRun afterOpen)) = isRunChar := by
  funext c
  have context : decide (runContext (.ofRun afterOpen) = some "(") = afterOpen := by
    cases afterOpen <;> rfl
  rw [Bool.eq_iff_iff, isOfKind, decide_eq_true_eq, context]
  exact ofChar_eq_ofRun_iff afterOpen

theorem readRun?_runContext (afterOpen : Bool) :
    readRun? source position (.ofRun afterOpen) (runContext (.ofRun afterOpen)) =
      some (String.ofList ((source.toList.drop position).takeWhile isRunChar)) := by
  rw [readRun?_eq, isOfKind_runContext]
  rintro ⟨isEnd, _⟩
  rcases ofRun_kind afterOpen with isRun | isRun <;> simp [isRun] at isEnd

theorem exists_drop_eq_cons (inside : classify (pieceAt source position) previous ≠ .endOfInput) :
    ∃ c rest, source.toList.drop position = c :: rest ∧
      classify (pieceAt source position) previous = .ofChar (previous = some "(") c := by
  cases left : source.toList.drop position with
  | nil =>
      rw [pieceAt_of_drop_nil left] at inside
      exact absurd rfl inside
  | cons c rest =>
      refine ⟨c, rest, rfl, ?_⟩
      rw [pieceAt_of_drop left, classify_singleton]

/-- Where a run begins, the reader gives one that is not empty and lies in the text. -/
theorem exists_run (classified : classify (pieceAt source position) previous = kind)
    (isRun : kind = .operatorName ∨ kind = .argument) :
    ∃ run, readRun? source position kind (runContext kind) = some run ∧ run ≠ "" ∧
      position + run.length ≤ source.length := by
  have inside : classify (pieceAt source position) previous ≠ .endOfInput := by
    rcases isRun with rfl | rfl <;> simp [classified]
  obtain ⟨c, rest, left, ofChar⟩ := exists_drop_eq_cons inside
  rw [classified] at ofChar
  have inRun : isRunChar c = true := by
    apply Decidable.byContradiction
    intro delimiter
    rcases isRun with rfl | rfl <;>
      rcases ofChar_single (previous = some "(") delimiter with single | single | single <;>
      simp [single] at ofChar
  rw [ofChar_isRunChar _ inRun] at ofChar
  refine ⟨_, ofChar ▸ readRun?_runContext _, ?_, ?_⟩
  · rw [left, List.takeWhile_cons_of_pos inRun]
    intro empty
    simpa using congrArg String.toList empty
  · have bounded := (List.takeWhile_prefix isRunChar (l := source.toList.drop position)).length_le
    have some_left : 0 < (source.toList.drop position).length := by simp [left]
    rw [List.length_drop, String.length_toList] at bounded some_left
    rw [← String.length_toList, String.toList_ofList]
    omega

/-- A scan puts what it read of a run before a delimiter or the end into one token. -/
theorem scan_stops (kind other : Kind) {reversed rest : List Char}
    (stops : ∀ c ∈ rest.head?, ¬ isRunChar c = true) :
    scan kind reversed rest = ofRun kind reversed ++ scan other [] rest := by
  cases rest with
  | nil => rfl
  | cons c rest =>
      have delimiter := stops c rfl
      rw [scan, scan, if_neg delimiter, if_neg delimiter]
      rfl

theorem scan_word (kind other : Kind) {word rest : List Char} (nonempty : word ≠ [])
    (isRun : ∀ c ∈ word, isRunChar c = true) (stops : ∀ c ∈ rest.head?, ¬ isRunChar c = true) :
    scan kind [] (word ++ rest) = ⟨String.ofList word, kind⟩ :: scan other [] rest := by
  rw [scan_run isRun, scan_stops kind other stops, List.append_nil, ofRun]
  simp [nonempty]

/-- What a scan from a position on should give: the tokens of the text left there. -/
def Covers (source : String) (position : Nat) (previous : Option String) : Prop :=
  Scans source position previous
    (scan (.ofRun (previous = some "(")) [] (source.toList.drop position))

theorem covers_delimiter {c : Char} {rest : List Char}
    (left : source.toList.drop position = c :: rest) (delimiter : ¬ isRunChar c = true)
    (later : Covers source (position + 1) (some (String.singleton c))) :
    Covers source position previous := by
  have here := pieceAt_of_drop left
  have opens : (c == '(') = decide (some (String.singleton c) = some "(") := by
    rw [Bool.eq_iff_iff, beq_iff_eq, decide_eq_true_eq, Option.some.injEq]
    exact String.singleton_inj.symm
  have single := ofChar_single (previous = some "(") delimiter
  have same := ofChar_delimiter (previous = some "(") delimiter
  rw [Covers, left, scan, if_neg delimiter, ofRun_eq_nil, List.nil_append, opens, ← same,
    ← drop_succ left]
  exact .delimiter here (classify_singleton previous) single (here ▸ later)

theorem covers_run {c : Char} {rest : List Char} (left : source.toList.drop position = c :: rest)
    (inRun : isRunChar c = true)
    (later : ∀ run previous, run ≠ "" → Covers source (position + run.length) previous) :
    Covers source position previous := by
  let run := String.ofList ((source.toList.drop position).takeWhile isRunChar)
  have classified : classify (pieceAt source position) previous = .ofRun (previous = some "(") := by
    rw [pieceAt_of_drop left, classify_singleton, ofChar_isRunChar _ inRun]
  have nonempty : (source.toList.drop position).takeWhile isRunChar ≠ [] := by
    rw [left, List.takeWhile_cons_of_pos inRun]
    exact List.cons_ne_nil _ _
  have stops : ∀ d ∈ ((source.toList.drop position).dropWhile isRunChar).head?,
      ¬ isRunChar d = true := by
    intro d first
    have outside := List.head?_dropWhile_not isRunChar (source.toList.drop position)
    rw [Option.mem_def.mp first] at outside
    simp [outside]
  have after : source.toList.drop (position + run.length) =
      (source.toList.drop position).dropWhile isRunChar := by
    rw [← List.drop_drop, ← String.length_toList, String.toList_ofList]
    nth_rewrite 2 [← List.takeWhile_append_dropWhile (p := isRunChar)
      (l := source.toList.drop position)]
    exact List.drop_left
  have tokens := scan_word (.ofRun (previous = some "(")) (.ofRun
    (pieceAt source (position + run.length - 1) = some "(")) nonempty
    (fun _ => List.mem_takeWhile_imp) stops
  rw [List.takeWhile_append_dropWhile, ← after] at tokens
  rw [Covers, tokens]
  have runNonempty : run ≠ "" := fun empty => nonempty (by
    simpa [run] using congrArg String.toList empty)
  exact .run classified (ofRun_kind _) (readRun?_runContext _) (later run _ runNonempty)

/-- The scan from any position on gives the tokens of the text that is left there. -/
theorem scans_drop (position : Nat) (previous : Option String) :
    Covers source position previous := by
  induction size : source.length - position using Nat.strong_induction_on
    generalizing position previous with
  | _ size ih =>
    subst size
    cases left : source.toList.drop position with
    | nil =>
        rw [Covers, left]
        exact .ended (pieceAt_of_drop_nil left)
    | cons c rest =>
        have inside : 0 < (source.toList.drop position).length := by simp [left]
        rw [List.length_drop, String.length_toList] at inside
        by_cases inRun : isRunChar c = true
        · refine covers_run left inRun fun run previous nonempty => ih _ ?_ _ _ rfl
          have positive := mt String.length_eq_zero_iff.mp nonempty
          omega
        · exact covers_delimiter left inRun (ih _ (by omega) _ _ rfl)

theorem Scans.unique {tokens others : List Token} (scans : Scans source position previous tokens)
    (again : Scans source position previous others) : others = tokens := by
  induction scans generalizing others with
  | ended past =>
      cases again with
      | ended _ => rfl
      -- the character at the position decides which rule applies
      | delimiter here _ _ _ => cases past.symm.trans here
      | run classified isRun _ _ =>
          rw [past] at classified
          rcases isRun with rfl | rfl <;> cases classified
  | delimiter here classified single later ih =>
      cases again with
      | ended past => cases past.symm.trans here
      | delimiter here' classified' _ later' =>
          cases here.symm.trans here'
          cases classified.symm.trans classified'
          rw [ih later']
      | run classified' isRun _ _ =>
          rw [here, classified] at classified'
          subst classified'
          rcases isRun with rfl | rfl <;> simp at single
  | run classified isRun read later ih =>
      cases again with
      | ended past =>
          rw [past] at classified
          rcases isRun with rfl | rfl <;> cases classified
      | delimiter here classified' single _ =>
          rw [here, classified'] at classified
          subst classified
          rcases isRun with rfl | rfl <;> simp at single
      | run classified' _ read' later' =>
          cases classified.symm.trans classified'
          cases read.symm.trans read'
          rw [ih later']

theorem scans_iff {tokens : List Token} :
    Scans source 0 none tokens ↔ tokenize source = tokens := by
  have whole : Scans source 0 none (tokenize source) := scans_drop 0 none
  exact ⟨fun scans => scans.unique whole, fun same => same ▸ whole⟩

end Scan

/-- Reading a run comes to an end, unless the end of the input is sought from
there on, where it never does; what it gives is the longest segment of its kind,
which is empty past the end. A scan reads runs only where one begins: each is
there, is not empty and takes the scan forward within the text. So the scan
ends, and gives the tokens. -/
theorem run_reading_ends (source : String) :
    (∀ start kind previous,
      ((∃ stop, EndsAt source kind previous start stop) ↔
        ¬ (kind = .endOfInput ∧ source.length ≤ start)) ∧
      (readRunFrom source (start : Nat) kind previous = .ok none ↔
        ¬ ∃ stop, EndsAt source kind previous start stop) ∧
      ∀ stop, EndsAt source kind previous start stop →
        readRunFrom source start kind previous = .ok (some (slice source start stop)) ∧
        IsLongest source start kind previous (slice source start stop) ∧
        (source.length ≤ start → slice source start stop = "")) ∧
    (∀ position previous kind, classify (pieceAt source position) previous = kind →
      kind = .operatorName ∨ kind = .argument →
      ∃ run, readRunFrom source (position : Nat) kind (runContext kind) = .ok (some run) ∧
        run ≠ "" ∧ position < position + run.length ∧ position + run.length ≤ source.length) ∧
    ∀ tokens, Scans source 0 none tokens ↔ tokenize source = tokens := by
  refine ⟨fun start kind previous => ⟨exists_endsAt_iff, ?_, ?_⟩, ?_, fun tokens => scans_iff⟩
  · rw [readRunFrom_natCast, Except.ok.injEq]
    exact readRun?_eq_none_iff
  · intro stop search
    rw [readRunFrom_natCast, search.readRun?]
    exact ⟨rfl, search.isLongest, search.isLongest.eq_empty⟩
  · intro position previous kind classified isRun
    obtain ⟨run, read, nonempty, inside⟩ := exists_run classified isRun
    have positive := mt String.length_eq_zero_iff.mp nonempty
    exact ⟨run, congrArg Except.ok read, nonempty, by omega, inside⟩

/-- The name of a call, and a number at the end of a text. -/
theorem run_reading_ends_call :
    EndsAt "(f 12" .operatorName (some "(") 1 2 ∧
      readRunFrom "(f 12" 1 .operatorName (some "(") = .ok (some (slice "(f 12" 1 2)) ∧
      classify (pieceAt "(f 12" 3) (some " ") = .argument ∧
      ∃ run, readRunFrom "(f 12" 3 .argument none = .ok (some run) ∧ run ≠ "" ∧
        3 < 3 + run.length ∧ 3 + run.length ≤ "(f 12".length := by
  have name : EndsAt "(f 12" .operatorName (some "(") 1 2 := .next (by decide) (.stop (by decide))
  have whole := run_reading_ends "(f 12"
  exact ⟨name, ((whole.1 1 .operatorName (some "(")).2.2 2 name).1, by decide,
    whole.2.1 3 (some " ") .argument (by decide) (.inr rfl)⟩

end Stepper.Token
