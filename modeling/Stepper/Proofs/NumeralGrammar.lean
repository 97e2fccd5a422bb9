import Stepper.Proofs.Decimal

/-!
The texts that spell numbers, as a grammar: an optional sign before digits with
an optional fraction, or before a fraction alone, and an optional exponent; or
an optional sign before the word `Infinity`. Reading follows this grammar: a
text outside of it is a symbol, and of those inside only an integer with too
many digits cannot be read.
-/

namespace Stepper

open Text Computability

namespace Numeral

/-- The texts of one character that `accepts` lets through. -/
def oneOf (accepts : Char → Bool) : Language Char :=
  {text | ∃ c, accepts c = true ∧ text = [c]}

/-- A part that may be missing. -/
def optional (part : Language Char) : Language Char :=
  1 + part

def signs : Language Char :=
  optional (oneOf fun c => c == '+' || c == '-')

/-- Rows of one digit or more, of any script. -/
def digitRows : Language Char :=
  oneOf isDigit * (oneOf isDigit)∗

def points : Language Char :=
  oneOf (· == '.')

def exponents : Language Char :=
  oneOf (fun c => c == 'e' || c == 'E') * signs * digitRows

def integers : Language Char :=
  signs * digitRows

/-- Digits with an optional fraction, or a fraction alone. -/
def mantissas : Language Char :=
  digitRows * optional points * (oneOf isDigit)∗ + points * digitRows

def decimals : Language Char :=
  signs * (mantissas * optional exponents)

def infinities : Language Char :=
  signs * {"Infinity".toList}

/-- The texts that spell numbers. -/
def numerals : Language Char :=
  decimals + infinities

section Parts

variable {text : List Char} {part : Language Char}

theorem mem_optional_iff : text ∈ optional part ↔ text = [] ∨ text ∈ part := by
  rw [optional, Language.mem_add, Language.mem_one]

theorem mem_star_oneOf_iff {accepts : Char → Bool} :
    text ∈ (oneOf accepts)∗ ↔ ∀ c ∈ text, accepts c = true := by
  rw [Language.mem_kstar]
  constructor
  · rintro ⟨words, rfl, each⟩ c inside
    obtain ⟨word, member, inWord⟩ := List.mem_flatten.mp inside
    obtain ⟨d, accepted, rfl⟩ := each word member
    rwa [List.mem_singleton.mp inWord]
  · intro accepted
    refine ⟨text.map ([·]), (List.flatMap_singleton' text).symm, fun word member => ?_⟩
    obtain ⟨c, inside, rfl⟩ := List.mem_map.mp member
    exact ⟨c, accepted c inside, rfl⟩

theorem mem_oneOf_mul_iff {accepts : Char → Bool} :
    text ∈ oneOf accepts * part ↔ ∃ c rest, text = c :: rest ∧ accepts c = true ∧ rest ∈ part := by
  rw [Language.mem_mul]
  constructor
  · rintro ⟨_, ⟨c, accepted, rfl⟩, rest, member, rfl⟩
    exact ⟨c, rest, rfl, accepted, member⟩
  · rintro ⟨c, rest, rfl, accepted, member⟩
    exact ⟨[c], ⟨c, accepted, rfl⟩, rest, member, rfl⟩

theorem mem_digitRows_iff : text ∈ digitRows ↔ text ≠ [] ∧ ∀ c ∈ text, isDigit c = true := by
  rw [digitRows, mem_oneOf_mul_iff]
  constructor
  · rintro ⟨c, rest, rfl, first, star⟩
    exact ⟨List.cons_ne_nil _ _, List.forall_mem_cons.mpr ⟨first, mem_star_oneOf_iff.mp star⟩⟩
  · rintro ⟨nonempty, digits⟩
    cases text with
    | nil => exact absurd rfl nonempty
    | cons c rest =>
        obtain ⟨first, others⟩ := List.forall_mem_cons.mp digits
        exact ⟨c, rest, rfl, first, mem_star_oneOf_iff.mpr others⟩

theorem mem_signs_iff : text ∈ signs ↔ ∃ sign : Sign, text = sign.chars := by
  rw [signs, mem_optional_iff]
  constructor
  · rintro (rfl | ⟨c, accepted, rfl⟩)
    · exact ⟨.none, rfl⟩
    · simp only [Bool.or_eq_true, beq_iff_eq] at accepted
      rcases accepted with rfl | rfl
      · exact ⟨.plus, rfl⟩
      · exact ⟨.minus, rfl⟩
  · rintro ⟨sign, rfl⟩
    cases sign with
    | none => exact .inl rfl
    | plus => exact .inr ⟨'+', rfl, rfl⟩
    | minus => exact .inr ⟨'-', rfl, rfl⟩

theorem exists_sign (text : List Char) :
    ∃ sign : Sign, text = sign.chars ++ (takeSign text).2 ∧
      (takeSign text).1 = decide (sign = .minus) := by
  rw [takeSign.eq_def]
  split
  · exact ⟨.plus, rfl, rfl⟩
  · exact ⟨.minus, rfl, rfl⟩
  · exact ⟨.none, rfl, rfl⟩

/-- What stands after the sign of a text, if no word of `part` begins with one. -/
theorem mem_signs_mul_iff (unsigned : ∀ word ∈ part, ∀ c ∈ word.head?, c ≠ '+' ∧ c ≠ '-') :
    text ∈ signs * part ↔ (takeSign text).2 ∈ part := by
  rw [Language.mem_mul]
  constructor
  · rintro ⟨_, isSign, word, member, rfl⟩
    obtain ⟨sign, rfl⟩ := mem_signs_iff.mp isSign
    rwa [takeSign_append sign (unsigned word member)]
  · intro member
    obtain ⟨sign, whole, _⟩ := exists_sign text
    exact ⟨sign.chars, mem_signs_iff.mpr ⟨sign, rfl⟩, _, member, whole.symm⟩

end Parts

/-- The value of a digit of any script. -/
def digitOf (c : Char) : Nat :=
  (digitValue? c).getD 0

section Spans

variable {text row rest : List Char}

theorem spanDigits_append (digits : ∀ c ∈ row, isDigit c = true)
    (stops : ∀ c ∈ rest.head?, isDigit c = false) :
    spanDigits (row ++ rest) = (row.map digitOf, rest) := by
  induction row with
  | nil =>
      cases rest with
      | nil => rfl
      | cons c rest =>
          have missing := Option.isSome_eq_false_iff.mp (stops c rfl)
          rw [List.nil_append, spanDigits, Option.isNone_iff_eq_none.mp missing]
          rfl
  | cons c row ih =>
      obtain ⟨first, others⟩ := List.forall_mem_cons.mp digits
      obtain ⟨value, found⟩ := Option.isSome_iff_exists.mp first
      simp only [List.cons_append, spanDigits, found, ih others, List.map_cons, digitOf,
        Option.getD_some]

/-- A text is the row of digits at its start and what follows. -/
theorem exists_digits (text : List Char) :
    ∃ row rest, text = row ++ rest ∧ (∀ c ∈ row, isDigit c = true) ∧
      (∀ c ∈ rest.head?, isDigit c = false) ∧ spanDigits text = (row.map digitOf, rest) := by
  have digits : ∀ c ∈ text.takeWhile isDigit, isDigit c = true :=
    fun _ => List.mem_takeWhile_imp
  have stops : ∀ c ∈ (text.dropWhile isDigit).head?, isDigit c = false := by
    intro c first
    have outside := List.head?_dropWhile_not isDigit text
    rwa [Option.mem_def.mp first] at outside
  have whole : text.takeWhile isDigit ++ text.dropWhile isDigit = text :=
    List.takeWhile_append_dropWhile
  have spanned := spanDigits_append digits stops
  rw [whole] at spanned
  exact ⟨_, _, whole.symm, digits, stops, spanned⟩

theorem mem_digitRows_iff_span :
    text ∈ digitRows ↔ (spanDigits text).1 ≠ [] ∧ (spanDigits text).2 = [] := by
  obtain ⟨row, rest, rfl, digits, stops, spanned⟩ := exists_digits text
  rw [mem_digitRows_iff, spanned]
  simp only [ne_eq, List.map_eq_nil_iff]
  constructor
  · rintro ⟨nonempty, all⟩
    have ended : rest = [] := by
      cases rest with
      | nil => rfl
      | cons c rest =>
          have isDigit := all c (by simp)
          simp [stops c rfl] at isDigit
    subst ended
    exact ⟨by simpa using nonempty, rfl⟩
  · rintro ⟨nonempty, rfl⟩
    rw [List.append_nil]
    exact ⟨nonempty, digits⟩

theorem head_digitRows {word : List Char} (member : word ∈ digitRows) :
    ∀ c ∈ word.head?, isDigit c = true :=
  fun c first => (mem_digitRows_iff.mp member).2 c (List.mem_of_mem_head? first)

theorem unsigned_of_isDigit {c : Char} (digit : isDigit c = true) : c ≠ '+' ∧ c ≠ '-' := by
  constructor
  · rintro rfl
    exact absurd digit (by decide)
  · rintro rfl
    exact absurd digit (by decide)

theorem isSome_exponent?_iff : (exponent? text).isSome = true ↔ text ∈ optional exponents := by
  rw [mem_optional_iff, exponents, mul_assoc, mem_oneOf_mul_iff]
  cases text with
  | nil => simp [exponent?]
  | cons mark rest =>
      have signed : rest ∈ signs * digitRows ↔ (takeSign rest).2 ∈ digitRows :=
        mem_signs_mul_iff fun word member c first =>
          unsigned_of_isDigit (head_digitRows member c first)
      rw [exponent?]
      by_cases marked : mark = 'e' ∨ mark = 'E'
      · rcases spanned : spanDigits (takeSign rest).2 with ⟨digits, left⟩
        rw [mem_digitRows_iff_span, spanned] at signed
        cases digits <;> cases left <;> simp [signed, marked]
      · simp [marked]

theorem head_optional_exponents {word : List Char} (member : word ∈ optional exponents) :
    ∀ c ∈ word.head?, isDigit c = false ∧ c ≠ '.' := by
  rw [mem_optional_iff, exponents, mul_assoc, mem_oneOf_mul_iff] at member
  intro c first
  rcases member with rfl | ⟨mark, rest, rfl, marked, _⟩
  · cases first
  · cases first
    simp only [Bool.or_eq_true, beq_iff_eq] at marked
    rcases marked with rfl | rfl <;> decide

theorem takeFraction_eq_self (stops : ∀ c ∈ rest.head?, c ≠ '.') :
    takeFraction rest = ([], rest) := by
  rw [takeFraction.eq_def]
  split
  · exact absurd rfl (stops '.' rfl)
  · rfl

/-- A mantissa is a row of digits, or has a point with digits on at least one side. -/
theorem mem_mantissas_iff :
    text ∈ mantissas ↔ text ∈ digitRows ∨
      ∃ whole fraction, text = whole ++ '.' :: fraction ∧ (∀ c ∈ whole, isDigit c = true) ∧
        (∀ c ∈ fraction, isDigit c = true) ∧ ¬ (whole = [] ∧ fraction = []) := by
  rw [mantissas, Language.mem_add, points, mem_oneOf_mul_iff, mul_assoc, Language.mem_mul]
  constructor
  · rintro (⟨whole, isRow, tail, isTail, rfl⟩ | ⟨c, fraction, rfl, isPoint, isRow⟩)
    · obtain ⟨nonempty, digits⟩ := mem_digitRows_iff.mp isRow
      rw [optional, add_mul, one_mul, Language.mem_add, mem_oneOf_mul_iff] at isTail
      rcases isTail with star | ⟨c, fraction, rfl, isPoint, star⟩
      · refine .inl (mem_digitRows_iff.mpr ⟨by simp [nonempty], ?_⟩)
        exact List.forall_mem_append.mpr ⟨digits, mem_star_oneOf_iff.mp star⟩
      · obtain rfl : c = '.' := beq_iff_eq.mp isPoint
        exact .inr ⟨whole, fraction, rfl, digits, mem_star_oneOf_iff.mp star, by simp [nonempty]⟩
    · obtain rfl : c = '.' := beq_iff_eq.mp isPoint
      obtain ⟨nonempty, digits⟩ := mem_digitRows_iff.mp isRow
      exact .inr ⟨[], fraction, rfl, by simp, digits, by simp [nonempty]⟩
  · rintro (isRow | ⟨whole, fraction, rfl, digits, fractionDigits, some⟩)
    · refine .inl ⟨text, isRow, [], ?_, List.append_nil text⟩
      rw [optional, add_mul, one_mul, Language.mem_add]
      exact .inl (Language.nil_mem_kstar _)
    · by_cases missing : whole = []
      · subst missing
        have nonempty : fraction ≠ [] := fun empty => some ⟨rfl, empty⟩
        exact .inr ⟨'.', fraction, rfl, rfl, mem_digitRows_iff.mpr ⟨nonempty, fractionDigits⟩⟩
      · refine .inl ⟨whole, mem_digitRows_iff.mpr ⟨missing, digits⟩, '.' :: fraction, ?_, rfl⟩
        rw [optional, add_mul, one_mul, Language.mem_add, mem_oneOf_mul_iff]
        exact .inr ⟨'.', fraction, rfl, rfl, mem_star_oneOf_iff.mpr fractionDigits⟩

/-- How a mantissa and what may follow it are taken apart. -/
theorem mem_mantissas_mul_iff :
    text ∈ mantissas * optional exponents ↔
      ¬ ((spanDigits text).1 = [] ∧ (takeFraction (spanDigits text).2).1 = []) ∧
        (takeFraction (spanDigits text).2).2 ∈ optional exponents := by
  have pointStops : ∀ chars, ∀ c ∈ ('.' :: chars : List Char).head?, isDigit c = false := by
    rintro chars c ⟨⟩
    decide
  rw [Language.mem_mul]
  constructor
  -- an exponent begins with a letter, so the digits are spanned up to it and no further
  · rintro ⟨mantissa, isMantissa, exponent, isExponent, rfl⟩
    have head := head_optional_exponents isExponent
    have stops := fun c first => (head c first).1
    rcases mem_mantissas_iff.mp isMantissa with
      isRow | ⟨whole, fraction, rfl, digits, fractionDigits, some⟩
    · obtain ⟨nonempty, digits⟩ := mem_digitRows_iff.mp isRow
      rw [spanDigits_append digits stops, takeFraction_eq_self fun c first => (head c first).2]
      exact ⟨by simp [nonempty], isExponent⟩
    · rw [List.append_assoc, List.cons_append, spanDigits_append digits (pointStops _),
        takeFraction, spanDigits_append fractionDigits stops]
      exact ⟨by simpa using some, isExponent⟩
  · obtain ⟨whole, rest, rfl, digits, _, spanned⟩ := exists_digits text
    rw [spanned]
    rintro ⟨some, isExponent⟩
    -- the pieces that were spanned are themselves the parts of the word
    by_cases isPoint : ∃ after, rest = '.' :: after
    · obtain ⟨after, rfl⟩ := isPoint
      obtain ⟨fraction, left, rfl, fractionDigits, _, spanned⟩ := exists_digits after
      rw [takeFraction, spanned] at some isExponent
      refine ⟨whole ++ '.' :: fraction, mem_mantissas_iff.mpr (.inr ?_), left, isExponent, by simp⟩
      exact ⟨whole, fraction, rfl, digits, fractionDigits, by simpa using some⟩
    · have bare : takeFraction rest = ([], rest) :=
        takeFraction_eq_self fun c first same => isPoint ⟨rest.tail, by
          rw [← same]
          exact (List.cons_head?_tail first).symm⟩
      rw [bare] at some isExponent
      have isRow : whole ∈ digitRows := mem_digitRows_iff.mpr ⟨by simpa using some, digits⟩
      exact ⟨whole, mem_mantissas_iff.mpr (.inl isRow), rest, isExponent, rfl⟩

end Spans

section Parse

variable {text body : List Char} {negative : Bool} {digits : List Nat}

theorem unsigned?_eq (negative : Bool) (body : List Char) :
    unsigned? negative body =
      if body = "Infinity".toList then some (.infinity negative)
      else if (spanDigits body).2 = [] ∧ (spanDigits body).1 ≠ [] then
        some (.integer negative (spanDigits body).1)
      else if (spanDigits body).1 = [] ∧ (takeFraction (spanDigits body).2).1 = [] then none
      else
        (exponent? (takeFraction (spanDigits body).2).2).map
          (.decimal negative (spanDigits body).1 (takeFraction (spanDigits body).2).1 ·) :=
  rfl

theorem mem_word_iff {word : List Char} : text ∈ ({word} : Language Char) ↔ text = word :=
  Iff.rfl

theorem unsigned?_eq_none_iff :
    unsigned? negative body = none ↔
      body ∉ mantissas * optional exponents + {"Infinity".toList} := by
  rw [unsigned?_eq, Language.mem_add, mem_mantissas_mul_iff, mem_word_iff]
  by_cases isWord : body = "Infinity".toList
  · simp [isWord]
  rw [if_neg isWord]
  by_cases isInteger : (spanDigits body).2 = [] ∧ (spanDigits body).1 ≠ []
  · have ended : ([] : List Char) ∈ optional exponents := mem_optional_iff.mpr (.inl rfl)
    simp [isInteger, takeFraction, ended]
  rw [if_neg isInteger]
  by_cases noDigits : (spanDigits body).1 = [] ∧ (takeFraction (spanDigits body).2).1 = []
  · rw [if_pos noDigits]
    exact iff_of_true rfl (not_or.mpr ⟨fun member => member.1 noDigits, isWord⟩)
  · rw [if_neg noDigits, Option.map_eq_none_iff, ← Option.not_isSome_iff_eq_none,
      isSome_exponent?_iff]
    simp only [noDigits, isWord, not_false_eq_true, true_and, or_false]

theorem unsigned?_of_digitRow (isRow : body ∈ digitRows) :
    unsigned? negative body = some (.integer negative (body.map digitOf)) := by
  have notWord : body ≠ "Infinity".toList := by
    rintro rfl
    exact absurd (head_digitRows isRow 'I' rfl) (by decide)
  have spanned : spanDigits (body ++ []) = (body.map digitOf, []) :=
    spanDigits_append (mem_digitRows_iff.mp isRow).2 (by simp)
  rw [List.append_nil] at spanned
  rw [unsigned?_eq, if_neg notWord, if_pos (mem_digitRows_iff_span.mp isRow).symm, spanned]

theorem digitRow_of_unsigned? {sign : Bool}
    (read : unsigned? sign body = some (.integer negative digits)) : body ∈ digitRows := by
  rw [unsigned?_eq] at read
  split at read
  · cases read
  · split at read
    · rename_i isInteger
      exact mem_digitRows_iff_span.mpr isInteger.symm
    · split at read
      · cases read
      · obtain ⟨exponent, _, isDecimal⟩ := Option.map_eq_some_iff.mp read
        cases isDecimal

theorem numerals_eq :
    numerals = signs * (mantissas * optional exponents + {"Infinity".toList}) := by
  rw [numerals, decimals, infinities, mul_add]

theorem unsigned_numeral {word : List Char}
    (member : word ∈ mantissas * optional exponents + {"Infinity".toList}) :
    ∀ c ∈ word.head?, c ≠ '+' ∧ c ≠ '-' := by
  rcases (Language.mem_add _ _ _).mp member with isDecimal | isWord
  · obtain ⟨mantissa, isMantissa, exponent, _, rfl⟩ := Language.mem_mul.mp isDecimal
    rcases mem_mantissas_iff.mp isMantissa with isRow | ⟨whole, fraction, rfl, digits, _, _⟩
    · cases mantissa with
      | nil => exact absurd rfl (mem_digitRows_iff.mp isRow).1
      | cons d rest =>
          rintro c ⟨⟩
          exact unsigned_of_isDigit (head_digitRows isRow d rfl)
    · cases whole with
      | nil =>
          rintro c ⟨⟩
          decide
      | cons d rest =>
          rintro c ⟨⟩
          exact unsigned_of_isDigit (digits d (by simp))
  · rw [mem_word_iff.mp isWord]
    rintro c ⟨⟩
    decide

/-- A text spells no number exactly if it is outside of the grammar. -/
theorem parse?_eq_none_iff : parse? text = none ↔ text ∉ numerals := by
  rw [parse?, unsigned?_eq_none_iff, numerals_eq, mem_signs_mul_iff fun _ => unsigned_numeral]

instance (text : List Char) : Decidable (text ∈ numerals) :=
  decidable_of_iff (parse? text ≠ none) (not_iff_comm.mp parse?_eq_none_iff.symm)

/-- A text that is a sign and a row of digits. -/
structure IsSignedRow (text : List Char) (sign : Sign) (row : List Char) : Prop where
  whole : text = sign.chars ++ row
  isRow : row ∈ digitRows

theorem mem_integers_iff : text ∈ integers ↔ ∃ sign row, IsSignedRow text sign row := by
  rw [integers, Language.mem_mul]
  constructor
  · rintro ⟨_, isSign, row, isRow, rfl⟩
    obtain ⟨sign, rfl⟩ := mem_signs_iff.mp isSign
    exact ⟨sign, row, rfl, isRow⟩
  · rintro ⟨sign, row, rfl, isRow⟩
    exact ⟨sign.chars, mem_signs_iff.mpr ⟨sign, rfl⟩, row, isRow, rfl⟩

theorem IsSignedRow.parse? {sign : Sign} {row : List Char} (spelled : IsSignedRow text sign row) :
    parse? text = some (.integer (decide (sign = .minus)) (row.map digitOf)) := by
  have unsigned : ∀ c ∈ row.head?, c ≠ '+' ∧ c ≠ '-' :=
    fun c first => unsigned_of_isDigit (head_digitRows spelled.isRow c first)
  rw [Numeral.parse?, spelled.whole, takeSign_append sign unsigned,
    unsigned?_of_digitRow spelled.isRow]

theorem exists_isSignedRow (read : parse? text = some (.integer negative digits)) :
    ∃ sign row, IsSignedRow text sign row := by
  obtain ⟨sign, whole, _⟩ := exists_sign text
  exact ⟨sign, _, whole, digitRow_of_unsigned? read⟩

end Parse

/-- The value of a row of digits by place: the last digit counts once. -/
def placeValue (row : List Char) : Nat :=
  Nat.ofDigits 10 (row.reverse.map digitOf)

theorem digitsToNat_eq (row : List Char) : digitsToNat (row.map digitOf) = placeValue row := by
  rw [placeValue, Nat.ofDigits_eq_foldr, List.map_reverse, List.foldr_reverse, digitsToNat]
  simp only [Nat.cast_id, Nat.add_comm]

end Numeral

/-- A magnitude with a sign before it. -/
def Sign.signed (sign : Sign) (magnitude : Nat) : Int :=
  if sign = .minus then -(magnitude : Int) else magnitude

namespace Double

theorem ofDyadic_ne_nan (negative : Bool) (mantissa : Nat) (exponent : Int) :
    ofDyadic negative mantissa exponent ≠ .nan := by
  unfold ofDyadic
  split
  · simp
  · extract_lets
    split <;> simp

theorem ofDecimal_ne_nan (negative : Bool) (digits : Nat) (exponent : Int) :
    ofDecimal negative digits exponent ≠ .nan := by
  unfold ofDecimal
  dsimp only
  split
  · simp
  split
  · simp
  split
  · exact ofDyadic_ne_nan _ _ _
  · exact ofDyadic_ne_nan _ _ _

end Double

namespace Numeral

theorem value_ne_nan (numeral : Numeral) : numeral.value ≠ .ok .nan := by
  cases numeral with
  | integer negative digits =>
      rw [value]
      split <;> simp [Number.nan]
  | decimal negative whole fraction exponent =>
      simp [value, Number.nan, Double.ofDecimal_ne_nan]
  | infinity negative => simp [value, Number.nan]

variable {text : String} {sign : Sign} {row : List Char}

theorem IsSignedRow.toNumber (spelled : IsSignedRow (trim text.toList) sign row) :
    (Value.text text).toNumber =
      if maxDigits < row.length then .error (.badValue (.longNumeral row.length))
      else .ok (.int (sign.signed (placeValue row))) := by
  simp only [Value.toNumber, Number.ofText, spelled.parse?, value, List.length_map,
    digitsToNat_eq, Double.signed, Sign.signed, decide_eq_true_eq]

/-- Whatever is read without being a sign and a row of digits is in floating point. -/
theorem toNumber_of_not_integer (other : trim text.toList ∉ integers) :
    ∃ x, (Value.text text).toNumber = .ok (.double x) := by
  simp only [Value.toNumber, Number.ofText]
  cases read : parse? (trim text.toList) with
  | none => exact ⟨.nan, rfl⟩
  | some numeral =>
      cases numeral with
      | integer negative digits =>
          exact absurd (mem_integers_iff.mpr (exists_isSignedRow read)) other
      | decimal negative whole fraction exponent => exact ⟨_, rfl⟩
      | infinity negative => exact ⟨_, rfl⟩

theorem toNumber_eq_nan_iff :
    (Value.text text).toNumber = .ok .nan ↔ trim text.toList ∉ numerals := by
  rw [← parse?_eq_none_iff, Value.toNumber, Number.ofText]
  cases read : parse? (trim text.toList) with
  | none => simp
  | some numeral => simp [numeral.value_ne_nan]

theorem parse_eq_none_iff :
    Number.parse text = .ok none ↔ trim text.toList ∉ numerals := by
  rw [← parse?_eq_none_iff, Number.parse]
  cases read : parse? (trim text.toList) with
  | none => simp
  | some numeral => cases value : numeral.value <;> simp [value, Except.map]

theorem parse_eq_toNumber (member : trim text.toList ∈ numerals) :
    Number.parse text = (Value.text text).toNumber.map some := by
  have spelled : parse? (trim text.toList) ≠ none :=
    fun missing => parse?_eq_none_iff.mp missing member
  obtain ⟨numeral, read⟩ := Option.ne_none_iff_exists'.mp spelled
  simp only [Number.parse, Value.toNumber, Number.ofText, read]

theorem toNumber_eq_int_iff {n : Int} :
    (Value.text text).toNumber = .ok (.int n) ↔
      ∃ sign row, IsSignedRow (trim text.toList) sign row ∧ row.length ≤ maxDigits ∧
        n = sign.signed (placeValue row) := by
  constructor
  · intro read
    by_cases member : trim text.toList ∈ integers
    · obtain ⟨sign, row, spelled⟩ := mem_integers_iff.mp member
      rw [spelled.toNumber] at read
      split at read
      · cases read
      · rename_i few
        cases read
        exact ⟨sign, row, spelled, Nat.le_of_not_lt few, rfl⟩
    · obtain ⟨x, isDouble⟩ := toNumber_of_not_integer member
      cases read.symm.trans isDouble
  · rintro ⟨sign, row, spelled, few, rfl⟩
    rw [spelled.toNumber, if_neg (Nat.not_lt.mpr few)]

theorem toNumber_eq_error_iff {failure : Failure} :
    (Value.text text).toNumber = .error failure ↔
      ∃ sign row, IsSignedRow (trim text.toList) sign row ∧ maxDigits < row.length ∧
        failure = .badValue (.longNumeral row.length) := by
  constructor
  · intro failed
    by_cases member : trim text.toList ∈ integers
    · obtain ⟨sign, row, spelled⟩ := mem_integers_iff.mp member
      rw [spelled.toNumber] at failed
      split at failed
      · rename_i many
        cases failed
        exact ⟨sign, row, spelled, many, rfl⟩
      · cases failed
    · obtain ⟨x, isDouble⟩ := toNumber_of_not_integer member
      cases failed.symm.trans isDouble
  · rintro ⟨sign, row, spelled, many, rfl⟩
    rw [spelled.toNumber, if_pos many]

end Numeral

theorem ofText_of_symbol {text : String} (symbol : Number.parse text = .ok none) :
    Number.ofText text = .ok .nan :=
  Numeral.toNumber_eq_nan_iff.mpr (Numeral.parse_eq_none_iff.mp symbol)

open Numeral in
/-- Both ways of reading a number follow one grammar, blanks around the text
aside. Outside of it the one gives no number and the other `nan`; inside they
give the same. Exactly the texts of a sign and a row of digits are read as
integers, by the place of each digit, and these are also the only ones that
cannot be read: if there are too many digits. -/
theorem numbers_follow_one_grammar (text : String) :
    (Number.parse text = .ok none ↔ trim text.toList ∉ numerals) ∧
    ((Value.text text).toNumber = .ok .nan ↔ trim text.toList ∉ numerals) ∧
    (trim text.toList ∈ numerals → Number.parse text = (Value.text text).toNumber.map some) ∧
    (∀ n, (Value.text text).toNumber = .ok (.int n) ↔
      ∃ sign row, IsSignedRow (trim text.toList) sign row ∧ row.length ≤ maxDigits ∧
        n = sign.signed (placeValue row)) ∧
    (∀ failure, (Value.text text).toNumber = .error failure ↔
      ∃ sign row, IsSignedRow (trim text.toList) sign row ∧ maxDigits < row.length ∧
        failure = .badValue (.longNumeral row.length)) ∧
    (trim text.toList ∈ integers ↔ ∃ sign row, IsSignedRow (trim text.toList) sign row) :=
  ⟨parse_eq_none_iff, toNumber_eq_nan_iff, parse_eq_toNumber, fun _ => toNumber_eq_int_iff,
    fun _ => toNumber_eq_error_iff, mem_integers_iff⟩

theorem numbers_follow_one_grammar_fraction :
    trim "\t-.5E+\u0663 ".toList ∈ Numeral.numerals ∧
      Number.parse "\t-.5E+\u0663 " = (Value.text "\t-.5E+\u0663 ").toNumber.map some := by
  have member : trim "\t-.5E+\u0663 ".toList ∈ Numeral.numerals := by decide
  exact ⟨member, (numbers_follow_one_grammar _).2.2.1 member⟩

end Stepper
