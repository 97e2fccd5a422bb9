import Stepper.Number.Numeral
import Stepper.Proofs.Scanning
import Stepper.Proofs.State

/-!
Integers written in decimal: an optional sign and a row of decimal digits, with
leading zeros allowed. Such a text reads as the number it denotes, and the text
that is written for an integer is one of them.
-/

namespace Stepper

namespace Text

theorem isDigit_bounds {c : Char} (decimal : c.isDigit = true) :
    48 ≤ c.toNat ∧ c.toNat ≤ 57 := by
  simp only [Char.isDigit, Bool.and_eq_true, decide_eq_true_eq] at decimal
  exact ⟨decimal.1, decimal.2⟩

theorem digitValue?_of_isDigit {c : Char} (decimal : c.isDigit = true) :
    digitValue? c = some (c.toNat - 48) := by
  have bounds := isDigit_bounds decimal
  have first : 48 ≤ c.toNat ∧ c.toNat < 48 + 10 := ⟨bounds.1, by omega⟩
  rw [digitValue?, zeroDigits, List.findSome?_cons, if_pos first]

theorem isBlank_of_isDigit {c : Char} (decimal : c.isDigit = true) : isBlank c = false := by
  have bounds := isDigit_bounds decimal
  apply Bool.eq_false_iff.mpr
  intro blank
  simp [isBlank, inRanges_eq_true_iff, blankRanges] at blank
  omega

theorem isRunChar_of_isDigit {c : Char} (decimal : c.isDigit = true) :
    Token.isRunChar c = true := by
  have bounds := isDigit_bounds decimal
  apply Decidable.byContradiction
  intro delimiter
  rcases Token.eq_delimiter delimiter with rfl | rfl | rfl | rfl <;> simp at bounds

theorem trim_of_no_blank {text : List Char} (solid : ∀ c ∈ text, isBlank c = false) :
    trim text = text := by
  have kept : ∀ row : List Char, (∀ c ∈ row, isBlank c = false) → row.dropWhile isBlank = row := by
    intro row solid
    cases row with
    | nil => rfl
    | cons c row => simp [solid c (by simp)]
  rw [trim, kept text solid, kept text.reverse (fun c member => solid c (by simpa using member)),
    List.reverse_reverse]

theorem spanDigits_of_isDigit {digits : List Char} (decimal : ∀ c ∈ digits, c.isDigit = true) :
    spanDigits digits = (digits.map fun c => c.toNat - 48, []) := by
  induction digits with
  | nil => rfl
  | cons c digits ih =>
      simp only [spanDigits, digitValue?_of_isDigit (decimal c (by simp)),
        ih fun d member => decimal d (by simp [member]), List.map_cons]

theorem digitsToNat_of_isDigit (digits : List Char) :
    digitsToNat (digits.map fun c => c.toNat - 48) = Nat.ofDigitChars 10 digits 0 := by
  simp [digitsToNat, Nat.ofDigitChars, List.foldl_map]

end Text

/-- A text that spells an integer, blanks around it aside. -/
def IsInteger (text : String) : Prop :=
  ∃ negative digits, Numeral.parse? (Text.trim text.toList) = some (.integer negative digits)

instance (text : String) : Decidable (IsInteger text) :=
  match parsed : Numeral.parse? (Text.trim text.toList) with
  | some (.integer negative digits) => .isTrue ⟨negative, digits, parsed⟩
  | some (.decimal ..) => .isFalse fun ⟨_, _, spelled⟩ => by cases parsed.symm.trans spelled
  | some (.infinity _) => .isFalse fun ⟨_, _, spelled⟩ => by cases parsed.symm.trans spelled
  | none => .isFalse fun ⟨_, _, spelled⟩ => by cases parsed.symm.trans spelled

theorem IsInteger.not_builtin {text : String} (integer : IsInteger text) :
    Builtin.named? text = none := by
  obtain ⟨negative, digits, spelled⟩ := integer
  cases named : Builtin.named? text with
  | none => rfl
  | some operation =>
      rw [← Builtin.symbol_of_named? named] at spelled
      cases operation <;> cases spelled

theorem IsInteger.toNumber {text : String} (integer : IsInteger text) :
    (∃ n, Value.toNumber (.text text) = .ok (.int n)) ∨
      ∃ digits, Value.toNumber (.text text) = .error (.badValue (.longNumeral digits)) := by
  obtain ⟨negative, digits, spelled⟩ := integer
  simp only [Value.toNumber, Number.ofText, spelled, Numeral.value]
  split
  · exact .inr ⟨_, rfl⟩
  · exact .inl ⟨_, rfl⟩

/-- Whether a text spells an integer. -/
structure Spells (text : String) (n : Int) : Prop where
  integer : IsInteger text
  number : (Value.text text).toNumber = .ok (.int n)

theorem IsInteger.spells {text : String} (integer : IsInteger text) {number : Number}
    (read : (Value.text text).toNumber = .ok number) : ∃ n, number = .int n ∧ Spells text n := by
  rcases integer.toNumber with ⟨n, isInteger⟩ | ⟨digits, isLong⟩
  · exact ⟨n, Except.ok.inj (read.symm.trans isInteger), integer, isInteger⟩
  · cases read.symm.trans isLong

/-- The sign before a row of digits. -/
inductive Sign where
  | none
  | plus
  | minus
deriving DecidableEq

def Sign.chars : Sign → List Char
  | .none => []
  | .plus => ['+']
  | .minus => ['-']

theorem Numeral.takeSign_append {body : List Char} (sign : Sign)
    (unsigned : ∀ c ∈ body.head?, c ≠ '+' ∧ c ≠ '-') :
    Numeral.takeSign (sign.chars ++ body) = (decide (sign = .minus), body) := by
  cases sign with
  | plus => rfl
  | minus => rfl
  | none =>
      rw [Sign.chars, List.nil_append, Numeral.takeSign.eq_def]
      split
      · exact absurd rfl (unsigned '+' rfl).1
      · exact absurd rfl (unsigned '-' rfl).2
      · rfl

/-- An integer written in decimal, with no more digits than can be read. -/
structure Decimal where
  sign : Sign
  digits : List Char
  nonempty : digits ≠ []
  decimal : ∀ c ∈ digits, c.isDigit = true
  short : digits.length ≤ maxDigits

namespace Decimal

def text (numeral : Decimal) : String :=
  String.ofList (numeral.sign.chars ++ numeral.digits)

def magnitude (numeral : Decimal) : Nat :=
  Nat.ofDigitChars 10 numeral.digits 0

/-- The integer that is written. -/
def value (numeral : Decimal) : Int :=
  if numeral.sign = .minus then -(numeral.magnitude : Int) else numeral.magnitude

theorem text_solid (numeral : Decimal) :
    ∀ c ∈ numeral.text.toList, Text.isBlank c = false ∧ Token.isRunChar c = true := by
  intro c member
  rw [text, String.toList_ofList, List.mem_append] at member
  rcases member with signed | digit
  · cases sign : numeral.sign with
    | none => simp [sign, Sign.chars] at signed
    | plus =>
        simp only [sign, Sign.chars, List.mem_singleton] at signed
        subst signed
        decide
    | minus =>
        simp only [sign, Sign.chars, List.mem_singleton] at signed
        subst signed
        decide
  · have isDigit := numeral.decimal c digit
    exact ⟨Text.isBlank_of_isDigit isDigit, Text.isRunChar_of_isDigit isDigit⟩

theorem text_isRun (numeral : Decimal) : Token.IsRun numeral.text := by
  refine ⟨fun empty => numeral.nonempty ?_, fun c member => (numeral.text_solid c member).2⟩
  have letters := congrArg String.toList empty
  rw [text, String.toList_ofList, String.toList_empty, List.append_eq_nil_iff] at letters
  exact letters.2

theorem takeSign_chars (sign : Sign) {digits : List Char}
    (decimal : ∀ c ∈ digits, c.isDigit = true) :
    Numeral.takeSign (sign.chars ++ digits) = (decide (sign = .minus), digits) := by
  refine Numeral.takeSign_append sign fun c first => ?_
  have isDigit := decimal c (List.mem_of_mem_head? first)
  constructor
  · rintro rfl
    exact absurd isDigit (by decide)
  · rintro rfl
    exact absurd isDigit (by decide)

theorem parse?_text (numeral : Decimal) :
    Numeral.parse? (Text.trim numeral.text.toList) =
      some (.integer (decide (numeral.sign = .minus))
        (numeral.digits.map fun c => c.toNat - 48)) := by
  have notWord : numeral.digits ≠ "Infinity".toList := by
    intro word
    have first := numeral.decimal 'I' (by rw [word]; decide)
    cases first
  rw [Text.trim_of_no_blank fun c member => (numeral.text_solid c member).1, text,
    String.toList_ofList, Numeral.parse?, takeSign_chars _ numeral.decimal,
    Numeral.unsigned?, if_neg notWord, Text.spanDigits_of_isDigit numeral.decimal]
  simp [numeral.nonempty]

theorem isInteger_text (numeral : Decimal) : IsInteger numeral.text :=
  ⟨_, _, numeral.parse?_text⟩

theorem value_parse (numeral : Decimal) :
    Numeral.value (.integer (decide (numeral.sign = .minus))
        (numeral.digits.map fun c => c.toNat - 48)) = .ok (.int numeral.value) := by
  have few : ¬ maxDigits < (numeral.digits.map fun c => c.toNat - 48).length := by
    rw [List.length_map]
    exact Nat.not_lt.mpr numeral.short
  rw [Numeral.value, if_neg few, Text.digitsToNat_of_isDigit]
  simp only [Double.signed, decide_eq_true_eq, value, magnitude]

theorem ofText_text (numeral : Decimal) : Number.ofText numeral.text = .ok (.int numeral.value) := by
  simp only [Number.ofText, numeral.parse?_text, numeral.value_parse]

theorem parse_text (numeral : Decimal) :
    Number.parse numeral.text = .ok (some (.int numeral.value)) := by
  simp only [Number.parse, numeral.parse?_text, numeral.value_parse]
  rfl

theorem length_toDigits_le {n : Nat} (bounded : n < integerBound) :
    (Nat.toDigits 10 n).length ≤ maxDigits := by
  have general : ∀ digits, 0 < digits → n < Nat.pow 10 digits →
      (Nat.toDigits 10 n).length ≤ digits :=
    fun _ positive => (Nat.length_toDigits_le_iff (by decide) positive).mpr
  rw [integerBound] at bounded
  exact general maxDigits (by decide) bounded

/-- The decimal that is written for an integer. -/
def ofInt (n : Int) (bounded : n.natAbs < integerBound) : Decimal where
  sign := if n < 0 then .minus else .none
  digits := Nat.toDigits 10 n.natAbs
  nonempty := Nat.toDigits_ne_nil
  decimal := fun _ member => Nat.isDigit_of_mem_toDigits (by decide) (by decide) member
  short := length_toDigits_le bounded

variable {n : Int} (bounded : n.natAbs < integerBound)

theorem text_ofInt : (ofInt n bounded).text = integerDigits n := by
  rw [text, integerDigits, ofInt]
  split <;> rfl

theorem value_ofInt : (ofInt n bounded).value = n := by
  rw [value, magnitude, ofInt]
  simp only [Nat.ofDigitChars_ten_toDigits]
  by_cases negative : n < 0
  · rw [if_pos negative, if_pos rfl]
    omega
  · rw [if_neg negative, if_neg (by decide)]
    omega

end Decimal

section Digits

variable {n : Int} (bounded : n.natAbs < integerBound)

include bounded

theorem isInteger_integerDigits : IsInteger (integerDigits n) :=
  Decimal.text_ofInt bounded ▸ (Decimal.ofInt n bounded).isInteger_text

theorem isRun_integerDigits : Token.IsRun (integerDigits n) :=
  Decimal.text_ofInt bounded ▸ (Decimal.ofInt n bounded).text_isRun

theorem toNumber_integerDigits : (Value.text (integerDigits n)).toNumber = .ok (.int n) := by
  have read := (Decimal.ofInt n bounded).ofText_text
  rwa [Decimal.text_ofInt, Decimal.value_ofInt] at read

theorem parse_integerDigits : Number.parse (integerDigits n) = .ok (some (.int n)) := by
  have read := (Decimal.ofInt n bounded).parse_text
  rwa [Decimal.text_ofInt, Decimal.value_ofInt] at read

theorem spells_integerDigits : Spells (integerDigits n) n :=
  ⟨isInteger_integerDigits bounded, toNumber_integerDigits bounded⟩

end Digits

end Stepper
