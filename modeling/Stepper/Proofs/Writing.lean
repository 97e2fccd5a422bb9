import Stepper.Proofs.Agreement
import Stepper.Proofs.Expansion

/-!
What values and trees are written as. A value is one run of characters and a
tree is the text of a phrase, so what is written can be read again.
-/

namespace Stepper

open Token (IsRun isRunChar content)

namespace Double

/-- A decimal with digits, and nothing but digits. -/
structure Decimal.Proper (decimal : Decimal) : Prop where
  nonempty : decimal.digits ≠ []
  digit : ∀ c ∈ decimal.digits, c.isDigit = true

theorem significantDigits_ne_nil (n : Nat) : significantDigits n ≠ [] := by
  unfold significantDigits
  split
  · simp
  · assumption

theorem isDigit_of_significantDigits {n : Nat} {c : Char} (member : c ∈ significantDigits n) :
    c.isDigit = true := by
  unfold significantDigits at member
  split at member
  · obtain rfl := List.mem_singleton.mp member
    decide
  · have inside := (List.dropWhile_sublist _).subset (List.mem_reverse.mp member)
    exact Nat.isDigit_of_mem_toDigits (by decide) (by decide) (List.mem_reverse.mp inside)

theorem proper_ofScaled (n : Nat) (power : Int) : (Decimal.ofScaled n power).Proper :=
  ⟨significantDigits_ne_nil n, fun _ => isDigit_of_significantDigits⟩

theorem nearestOnGrid?_proper {number : Double} {numerator denominator : Nat} {places : Int}
    {decimal : Decimal}
    (nearest : nearestOnGrid? number numerator denominator places = some decimal) :
    decimal.Proper := by
  unfold nearestOnGrid? at nearest
  extract_lets scaled unit lower twice readsBack nearer farther at nearest
  split at nearest
  · cases nearest
    exact proper_ofScaled nearer _
  · split at nearest
    · cases nearest
      exact proper_ofScaled farther _
    · cases nearest

theorem shortest_proper (mantissa : Nat) (exponent : Int) :
    (shortest mantissa exponent).Proper := by
  unfold shortest
  extract_lets numerator denominator leading grids
  cases found : grids.findSome?
      (nearestOnGrid? (.finite false mantissa exponent) numerator denominator) with
  | none => exact proper_ofScaled mantissa 0
  | some decimal =>
      obtain ⟨places, _, nearest⟩ := List.exists_of_findSome?_eq_some found
      exact nearestOnGrid?_proper nearest

theorem write_ne_nil {decimal : Decimal} (layout : Layout) (proper : decimal.Proper) :
    layout.write decimal ≠ [] := by
  have nonempty := proper.nonempty
  unfold Layout.write
  dsimp only
  split
  · split <;> simp
  · split <;> simp_all

theorem isRunChar_zeros {count : Nat} {c : Char} (member : c ∈ List.replicate count '0') :
    isRunChar c = true := by
  rw [List.eq_of_mem_replicate member]
  decide

theorem isRunChar_exponentMark {exponent : Int} {c : Char} (member : c ∈ exponentMark exponent) :
    isRunChar c = true := by
  simp only [exponentMark, List.mem_cons, List.mem_append] at member
  rcases member with rfl | rfl | zero | digit
  · decide
  · split <;> decide
  · exact isRunChar_zeros zero
  · exact Text.isRunChar_of_isDigit
      (Nat.isDigit_of_mem_toDigits (by decide) (by decide) digit)

theorem isRunChar_write {decimal : Decimal} (layout : Layout) (proper : decimal.Proper) {c : Char}
    (member : c ∈ layout.write decimal) : isRunChar c = true := by
  have digit : ∀ c ∈ decimal.digits, isRunChar c = true :=
    fun c inside => Text.isRunChar_of_isDigit (proper.digit c inside)
  have point : isRunChar '.' = true := by decide
  unfold Layout.write at member
  dsimp only at member
  split at member
  · split at member
    · simp only [List.mem_cons, List.mem_append] at member
      rcases member with rfl | rfl | zero | inside
      · decide
      · exact point
      · exact isRunChar_zeros zero
      · exact digit c inside
    · simp only [List.mem_cons, List.mem_append] at member
      rcases member with (inside | zero) | rfl | fraction
      · exact digit c (List.mem_of_mem_take inside)
      · exact isRunChar_zeros zero
      · exact point
      · split at fraction
        · obtain rfl := List.mem_singleton.mp fraction
          decide
        · exact digit c (List.mem_of_mem_drop fraction)
  · split at member
    · cases member
    · rename_i lead only
      rcases List.mem_cons.mp member with rfl | mark
      · exact digit c (by simp [only])
      · exact isRunChar_exponentMark mark
    · rename_i lead fraction _ several
      simp only [List.mem_cons, List.mem_append] at member
      rcases member with (rfl | rfl | inside) | mark
      · exact digit c (by simp [several])
      · exact point
      · exact digit c (by simp [several, inside])
      · exact isRunChar_exponentMark mark

theorem isRun_text (x : Double) : IsRun x.text := by
  cases x with
  | nan => exact ⟨by decide, List.all_eq_true.mp (by decide)⟩
  | infinite negative =>
      cases negative <;> exact ⟨by decide, List.all_eq_true.mp (by decide)⟩
  | finite negative mantissa exponent =>
      have proper := shortest_proper mantissa exponent
      have written := write_ne_nil Layout.standard proper
      refine ⟨?_, fun c member => ?_⟩
      · simp only [text]
        split <;> split <;> simp_all
      · have magnitude : ∀ c ∈ (if mantissa = 0 then "0.0".toList
            else Layout.standard.write (shortest mantissa exponent)), isRunChar c = true := by
          split
          · exact List.all_eq_true.mp (by decide)
          · exact fun c => isRunChar_write Layout.standard proper
        simp only [text, String.toList_ofList] at member
        split at member
        · rcases List.mem_cons.mp member with rfl | inside
          · decide
          · exact magnitude c inside
        · exact magnitude c member

end Double

theorem isRun_integerText {n : Int} {text : String} (done : integerText n = .ok text) :
    IsRun text := by
  obtain ⟨bounded, rfl⟩ := integerText_ok done
  exact isRun_integerDigits bounded

namespace Value

theorem IsNumber.isRun_format {value : Value} (isNumber : value.IsNumber) {text : String}
    (done : value.format = .ok text) : IsRun text := by
  cases value with
  | bool truth =>
      cases done
      cases truth <;> exact ⟨by decide, List.all_eq_true.mp (by decide)⟩
  | int n =>
      simp only [format, inspect] at done
      exact isRun_integerText done
  | double x =>
      rw [format, formatDouble.eq_def] at done
      split at done
      · cases done
        exact ⟨by decide, List.all_eq_true.mp (by decide)⟩
      · cases done
        split <;> exact ⟨by decide, List.all_eq_true.mp (by decide)⟩
      · split at done
        · exact isRun_integerText done
        · cases done
          exact Double.isRun_text _
  | _ => cases isNumber

theorem IsDatum.not_procedure {value : Value} (isDatum : value.IsDatum) :
    value.isProcedure = false := by
  rcases isDatum with rfl | isNumber
  · rfl
  · exact isNumber.not_procedure

theorem IsPlain.isRun_format {value : Value} (plain : value.IsPlain) {text : String}
    (done : value.format = .ok text) : IsRun text := by
  rcases plain with (rfl | isNumber) | ⟨word, rfl, isRun⟩
  · cases done
    exact ⟨by decide, List.all_eq_true.mp (by decide)⟩
  · exact isNumber.isRun_format done
  · cases done
    exact isRun

/-- What a table binds a name to is written as a run, procedures apart. -/
theorem Fits.isRun_format {home : Nat} {reading : Reading} {value : Value}
    (fits : value.Fits home reading) (noProcedure : value.isProcedure = false) {text : String}
    (done : value.format = .ok text) : IsRun text := by
  cases fits with
  | datum isDatum => exact IsPlain.isRun_format (.inl isDatum) done
  | word isWord => exact IsPlain.isRun_format (.inr isWord) done
  | unbound =>
      cases done
      exact ⟨by decide, List.all_eq_true.mp (by decide)⟩
  | _ => cases noProcedure

end Value

theorem isRun_renderLiteral {home : Nat} {reading : Reading} {table : Table}
    (sound : table.Sound home reading) {value : Value} (plain : value.IsPlain) {text : String}
    (done : renderLiteral table value = .ok text) : IsRun text := by
  rw [renderLiteral] at done
  split at done
  · exact plain.isRun_format done
  · rename_i bound found
    split at done
    · exact plain.isRun_format done
    · rename_i noProcedure
      exact (sound.resolve_fits found).isRun_format (by simpa using noProcedure) done

namespace Node

mutual
/-- Trees that can be written out and read again: each node has a text. -/
def Solid : Form → Prop
  | .blank => False
  | .literal value _ => value.IsPlain
  | .operator name _ => IsRun name
  | .expression children _ => SolidRow children

def SolidRow : List Form → Prop
  | [] => True
  | node :: rest => node.Solid ∧ SolidRow rest
end

mutual
theorem WrittenAt.solid {first : Bool} (node : Form) (written : node.WrittenAt first) :
    node.Solid := by
  cases node with
  | blank => exact written
  | literal value depth => exact .inr written
  | operator name depth => exact written.2
  | expression children frame => exact WrittenRow.solid children written.2

theorem WrittenRow.solid {first : Bool} (nodes : List Form) (written : WrittenRow first nodes) :
    SolidRow nodes := by
  cases nodes with
  | nil => trivial
  | cons node rest => exact ⟨WrittenAt.solid node written.1, WrittenRow.solid rest written.2⟩
end

theorem IsRead.solid {node : Form} (isRead : node.IsRead) : node.Solid := by
  rcases isRead with ⟨number, depth, rfl⟩ | written
  · exact .inl (Value.isDatum_ofNumber number)
  · exact written.solid

theorem SolidRow.append {nodes others : List Form} (solid : SolidRow nodes)
    (more : SolidRow others) : SolidRow (nodes ++ others) := by
  induction nodes with
  | nil => exact more
  | cons node rest ih => exact ⟨solid.1, ih solid.2⟩

end Node

/-- A text that spells a phrase at the start of a form, or elsewhere. -/
def IsPhrase (first : Bool) (text : String) : Prop :=
  ∃ phrase : Phrase, phrase.SpelledAt first ∧ phrase.text = text

theorem Token.IsRun.isPhrase {text : String} (isRun : IsRun text) (first : Bool) :
    IsPhrase first text := by
  cases first with
  | true => exact ⟨.operator text, ⟨rfl, isRun⟩, rfl⟩
  | false => exact ⟨.argument text, ⟨rfl, isRun⟩, rfl⟩

/-- A text that can be read, unless it is one integer with too many digits. -/
structure ReadsBack (text : String) : Prop where
  nonempty : text ≠ ""
  read : (∃ root, Node.read text = .ok root ∧ root ≠ .blank) ∨
    ∃ word digits, content text = [⟨word, .argument⟩] ∧ Node.IsLong word ∧
      Node.read text = .error (.badValue (.longNumeral digits))

theorem IsPhrase.readsBack {text : String} (isPhrase : IsPhrase false text) : ReadsBack text := by
  obtain ⟨phrase, spelled, rfl⟩ := isPhrase
  have tokens := Phrase.content_text spelled
  have nonempty : phrase.text ≠ "" := by
    intro empty
    rw [empty] at tokens
    cases phrase <;> cases tokens
  refine ⟨nonempty, ?_⟩
  cases phrase with
  | operator name => cases spelled.1
  | form items => exact .inl ⟨_, Node.read_form tokens, fun blank => by cases blank⟩
  | argument word =>
      by_cases long : Node.IsLong word
      · obtain ⟨digits, failed⟩ := Node.bareLiteral_of_long long
        exact .inr ⟨word, digits, tokens, long, (Node.read_bare tokens).trans failed⟩
      · obtain ⟨value, literal⟩ := Node.bareLiteral_of_not_long long
        exact .inl ⟨_, (Node.read_bare tokens).trans literal, fun blank => by cases blank⟩

/-- What a step gives: a datum, or a text that spells a phrase. -/
def Value.Legible (value : Value) : Prop :=
  value.IsDatum ∨ ∃ text, value = .text text ∧ IsPhrase false text

theorem Value.IsPlain.legible {value : Value} (plain : value.IsPlain) : value.Legible := by
  rcases plain with isDatum | ⟨word, rfl, isRun⟩
  · exact .inl isDatum
  · exact .inr ⟨word, rfl, isRun.isPhrase false⟩

theorem Value.Legible.isPhrase {value : Value} (legible : value.Legible) {text : String}
    (done : value.format = .ok text) : IsPhrase false text := by
  rcases legible with isDatum | ⟨written, rfl, isPhrase⟩
  · exact (IsPlain.isRun_format (.inl isDatum) done).isPhrase false
  · cases done
    exact isPhrase

/-- Only an integer with too many digits has no text. -/
theorem Value.IsDatum.format_error {value : Value} (isDatum : value.IsDatum) {failure : Failure}
    (failed : value.format = .error failure) : failure = .badValue .longInteger := by
  have long : ∀ n, integerText n = .error failure → failure = .badValue .longInteger := by
    intro n failed
    rw [integerText] at failed
    split at failed <;> cases failed
    rfl
  rcases isDatum with rfl | isNumber
  · cases failed
  · cases value with
    | bool truth => cases failed
    | int n => exact long n failed
    | double x =>
        rw [format, formatDouble.eq_def] at failed
        split at failed
        · cases failed
        · cases failed
        · split at failed
          · exact long _ failed
          · cases failed
    | _ => cases isNumber

end Stepper
