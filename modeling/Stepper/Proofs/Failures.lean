import Stepper.Expansion
import Stepper.Proofs.Printing

/-!
Which failures the parts of an interpreter can show. Reading and writing
integers, floating-point arithmetic and the shape of forms have failures of
their own; operands of a wrong sort are not among them.
-/

namespace Stepper

/-- The failures that an interpreter promises to show, and no others: those of
its own, integers with too many digits to be read or written, and integers too
large for floating point. -/
inductive Failure.Documented : Failure → Prop where
  | malformed (cause : Malformed) : Documented (.malformed cause)
  | notFound (cause : NotFound) : Documented (.notFound cause)
  | noClause (procedure : String) : Documented (.noClause procedure)
  | arity (operator : String) (expected given : Nat) : Documented (.arity operator expected given)
  | tooDeep (limit : Nat) : Documented (.tooDeep limit)
  | longNumeral {digits : Nat} (many : maxDigits < digits) :
      Documented (.badValue (.longNumeral digits))
  | longInteger : Documented (.badValue .longInteger)
  | tooLarge : Documented (.outOfRange .double)

/-- The causes for which a text cannot be read; all others are those of
definitions. -/
def Malformed.ofReading : Malformed → Bool
  | .outsideParentheses .. => true
  | .unmatchedClose _ => true
  | .unmatchedOpen _ => true
  | .nothingRead _ => true
  | .trailingContent _ => true
  | .emptySource => true
  | _ => false

def Failure.ofReading : Failure → Bool
  | .malformed cause => cause.ofReading
  | _ => false

/-- The documented failures of all that is done once a text is read. -/
structure Failure.PastReading (failure : Failure) : Prop where
  documented : failure.Documented
  past : failure.ofReading = false

/-- Whether a computation gives a value or fails as allowed. -/
def Within {α : Type} (allowed : Failure → Prop) (action : Except Failure α) : Prop :=
  ∀ failure, action = .error failure → allowed failure

namespace Within

variable {α β : Type} {allowed : Failure → Prop}

theorem ok (a : α) : Within allowed (.ok a) := by
  intro failure failed
  cases failed

theorem error {failure : Failure} (isAllowed : allowed failure) :
    Within allowed (.error failure : Except Failure α) := by
  intro other failed
  cases failed
  exact isAllowed

theorem bind {action : Except Failure α} {next : α → Except Failure β}
    (first : Within allowed action) (second : ∀ a, action = .ok a → Within allowed (next a)) :
    Within allowed (action >>= next) := by
  cases action with
  | ok a => exact second a rfl
  | error failure => exact error (first failure rfl)

theorem mapM {f : α → Except Failure β} {items : List α} (each : ∀ item, Within allowed (f item)) :
    Within allowed (items.mapM f) := by
  induction items with
  | nil => exact ok []
  | cons item rest ih =>
      rw [List.mapM_cons]
      exact bind (each item) fun _ _ => bind ih fun _ _ => ok _

theorem foldlM {f : β → α → Except Failure β} {items : List α}
    (each : ∀ b item, Within allowed (f b item)) {start : β} :
    Within allowed (items.foldlM f start) := by
  induction items generalizing start with
  | nil => exact ok start
  | cons item rest ih =>
      rw [List.foldlM_cons]
      exact bind (each start item) fun _ _ => ih

end Within

open Within (ok error)

/-- Whether a computation on what was read gives a value or fails as documented. -/
abbrev Documented {α : Type} (action : Except Failure α) : Prop :=
  Within Failure.PastReading action

theorem integerText_documented (n : Int) : Documented (integerText n) := by
  rw [integerText]
  split
  · exact ok _
  · exact error ⟨.longInteger, rfl⟩

namespace Number

theorem toDouble_documented (number : Number) : Documented number.toDouble := by
  cases number with
  | double x => exact ok x
  | int n =>
      rw [toDouble]
      split
      · exact error ⟨.tooLarge, rfl⟩
      · exact ok _

theorem combine_documented (onInts : Int → Int → Int) (onDoubles : Double → Double → Double)
    (left right : Number) : Documented (combine onInts onDoubles left right) := by
  rw [combine.eq_def]
  split
  · exact ok _
  · exact .bind (toDouble_documented _) fun _ _ => .bind (toDouble_documented _) fun _ _ => ok _

theorem sum_documented (numbers : List Number) : Documented (sum numbers) :=
  .foldlM fun left right => combine_documented _ _ left right

theorem product_documented (numbers : List Number) : Documented (product numbers) :=
  .foldlM fun left right => combine_documented _ _ left right

theorem difference_documented (numbers : List Number) : Documented (difference numbers) := by
  cases numbers with
  | nil => exact ok _
  | cons first rest =>
      exact .bind (sum_documented rest) fun taken _ => combine_documented _ _ first taken

theorem numeral_documented (numeral : Numeral) : Documented numeral.value := by
  cases numeral with
  | integer negative digits =>
      rw [Numeral.value]
      split
      · rename_i many
        exact error ⟨.longNumeral many, rfl⟩
      · exact ok _
  | decimal negative whole fraction exponent => exact ok _
  | infinity negative => exact ok _

theorem ofText_documented (text : String) : Documented (ofText text) := by
  rw [ofText]
  split
  · exact ok _
  · exact numeral_documented _

theorem parse_documented (text : String) : Documented (parse text) := by
  rw [parse]
  split
  · exact ok _
  · rename_i numeral _
    exact .bind (numeral_documented numeral) fun number _ => ok (some number)

end Number

namespace Value

theorem toNumber_documented (value : Value) : Documented value.toNumber := by
  rw [toNumber.eq_def]
  split
  · exact Number.ofText_documented _
  · exact ok _

mutual
theorem inspect_documented (value : Value) : Documented value.inspect := by
  cases value with
  | int n => exact integerText_documented n
  | list items =>
      rw [inspect]
      exact .bind (inspectAll_documented items) fun _ _ => ok _
  | _ =>
      rw [inspect]
      exact ok _

theorem inspectAll_documented (items : List Value) : Documented (inspectAll items) := by
  cases items with
  | nil =>
      rw [inspectAll]
      exact ok _
  | cons value rest =>
      rw [inspectAll]
      exact .bind (inspect_documented value) fun _ _ =>
        .bind (inspectAll_documented rest) fun _ _ => ok _
end

theorem display_documented (value : Value) : Documented value.display := by
  cases value with
  | text spelling => exact ok spelling
  | _ => exact inspect_documented _

theorem format_documented (value : Value) : Documented value.format := by
  cases value with
  | nil => exact ok _
  | bool truth => exact ok _
  | text spelling => exact ok spelling
  | double x =>
      rw [format, formatDouble.eq_def]
      split
      · exact ok _
      · exact ok _
      · split
        · exact integerText_documented _
        · exact ok _
  | _ => exact inspect_documented _

end Value

theorem Builtin.apply_documented (operation : Builtin) (arguments : List Value) :
    Documented (operation.apply arguments) := by
  have numbers : Documented (arguments.mapM Value.toNumber) := .mapM Value.toNumber_documented
  cases operation with
  | add => exact .bind numbers fun _ _ => .bind (Number.sum_documented _) fun _ _ => ok _
  | subtract =>
      exact .bind numbers fun _ _ => .bind (Number.difference_documented _) fun _ _ => ok _
  | multiply => exact .bind numbers fun _ _ => .bind (Number.product_documented _) fun _ _ => ok _
  | equals =>
      rw [apply.eq_def]
      simp only
      split
      · exact .bind (Value.toNumber_documented _) fun _ _ =>
          .bind (Value.toNumber_documented _) fun _ _ => ok _
      · exact error ⟨.arity .., rfl⟩
  | otherwise => exact ok _
  | define => exact ok _

namespace Node

mutual
theorem render_documented (node : Form) : Documented node.render := by
  cases node with
  | blank => exact ok _
  | literal value depth => exact value.format_documented
  | operator name depth => exact ok _
  | expression children frame =>
      rw [render]
      exact .bind (renderAll_documented children) fun _ _ => ok _

theorem renderAll_documented (nodes : List Form) : Documented (renderAll nodes) := by
  cases nodes with
  | nil => exact ok _
  | cons node rest =>
      rw [renderAll]
      exact .bind (render_documented node) fun _ _ =>
        .bind (renderAll_documented rest) fun _ _ => ok _
end

theorem bareLiteral_documented (text : String) : Documented (bareLiteral text) := by
  refine .bind (Number.parse_documented text) fun parsed _ => ?_
  cases parsed with
  | none => exact ok _
  | some number => exact ok _

theorem read_documented (source : String) : Within Failure.Documented (read source) := by
  by_cases empty : source = ""
  · subst empty
    exact ok _
  by_cases bare : ∃ text, Token.content source = [⟨text, .argument⟩]
  · obtain ⟨text, bare⟩ := bare
    rw [read_bare bare]
    exact fun failure failed => (bareLiteral_documented text failure failed).documented
  by_cases single : ∃ items, Token.content source = (Phrase.form items).tokens
  · obtain ⟨items, spelled⟩ := single
    rw [read_form spelled]
    exact ok _
  · obtain ⟨cause, failed⟩ := read_malformed empty (not_exists.mp single) (not_exists.mp bare)
    rw [failed]
    exact error (.malformed cause)

theorem readForm_documented (source : String) :
    Within Failure.Documented (readForm source) := by
  rw [readForm]
  split
  · exact error (.malformed _)
  · exact read_documented source

theorem readAll_documented {source : String} {failure : Failure}
    (failed : (readAll source).2 = some failure) : failure.Documented := by
  by_cases bare : ∃ text, Token.content source = [⟨text, .argument⟩]
  · obtain ⟨text, bare⟩ := bare
    simp only [readAll, bareArgument?_eq_some_iff.mpr bare] at failed
    cases literal : bareLiteral text with
    | ok node => simp [literal] at failed
    | error cause =>
        simp only [literal, Option.some.injEq] at failed
        exact failed ▸ (bareLiteral_documented text cause literal).documented
  · rw [readAll_parse (not_exists.mp bare)] at failed
    have stops := Phrase.parseForms_stops (Phrase.content_genuine source) (Nat.le_refl _)
    rw [← Phrase.parse] at stops
    rcases stops with ended | offends
    · simp [ended, fault] at failed
    · obtain ⟨cause, malformed⟩ := fault_of_offends source offends
      rw [malformed] at failed
      cases failed
      exact .malformed cause

end Node

theorem headerFormals_documented (nodes : List Form) : Documented (headerFormals nodes) := by
  induction nodes with
  | nil => exact ok _
  | cons node rest ih =>
      cases node with
      | literal formal depth => exact .bind ih fun _ _ => ok _
      | _ => exact .bind (Node.render_documented _) fun _ _ => error ⟨.malformed _, rfl⟩

theorem condClauses_documented (nodes : List Form) : Documented (condClauses nodes) := by
  induction nodes with
  | nil => exact ok _
  | cons node rest ih =>
      rw [condClauses.eq_def]
      split
      · exact ok _
      · rename_i same
        cases same
        exact .bind ih fun _ _ => ok _
      · exact .bind (Node.render_documented _) fun _ _ => error ⟨.malformed _, rfl⟩

theorem renderLiteral_documented (table : Table) (value : Value) :
    Documented (renderLiteral table value) := by
  rw [renderLiteral]
  split
  · exact value.format_documented
  · split
    · exact value.format_documented
    · exact Value.format_documented _

theorem Event.report_documented (event : Event) : Documented event.report := by
  have words : Documented event.message := by
    cases event with
    | definedConstant name => exact .bind name.display_documented fun _ _ => ok _
    | definedProcedure name formals => exact .bind (Value.inspect_documented _) fun _ _ => ok _
    | expanding shown cap => exact ok _
    | expanded value => exact .bind value.display_documented fun _ _ => ok _
    | keptLiteral outline => exact ok _
    | stopped cap => exact ok _
    | producedNan node => exact .bind node.render_documented fun _ _ => ok _
  exact .bind words fun _ _ => ok _

end Stepper
