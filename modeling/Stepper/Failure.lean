import Stepper.Text.Quoted

/-!
Why an operation fails, and the words in which it says so.
-/

namespace Stepper

/-- A text that is not one well-formed form, or a form that is not a
well-formed definition. Forms are given as rendered text. -/
inductive Malformed where
  | outsideParentheses (lexeme source : String)
  | unmatchedClose (source : String)
  | unmatchedOpen (source : String)
  | nothingRead (source : String)
  | trailingContent (source : String)
  | emptySource
  | defineOperands (form : String)
  | headerName (target : String)
  | formalNotSymbol (formal : String)
  | undefinable (target : String)
  | bodyNotExpression (name body : String)
  | condClause (clause : String)
deriving DecidableEq

/-- A function position that names no procedure. -/
inductive NotFound where
  | unknown (head : String)
  | notProcedure (head value : String)
  | emptyForm
deriving DecidableEq

/-- A value that a conversion refuses. -/
inductive BadValue where
  | longNumeral (digits : Nat)
  | longInteger
  | logLevel (name : String)
  | pathWithNul
deriving DecidableEq

/-- An integer beyond the range of what it is converted to. -/
inductive OutOfRange where
  | double
  | limit
deriving DecidableEq

/-- An operand of the wrong sort. -/
inductive BadOperand where
  | notNode (shown : String)
  | notExpandable (shown : String)
  | listKey
  | emptyCap
deriving DecidableEq

inductive Failure where
  | malformed (cause : Malformed)
  | notFound (cause : NotFound)
  | noClause (procedure : String)
  | arity (operator : String) (expected given : Nat)
  | tooDeep (limit : Nat)
  | badValue (cause : BadValue)
  | outOfRange (cause : OutOfRange)
  | badOperand (cause : BadOperand)
  | noOperatorName (owner : String)
  | emptyPrelude
  | beforeText
  /-- The stack ran out where this is not told as `tooDeep`. -/
  | stackOverflow
deriving DecidableEq

open Text (quoted)

/-- The most digits that an integer's text may have. -/
def maxDigits : Nat := 4300

def Malformed.message : Malformed → String
  | .outsideParentheses lexeme source =>
    "Unexpected " ++ quoted lexeme ++ " outside parentheses in " ++ quoted source
  | .unmatchedClose source => "Unmatched ')' in " ++ quoted source
  | .unmatchedOpen source => "Unmatched '(' in " ++ quoted source
  | .nothingRead source => "No expression could be built from " ++ quoted source
  | .trailingContent source =>
    "Unexpected content after the first expression in " ++ quoted source
  | .emptySource => "Cannot evaluate an empty expression"
  | .defineOperands form => "define requires exactly 2 operands: " ++ form
  | .headerName target => "define header must start with a name: " ++ target
  | .formalNotSymbol formal => "formal parameter must be a symbol: " ++ formal
  | .undefinable target => "cannot define " ++ target
  | .bodyNotExpression name body => "body of " ++ name ++ " must be an expression: " ++ body
  | .condClause clause => "cond clause must be (test result), got " ++ clause

def NotFound.message : NotFound → String
  | .unknown head => "Function not found: " ++ head
  | .notProcedure head value => head ++ " is bound to " ++ value ++ ", not a procedure"
  | .emptyForm => "Cannot apply an empty expression ()"

def BadValue.message : BadValue → String
  | .longNumeral digits =>
    "Exceeds the limit (" ++ toString maxDigits ++
      " digits) for integer string conversion: value has " ++ toString digits ++
      " digits; use sys.set_int_max_str_digits() to increase the limit"
  | .longInteger =>
    "Exceeds the limit (" ++ toString maxDigits ++
      " digits) for integer string conversion; " ++
      "use sys.set_int_max_str_digits() to increase the limit"
  | .logLevel name => "Unknown level: " ++ quoted name
  | .pathWithNul => "embedded null byte"

def OutOfRange.message : OutOfRange → String
  | .double => "int too large to convert to float"
  | .limit => "Python int too large to convert to C int"

def BadOperand.message : BadOperand → String
  | .notNode shown => "Not an expression node: " ++ shown
  | .notExpandable shown => "Cannot expand " ++ shown
  | .listKey => "unhashable type: 'list'"
  | .emptyCap => "'>=' not supported between instances of 'int' and 'list'"

def Failure.message : Failure → String
  | .malformed cause => cause.message
  | .notFound cause => cause.message
  | .noClause procedure => "No cond clause matched in " ++ procedure
  | .arity operator expected given =>
    operator ++ " requires exactly " ++ toString expected ++ " arguments, got " ++ toString given
  | .tooDeep limit =>
    "Evaluation nested deeper than the recursion limit (" ++ toString limit ++ ")"
  | .badValue cause => cause.message
  | .outOfRange cause => cause.message
  | .badOperand cause => cause.message
  | .noOperatorName owner => "'" ++ owner ++ "' object has no attribute 'operator_name'"
  | .emptyPrelude => "'list' object has no attribute 'read_text'"
  | .beforeText => "string index out of range"
  | .stackOverflow => "maximum recursion depth exceeded"

end Stepper
