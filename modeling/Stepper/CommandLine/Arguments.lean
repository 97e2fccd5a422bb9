import Stepper.Settings
import Stepper.Text.Quoted

/-!
Command-line arguments. An argument that starts with a dash is an option unless
it looks like a negative number or holds a space. Long options may be shortened
to an unambiguous beginning; short ones may carry their value in the same
argument. A value of two dashes leaves its option empty. The expressions stand
in one row.
-/

namespace Stepper.CommandLine

open Text

inductive Mode where
  | eval
  | explain
  | expand
  | trace
deriving DecidableEq

def Mode.all : List Mode := [.eval, .explain, .expand, .trace]

def Mode.name : Mode → String
  | .eval => "eval"
  | .explain => "explain"
  | .expand => "expand"
  | .trace => "trace"

inductive Flag where
  | help
  | mode
  | define
  | prelude
  | maxExpansions
  | logLevel
deriving DecidableEq

def Flag.all : List Flag := [.help, .mode, .define, .prelude, .maxExpansions, .logLevel]

/-- The spellings of a flag, the short one first. -/
def Flag.spellings : Flag → List String
  | .help => ["-h", "--help"]
  | .mode => ["-m", "--mode"]
  | .define => ["-d", "--define"]
  | .prelude => ["-p", "--prelude"]
  | .maxExpansions => ["--max-expansions"]
  | .logLevel => ["--log-level"]

/-- How messages name a flag. -/
def Flag.title (flag : Flag) : String :=
  "/".intercalate flag.spellings

/-- All spellings with their flags, in order. -/
def spellings : List (String × Flag) :=
  Flag.all.flatMap fun flag => flag.spellings.map fun spelling => (spelling, flag)

/-- An option as it was written: its flag, if there is one, and the value that
the same argument gives it. -/
structure Given where
  flag : Option Flag
  spelling : String
  value : Option String

inductive Piece where
  | positional
  | separator
  | option (given : Given)

/-- Why the arguments lead to no run. -/
inductive Stop where
  | help
  | usage (message : String)

/-- A text split at its first equals sign, if it has one. -/
def splitEquals? (text : List Char) : Option (String × String) :=
  if '=' ∈ text then
    some (String.ofList (text.takeWhile (· != '=')),
      String.ofList ((text.dropWhile (· != '=')).drop 1))
  else none

/-- The options of which a dashed argument can be a shortening. -/
def shortenings (text : String) : List Given :=
  match text.toList with
  | '-' :: '-' :: _ =>
    let (start, value) :=
      match splitEquals? text.toList with
      | some (start, value) => (start, some value)
      | none => (text, none)
    spellings.filterMap fun (spelling, flag) =>
      if spelling.startsWith start then some ⟨some flag, spelling, value⟩ else none
  | chars =>
    let short := String.ofList (chars.take 2)
    spellings.filterMap fun (spelling, flag) =>
      if spelling = short then
        some ⟨some flag, spelling, some (String.ofList (chars.drop 2))⟩
      else if spelling.startsWith text then some ⟨some flag, spelling, none⟩
      else none

/-- Whether a text is a minus sign and a plain numeral, a line end aside. -/
def isNegativeNumber (text : List Char) : Bool :=
  match text with
  | '-' :: rest =>
    let rest := if rest.getLast? = some '\n' then rest.dropLast else rest
    match spanDigits rest with
    | (whole, []) => !whole.isEmpty
    | (_, '.' :: fraction) =>
      match spanDigits fraction with
      | (digits, []) => !digits.isEmpty
      | _ => false
    | _ => false
  | _ => false

/-- An exact spelling, alone or before an equals sign. -/
def exactOption? (text : String) : Option Given :=
  match spellings.lookup text with
  | some flag => some ⟨some flag, text, none⟩
  | none =>
    match splitEquals? text.toList with
    | some (spelling, value) =>
      (spellings.lookup spelling).map fun flag => ⟨some flag, spelling, some value⟩
    | none => none

/-- What an argument before any separator is. -/
def Piece.ofText (text : String) : Except Stop Piece :=
  match text.toList with
  | '-' :: _ :: _ =>
    match exactOption? text with
    | some given => .ok (.option given)
    | none =>
      match shortenings text with
      | [given] => .ok (.option given)
      | [] =>
        if isNegativeNumber text.toList || text.toList.contains ' ' then .ok .positional
        else .ok (.option ⟨none, text, none⟩)
      | several =>
        .error (.usage ("ambiguous option: " ++ text ++ " could match " ++
          ", ".intercalate (several.map (·.spelling))))
  | _ => .ok .positional

/-- Every argument with what it is. After the separator all are positional. -/
def pieces : List String → Except Stop (List (String × Piece))
  | [] => .ok []
  | "--" :: rest => .ok (("--", .separator) :: rest.map fun text => (text, .positional))
  | text :: rest => do
    let piece ← Piece.ofText text
    let others ← pieces rest
    return (text, piece) :: others

inductive Setting (α : Type) where
  | unset
  | empty
  | value (a : α)

def Setting.value? {α : Type} : Setting α → Option α
  | .value a => some a
  | _ => none

/-- What a run is asked to do. Without a mode, the expressions are passed over. -/
structure Arguments where
  expressions : List String := []
  mode : Option Mode := some .eval
  definitions : List String := []
  prelude : Setting String := .unset
  maxExpansions : Setting Int := .unset
  logLevel : Option String := none

/-- Blanks that may surround an integer argument. -/
def isPadding (c : Char) : Bool :=
  isBlank c && !(decide (0x1C ≤ c.toNat) && decide (c.toNat ≤ 0x1F))

def integerArgument? (text : String) : Option Int :=
  integer? ((text.toList.dropWhile isPadding).reverse.dropWhile isPadding).reverse

def flagError (flag : Flag) (message : String) : Stop :=
  .usage ("argument " ++ flag.title ++ ": " ++ message)

def Arguments.takeEmpty (arguments : Arguments) : Flag → Arguments
  | .help => arguments
  | .mode => { arguments with mode := none }
  | .define => arguments
  | .prelude => { arguments with prelude := .empty }
  | .maxExpansions => { arguments with maxExpansions := .empty }
  | .logLevel => { arguments with logLevel := none }

def Arguments.takeValue (arguments : Arguments) (flag : Flag) (value : String) :
    Except Stop Arguments :=
  match flag with
  | .help => .error .help
  | .mode =>
    match Mode.all.find? (·.name == value) with
    | some mode => .ok { arguments with mode := some mode }
    | none =>
      .error (flagError flag ("invalid choice: " ++ quoted value ++ " (choose from " ++
        ", ".intercalate (Mode.all.map fun mode => quoted mode.name) ++ ")"))
  | .define => .ok { arguments with definitions := arguments.definitions ++ [value] }
  | .prelude => .ok { arguments with prelude := .value value }
  | .maxExpansions =>
    match integerArgument? value with
    | some cap => .ok { arguments with maxExpansions := .value cap }
    | none => .error (flagError flag ("invalid int value: " ++ quoted value))
  | .logLevel => .ok { arguments with logLevel := some value }

def Arguments.take (arguments : Arguments) (flag : Flag) (value : String) :
    Except Stop Arguments :=
  if value = "--" then .ok (arguments.takeEmpty flag) else arguments.takeValue flag value

/-- What is known after some of the arguments. `waiting` is a flag that still
needs its value, and whether help was asked for in the same argument; `row` is
the current row of positional arguments. -/
structure Progress where
  arguments : Arguments := {}
  found : Bool := false
  waiting : Option (Flag × Bool) := none
  row : List (String × Bool) := []
  extras : List String := []

/-- End the current row. The first row that holds more than the separator is
the expressions; its separator is dropped. -/
def Progress.endRow (progress : Progress) : Progress :=
  let texts := progress.row.map (·.1)
  if !progress.found && progress.row.any (·.2) then
    { progress with
      arguments := { progress.arguments with expressions := texts.erase "--" }
      found := true
      row := [] }
  else { progress with extras := progress.extras ++ texts, row := [] }

def missingValue (flag : Flag) : Stop :=
  flagError flag "expected one argument"

/-- A value for a flag that takes none. -/
def ignoredValue (flag : Flag) (value : String) : Stop :=
  flagError flag ("ignored explicit argument " ++ quoted value)

/-- Options joined to the letter of help, which has been asked for: only a
letter that is no option, or a value that is missing, keeps it from being
shown. -/
def joinedToHelp (progress : Progress) : List Char → Except Stop Progress
  | [] => .error .help
  | letter :: rest =>
    match spellings.lookup (String.ofList ['-', letter]) with
    | none => .error (ignoredValue .help (String.ofList (letter :: rest)))
    | some .help => joinedToHelp progress rest
    | some flag =>
      if rest.isEmpty then .ok { progress with waiting := some (flag, true) } else .error .help

def Progress.option (progress : Progress) (given : Given) : Except Stop Progress :=
  let progress := progress.endRow
  match given.flag, given.value with
  | none, _ => .ok { progress with extras := progress.extras ++ [given.spelling] }
  | some .help, none => .error .help
  | some .help, some value =>
    if given.spelling = "-h" ∧ value ≠ "" then joinedToHelp progress value.toList
    else .error (ignoredValue .help value)
  | some flag, none => .ok { progress with waiting := some (flag, false) }
  | some flag, some value => do
    let arguments ← progress.arguments.take flag value
    return { progress with arguments }

def Progress.step (progress : Progress) (text : String) (piece : Piece) :
    Except Stop Progress :=
  match progress.waiting, piece with
  | some (flag, asked), .positional =>
    if asked then .error .help
    else do
      let arguments ← progress.arguments.take flag text
      return { progress with arguments, waiting := none }
  | some (flag, _), _ => .error (missingValue flag)
  | none, .positional => .ok { progress with row := progress.row ++ [(text, true)] }
  | none, .separator => .ok { progress with row := progress.row ++ [(text, false)] }
  | none, .option given => progress.option given

def Progress.finish (progress : Progress) : Except Stop Arguments :=
  match progress.waiting with
  | some (flag, _) => .error (missingValue flag)
  | none =>
    let progress := progress.endRow
    if !progress.found then
      .error (.usage "the following arguments are required: expressions")
    else if !progress.extras.isEmpty then
      .error (.usage ("unrecognized arguments: " ++ " ".intercalate progress.extras))
    else .ok progress.arguments

def parse (texts : List String) : Except Stop Arguments := do
  let pieces ← pieces texts
  let start : Progress := {}
  let progress ← pieces.foldlM
    (fun progress piece => Progress.step progress piece.1 piece.2) start
  progress.finish

end Stepper.CommandLine
